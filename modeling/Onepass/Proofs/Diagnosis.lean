import Onepass.Execution.Run
import Onepass.Proofs.Extent.Refusal
import Onepass.Proofs.Lexing.Placement
import Onepass.Proofs.Lockstep.Statement

/-! # Diagnostics point into the source text

Whatever goes wrong in an execution, the diagnostic stands at a token of the script. An execution is
compared with itself for that: the positions of both are asked to be the same and to be those of
tokens, so an error that took its position from anywhere else would tell the two apart. Tokens stand at
offsets of the source text, and so every report shows the line that its diagnostic is about, with a
column within that line or just behind it.
-/

set_option autoImplicit false

namespace Onepass

/-! ## Executions blame tokens -/

/-- An execution and itself, where positions count as the same only if a token stands there. -/
def Coupling.blaming (script : Script) : Coupling where
  positions first second := first = second ∧ script.Marks first
  machines := Eq
  lenient := False

theorem Script.Blames.diagnosed {α : Type} {script : Script} {result : Except Diagnostic α}
    (blames : script.Blames result) : Diagnosed (Coupling.blaming script).positions result result := by
  cases result with
  | ok value => exact .found value
  | error diagnostic => exact .refused diagnostic.cause ⟨rfl, blames diagnostic rfl⟩

theorem Coupling.blaming_laws (script : Script) : (Coupling.blaming script).Laws script script := by
  refine .of_eq ⟨?_, ?_, ?_, ?_, ?_, ?_⟩
  · exact fun place => ⟨rfl, rfl, rfl, place, rfl⟩
  · exact fun place => (Script.Blames.typeAt place).diagnosed
  · exact fun place => (Script.Blames.parenthesesEnd place).diagnosed
  · exact fun place => (Script.Blames.bracesEnd place).diagnosed
  · exact fun running place => (Script.Blames.bodyEnd running place).diagnosed
  · exact fun _ _ _ => rfl

/-- A diagnostic that ends an execution stands at a token of the script. -/
theorem Run.marks_of_failure {script : Script} {verbosity fuel : Nat} {diagnostic : Diagnostic}
    (failed : (Run.ofScript script verbosity fuel).failure = some (.diagnostic diagnostic)) :
    script.Marks diagnostic.position := by
  have laws := Coupling.blaming_laws script
  have evaluators := laws.evaluators (congrArg (Exec.observed script verbosity)) (.refl _ fuel)
  have outcomes := laws.program evaluators (.refl _ fuel) (Eq.refl Machine.initial)
  unfold Run.ofScript at failed
  cases ran : Exec.program script (Exec.evaluator script verbosity fuel) fuel .initial with
  | ok result final =>
      rw [ran] at failed
      cases failed
  | error failure final =>
      rw [ran] at failed outcomes
      cases failed
      cases outcomes with
      | failed alike _ =>
          cases alike with
          | diagnostic cause near => exact near.2

/-! ## Tokens stand in the source text -/

theorem Script.exists_token_of_marks {script : Script} {position : Position}
    (marks : script.Marks position) : ∃ token ∈ script.allTokens, token.position = position := by
  obtain ⟨place, rfl⟩ := marks
  refine ⟨script.tokenAt place, ?_, rfl⟩
  unfold allTokens tokenAt
  cases found : script.tokens[place]? with
  | none => exact List.mem_append_right _ List.mem_cons_self
  | some token =>
      exact List.mem_append_left _ (Array.mem_toList_iff.mpr (Array.mem_of_getElem? found))

theorem Lexeme.Gives.inText {source : List Char} {offset : Nat} {lexeme : Lexeme} {tokens : List Token}
    (gives : lexeme.Gives source offset tokens) {token : Token} (member : token ∈ tokens) :
    ∃ place, token.position = .inText source place := by
  cases gives with
  | silent => cases member
  | single _ _ _ placed =>
      obtain rfl := List.mem_singleton.mp member
      exact ⟨offset, placed⟩
  | literal layout nonempty placed references =>
      by_cases refers : token.kind = .reference
      · have found : token ∈ tokens.filter (fun token => token.kind = .reference) :=
          List.mem_filter.mpr ⟨member, decide_eq_true refers⟩
        rw [references] at found
        obtain ⟨reference, -, rfl⟩ := List.mem_map.mp found
        exact ⟨reference.1, rfl⟩
      · exact ⟨offset, placed token member refers⟩

theorem Reading.inText {source : List Char} {offset : Nat} {lexemes : List Lexeme} {tokens : List Token}
    (reading : Reading source offset lexemes tokens) {token : Token} (member : token ∈ tokens) :
    ∃ place, token.position = .inText source place := by
  induction reading with
  | finished => cases member
  | lexeme _ _ _ gives _ ih =>
      rcases List.mem_append.mp member with given | later
      · exact gives.inText given
      · exact ih later

theorem Script.inText_of_mem {source : List Char} {token : Token}
    (member : token ∈ (ofSource source).allTokens) :
    ∃ place, token.position = .inText source place := by
  rcases List.mem_append.mp member with proper | last
  · exact (reading_proper source).inText proper
  · obtain rfl := List.mem_singleton.mp last
    exact ⟨source.length, Position.start_after source⟩

/-! ## Reports -/

/-- A diagnostic of a run stands at a token of the source text or, if the source text was refused
before it was run, at the first stray character. -/
theorem Run.blames {strict : Bool} {source : String} {verbosity fuel : Nat} {diagnostic : Diagnostic}
    (failed : (ofSource strict source verbosity fuel).failure = some (.diagnostic diagnostic)) :
    (∃ token ∈ (Script.ofSource source.toList).allTokens, token.position = diagnostic.position) ∨
      ∃ before char behind, Lexeme.cut source.toList = before ++ ⟨.stray, [char]⟩ :: behind ∧
        (∀ lexeme ∈ before, lexeme.sort ≠ .stray) ∧
        diagnostic = ⟨.strayCharacter char,
          .inText source.toList (before.flatMap Lexeme.text).length⟩ := by
  have executed (read : Script.read strict source = .ok (.ofSource source.toList)) :
      ∃ token ∈ (Script.ofSource source.toList).allTokens, token.position = diagnostic.position := by
    rw [ofSource, read] at failed
    exact Script.exists_token_of_marks (marks_of_failure failed)
  rcases firstStray_cases source.toList with
    ⟨none, absent⟩ | ⟨before, char, behind, split, none, found⟩
  · exact .inl (executed (Script.read_of_clean absent strict))
  · cases strict with
    | false => exact .inl (executed rfl)
    | true =>
        rw [ofSource, Script.read_of_stray found] at failed
        cases failed
        exact .inr ⟨before, char, behind, split, none, rfl⟩

/-- Every diagnostic points into the program. It stands at a token of the source text or, if there is a
stray character that strict reading refuses, at the first of these. Its report has that position, whose
column lies within its line or just behind it; shows exactly this line of the source text without the
carriage returns at its end; and names the file, if one was given. -/
theorem Run.diagnostic_points_into_source {strict : Bool} {source : String} {verbosity fuel : Nat}
    {diagnostic : Diagnostic} (file : Option String)
    (failed : (ofSource strict source verbosity fuel).failure = some (.diagnostic diagnostic)) :
    ((∃ script, Script.read false source = .ok script ∧
        ∃ token ∈ script.allTokens, token.position = diagnostic.position) ∨
      ∃ before char behind, Lexeme.cut source.toList = before ++ ⟨.stray, [char]⟩ :: behind ∧
        (∀ lexeme ∈ before, lexeme.sort ≠ .stray) ∧
        diagnostic = ⟨.strayCharacter char,
          .inText source.toList (before.flatMap Lexeme.text).length⟩) ∧
    ∃ report line shown returns,
      (ofSource strict source verbosity fuel).report? source file = some report ∧
      report.message = diagnostic.cause.message ∧ report.position = diagnostic.position ∧
      1 ≤ diagnostic.position.line ∧ Text.IsLine source.toList diagnostic.position.line line ∧
      1 ≤ diagnostic.position.column ∧ diagnostic.position.column ≤ line.length + 1 ∧
      line = shown ++ List.replicate returns '\r' ∧ shown.getLast? ≠ some '\r' ∧
      report.sourceLine = some (String.ofList shown) ∧
      report.file = some (file.getD "<input>") := by
  have blamed := blames failed
  have standing : ∃ place, diagnostic.position = .inText source.toList place := by
    rcases blamed with ⟨token, member, same⟩ | ⟨before, char, behind, -, -, rfl⟩
    · rw [← same]
      exact Script.inText_of_mem member
    · exact ⟨_, rfl⟩
  refine ⟨blamed.imp_left fun found => ⟨_, rfl, found⟩, ?_⟩
  obtain ⟨place, standing⟩ := standing
  obtain ⟨line, isLine, within⟩ := Text.isLine_inText source.toList place
  obtain ⟨returns, split, last⟩ := Text.withoutReturns_split line
  rw [← standing] at isLine within
  refine ⟨diagnostic.reportIn source (some (file.getD unnamedScript)), line,
    Text.withoutReturns line, returns, ?_, rfl, rfl, ?_, isLine, ?_, within, split, last, ?_, rfl⟩
  · rw [report?, failed]
  · rw [standing]
    exact Nat.succ_pos _
  · rw [standing]
    exact Nat.succ_pos _
  · exact congrArg some isLine.shown

/-- A division by zero on the second line stands at its operator. -/
theorem Run.division_by_zero_points_into_source :
    (ofSource false "x: number = 0\r\nprintln(1 / x)\r\n" 0 20).failure =
        some (.diagnostic ⟨.divisionByZero, ⟨2, 11⟩⟩) ∧
      ∃ report, (ofSource false "x: number = 0\r\nprintln(1 / x)\r\n" 0 20).report?
          "x: number = 0\r\nprintln(1 / x)\r\n" none = some report ∧
        report.position = ⟨2, 11⟩ ∧ report.file = some "<input>" := by
  have failed : (ofSource false "x: number = 0\r\nprintln(1 / x)\r\n" 0 20).failure =
      some (.diagnostic ⟨.divisionByZero, ⟨2, 11⟩⟩) := by
    decide +kernel
  obtain ⟨-, report, -, -, -, reported, -, placed, -, -, -, -, -, -, -, named⟩ :=
    diagnostic_points_into_source none failed
  exact ⟨failed, report, reported, placed, named⟩

end Onepass
