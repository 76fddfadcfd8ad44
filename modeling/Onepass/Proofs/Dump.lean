import Onepass.CommandLine.Invocation
import Onepass.Proofs.Colour

/-! # The token dump beside the run

Asking for the tokens reads the source text once more, before the run. If that reading succeeds, the
run is the same as without it: its output follows the dump, and everything else is as it was. If strict
reading refuses the text, both invocations fail for the same cause at the same position, but the one
that was asked for the tokens names neither the file nor the line. Its report always differs from the
other one, with colour codes and without.
-/

set_option autoImplicit false

namespace Onepass

/-! ## Texts around a character that stands in no colour code -/

namespace Text

/-- The character can stand in no colour code. -/
def IsBarrier (char : Char) : Prop :=
  char ≠ escape ∧ char ≠ '[' ∧ isColourParameter char = false ∧ char ≠ 'm'

instance : DecidablePred IsBarrier := fun _ => inferInstanceAs (Decidable (_ ∧ _))

end Text

namespace CommandLine

/-! ## The option -/

namespace Options

/-- The same options with the tokens asked for. -/
def dumping (options : Options) : Options :=
  { options with tokens := true }

theorem addShort?_dumping (options : Options) (char : Char) :
    options.dumping.addShort? char = (options.addShort? char).map dumping := by
  unfold addShort?
  split <;> rfl

theorem addLong?_dumping (options : Options) (argument : String) :
    options.dumping.addLong? argument = (options.addLong? argument).map dumping := by
  unfold addLong?
  split <;> rfl

theorem addJoined_dumping (options : Options) (unknown chars : List Char) :
    options.dumping.addJoined unknown chars = (options.addJoined unknown chars).dumping := by
  induction chars generalizing options unknown with
  | nil =>
      unfold addJoined
      split <;> rfl
  | cons char rest ih =>
      unfold addJoined
      rw [addShort?_dumping]
      cases options.addShort? char with
      | none => exact ih options _
      | some extended => exact ih extended unknown

theorem addArgument_dumping (options : Options) (argument : String) :
    options.dumping.addArgument argument = (options.addArgument argument).dumping := by
  unfold addArgument
  split
  · rw [addLong?_dumping]
    cases options.addLong? argument <;> rfl
  · exact addJoined_dumping options _ _
  · rfl

theorem addArguments_dumping (options : Options) (arguments : List String) :
    options.dumping.addArguments arguments = (options.addArguments arguments).dumping := by
  fun_induction addArguments options arguments with
  | case1 options => rfl
  | case2 options rest => rfl
  | case3 options argument rest another ih =>
      rw [addArguments.eq_3 _ _ _ another, addArgument_dumping, ih]

theorem addArguments_append (options : Options) {before : List String} (among : "--" ∉ before)
    (after : List String) :
    options.addArguments (before ++ after) = (options.addArguments before).addArguments after := by
  induction before generalizing options with
  | nil => rfl
  | cons argument rest ih =>
      rw [List.mem_cons, not_or] at among
      have another : argument = "--" → False := fun same => among.1 same.symm
      rw [List.cons_append, addArguments.eq_3 _ _ _ another, addArguments.eq_3 _ _ _ another,
        ih _ among.2]

/-- The option may stand anywhere before a lone `--`, and asks for the tokens and nothing else. -/
theorem read_tokens_added {before : List String} (among : "--" ∉ before) (after : List String)
    (setting : Option String) :
    read (before ++ "--tokens" :: after) setting = (read (before ++ after) setting).dumping := by
  have asked (options : Options) : options.addArguments ("--tokens" :: after) =
      (options.addArguments after).dumping := by
    rw [← addArguments_dumping]
    rfl
  unfold read
  rw [addArguments_append _ among, addArguments_append _ among, asked]
  rfl

end Options

/-! ## Two reports of one diagnostic -/

/-- What is written of the characters of a text. -/
def Options.kept (options : Options) (text : List Char) : List Char :=
  if options.plain then Text.withoutColourChars text else text

theorem Options.toList_shown (options : Options) (text : String) :
    (options.shown text).toList = options.kept text.toList := by
  unfold shown kept
  split
  · exact String.toList_ofList
  · rfl

theorem Options.kept_append (options : Options) {char : Char} (barrier : Text.IsBarrier char)
    (text rest : List Char) :
    options.kept (text ++ char :: rest) = options.kept text ++ char :: options.kept rest := by
  unfold kept
  split
  · rw [Text.withoutColourChars_append barrier.2, Text.withoutColourChars_plain barrier.1]
  · rfl

/-- Parts between slashes end as the last of them does. -/
theorem Path.ends_of_last (part : String) (parts : List String) :
    ∃ front, "/".intercalate (part :: parts) = front ++ parts.getLastD part := by
  induction parts generalizing part with
  | nil => exact ⟨"", by simp⟩
  | cons next rest ih =>
      obtain ⟨front, ends⟩ := ih next
      refine ⟨part ++ "/" ++ front, ?_⟩
      rw [String.intercalate_cons_cons, ends, List.getLastD_cons, ← String.append_assoc]

theorem Path.ends_of_suffix {path : Path} (named : path.suffix = extension) :
    ∃ front, path.text.toList = front ++ ['y'] := by
  have last : ∃ front, (path.parts.getLastD "").toList = front ++ ['y'] := by
    unfold suffix at named
    generalize (path.parts.getLastD "").toList = chars at named
    dsimp only at named
    split at named
    · split at named
      · simp [extension] at named
      · have suffix := congrArg String.toList named
        have taken : chars.reverse.takeWhile (· != '.') = ['y', 'z', 'e'] := by
          rw [String.toList_ofList] at suffix
          exact List.reverse_inj.mp (List.cons.inj suffix).2
        have whole := List.takeWhile_append_dropWhile (p := (· != '.')) (l := chars.reverse)
        rw [taken] at whole
        refine ⟨(['z', 'e'] ++ chars.reverse.dropWhile (· != '.')).reverse, ?_⟩
        rw [← List.reverse_cons, ← List.reverse_eq_iff]
        exact whole.symm
    · simp [extension] at named
  obtain ⟨root, parts⟩ := path
  obtain ⟨front, ends⟩ := last
  cases parts with
  | nil => simp at ends
  | cons part rest =>
      obtain ⟨before, joined⟩ := ends_of_last part rest
      rw [List.getLastD_cons] at ends
      refine ⟨root.toList ++ before.toList ++ front, ?_⟩
      have whole : (Path.mk root (part :: rest)).text = root ++ (before ++ rest.getLastD part) := by
        simp [text, joined]
      rw [whole, String.toList_append, String.toList_append, ends]
      simp only [List.append_assoc]

/-- The report that names no file and shows no line is never the one that does. -/
theorem report_differs (options : Options) {path : Path} (named : path.suffix = extension)
    (diagnostic : Diagnostic) (source : String) :
    options.line (diagnostic.report none none).text ≠
      options.line (diagnostic.reportIn source (some path.text)).text := by
  obtain ⟨front, ends⟩ := path.ends_of_suffix named
  let place := ":" ++ toString diagnostic.position.line ++ ":" ++
    toString diagnostic.position.column ++ ": error: " ++ diagnostic.cause.message
  let caret := String.ofList (List.replicate (diagnostic.position.column - 1) ' ') ++ "^"
  let shown := Text.shownLine source diagnostic.position.line
  have nameless : (diagnostic.report none none).text.toList =
      "<input".toList ++ '>' :: (place.toList ++ '\n' :: ([] ++ '\n' :: caret.toList)) := by
    simp [Report.text, Diagnostic.report, unnamedScript, place, caret]
  have named : (diagnostic.reportIn source (some path.text)).text.toList =
      front ++ 'y' :: (place.toList ++ '\n' :: (shown.toList ++ '\n' :: caret.toList)) := by
    simp [Report.text, Diagnostic.reportIn, Diagnostic.report, ends, place, caret, shown]
  have kept (text : List Char) (clean : Text.withoutColourChars text = text) :
      options.kept text = text := by
    unfold Options.kept
    split
    · exact clean
    · rfl
  have first : Text.IsBarrier '>' := by decide
  have second : Text.IsBarrier 'y' := by decide
  have feed : Text.IsBarrier '\n' := by decide
  intro same
  have same := congrArg String.toList ((String.append_left_inj "\n").mp same)
  rw [Options.toList_shown, Options.toList_shown, nameless, named, options.kept_append first,
    options.kept_append second, options.kept_append feed, options.kept_append feed,
    options.kept_append feed, options.kept_append feed, kept "<input".toList (by decide +kernel),
    kept [] (by decide +kernel)] at same
  -- What follows the name is not longer where the line is left out, so the last letter of the name of
  -- the file stands in the other name.
  have length := congrArg List.length same
  simp only [List.length_append, List.length_cons, List.length_nil] at length
  have short : (options.kept front).length < ("<input".toList ++ ['>']).length := by
    simp only [List.length_append, List.length_cons, List.length_nil]
    omega
  have found := congrArg (·[(options.kept front).length]?) same
  rw [List.append_cons, List.getElem?_append_left short,
    List.getElem?_append_right (Nat.le_refl _), Nat.sub_self] at found
  exact absurd (List.mem_of_getElem? found) (by decide)

/-! ## The run -/

theorem runSource_refused {options : Options} (undumped : options.tokens = false) {source : String}
    {diagnostic : Diagnostic} (refused : Script.read options.strict source = .error diagnostic)
    (file : String) (fuel : Nat) :
    runSource options file source fuel =
      (⟨[], [options.line (diagnostic.reportIn source (some file)).text], .ok 1⟩, 0) := by
  unfold runSource
  rw [undumped, refused]
  unfold Run.ofSource
  rw [refused]
  rfl

theorem runSource_dumping_refused {options : Options} {source : String} {diagnostic : Diagnostic}
    (refused : Script.read options.strict source = .error diagnostic) (file : String) (fuel : Nat) :
    runSource options.dumping file source fuel =
      (⟨[], [options.line (diagnostic.report none none).text], .ok 1⟩, 0) := by
  have asked : options.dumping.tokens = true := rfl
  have again : Script.read options.dumping.strict source = .error diagnostic := refused
  unfold runSource
  rw [asked, again]
  rfl

theorem runSource_dumping {options : Options} (undumped : options.tokens = false) {source : String}
    {script : Script} (read : Script.read options.strict source = .ok script) (file : String)
    (fuel : Nat) :
    let alone := runSource options file source fuel
    runSource options.dumping file source fuel =
      ({ alone.1 with stdout := (dumpLines script).map options.line ++ alone.1.stdout }, alone.2) := by
  have again : Script.read options.dumping.strict source = .ok script := read
  intro alone
  unfold alone runSource
  rw [undumped, read, again]
  dsimp only [Options.dumping]
  generalize Run.ofSource options.strict source options.verbosity fuel = run
  obtain ⟨machine, failure⟩ := run
  cases failure with
  | none => rfl
  | some failure => cases failure <;> rfl

/-! ## The invocation -/

section

variable {options : Options} {path : Path} {content : Path → Except ReadError (List UInt8)}
  {bytes : List UInt8} {chars : List Char} (file : inputFile? options = some path)
  (found : content path = .ok bytes) (decoded : Text.Utf8.decode bytes = .ok chars)
  (milliseconds fuel : Nat)

include file found decoded

/-- An invocation on a file that can be read runs its text. -/
theorem invoke_of_decoded :
    invoke options content milliseconds fuel = withStatistics options milliseconds
      (runSource options path.text (String.ofList (Text.unifyNewlines chars)) fuel) := by
  unfold invoke runFile
  rw [file]
  dsimp only
  rw [found]
  dsimp only
  rw [decoded]

/-- If the text is accepted, the dump is written first and nothing else is changed. -/
theorem invoke_dumping_accepted (undumped : options.tokens = false) {script : Script}
    (read : Script.read options.strict (String.ofList (Text.unifyNewlines chars)) = .ok script) :
    invoke options.dumping content milliseconds fuel =
      { invoke options content milliseconds fuel with
        stdout := (dumpLines script).map options.line ++
          (invoke options content milliseconds fuel).stdout } := by
  have same : inputFile? options.dumping = some path := file
  rw [invoke_of_decoded file found decoded, invoke_of_decoded same found decoded,
    runSource_dumping undumped read]
  generalize runSource options path.text _ fuel = alone
  obtain ⟨⟨stdout, stderr, ending⟩, steps⟩ := alone
  unfold withStatistics
  rw [List.append_assoc]
  rfl

/-- If the text is refused, only the report is written. -/
theorem invoke_refused (undumped : options.tokens = false) {diagnostic : Diagnostic}
    (refused : Script.read options.strict (String.ofList (Text.unifyNewlines chars)) =
      .error diagnostic) :
    let report := diagnostic.reportIn (String.ofList (Text.unifyNewlines chars)) (some path.text)
    invoke options content milliseconds fuel = withStatistics options milliseconds
      (⟨[], [options.line report.text], .ok 1⟩, 0) := by
  rw [invoke_of_decoded file found decoded, runSource_refused undumped refused]

/-- If the text is refused, the dump fails with a report that names neither the file nor the line. -/
theorem invoke_dumping_refused {diagnostic : Diagnostic}
    (refused : Script.read options.strict (String.ofList (Text.unifyNewlines chars)) =
      .error diagnostic) :
    invoke options.dumping content milliseconds fuel = withStatistics options milliseconds
      (⟨[], [options.line (diagnostic.report none none).text], .ok 1⟩, 0) := by
  have same : inputFile? options.dumping = some path := file
  rw [invoke_of_decoded same found decoded, runSource_dumping_refused refused]
  rfl

end

theorem suffix_of_inputFile? {options : Options} {path : Path}
    (file : inputFile? options = some path) : path.suffix = extension := by
  unfold inputFile? at file
  split at file
  · dsimp only at file
    split at file
    case _ named =>
      cases file
      exact beq_iff_eq.mp named
    case _ => cases file
  · cases file

/-- Reading refuses a text exactly if it is strict and finds a stray character. -/
theorem read_refused_iff (strict : Bool) (source : String) :
    (∃ diagnostic, Script.read strict source = .error diagnostic) ↔
      strict = true ∧ (Token.firstStray? source.toList).isSome = true := by
  unfold Script.read
  split
  case _ stray found => simp [found]
  case _ other =>
    constructor
    · rintro ⟨diagnostic, refused⟩
      cases refused
    · rintro ⟨rfl, found⟩
      obtain ⟨stray, found⟩ := Option.isSome_iff_exists.mp found
      exact absurd found (other stray rfl)

/-- Asking for the tokens, and nothing else besides, leaves the exit code of an invocation on a readable
file as it is, and the standard output follows the dump. The standard error is the same unless strict
reading finds a stray character; then it always differs, because the dump fails with a report that names
neither the file nor the line, before anything is written. How the options are read from the arguments
and the environment plays no role. -/
theorem tokens_dumped_beside_run (parse : List String → Option String → Options)
    (arguments asking : List String) (setting : Option String)
    (asks : parse asking setting = (parse arguments setting).dumping)
    (content : Path → Except ReadError (List UInt8)) (milliseconds fuel : Nat) (path : Path)
    (bytes : List UInt8) (chars : List Char) (undumped : (parse arguments setting).tokens = false)
    (file : inputFile? (parse arguments setting) = some path)
    (found : content path = .ok bytes) (decoded : Text.Utf8.decode bytes = .ok chars) :
    let options := parse arguments setting
    let source := String.ofList (Text.unifyNewlines chars)
    let alone := invoke options content milliseconds fuel
    let dumped := invoke (parse asking setting) content milliseconds fuel
    dumped.ending = alone.ending ∧
      (∀ script, Script.read options.strict source = .ok script →
        dumped.stdout = (dumpLines script).map options.line ++ alone.stdout) ∧
      (∀ diagnostic, Script.read options.strict source = .error diagnostic →
        dumped.stdout = alone.stdout ∧
          dumped.stderr = [options.line (diagnostic.report none none).text] ∧
          alone.stderr = [options.line (diagnostic.reportIn source (some path.text)).text]) ∧
      (dumped.stderr = alone.stderr ↔
        ¬ (options.strict = true ∧ (Token.firstStray? source.toList).isSome = true)) := by
  intro options source alone dumped
  have asked : dumped = invoke options.dumping content milliseconds fuel := by
    unfold dumped
    rw [asks]
  rw [← read_refused_iff]
  cases read : Script.read options.strict source with
  | ok script =>
      have accepted : dumped = { alone with
          stdout := (dumpLines script).map options.line ++ alone.stdout } :=
        asked.trans (invoke_dumping_accepted file found decoded milliseconds fuel undumped read)
      rw [accepted]
      refine ⟨rfl, ?_, ?_, ?_⟩
      · rintro _ ⟨rfl⟩
        rfl
      · rintro _ ⟨⟩
      · exact iff_of_true rfl (by rintro ⟨_, ⟨⟩⟩)
  | error diagnostic =>
      have refused : alone = withStatistics options milliseconds
          (⟨[], [options.line (diagnostic.reportIn source (some path.text)).text], .ok 1⟩, 0) :=
        invoke_refused file found decoded milliseconds fuel undumped read
      have dumpRefused : dumped = withStatistics options milliseconds
          (⟨[], [options.line (diagnostic.report none none).text], .ok 1⟩, 0) :=
        asked.trans (invoke_dumping_refused file found decoded milliseconds fuel read)
      rw [refused, dumpRefused]
      dsimp only [withStatistics, statistics]
      refine ⟨rfl, ?_, ?_, ?_⟩
      · rintro _ ⟨⟩
      · rintro _ ⟨rfl⟩
        exact ⟨rfl, rfl, rfl⟩
      · refine iff_of_false ?_ fun accepted => accepted ⟨diagnostic, rfl⟩
        intro same
        exact report_differs options (suffix_of_inputFile? file) diagnostic source
          (List.cons.inj same).1

/-- The bytes of an ASCII text. -/
def asciiBytes (text : String) : List UInt8 :=
  text.toList.map fun char => char.toNat.toUInt8

/-- A strict invocation on a file that divides by zero, with the tokens asked for between the other
options. -/
theorem tokens_dumped_beside_failing_run :
    let content : Path → Except ReadError (List UInt8) := fun _ => .ok (asciiBytes "print(1 / 0)")
    let alone := invoke (Options.read ["-v", "--strict", "p.ezy"] none) content 0 20
    let dumped := invoke (Options.read ["-v", "--tokens", "--strict", "p.ezy"] none) content 0 20
    dumped.ending = alone.ending ∧ dumped.stderr = alone.stderr ∧
      alone.stderr.getLastD "" = "p.ezy:1:9: error: Division by zero\nprint(1 / 0)\n        ^\n" := by
  intro content alone dumped
  have asks : Options.read ["-v", "--tokens", "--strict", "p.ezy"] none =
      (Options.read ["-v", "--strict", "p.ezy"] none).dumping :=
    @Options.read_tokens_added ["-v"] (by decide) ["--strict", "p.ezy"] none
  have beside := tokens_dumped_beside_run Options.read ["-v", "--strict", "p.ezy"]
    ["-v", "--tokens", "--strict", "p.ezy"] none asks content 0 20 ⟨"", ["p.ezy"]⟩
    (asciiBytes "print(1 / 0)") "print(1 / 0)".toList (by decide +kernel) (by decide +kernel) rfl
    (by rfl)
  exact ⟨beside.1, beside.2.2.2.mpr (by decide +kernel), by decide +kernel⟩

/-- A stray character is reported with the name of the file and the line, but without both when the
tokens are asked for. -/
theorem stray_dumped_without_file :
    let content : Path → Except ReadError (List UInt8) :=
      fun _ => .ok (asciiBytes "x: number = 1 @\n")
    let alone := invoke (Options.read ["--strict", "p.ezy"] none) content 0 20
    let dumped := invoke (Options.read ["--strict", "--tokens", "p.ezy"] none) content 0 20
    alone.stderr =
        ["p.ezy:1:15: error: Unexpected character '@'\nx: number = 1 @\n              ^\n"] ∧
      dumped.stderr = ["<input>:1:15: error: Unexpected character '@'\n\n              ^\n"] := by
  decide +kernel

end CommandLine

end Onepass
