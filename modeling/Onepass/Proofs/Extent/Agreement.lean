import Onepass.Proofs.Extent.Statement

/-! # Blocks end at their braces, and execution agrees with passing over

Two consequences of the course that executed statements take. A block ends at its own brace, and so
conditionals and loops whose bodies are blocks resume at a place that the script alone determines. And
a statement that is passed over ends where it ends when executed, unless it is a conditional, a loop or
a block with a semicolon after it.
-/

set_option autoImplicit false

namespace Onepass

namespace Script

variable {script : Script} {running : Option DeclaredType} {first last : Nat}

/-- Later branches of a conditional all of whose bodies are blocks. -/
inductive BracedBranches (script : Script) : Nat → Nat → Prop
  | another {first header middle last : Nat} (begun : script.kindAt first = .keyword .elseIfWord)
      (condition : Reaches script.parenthesesEnd (first + 1) header)
      (body : Reaches script.bracesEnd header middle) (others : BracedBranches script middle last) :
      BracedBranches script first last
  | otherwise {first last : Nat} (begun : script.kindAt first = .keyword .elseWord)
      (body : Reaches script.bracesEnd (first + 1) last) : BracedBranches script first last
  | finished {place : Nat} (notElseIf : script.kindAt place ≠ .keyword .elseIfWord)
      (notElse : script.kindAt place ≠ .keyword .elseWord) : BracedBranches script place place

/-- A conditional or a loop all of whose bodies are blocks. -/
inductive Braced (script : Script) : Nat → Nat → Prop
  | conditional {first header middle last : Nat} (begun : script.kindAt first = .keyword .ifWord)
      (condition : Reaches script.parenthesesEnd (first + 1) header)
      (body : Reaches script.bracesEnd header middle)
      (others : script.BracedBranches middle last) : Braced script first last
  | loop {first header last : Nat}
      (begun : script.kindAt first = .keyword .forWord ∨ script.kindAt first = .keyword .whileWord)
      (condition : Reaches script.parenthesesEnd (first + 1) header)
      (body : Reaches script.bracesEnd header last) : Braced script first last

theorem kindAt_of_bracesEnd (body : Reaches script.bracesEnd first last) :
    script.kindAt first = .symbol .leftBrace :=
  (reaches_balancedEnd_iff.mp (show Reaches
    (script.balancedEnd Bracket.curly.opening Bracket.curly.closing) first last from body)).1

theorem Passage.same_end {header middle other : Nat} (passage : script.Passage running header middle)
    (body : Reaches script.bracesEnd header other) : middle = other :=
  (passage.braced (kindAt_of_bracesEnd body)).unique body

/-- What the branches passed through is what the script says about them. -/
theorem Branches.same_end {middle finish : Nat} (branches : script.Branches running middle last)
    (braced : script.BracedBranches middle finish) : last = finish := by
  induction branches with
  | another begun condition body _ ih =>
      cases braced with
      | another _ read block others =>
          rw [condition.reaches.unique read] at body
          rw [← body.same_end block] at others
          exact ih others
      | otherwise other _ => rw [begun] at other; cases other
      | finished other _ => exact absurd begun other
  | otherwise begun body =>
      cases braced with
      | another other _ _ _ => rw [begun] at other; cases other
      | otherwise _ block => exact body.same_end block
      | finished _ other => exact absurd begun other
  | finished notElseIf notElse =>
      cases braced with
      | another other _ _ _ => exact absurd other notElseIf
      | otherwise other _ => exact absurd other notElse
      | finished _ _ => rfl

theorem Executed.same_end {finish : Nat} (executed : script.Executed running first last)
    (braced : script.Braced first finish) : last = finish := by
  have compound : (script.kindAt first).isCompound = true := by
    cases braced with
    | conditional begun _ _ _ => rw [begun]; rfl
    | loop begun _ _ => rcases begun with begun | begun <;> rw [begun] <;> rfl
  cases executed with
  | simple plain _ _ => rw [plain] at compound; cases compound
  | conditional begun condition body others =>
      cases braced with
      | conditional _ read block remaining =>
          rw [condition.reaches.unique read] at body
          rw [← body.same_end block] at remaining
          exact others.same_end remaining
      | loop other _ _ => simp [begun] at other
  | loop begun condition body =>
      cases braced with
      | conditional other _ _ _ => simp [other] at begun
      | loop _ read block =>
          rw [condition.reaches.unique read] at body
          exact body.same_end block
  | block begun _ =>
      cases braced with
      | conditional other _ _ _ => simp [other] at begun
      | loop other _ _ => simp [begun] at other

end Script

namespace Exec

open Script (Reaches)

theorem passOver_of_reaches {partEnd : (place : Nat) → Except Diagnostic (Ahead place)}
    {machine : Machine} {finish : Nat} (reached : Reaches partEnd machine.cursor finish) :
    passOver partEnd machine = .ok () { machine with cursor := finish } := by
  obtain ⟨ahead, found⟩ := reached
  change (ofDiagnosed (partEnd machine.cursor) >>= fun next => moveTo next.val) machine = _
  rw [found]
  rfl

theorem passOver_iff {partEnd : (place : Nat) → Except Diagnostic (Ahead place)}
    {machine : Machine} {finish : Nat} :
    passOver partEnd machine = .ok () { machine with cursor := finish } ↔
      Reaches partEnd machine.cursor finish :=
  ⟨fun passed => (passOver_ok passed).1, passOver_of_reaches⟩

/-- An expression that was evaluated, before a token that continues no expression, is passed over up to
the same place, and that changes nothing but the cursor. The brackets of the script need not be nested
properly: those that an evaluation reads always are. -/
theorem expression_passed_over (script : Script) (verbosity fuel : Nat) (machine final : Machine)
    (value : Value) (ran : expression script verbosity fuel machine = .ok value final)
    (stops : (script.kindAt final.cursor).continuesExpression = false) :
    passOver script.expressionEnd machine = .ok () { machine with cursor := final.cursor } := by
  have spans : script.Spans machine.cursor final.cursor := expression_moves script verbosity fuel ran
  exact passOver_of_reaches (spans.reaches stops)

/-- An expression with a call inside, which leads the cursor to the body of the function and back, in a
script that ends with a bracket of another kind. -/
theorem expression_passed_over_around_call :
    let script := Script.ofSource
      "func f(a: number): number { return a } -f([2, 3][1]) * (1 + 2) ]".toList
    let machine := finalOf (statement script 0 8 .initial)
    let final := finalOf (expression script 0 16 machine)
    (expression script 0 16 machine = .ok (.number ⟨true, 9, 0⟩) final ∧
      (script.kindAt final.cursor).continuesExpression = false) ∧
        passOver script.expressionEnd machine = .ok () { machine with cursor := final.cursor } := by
  intro script machine final
  have ran : expression script 0 16 machine = .ok (.number ⟨true, 9, 0⟩) final := by decide +kernel
  have stops : (script.kindAt final.cursor).continuesExpression = false := by decide +kernel
  exact ⟨⟨ran, stops⟩, expression_passed_over script 0 16 machine final _ ran stops⟩

/-- A body in braces that ends normally leaves the cursor behind its own closing brace, where passing
over the braces ends, whatever was executed inside. So a conditional or a loop whose bodies are all in
braces ends at one and the same place, whichever branch is taken and however often a body is
executed. -/
theorem body_ends_at_its_brace {script : Script} (nested : script.WellNested)
    (headers : script.ClearHeaders) (verbosity fuel : Nat) (machine final : Machine) :
    (∀ scope rounds, script.kindAt machine.cursor = .symbol .leftBrace →
      body script (evaluator script verbosity fuel) scope rounds machine = .ok .normal final →
        passOver script.bracesEnd machine = .ok () { machine with cursor := final.cursor }) ∧
    (∀ finish, script.Braced machine.cursor finish →
      statement script verbosity fuel machine = .ok .normal final → final.cursor = finish) := by
  have agrees : (evaluator script verbosity fuel).Agrees script :=
    ⟨controlDiscipline.evaluates script verbosity fuel, expression_moves script verbosity fuel,
      statement_course nested headers verbosity⟩
  constructor
  · intro scope rounds begun ran
    exact passOver_of_reaches ((body_passage agrees ran).braced begun)
  · intro finish braced ran
    exact (statement_course nested headers verbosity ran).same_end braced

/-- A block around a conditional. -/
theorem body_ends_at_its_brace_around_conditional :
    let script := Script.ofSource "{ if (true) { } }".toList
    let final := { Machine.initial with cursor := 8, steps := 1 }
    (script.WellNested ∧ script.ClearHeaders ∧
      body script (evaluator script 0 4) .empty 4 .initial = .ok .normal final) ∧
        passOver script.bracesEnd .initial = .ok () { Machine.initial with cursor := 8 } := by
  intro script final
  have nested : script.WellNested := by decide +kernel
  have headers : script.ClearHeaders := by decide +kernel
  have ran : body script (evaluator script 0 4) .empty 4 .initial = .ok .normal final := by
    decide +kernel
  exact ⟨⟨nested, headers, ran⟩,
    (body_ends_at_its_brace nested headers 0 4 .initial final).1 .empty 4 (by decide +kernel) ran⟩

/-- A statement that ends normally, before a token that continues no expression, is passed over up to
the same place if and only if it is not a conditional, a loop or a block with a semicolon after it:
passed over, it takes in the semicolon. -/
theorem statement_passed_over_iff {script : Script} (nested : script.WellNested)
    (headers : script.ClearHeaders) (verbosity fuel : Nat) (machine final : Machine)
    (ran : statement script verbosity fuel machine = .ok .normal final)
    (stops : (script.kindAt final.cursor).continuesExpression = false) :
    passOver (script.statementEnd machine.running) machine =
        .ok () { machine with cursor := final.cursor } ↔
      ¬ ((script.kindAt machine.cursor).isCompound = true ∧
        script.kindAt final.cursor = .symbol .semicolon) := by
  rw [passOver_iff]
  exact (statement_course nested headers verbosity ran).reaches_iff stops

/-- A declaration takes in its semicolon both ways. -/
theorem statement_passed_over_iff_declaration :
    let script := Script.ofSource "x: null = null;".toList
    let final := { Machine.initial with
      cursor := 6, steps := 1, scopes := ⟨⟨[("x", ⟨.null, some ⟨"null", 0⟩, false⟩)]⟩, [], []⟩ }
    (script.WellNested ∧ script.ClearHeaders ∧
      statement script 0 4 .initial = .ok .normal final) ∧
        passOver (script.statementEnd none) .initial = .ok () { Machine.initial with cursor := 6 } := by
  intro script final
  have nested : script.WellNested := by decide +kernel
  have headers : script.ClearHeaders := by decide +kernel
  have ran : statement script 0 4 .initial = .ok .normal final := by decide +kernel
  exact ⟨⟨nested, headers, ran⟩,
    (statement_passed_over_iff nested headers 0 4 .initial final ran (by decide +kernel)).mpr
      (by decide +kernel)⟩

/-- A block with a semicolon after it is not passed over as it is executed. -/
theorem semicolon_after_block_passed_over :
    let script := Script.ofSource "if (true) {};".toList
    let final := { Machine.initial with cursor := 6, steps := 1 }
    (script.WellNested ∧ script.ClearHeaders ∧
      statement script 0 4 .initial = .ok .normal final ∧
        (script.kindAt final.cursor).continuesExpression = false) ∧
      passOver (script.statementEnd none) .initial ≠
        .ok () { Machine.initial with cursor := final.cursor } := by
  intro script final
  have nested : script.WellNested := by decide +kernel
  have headers : script.ClearHeaders := by decide +kernel
  have ran : statement script 0 4 .initial = .ok .normal final := by decide +kernel
  have stops : script.Stops final.cursor := by decide +kernel
  refine ⟨⟨nested, headers, ran, stops⟩, ?_⟩
  rw [Ne, passOver_iff]
  intro reached
  exact ((statement_course nested headers 0 ran).reaches_iff stops).mp reached (by decide +kernel)

end Exec

end Onepass
