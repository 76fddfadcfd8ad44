import Onepass.Proofs.Tree.Reading

/-! # Levels of the grammar

Every level of the grammar reads something of the next level and then goes on with what may follow it on
its own level. A tree whose operators associate to the left is not read as a whole before its level goes
on: in `a - b - c` the level of sums first reads `a`, and then goes on. So the reading of a tree at a
level is left open: it is whatever makes any continuation of the level come after the value of the tree.
-/

set_option autoImplicit false

namespace Onepass

/-! ## Tokens that join -/

namespace Kind

/-- The level on which a token of the kind goes on with an expression before it. -/
def joint? : Kind → Option Nat
  | .symbol .leftBracket | .symbol .dot => some 7
  | .keyword .isWord | .keyword .asWord => some 3
  | kind => kind.binary?.map fun operator => operator.rank.level

/-- Whether an expression of the level is complete before a token of the kind: what joins on its own
level is left to the continuation, but for comparisons, which have none. -/
def Ends (level : Nat) (kind : Kind) : Prop :=
  ∀ joint, kind.joint? = some joint → joint < level ∨ joint = level ∧ level ≠ 2

theorem joint_eq_none {kind : Kind} (stops : kind.continuesExpression = false) :
    kind.joint? = none := by
  cases kind with
  | keyword word => cases word <;> first | rfl | cases stops
  | symbol mark => cases mark <;> first | rfl | cases stops
  | _ => rfl

theorem joint_symbol (operator : BinaryOperator) :
    (symbol operator.symbol).joint? = some operator.rank.level := by
  cases operator <;> rfl

theorem binaryOf_symbol (operator : BinaryOperator) :
    (symbol operator.symbol).binaryOf? operator.rank = some operator := by
  cases operator <;> rfl

theorem binaryOf_eq_none {kind : Kind} {rank : Rank} (apart : kind.joint? ≠ some rank.level) :
    kind.binaryOf? rank = none := by
  cases found : kind.binaryOf? rank with
  | none => rfl
  | some operator =>
      exfalso
      apply apart
      cases kind with
      | symbol mark => cases mark <;> cases rank <;> first | rfl | cases found
      | _ => cases found

theorem joint_ne_prefix (kind : Kind) : kind.joint? ≠ some 6 := by
  cases kind with
  | keyword word => cases word <;> decide
  | symbol mark => cases mark <;> decide
  | _ => decide

theorem unary_symbol (operator : UnaryOperator) :
    (symbol operator.symbol).unary? = some operator := by
  cases operator <;> rfl

namespace Ends

variable {kind : Kind} {level : Nat}

theorem of_none (apart : kind.joint? = none) : kind.Ends level := by
  intro joint joins
  rw [apart] at joins
  cases joins

theorem of_some {joint : Nat} (joins : kind.joint? = some joint)
    (below : joint < level ∨ joint = level ∧ level ≠ 2) : kind.Ends level := by
  intro other same
  rw [joins] at same
  cases same
  exact below

theorem mono (ends : kind.Ends level) {tighter : Nat} (le : level ≤ tighter) : kind.Ends tighter := by
  intro joint joins
  have := ends joint joins
  omega

theorem ne (ends : kind.Ends level) {joint : Nat} (above : level < joint) :
    kind.joint? ≠ some joint := by
  intro joins
  have := ends joint joins
  omega

end Ends

end Kind

theorem Script.binaryOf_tokenAt {script : Script} {place : Nat} {operator : BinaryOperator}
    (known : script.kindAt place = .symbol operator.symbol) :
    (script.tokenAt place).kind.binaryOf? operator.rank = some operator := by
  rw [show (script.tokenAt place).kind = .symbol operator.symbol from known]
  exact Kind.binaryOf_symbol operator

namespace Exec

variable (script : Script) (verbosity : Nat)

/-! ## The levels -/

/-- What reads an expression of a level. -/
def reader (level fuel rounds : Nat) : Exec Value :=
  let nested := evaluator script verbosity fuel
  let call := call script nested fuel
  match level with
  | 0 => ranked script .disjunction (conjunction script nested call fuel) rounds
  | 1 => ranked script .conjunction (comparison script nested call fuel) rounds
  | 2 => comparison script nested call fuel
  | 3 => do typeTests script rounds (← additive script nested call fuel)
  | 4 => ranked script .sum (multiplicative script nested call fuel) rounds
  | 5 => ranked script .product (unary script nested call fuel) rounds
  | _ => unary script nested call rounds

/-- What reads an operand without prefix operators and without what follows it. -/
def operand (fuel rounds : Nat) : Exec Value :=
  let nested := evaluator script verbosity fuel
  primary script nested (call script nested fuel) rounds

/-- How a level goes on after a value. -/
def goOn (level fuel rounds : Nat) (value : Value) : Exec Value :=
  match level with
  | 0 => chain script .disjunction (reader script verbosity 1 fuel fuel) rounds value
  | 1 => chain script .conjunction (reader script verbosity 2 fuel fuel) rounds value
  | 3 => typeTests script rounds value
  | 4 => chain script .sum (reader script verbosity 5 fuel fuel) rounds value
  | 5 => chain script .product (reader script verbosity 6 fuel fuel) rounds value
  | 7 => suffixes script (evaluator script verbosity fuel) rounds value
  | _ => pure value

/-- Reading from the first place to the last on a level comes to the value of a tree before the level
goes on. -/
def Opens (level first last : Nat) (evaluation : Nat → Exec Value) : Prop :=
  ∀ (final : Nat) (following : Nat → Value → Exec Value),
    (∀ value, Reads Eq last final (fun fuel rounds => goOn script verbosity level fuel rounds value)
      (fun fuel => following fuel value)) →
    Reads Eq first final (reader script verbosity level)
      (fun fuel => evaluation fuel >>= following fuel)

variable {script verbosity}
variable {first last : Nat} {evaluation : Nat → Exec Value}

theorem chain_stops {rank : Rank} (operand : Nat → Exec Value) (value : Value)
    (stops : (script.kindAt last).binaryOf? rank = none) :
    Reads Eq last last (fun fuel rounds => chain script rank (operand fuel) rounds value)
      (fun _ => pure value) := by
  apply Reads.shift
  apply Reads.current
  change (script.tokenAt last).kind.binaryOf? rank = none at stops
  simp only [stops]
  exact .pure rfl

theorem goOn_stops {level : Nat} (stops : (script.kindAt last).joint? ≠ some level) (value : Value) :
    Reads Eq last last (fun fuel rounds => goOn script verbosity level fuel rounds value)
      (fun _ => pure value) := by
  match level with
  | 0 => exact chain_stops _ value (Kind.binaryOf_eq_none stops)
  | 1 => exact chain_stops _ value (Kind.binaryOf_eq_none stops)
  | 2 => exact .pure rfl
  | 3 =>
      have other : ¬ (script.kindAt last = .keyword .isWord ∨ script.kindAt last = .keyword .asWord) := by
        rintro (test | conversion)
        · exact stops (test ▸ rfl)
        · exact stops (conversion ▸ rfl)
      apply Reads.shift
      apply Reads.currentKind
      simp only [other]
      exact .pure rfl
  | 4 => exact chain_stops _ value (Kind.binaryOf_eq_none stops)
  | 5 => exact chain_stops _ value (Kind.binaryOf_eq_none stops)
  | 6 => exact .pure rfl
  | 7 =>
      apply Reads.shift
      apply Reads.currentKind
      generalize script.kindAt last = kind at stops
      cases kind with
      | symbol mark => cases mark <;> first | exact .pure rfl | exact absurd rfl stops
      | _ => exact .pure rfl
  | _ + 8 => exact .pure rfl

theorem goOn_level {rank : Rank} (chained : rank ≠ .comparison) :
    goOn script verbosity rank.level = fun fuel rounds value =>
      chain script rank (reader script verbosity (rank.level + 1) fuel fuel) rounds value := by
  cases rank with
  | comparison => exact absurd rfl chained
  | _ => rfl

/-! ## From one level to the next -/

/-- The two levels that do not go on. -/
theorem goOn_pure {level : Nat} (alone : level = 2 ∨ level = 6) (fuel rounds : Nat) :
    goOn script verbosity level fuel rounds = pure := by
  rcases alone with rfl | rfl <;> rfl

theorem reader_eq {level : Nat} (loose : level < 6) (chained : level ≠ 2) :
    reader script verbosity level = fun fuel rounds =>
      reader script verbosity (level + 1) fuel fuel >>= goOn script verbosity level fuel rounds := by
  match level with
  | 0 | 1 | 3 | 4 | 5 => rfl
  | 2 => exact absurd rfl chained

theorem expression_succ (fuel : Nat) :
    expression script verbosity (fuel + 1) = reader script verbosity 0 fuel fuel := rfl

/-- A tree is read when nothing joins it on its level. -/
theorem Opens.reads {level : Nat} (opens : Opens script verbosity level first last evaluation)
    (stops : (script.kindAt last).joint? ≠ some level) :
    Reads Eq first last (reader script verbosity level) evaluation := by
  have read := opens _ _ (goOn_stops stops)
  simpa only [bind_pure] using read

theorem opens_of_reads {level : Nat} (alone : level = 2 ∨ level = 6)
    (reads : Reads Eq first last (reader script verbosity level) evaluation) :
    Opens script verbosity level first last evaluation := by
  intro final following rest
  have read := reads.then rest
  simpa only [goOn_pure alone, bind_pure] using read

/-- What stands on a level stands on the next looser one, unless a tighter operator joins it. -/
theorem Opens.loosen {level : Nat} (opens : Opens script verbosity (level + 1) first last evaluation)
    (within : level < 7) (ends : (script.kindAt last).Ends level) :
    Opens script verbosity level first last evaluation := by
  have reads := opens.reads (ends.ne (Nat.lt_succ_self level))
  -- A level that goes on is open for its own operators; the other two have to be complete.
  by_cases compared : level = 2
  · subst compared
    apply opens_of_reads (.inl rfl)
    have none : (script.tokenAt last).kind.binaryOf? .comparison = none := by
      apply Kind.binaryOf_eq_none
      intro joins
      have := ends 2 joins
      omega
    have read : Reads Eq first last (reader script verbosity 2)
        (fun fuel => evaluation fuel >>= fun value => pure value) := by
      apply reads.whole.then
      intro value
      apply Reads.current
      simp only [none]
      exact .pure rfl
    simpa only [bind_pure] using read
  · by_cases prefixed : level = 6
    · subst prefixed
      exact opens_of_reads (.inr rfl) reads
    · intro final following rest
      rw [reader_eq (by omega) compared]
      exact reads.whole.then rest

theorem Opens.loosened {level tighter : Nat} (opens : Opens script verbosity tighter first last evaluation)
    (le : level ≤ tighter) (within : tighter ≤ 7) (ends : (script.kindAt last).Ends level) :
    Opens script verbosity level first last evaluation := by
  induction le with
  | refl => exact opens
  | step le ih => exact ih (opens.loosen within (ends.mono le)) (by omega)

/-- An expression is read by the loosest level. -/
theorem Opens.expression (opens : Opens script verbosity 0 first last evaluation)
    (alone : (script.kindAt last).joint? = none) :
    Reads Eq first last (fun fuel _ => Exec.expression script verbosity fuel) evaluation := by
  apply Reads.nested
  simp only [expression_succ]
  exact (opens.reads (by simp [alone])).whole

/-- An operand without prefix operators. -/
theorem opens_of_operand {kind : Kind} (known : script.kindAt first = kind)
    (plain : kind.unary? = none) (reads : Reads Eq first last (operand script verbosity) evaluation) :
    Opens script verbosity 7 first last evaluation := by
  intro final following rest
  apply Reads.shift
  apply Reads.current
  simp only [show (script.tokenAt first).kind = kind from known, plain]
  exact reads.then rest

/-! ## Binary operators -/

section

variable {middle : Nat} {operator : BinaryOperator} {leftEvaluation rightEvaluation : Nat → Exec Value}

theorem opens_chain (chained : operator.rank ≠ .comparison)
    (opens : Opens script verbosity operator.rank.level first middle leftEvaluation)
    (known : script.kindAt middle = .symbol operator.symbol)
    (reads : Reads Eq (middle + 1) last (reader script verbosity (operator.rank.level + 1))
      rightEvaluation) :
    Opens script verbosity operator.rank.level first last (fun fuel => do
      let left ← leftEvaluation fuel
      let right ← rightEvaluation fuel
      applyBinary (.mark operator.symbol) operator left right) := by
  intro final following rest
  simp only [bind_assoc]
  apply opens
  intro left
  rw [goOn_level chained] at rest ⊢
  apply Reads.shift
  apply Reads.current
  simp only [Script.binaryOf_tokenAt known]
  apply Reads.advance (by simp [known])
  apply reads.whole.then
  intro right
  exact (Reads.steady ((Coupling.displaced_stores last).applyBinary trivial operator left right)).then
    rest

theorem opens_comparison (compared : operator.rank = .comparison)
    (begun : Reads Eq first middle (reader script verbosity 3) leftEvaluation)
    (known : script.kindAt middle = .symbol operator.symbol)
    (reads : Reads Eq (middle + 1) last (reader script verbosity 3) rightEvaluation) :
    Opens script verbosity 2 first last (fun fuel => do
      let left ← leftEvaluation fuel
      let right ← rightEvaluation fuel
      applyBinary (.mark operator.symbol) operator left right) := by
  apply opens_of_reads (.inl rfl)
  apply begun.whole.then
  intro left
  apply Reads.current
  simp only [← compared, Script.binaryOf_tokenAt known]
  apply Reads.advance (by simp [known])
  apply reads.whole.then
  intro right
  exact .steady ((Coupling.displaced_stores last).applyBinary trivial operator left right)

end

end Exec

end Onepass
