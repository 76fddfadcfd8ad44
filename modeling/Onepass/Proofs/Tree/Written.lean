import Onepass.Proofs.Tree.Operand

/-! # Written expressions

There is more than one way to write an expression: it may stand in more parentheses than it needs, and a
comma may stand after the last element of an array and after the last argument of a call. A written
expression is a tree together with its tokens, and the rules say which tokens may stand for a tree at a
level of the grammar. However an expression is written, it is read as its tree is evaluated.
-/

set_option autoImplicit false

namespace Onepass

/-- What the end of a written expression takes for a part of itself if it follows. -/
inductive Tail where
  /-- Nothing: the expression is closed by its last token. -/
  | closed
  /-- An opening parenthesis, which makes a name a call. -/
  | name
  /-- A piece of a string literal. -/
  | text
  deriving DecidableEq, Repr

/-- Whether a token of the kind is taken. -/
def Tail.takes (kind : Kind) : Tail → Bool
  | .closed => false
  | .name => kind = .symbol .leftParen
  | .text => kind.isStringPiece

theorem Tail.takes_symbol {kind : Kind} {mark : Symbol} (known : kind = .symbol mark)
    (other : mark ≠ .leftParen) (tail : Tail) : tail.takes kind = false := by
  subst known
  cases tail with
  | closed => rfl
  | name => exact decide_eq_false fun same => other (Kind.symbol.inj same)
  | text => rfl

theorem Tail.takes_keyword (word : Keyword) (tail : Tail) : tail.takes (.keyword word) = false := by
  cases tail <;> rfl

/-- A tree with tokens to write it. -/
structure Phrase where
  tree : Expr
  tokens : List Token
  tail : Tail

/-- The tokens of phrases with commas between them, and one after the last phrase if asked for. -/
def Phrase.listed (trailing : Bool) : List Phrase → List Token
  | [] => []
  | [last] => last.tokens ++ if trailing then [.mark .comma] else []
  | first :: next :: rest => first.tokens ++ .mark .comma :: listed trailing (next :: rest)

/-- The tokens of a phrase stand for its tree at a place that asks for a level. -/
inductive Written : Nat → Phrase → Prop
  | number (digits : String) : Written 7 ⟨.number digits, (Expr.number digits).tokens, .closed⟩
  | string (first : Piece) (rest : List Piece) :
      Written 7 ⟨.string first rest, (Expr.string first rest).tokens, .text⟩
  | character (text : String) : Written 7 ⟨.character text, (Expr.character text).tokens, .closed⟩
  | boolean (value : Bool) : Written 7 ⟨.boolean value, (Expr.boolean value).tokens, .closed⟩
  | null : Written 7 ⟨.null, Expr.null.tokens, .closed⟩
  | named (marked : Bool) (name : String) :
      Written 7 ⟨.named marked name, (Expr.named marked name).tokens, if marked then .closed else .name⟩
  | array {items : List Phrase} (trailing : Bool) (written : ∀ item ∈ items, Written 0 item) :
      Written 7 ⟨.array (items.map Phrase.tree),
        .mark .leftBracket :: (Phrase.listed trailing items ++ [.mark .rightBracket]), .closed⟩
  | call (name : String) {items : List Phrase} (trailing : Bool)
      (written : ∀ item ∈ items, Written 0 item) :
      Written 7 ⟨.call name (items.map Phrase.tree),
        .name name :: .mark .leftParen :: (Phrase.listed trailing items ++ [.mark .rightParen]), .closed⟩
  | grouped {inner : Phrase} (written : Written 0 inner) :
      Written 7 ⟨inner.tree, .mark .leftParen :: (inner.tokens ++ [.mark .rightParen]), .closed⟩
  | index {container place : Phrase} (written : Written 7 container) (inside : Written 0 place) :
      Written 7 ⟨.index container.tree place.tree,
        container.tokens ++ .mark .leftBracket :: (place.tokens ++ [.mark .rightBracket]), .closed⟩
  | length {container : Phrase} (written : Written 7 container) :
      Written 7 ⟨.length container.tree, container.tokens ++ [.mark .dot, .name "length"], .closed⟩
  | unary (operator : UnaryOperator) {operand : Phrase} (written : Written 6 operand) :
      Written 6 ⟨.unary operator operand.tree, .mark operator.symbol :: operand.tokens, operand.tail⟩
  | binary (operator : BinaryOperator) {left right : Phrase}
      (writtenLeft : Written operator.rank.leftLevel left)
      (writtenRight : Written (operator.rank.level + 1) right) :
      Written operator.rank.level ⟨.binary operator left.tree right.tree,
        left.tokens ++ .mark operator.symbol :: right.tokens, right.tail⟩
  | typed (test : Bool) (type : TypeName) {operand : Phrase} (written : Written 3 operand) :
      Written 3 ⟨.typed test operand.tree type,
        operand.tokens ++ [.keyword (if test then .isWord else .asWord), type.token], .closed⟩
  | looser {level : Nat} {phrase : Phrase} (within : level < 7) (written : Written (level + 1) phrase) :
      Written level phrase

namespace Written

variable {phrase : Phrase} {level : Nat}

theorem loosened {tighter : Nat} (written : Written tighter phrase) (within : tighter ≤ 7)
    (le : level ≤ tighter) : Written level phrase := by
  induction le with
  | refl => exact written
  | step le ih => exact ih (.looser (by omega) written) (by omega)

/-- What a written expression begins with begins an expression. -/
theorem starts (written : Written level phrase) :
    ∃ token rest, phrase.tokens = token :: rest ∧ token.kind.startsExpression = true := by
  induction written with
  | number | character | boolean | null => exact ⟨_, _, rfl, rfl⟩
  | string first => exact ⟨_, _, rfl, by cases first <;> rfl⟩
  | named marked => cases marked <;> exact ⟨_, _, rfl, rfl⟩
  | array | call | grouped => exact ⟨_, _, rfl, rfl⟩
  | index _ _ ih =>
      obtain ⟨token, rest, same, starting⟩ := ih
      exact ⟨token, _, by rw [same]; rfl, starting⟩
  | length _ ih | typed _ _ _ ih =>
      obtain ⟨token, rest, same, starting⟩ := ih
      exact ⟨token, _, by rw [same]; rfl, starting⟩
  | unary operator => exact ⟨_, _, rfl, by cases operator <;> rfl⟩
  | binary _ _ _ ih =>
      obtain ⟨token, rest, same, starting⟩ := ih
      exact ⟨token, _, by rw [same]; rfl, starting⟩
  | looser _ _ ih => exact ih

end Written

namespace Exec

variable {script : Script} {verbosity first middle inner last : Nat} {evaluation : Nat → Exec Value}

/-! ## Readings put together -/

theorem opens_grouped (known : script.kindAt first = .symbol .leftParen)
    (reads : Reads Eq (first + 1) inner (fun fuel _ => Exec.expression script verbosity fuel) evaluation)
    (closed : script.kindAt inner = .symbol .rightParen) :
    Opens script verbosity 7 first (inner + 1) evaluation := by
  have read : Reads Eq first (inner + 1) (operand script verbosity)
      (fun fuel => evaluation fuel >>= pure) := by
    apply Reads.current
    simp only [show (script.tokenAt first).kind = .symbol .leftParen from known]
    apply Reads.advance (by simp [known])
    apply reads.then
    intro value
    apply Reads.expectSymbol closed
    exact .pure rfl
  simp only [bind_pure] at read
  exact opens_of_operand known rfl read

theorem opens_index {place : Nat → Exec Value}
    (opens : Opens script verbosity 7 first middle evaluation)
    (known : script.kindAt middle = .symbol .leftBracket)
    (reads : Reads Eq (middle + 1) inner (fun fuel _ => Exec.expression script verbosity fuel) place)
    (closed : script.kindAt inner = .symbol .rightBracket) :
    Opens script verbosity 7 first (inner + 1) (fun fuel => do
      let container ← evaluation fuel
      let place ← place fuel
      elementAt container place (.mark .leftBracket)) := by
  intro final following rest
  simp only [bind_assoc]
  apply opens
  intro value
  apply Reads.shift
  apply Reads.currentKind
  simp only [known]
  apply Reads.advance (by simp [known])
  apply Reads.current
  apply reads.then
  intro index
  apply Reads.expectSymbol closed
  exact (Reads.steady ((Coupling.displaced_stores _).elementAt trivial value index)).then rest

theorem opens_length (opens : Opens script verbosity 7 first middle evaluation)
    (dot : script.kindAt middle = .symbol .dot)
    (member : Token.Alike (fun _ _ => True) (script.tokenAt (middle + 1)) (.name "length")) :
    Opens script verbosity 7 first (middle + 2) (fun fuel => do
      lengthOf (← evaluation fuel) (.name "length")) := by
  intro final following rest
  have named : script.kindAt (middle + 1) = .identifier := member.kind
  have length : (script.tokenAt (middle + 1)).word = "length" := member.word
  simp only [bind_assoc]
  apply opens
  intro value
  apply Reads.shift
  apply Reads.currentKind
  simp only [dot]
  apply Reads.advance (by simp [dot])
  apply Reads.expectName named
  simp only [length]
  exact (Reads.steady ((Coupling.displaced_stores _).lengthOf trivial value)).then rest

theorem opens_unary (operator : UnaryOperator) (known : script.kindAt first = .symbol operator.symbol)
    (reads : Reads Eq (first + 1) last (reader script verbosity 6) evaluation) :
    Opens script verbosity 6 first last (fun fuel => do
      applyUnary (.mark operator.symbol) operator (← evaluation fuel)) := by
  have modifies : (script.tokenAt first).kind.unary? = some operator := by
    rw [show (script.tokenAt first).kind = .symbol operator.symbol from known]
    exact Kind.unary_symbol operator
  apply opens_of_reads (.inr rfl)
  apply Reads.shift
  apply Reads.current
  simp only [modifies]
  apply Reads.advance (by simp [known])
  apply reads.then
  intro value
  exact .steady (.located trivial _)

theorem opens_typed (test : Bool) (type : TypeName)
    (opens : Opens script verbosity 3 first middle evaluation)
    (known : script.kindAt middle = .keyword (if test then .isWord else .asWord))
    (name : Token.Alike (fun _ _ => True) (script.tokenAt (middle + 1)) type.token) :
    Opens script verbosity 3 first (middle + 2) (fun fuel => do
      testOrConvert test (← evaluation fuel) type.token) := by
  intro final following rest
  have isType : (script.tokenAt (middle + 1)).kind.isType = true := by
    rw [name.kind]
    exact type.isType
  have proper : script.kindAt (middle + 1) ≠ .endOfInput := by
    intro ended
    rw [← Script.kindAt, ended] at isType
    cases isType
  have asked : script.kindAt middle = .keyword .isWord ∨ script.kindAt middle = .keyword .asWord := by
    rw [known]
    cases test
    · exact .inr rfl
    · exact .inl rfl
  have tested : decide (script.kindAt middle = .keyword .isWord) = test := by
    rw [known]
    cases test <;> rfl
  simp only [bind_assoc]
  apply opens
  intro value
  apply Reads.shift
  apply Reads.currentKind
  simp only [asked, if_true, tested]
  apply Reads.advance (by simp [known])
  apply Reads.current
  simp only [isType, if_true]
  apply Reads.advance proper
  exact (Reads.steady ((Coupling.displaced_stores _).testOrConvert name test value)).then rest

/-! ## Lists of expressions -/

/-- The phrase is read as an expression wherever it stands and is not continued. -/
def IsRead (script : Script) (verbosity : Nat) (phrase : Phrase) : Prop :=
  ∀ {first last : Nat}, script.Shows first last phrase.tokens → (script.kindAt last).joint? = none →
    phrase.tail.takes (script.kindAt last) = false →
      Reads Eq first last (fun fuel _ => expression script verbosity fuel)
        (fun fuel => phrase.tree.evaluate script verbosity fuel)

theorem IsRead.before {phrase : Phrase} (read : IsRead script verbosity phrase)
    (shown : script.Shows first last phrase.tokens) {mark : Symbol}
    (known : script.kindAt last = .symbol mark)
    (stops : mark = .comma ∨ mark = .rightBracket ∨ mark = .rightParen) :
    Reads Eq first last (fun fuel _ => expression script verbosity fuel)
      (fun fuel => phrase.tree.evaluate script verbosity fuel) := by
  have closing : (Kind.symbol mark).joint? = none ∧ mark ≠ .leftParen := by
    rcases stops with rfl | rfl | rfl <;> exact ⟨rfl, by simp⟩
  exact read shown (by rw [known]; exact closing.1) (phrase.tail.takes_symbol known closing.2)

/-- Elements and arguments are read one after the other. What is read for each of them holds its
value. -/
theorem reads_listed {α : Type} (view : α → Value) {closing : Symbol}
    (bracket : closing = .rightBracket ∨ closing = .rightParen) {item : Nat → Exec α}
    (items : ∀ {first last} {evaluation : Nat → Exec Value},
      Reads Eq first last (fun fuel _ => expression script verbosity fuel) evaluation →
        Reads (fun found value => view found = value) first last (fun fuel _ => item fuel) evaluation)
    (trailing : Bool) {phrases : List Phrase} (written : ∀ phrase ∈ phrases, Written 0 phrase)
    (read : ∀ phrase ∈ phrases, IsRead script verbosity phrase)
    (shown : script.Shows first last (Phrase.listed trailing phrases))
    (closed : script.kindAt last = .symbol closing) :
    Reads (fun found values => found.map view = values) first last
      (fun fuel rounds => separated script closing (item fuel) rounds)
      (fun fuel => Expr.evaluateAll script verbosity fuel (phrases.map Phrase.tree)) := by
  have ended : Reads (fun found values => found.map view = values) last last
      (fun fuel rounds => separated script closing (item fuel) rounds)
      (fun fuel => Expr.evaluateAll script verbosity fuel []) := by
    apply Reads.shift
    apply Reads.currentKind
    simp only [closed]
    exact .pure rfl
  have ending : closing = .comma ∨ closing = .rightBracket ∨ closing = .rightParen := .inr bracket
  induction phrases generalizing first with
  | nil =>
      cases shown
      exact ended
  | cons phrase phrases ih =>
      have reads : IsRead script verbosity phrase := read phrase List.mem_cons_self
      have inside {last : Nat} (shown : script.Shows first last phrase.tokens) :
          script.kindAt first ≠ .symbol closing := by
        intro same
        obtain ⟨token, rest, tokens, starting⟩ := (written phrase List.mem_cons_self).starts
        rw [tokens] at shown
        rw [← shown.1.kind, ← Script.kindAt, same] at starting
        rcases bracket with rfl | rfl <;> cases starting
      have continued {middle : Nat} (begun : script.Shows first middle phrase.tokens)
          (comma : script.kindAt middle = .symbol .comma)
          (rest : Reads (fun found values => found.map view = values) (middle + 1) last
            (fun fuel rounds => separated script closing (item fuel) rounds)
            (fun fuel => Expr.evaluateAll script verbosity fuel (phrases.map Phrase.tree))) :
          Reads (fun found values => found.map view = values) first last
            (fun fuel rounds => separated script closing (item fuel) rounds)
            (fun fuel => Expr.evaluateAll script verbosity fuel
              ((phrase :: phrases).map Phrase.tree)) := by
        apply Reads.shift
        apply Reads.currentKind
        simp only [inside begun, List.map_cons, Expr.evaluateAll]
        apply (items (reads.before begun comma (.inl rfl))).bind
        rintro found _ rfl
        apply Reads.accept comma
        apply rest.bind
        rintro found _ rfl
        exact .pure rfl
      cases phrases with
      | nil =>
          obtain ⟨middle, begun, rest⟩ := Script.shows_append.mp shown
          cases trailing with
          | true =>
              obtain ⟨comma, rfl⟩ := rest
              exact continued begun comma.kind ended
          | false =>
              obtain rfl : middle = last := rest
              have noComma : script.kindAt middle ≠ .symbol .comma := by
                rw [closed]
                rcases bracket with rfl | rfl <;> simp
              apply Reads.shift
              apply Reads.currentKind
              simp only [inside begun, List.map_cons, List.map_nil, Expr.evaluateAll, pure_bind]
              apply (items (reads.before begun closed ending)).bind
              rintro found _ rfl
              apply Reads.decline noComma
              exact .pure rfl
      | cons next others =>
          obtain ⟨middle, begun, comma, rest⟩ := Script.shows_append.mp shown
          exact continued begun comma.kind
            (ih (fun other member => written other (List.mem_cons_of_mem phrase member))
              (fun other member => read other (List.mem_cons_of_mem phrase member)) rest)

theorem opens_array (trailing : Bool) {items : List Phrase} (written : ∀ item ∈ items, Written 0 item)
    (read : ∀ item ∈ items, IsRead script verbosity item)
    (opened : script.kindAt first = .symbol .leftBracket)
    (shown : script.Shows (first + 1) inner (Phrase.listed trailing items))
    (closed : script.kindAt inner = .symbol .rightBracket) :
    Opens script verbosity 7 first (inner + 1) (fun fuel => do
      Expr.arrayOf (← Expr.evaluateAll script verbosity fuel (items.map Phrase.tree))) := by
  apply opens_of_operand opened rfl
  apply Reads.current
  simp only [show (script.tokenAt first).kind = .symbol .leftBracket from opened]
  apply Reads.expectSymbol opened
  apply (reads_listed id (.inl rfl) id trailing written read shown closed).bind
  rintro found _ rfl
  apply Reads.expectSymbol closed
  rw [List.map_id]
  apply Reads.steady
  apply Coupling.Pairs.get.bind
  intro machine twin related
  rw [((Coupling.displaced_stores _).same related).heap]
  cases sharedType (found.map twin.heap.describe) with
  | ok element => exact (Coupling.displaced_stores _).allocate found element
  | error cause => exact fun _ _ related => .failed (.diagnostic cause trivial) related

theorem opens_call (name : String) (trailing : Bool) {items : List Phrase}
    (written : ∀ item ∈ items, Written 0 item) (read : ∀ item ∈ items, IsRead script verbosity item)
    (alike : Token.Alike (fun _ _ => True) (script.tokenAt first) (.name name))
    (opened : script.kindAt (first + 1) = .symbol .leftParen)
    (shown : script.Shows (first + 2) inner (Phrase.listed trailing items))
    (closed : script.kindAt inner = .symbol .rightParen) :
    Opens script verbosity 7 first (inner + 1) (fun fuel => do
      let values ← Expr.evaluateAll script verbosity fuel (items.map Phrase.tree)
      performCall (evaluator script verbosity fuel) (.name name)
        (values.map fun value => (Token.mark .comma, value)) fuel) := by
  have known : script.kindAt first = .identifier := alike.kind
  apply opens_of_operand known rfl
  apply Reads.current
  simp only [alike.kind]
  apply Reads.followingKind
  simp only [opened, call_eq]
  apply Reads.expectName known
  apply Reads.expectSymbol opened
  have arguments {first last : Nat} {evaluation : Nat → Exec Value}
      (read : Reads Eq first last (fun fuel _ => expression script verbosity fuel) evaluation) :
      Reads (fun found value => found.2 = value) first last (fun fuel _ => do
        let token ← current script
        return (token, ← expression script verbosity fuel)) evaluation := by
    have found : Reads (fun found value => found.2 = value) first last (fun fuel _ => do
        let token ← current script
        return (token, ← expression script verbosity fuel)) (fun fuel => evaluation fuel >>= pure) := by
      apply Reads.current
      exact read.then fun _ => .pure rfl
    simpa only [bind_pure] using found
  apply (reads_listed Prod.snd (.inr rfl) arguments trailing written read shown closed).whole.bind
  rintro given _ rfl
  apply Reads.expectSymbol closed
  exact .still (performCall_pairs _ · name alike given) (performCall_settles _ _)
    (performCall_settles _ _)

/-! ## Every written expression -/

theorem opens_binary (operator : BinaryOperator) {left right : Phrase}
    (opensLeft : (script.kindAt middle).Ends operator.rank.leftLevel →
      Opens script verbosity operator.rank.leftLevel first middle
        (fun fuel => left.tree.evaluate script verbosity fuel))
    (known : script.kindAt middle = .symbol operator.symbol)
    (reads : Reads Eq (middle + 1) last (reader script verbosity (operator.rank.level + 1))
      (fun fuel => right.tree.evaluate script verbosity fuel)) :
    Opens script verbosity operator.rank.level first last
      (fun fuel => (Expr.binary operator left.tree right.tree).evaluate script verbosity fuel) := by
  have joint : (script.kindAt middle).joint? = some operator.rank.level := by
    rw [known]
    exact Kind.joint_symbol operator
  -- A comparison has no comparison on its left, so its left operand is complete before the operator.
  by_cases compared : operator.rank = .comparison
  · rw [compared] at joint opensLeft reads ⊢
    have readsLeft := (opensLeft (.of_some joint (.inl (by decide)))).reads
      (by simp [joint, Rank.level, Rank.leftLevel])
    exact opens_comparison compared readsLeft known reads
  · have leftLevel : operator.rank.leftLevel = operator.rank.level := by
      cases operator <;> first | rfl | exact absurd rfl compared
    have chained : operator.rank.level ≠ 2 := by
      cases operator <;> first | decide | exact absurd rfl compared
    rw [leftLevel] at opensLeft
    exact opens_chain compared (opensLeft (.of_some joint (.inr ⟨rfl, chained⟩))) known reads

/-- However an expression is written, its level reads it as its tree is evaluated. -/
theorem opens_of_written {level : Nat} {phrase : Phrase} (written : Written level phrase)
    (shown : script.Shows first last phrase.tokens) (ends : (script.kindAt last).Ends level)
    (apart : phrase.tail.takes (script.kindAt last) = false) :
    Opens script verbosity level first last
      (fun fuel => phrase.tree.evaluate script verbosity fuel) := by
  -- What stands in brackets is read as an expression, and followed by the closing bracket.
  have whole {phrase : Phrase}
      (ih : ∀ {first last}, script.Shows first last phrase.tokens → (script.kindAt last).Ends 0 →
        phrase.tail.takes (script.kindAt last) = false →
          Opens script verbosity 0 first last (fun fuel => phrase.tree.evaluate script verbosity fuel)) :
      IsRead script verbosity phrase :=
    fun shown alone apart => (ih shown (.of_none alone) apart).expression alone
  induction written generalizing first last with
  | number digits => exact opened_number digits shown ends rfl
  | string piece pieces => exact opened_string piece pieces shown ends apart
  | character text => exact opened_character text shown ends rfl
  | boolean value => exact opened_boolean value shown ends rfl
  | null => exact opened_null shown ends rfl
  | named marked name =>
      refine opened_named marked name shown ends ?_
      cases marked with
      | false => exact apart
      | true => rfl
  | array trailing written ih =>
      obtain ⟨opening, shown⟩ := shown
      obtain ⟨inner, inside, closing, rfl⟩ := Script.shows_append.mp shown
      exact opens_array trailing written (fun item member => whole (ih item member)) opening.kind inside
        closing.kind
  | call name trailing written ih =>
      obtain ⟨alike, opening, shown⟩ := shown
      obtain ⟨inner, inside, closing, rfl⟩ := Script.shows_append.mp shown
      exact opens_call name trailing written (fun item member => whole (ih item member)) alike
        opening.kind inside closing.kind
  | grouped written ih =>
      obtain ⟨opening, shown⟩ := shown
      obtain ⟨inner, inside, closing, rfl⟩ := Script.shows_append.mp shown
      have read := IsRead.before (whole ih) inside closing.kind (.inr (.inr rfl))
      exact opens_grouped opening.kind read closing.kind
  | index written inside ih ihPlace =>
      obtain ⟨middle, begun, opening, shown⟩ := Script.shows_append.mp shown
      obtain ⟨inner, inside, closing, rfl⟩ := Script.shows_append.mp shown
      have known : script.kindAt middle = .symbol .leftBracket := opening.kind
      have joint : (script.kindAt middle).joint? = some 7 := by rw [known]; rfl
      have opens := ih begun (.of_some joint (.inr ⟨rfl, by simp⟩)) (Tail.takes_symbol known (by simp) _)
      have read := IsRead.before (whole ihPlace) inside closing.kind (.inr (.inl rfl))
      exact opens_index opens known read closing.kind
  | length written ih =>
      obtain ⟨middle, begun, dot, member, rfl⟩ := Script.shows_append.mp shown
      have known : script.kindAt middle = .symbol .dot := dot.kind
      have joint : (script.kindAt middle).joint? = some 7 := by rw [known]; rfl
      have opens := ih begun (.of_some joint (.inr ⟨rfl, by simp⟩)) (Tail.takes_symbol known (by simp) _)
      exact opens_length opens known member
  | unary operator written ih =>
      obtain ⟨alike, shown⟩ := shown
      exact opens_unary operator alike.kind ((ih shown ends apart).reads (Kind.joint_ne_prefix _))
  | @binary operator left right writtenLeft writtenRight ihLeft ihRight =>
      obtain ⟨middle, begun, alike, shown⟩ := Script.shows_append.mp shown
      have known : script.kindAt middle = .symbol operator.symbol := alike.kind
      have other : operator.symbol ≠ .leftParen := by
        cases operator <;> simp [BinaryOperator.symbol]
      have reads := (ihRight shown (ends.mono (Nat.le_succ _)) apart).reads
        (ends.ne (Nat.lt_succ_self _))
      exact opens_binary operator (fun ends => ihLeft begun ends (Tail.takes_symbol known other _)) known
        reads
  | typed test type written ih =>
      obtain ⟨middle, begun, word, name, rfl⟩ := Script.shows_append.mp shown
      have known : script.kindAt middle = .keyword (if test then .isWord else .asWord) := word.kind
      have joint : (script.kindAt middle).joint? = some 3 := by
        rw [known]
        cases test <;> rfl
      have opens := ih begun (.of_some joint (.inr ⟨rfl, by simp⟩))
        (by rw [known]; exact Tail.takes_keyword _ _)
      exact opens_typed test type opens known name
  | looser within written ih =>
      exact (ih shown (ends.mono (Nat.le_succ _)) apart).loosen within ends

/-- A written expression that nothing continues is read as its tree is evaluated. -/
theorem isRead_of_written {phrase : Phrase} (written : Written 0 phrase) :
    IsRead script verbosity phrase :=
  fun shown alone apart => (opens_of_written written shown (.of_none alone) apart).expression alone

end Exec

end Onepass
