import Onepass.Proofs.Extent.Phrase
import Onepass.Proofs.Lockstep.Basic

/-! # Expression trees

An expression as a tree: the tokens that render it, and its value by recursion on the tree. Both say
independently of each other what the ranks of the operators mean. The levels are, from the loosest to
the tightest:

* 0 disjunctions, 1 conjunctions and 2 comparisons,
* 3 type tests and conversions,
* 4 sums and 5 products,
* 6 operands with a prefix operator,
* 7 operands with what follows them.

A tree is put in parentheses where its level is lower than the one its place asks for, and nowhere
else. Nothing about a tree tells where its tokens stand, so every failure of its evaluation is reported
at the start.
-/

set_option autoImplicit false

namespace Onepass

/-! ## Trees -/

/-- A piece of a string literal. -/
inductive Piece where
  | text (content : String)
  /-- The value of a variable is inserted. -/
  | reference (name : String)
  deriving DecidableEq, Repr

/-- The token that names a type after `is` and `as`. -/
structure TypeName where
  kind : Kind
  word : String
  isType : kind.isType = true

/-- An expression. -/
inductive Expr where
  | number (digits : String)
  | string (first : Piece) (rest : List Piece)
  | character (text : String)
  | boolean (value : Bool)
  | null
  /-- A variable, marked with a dollar sign or not. -/
  | named (marked : Bool) (name : String)
  | array (elements : List Expr)
  | index (container place : Expr)
  | length (container : Expr)
  | call (name : String) (arguments : List Expr)
  | unary (operator : UnaryOperator) (operand : Expr)
  | binary (operator : BinaryOperator) (left right : Expr)
  /-- A type test, or else a conversion. -/
  | typed (test : Bool) (operand : Expr) (type : TypeName)

namespace Expr

/-- What holds of a tree if it holds of the trees below it holds of every tree. -/
@[induction_eliminator] theorem induction {motive : Expr → Prop}
    (number : ∀ digits, motive (.number digits))
    (string : ∀ first rest, motive (.string first rest))
    (character : ∀ text, motive (.character text))
    (boolean : ∀ value, motive (.boolean value))
    (null : motive .null)
    (named : ∀ marked name, motive (.named marked name))
    (array : ∀ elements, (∀ element ∈ elements, motive element) → motive (.array elements))
    (index : ∀ container place, motive container → motive place → motive (.index container place))
    (length : ∀ container, motive container → motive (.length container))
    (call : ∀ name arguments, (∀ argument ∈ arguments, motive argument) →
      motive (.call name arguments))
    (unary : ∀ operator operand, motive operand → motive (.unary operator operand))
    (binary : ∀ operator left right, motive left → motive right →
      motive (.binary operator left right))
    (typed : ∀ test operand type, motive operand → motive (.typed test operand type)) :
    ∀ tree, motive tree :=
  @Expr.rec motive (fun trees => ∀ tree ∈ trees, motive tree) number string character boolean null named
    array index length call unary binary typed (fun _ none => absurd none List.not_mem_nil)
    (fun _ _ first rest => List.forall_mem_cons.mpr ⟨first, rest⟩)

end Expr

/-! ## Rendering -/

/-- The symbol of a unary operator. -/
def UnaryOperator.symbol : UnaryOperator → Symbol
  | .negate => .minus
  | .invert => .bang

namespace Rank

/-- The level of what operators of the rank join. -/
def level : Rank → Nat
  | .disjunction => 0
  | .conjunction => 1
  | .comparison => 2
  | .sum => 4
  | .product => 5

/-- The level that the left operand needs. Comparisons do not chain; all other operators associate to
the left. -/
def leftLevel : Rank → Nat
  | .comparison => 3
  | rank => rank.level

theorem level_lt (rank : Rank) : rank.level < 6 := by
  cases rank <;> decide

end Rank

namespace Token

/-- A token that stands nowhere in particular. -/
def rendered (kind : Kind) (text : Option String) : Token :=
  ⟨kind, text, .start⟩

/-- The token of a symbol. -/
def mark (mark : Symbol) : Token :=
  rendered (.symbol mark) none

/-- The token of a name. -/
def name (name : String) : Token :=
  rendered .identifier (some name)

/-- The token of a keyword. -/
def keyword (word : Keyword) : Token :=
  rendered (.keyword word) (some word.spelling)

end Token

/-- The token of a piece. -/
def Piece.token : Piece → Token
  | .text content => .rendered .stringLiteral (some content)
  | .reference name => .rendered .reference (some name)

/-- The token of a type name. -/
def TypeName.token (type : TypeName) : Token :=
  .rendered type.kind (some type.word)

namespace Expr

/-- The level of a tree. -/
def level : Expr → Nat
  | .binary operator _ _ => operator.rank.level
  | .typed .. => 3
  | .unary .. => 6
  | _ => 7

/-- Tokens in parentheses, if these are needed. -/
def grouped (needed : Bool) (tokens : List Token) : List Token :=
  if needed then .mark .leftParen :: (tokens ++ [.mark .rightParen]) else tokens

mutual

/-- The tokens of a tree. -/
def tokens : Expr → List Token
  | .number digits => [.rendered .numberLiteral (some digits)]
  | .string first rest => first.token :: rest.map Piece.token
  | .character text => [.rendered .charLiteral (some text)]
  | .boolean value => [.rendered .booleanLiteral (some (if value then "true" else "false"))]
  | .null => [.keyword .nullWord]
  | .named marked name => if marked then [.mark .dollar, .name name] else [.name name]
  | .array elements => .mark .leftBracket :: (listed elements ++ [.mark .rightBracket])
  | .index container place =>
    grouped (container.level < 7) (tokens container) ++
      .mark .leftBracket :: (tokens place ++ [.mark .rightBracket])
  | .length container =>
    grouped (container.level < 7) (tokens container) ++ [.mark .dot, .name "length"]
  | .call name arguments =>
    .name name :: .mark .leftParen :: (listed arguments ++ [.mark .rightParen])
  | .unary operator operand =>
    .mark operator.symbol :: grouped (operand.level < 6) (tokens operand)
  | .binary operator left right =>
    grouped (left.level < operator.rank.leftLevel) (tokens left) ++
      .mark operator.symbol :: grouped (right.level < operator.rank.level + 1) (tokens right)
  | .typed test operand type =>
    grouped (operand.level < 3) (tokens operand) ++
      [.keyword (if test then .isWord else .asWord), type.token]

/-- The tokens of trees, with commas between them. -/
def listed : List Expr → List Token
  | [] => []
  | [last] => tokens last
  | first :: next :: rest => tokens first ++ .mark .comma :: listed (next :: rest)

end

/-- The tokens of a tree at a place that asks for a level. -/
def tokensAt (level : Nat) (tree : Expr) : List Token :=
  grouped (tree.level < level) tree.tokens

/-- Whether a token of the kind would be taken for a part of the tree if it followed: a name would
become a call, or a string literal would become longer. -/
def extendedBy (kind : Kind) : Expr → Bool
  | .named false _ => kind = .symbol .leftParen
  | .string .. => kind.isStringPiece
  | .unary _ operand => !(operand.level < 6) && operand.extendedBy kind
  | .binary operator _ right =>
    !(right.level < operator.rank.level + 1) && right.extendedBy kind
  | _ => false

/-- Whether an expression with the tree would go on with a token of the kind. -/
def continuedBy (kind : Kind) (tree : Expr) : Bool :=
  kind.continuesExpression || tree.extendedBy kind

theorem level_le (tree : Expr) : tree.level ≤ 7 := by
  cases tree with
  | binary operator _ _ =>
      have := operator.rank.level_lt
      rw [level]
      omega
  | _ => simp only [level]; omega

end Expr

/-- The tokens between two places of the script are the given ones, wherever these were rendered for. -/
def Script.Shows (script : Script) (first last : Nat) : List Token → Prop
  | [] => first = last
  | token :: rest =>
    Token.Alike (fun _ _ => True) (script.tokenAt first) token ∧ script.Shows (first + 1) last rest

instance Script.decidableShows (script : Script) (first last : Nat) :
    (tokens : List Token) → Decidable (script.Shows first last tokens)
  | [] => inferInstanceAs (Decidable (first = last))
  | token :: rest =>
    have := script.decidableShows (first + 1) last rest
    decidable_of_iff ((script.tokenAt first).kind = token.kind ∧
        (script.tokenAt first).text = token.text ∧ script.Shows (first + 1) last rest)
      ⟨fun ⟨kind, text, shown⟩ => ⟨⟨kind, text, trivial⟩, shown⟩,
        fun ⟨alike, shown⟩ => ⟨alike.kind, alike.text, shown⟩⟩

theorem Script.shows_append {script : Script} {first last : Nat} {leading rest : List Token} :
    script.Shows first last (leading ++ rest) ↔
      ∃ middle, script.Shows first middle leading ∧ script.Shows middle last rest := by
  induction leading generalizing first with
  | nil => simp [Shows]
  | cons token leading ih => simp [Shows, ih, and_assoc]

/-! ## Evaluation -/

/-- The text of a piece. -/
def Piece.evaluate : Piece → Exec String
  | .text content => return content
  | .reference name => do Exec.printed (← Exec.valueOf (.rendered .reference (some name)))

/-- The texts of pieces, joined. -/
def Piece.join : List Piece → Exec String
  | [] => return ""
  | piece :: rest => do return (← piece.evaluate) ++ (← join rest)

namespace Expr

/-- A new array of values that share a type. -/
def arrayOf (items : List Value) : Exec Value := do
  match Exec.sharedType (items.map (← get).heap.describe) with
  | .ok element => Exec.allocate items element
  | .error cause => Exec.refuse cause .start

variable (script : Script) (verbosity fuel : Nat)

mutual

/-- The value of a tree. Operands are evaluated from left to right, all of them; the script is needed
for the bodies of the functions that are called, and they need the fuel. -/
def evaluate : Expr → Exec Value
  | .number digits => return .number (.ofLiteral digits)
  | .string first rest => do return .string (← Piece.join (first :: rest))
  | .character text =>
    match text.toList with
    | [] => Exec.refuse .emptyCharacter .start
    | char :: _ => return .char char
  | .boolean value => return .boolean value
  | .null => return .null
  | .named _ name => Exec.valueOf (.name name)
  | .array elements => do arrayOf (← evaluateAll elements)
  | .index container place => do
    let container ← evaluate container
    let place ← evaluate place
    Exec.elementAt container place (.mark .leftBracket)
  | .length container => do Exec.lengthOf (← evaluate container) (.name "length")
  | .call name arguments => do
    let values ← evaluateAll arguments
    let given := values.map fun value => (Token.mark .comma, value)
    Exec.performCall (Exec.evaluator script verbosity fuel) (.name name) given fuel
  | .unary operator operand => do
    Exec.applyUnary (.mark operator.symbol) operator (← evaluate operand)
  | .binary operator left right => do
    let left ← evaluate left
    let right ← evaluate right
    Exec.applyBinary (.mark operator.symbol) operator left right
  | .typed test operand type => do Exec.testOrConvert test (← evaluate operand) type.token

/-- The values of trees. -/
def evaluateAll : List Expr → Exec (List Value)
  | [] => return []
  | first :: rest => do
    let value ← evaluate first
    return value :: (← evaluateAll rest)

end

variable {script verbosity fuel} {machine middle final : Machine}

theorem evaluate_index {container place : Expr} {value index : Value}
    (found : container.evaluate script verbosity fuel machine = .ok value middle)
    (chosen : place.evaluate script verbosity fuel middle = .ok index final) :
    (Expr.index container place).evaluate script verbosity fuel machine =
      Exec.elementAt value index (.mark .leftBracket) final := by
  rw [evaluate, Exec.bind_of_ok found, Exec.bind_of_ok chosen]

theorem evaluateAll_length {trees : List Expr} {values : List Value}
    (evaluated : evaluateAll script verbosity fuel trees machine = .ok values final) :
    values.length = trees.length := by
  induction trees generalizing values machine with
  | nil =>
      obtain ⟨rfl, -⟩ := Exec.pure_ok evaluated
      rfl
  | cons tree trees ih =>
      obtain ⟨_, _, _, following⟩ := Exec.bind_ok evaluated
      obtain ⟨_, _, others, ended⟩ := Exec.bind_ok following
      obtain ⟨rfl, rfl⟩ := Exec.pure_ok ended
      rw [List.length_cons, List.length_cons, ih others]

end Expr

end Onepass
