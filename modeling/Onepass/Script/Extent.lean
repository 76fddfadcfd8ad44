import Onepass.Script.Basic
import Onepass.Value.Operator

/-! # How far the parts of a script reach

Bodies that are not executed are passed over by their grammar alone. Each function here says where
the part that begins at a place ends, which is a place further on, or refuses the script with the
diagnostic that belongs to the first token out of place. Nothing is evaluated, and the only thing
that matters apart from the tokens is what the running function returns: it decides whether a
`return` at the end of a line has a value.
-/

set_option autoImplicit false

namespace Onepass

/-- A place after the given one. -/
abbrev Ahead (place : Nat) := { next : Nat // place < next }

/-- The given place or one after it. -/
abbrev Onward (place : Nat) := { next : Nat // place ≤ next }

namespace Kind

/-- Whether an expression can begin with a token of the kind. -/
def startsExpression : Kind → Bool
  | .numberLiteral | .stringLiteral | .reference | .charLiteral | .booleanLiteral | .identifier
  | .keyword .nullWord | .symbol .leftParen | .symbol .leftBracket | .symbol .dollar
  | .symbol .minus | .symbol .bang => true
  | _ => false

/-- Whether the kind is a symbol of assignment, plain or compound. -/
def isAssignment : Kind → Bool
  | .symbol .equal | .symbol .plusEqual | .symbol .minusEqual | .symbol .asteriskEqual
  | .symbol .slashEqual | .symbol .percentEqual => true
  | _ => false

/-- Whether the kind is a step up or down by one. -/
def isStep : Kind → Bool
  | .symbol .plusPlus | .symbol .minusMinus => true
  | _ => false

/-- The binary operator that a token of the kind stands for. -/
def binary? : Kind → Option BinaryOperator
  | .symbol mark => BinaryOperator.ofSymbol? mark
  | _ => none

/-- The unary operator that a token of the kind stands for. -/
def unary? : Kind → Option UnaryOperator
  | .symbol mark => UnaryOperator.ofSymbol? mark
  | _ => none

/-- Whether the token is a piece of a string literal. -/
def isStringPiece : Kind → Bool
  | .stringLiteral | .reference => true
  | _ => false

end Kind

namespace Script

/-- The end of a token of the given kind. -/
def tokenEnd (script : Script) (kind : Kind) (place : Nat) : Except Diagnostic (Ahead place) :=
  if script.kindAt place = kind then .ok ⟨place + 1, Nat.lt_succ_self place⟩
  else .error (script.fault (.expected kind (script.kindAt place)) place)

/-- The declared type named by the token at a place. -/
def typeAt (script : Script) (place : Nat) : Except Diagnostic DeclaredType :=
  let token := script.tokenAt place
  if token.kind.isType then
    let type := DeclaredType.ofName token.word
    if type.base ∈ DeclaredType.declarable then .ok type
    else .error (script.fault (.unsupportedType token.word) place)
  else .error (script.fault (.expectedType token.kind) place)

/-- Whether a `return` on the given line is followed by a value: an expression has to begin at the
place, and on a later line it belongs to the `return` only inside a function that must give a
value. -/
def returnHasValue (script : Script) (running : Option DeclaredType) (line place : Nat) : Bool :=
  let token := script.tokenAt place
  token.kind.startsExpression &&
    (token.position.line == line || (running.map (· != .void)).getD false)

/-- Where so many open brackets are closed. Only tokens of the two given kinds count. -/
def nestedEnd (script : Script) (opening closing : Kind) (depth place : Nat) :
    Except Diagnostic (Onward place) :=
  match depth with
  | 0 => .ok ⟨place, Nat.le_refl place⟩
  | outer + 1 =>
    if _proper : script.kindAt place = .endOfInput then
      .error (script.fault (.expected closing .endOfInput) place)
    else
      let deeper :=
        if script.kindAt place = opening then outer + 2
        else if script.kindAt place = closing then outer
        else outer + 1
      (nestedEnd script opening closing deeper (place + 1)).map
        fun next => ⟨next.val, Nat.le_of_succ_le next.property⟩
termination_by script.size - place
decreasing_by
  have := lt_size_of_kindAt _proper
  omega

/-- The end of something in brackets: just after the closing one that matches the opening one. -/
def balancedEnd (script : Script) (opening closing : Kind) (place : Nat) :
    Except Diagnostic (Ahead place) := do
  let inside ← script.tokenEnd opening place
  let next ← script.nestedEnd opening closing 1 inside
  return ⟨next, Nat.lt_of_lt_of_le inside.property next.property⟩

/-- The end of something in parentheses. -/
def parenthesesEnd (script : Script) (place : Nat) : Except Diagnostic (Ahead place) :=
  script.balancedEnd (.symbol .leftParen) (.symbol .rightParen) place

/-- The end of something in square brackets. -/
def bracketsEnd (script : Script) (place : Nat) : Except Diagnostic (Ahead place) :=
  script.balancedEnd (.symbol .leftBracket) (.symbol .rightBracket) place

/-- The end of something in braces. -/
def bracesEnd (script : Script) (place : Nat) : Except Diagnostic (Ahead place) :=
  script.balancedEnd (.symbol .leftBrace) (.symbol .rightBrace) place

/-- The end of a run of tokens whose kinds are in a class. The mark of the end never belongs to
it. -/
def runEnd (script : Script) (isMember : Kind → Bool) (place : Nat) : Onward place :=
  if _inside : script.kindAt place ≠ .endOfInput ∧ isMember (script.kindAt place) = true then
    let next := runEnd script isMember (place + 1)
    ⟨next.val, Nat.le_of_succ_le next.property⟩
  else ⟨place, Nat.le_refl place⟩
termination_by script.size - place
decreasing_by
  have := lt_size_of_kindAt _inside.1
  omega

/-- The end of an operand, without its prefix operators and without what follows it. -/
def operandEnd (script : Script) (place : Nat) : Except Diagnostic (Ahead place) :=
  let next : Ahead place := ⟨place + 1, Nat.lt_succ_self place⟩
  match script.kindAt place with
  | .numberLiteral | .charLiteral | .booleanLiteral | .keyword .nullWord => .ok next
  | .stringLiteral | .reference =>
    let after := script.runEnd Kind.isStringPiece (place + 1)
    .ok ⟨after, Nat.lt_of_succ_le after.property⟩
  | .symbol .leftParen => script.parenthesesEnd place
  | .symbol .leftBracket => script.bracketsEnd place
  | .identifier =>
    if script.kindAt (place + 1) = .symbol .leftParen then
      (script.parenthesesEnd (place + 1)).map
        fun after => ⟨after.val, Nat.lt_of_succ_lt after.property⟩
    else .ok next
  | .symbol .dollar =>
    (script.tokenEnd .identifier (place + 1)).map
      fun after => ⟨after.val, Nat.lt_of_succ_lt after.property⟩
  | kind => .error (script.fault (.unexpectedToken kind) place)

/-- The end of one index, one property, or one type test or conversion after an operand, if one of
them follows. -/
def suffixEnd? (script : Script) (place : Nat) : Option (Except Diagnostic (Ahead place)) :=
  match script.kindAt place with
  | .symbol .leftBracket => some (script.bracketsEnd place)
  | .symbol .dot =>
    some ((script.tokenEnd .identifier (place + 1)).map
      fun after => ⟨after.val, Nat.lt_of_succ_lt after.property⟩)
  | .keyword .isWord | .keyword .asWord =>
    if (script.kindAt (place + 1)).isType then
      some (.ok ⟨place + 2, Nat.lt_add_of_pos_right (by decide)⟩)
    else
      some (.error (script.fault (.unsupportedType (script.tokenAt (place + 1)).shown) (place + 1)))
  | _ => none

theorem lt_size_of_suffixEnd? {script : Script} {place : Nat}
    {result : Except Diagnostic (Ahead place)} (follows : script.suffixEnd? place = some result) :
    place < script.size := by
  apply lt_size_of_kindAt
  intro ended
  simp [suffixEnd?, ended] at follows

/-- The end of everything that follows an operand. -/
def suffixesEnd (script : Script) (place : Nat) : Except Diagnostic (Onward place) :=
  match _follows : script.suffixEnd? place with
  | none => .ok ⟨place, Nat.le_refl place⟩
  | some result => do
    let next ← result
    let after ← suffixesEnd script next.val
    return ⟨after.val, Nat.le_trans (Nat.le_of_lt next.property) after.property⟩
termination_by script.size - place
decreasing_by
  have := lt_size_of_suffixEnd? _follows
  have := next.property
  omega

/-- The end of an expression: operands with their prefix operators and what follows them, joined by
binary operators of any rank. -/
def expressionEnd (script : Script) (place : Nat) : Except Diagnostic (Ahead place) := do
  let operand := script.runEnd (fun kind => kind.unary?.isSome) place
  let primary ← script.operandEnd operand.val
  let finish ← script.suffixesEnd primary.val
  have ahead : place < finish.val :=
    Nat.lt_of_lt_of_le (Nat.lt_of_le_of_lt operand.property primary.property) finish.property
  if _joined : (script.kindAt finish.val).binary?.isSome = true then
    let after ← expressionEnd script (finish.val + 1)
    return ⟨after.val, Nat.lt_trans ahead (Nat.lt_of_succ_lt after.property)⟩
  else
    return ⟨finish.val, ahead⟩
termination_by script.size - place
decreasing_by
  have proper : script.kindAt finish.val ≠ .endOfInput := by
    intro ended
    simp [ended, Kind.binary?] at _joined
  have := lt_size_of_kindAt proper
  omega

/-- The end of a declaration of a variable, from its name on. -/
def namedDeclarationEnd (script : Script) (place : Nat) : Except Diagnostic (Ahead place) := do
  let name ← script.tokenEnd .identifier place
  let colon ← script.tokenEnd (.symbol .colon) name.val
  let _ ← script.typeAt colon.val
  let equal ← script.tokenEnd (.symbol .equal) (colon.val + 1)
  let finish ← script.expressionEnd equal.val
  return ⟨finish.val, by
    have := name.property
    have := colon.property
    have := equal.property
    have := finish.property
    omega⟩

/-- The end of a declaration of a variable or, with a dollar sign before its name, of a constant. -/
def declarationEnd (script : Script) (place : Nat) : Except Diagnostic (Ahead place) :=
  if script.kindAt place = .symbol .dollar then
    (script.namedDeclarationEnd (place + 1)).map
      fun after => ⟨after.val, Nat.lt_of_succ_lt after.property⟩
  else script.namedDeclarationEnd place

/-- The end of an assignment that begins with its name. -/
def assignmentEnd (script : Script) (place : Nat) : Except Diagnostic (Ahead place) := do
  let target ← indicesEnd (place + 1)
  if (script.kindAt target.val).isStep then
    return ⟨target.val + 1, Nat.lt_succ_of_le (Nat.le_of_succ_le target.property)⟩
  else if (script.kindAt target.val).isAssignment then
    let finish ← script.expressionEnd (target.val + 1)
    return ⟨finish.val, by
      have := target.property
      have := finish.property
      omega⟩
  else
    .error (script.fault (.expected (.symbol .equal) (script.kindAt target.val)) target.val)
where
  /-- The end of the indices after the name. -/
  indicesEnd (place : Nat) : Except Diagnostic (Onward place) := do
    if _indexed : script.kindAt place = .symbol .leftBracket then
      let next ← script.bracketsEnd place
      let after ← indicesEnd next.val
      return ⟨after.val, Nat.le_trans (Nat.le_of_lt next.property) after.property⟩
    else
      return ⟨place, Nat.le_refl place⟩
  termination_by script.size - place
  decreasing_by
    have proper : script.kindAt place ≠ .endOfInput := by simp [_indexed]
    have := lt_size_of_kindAt proper
    have := next.property
    omega

/-- The end with the semicolon that may follow. -/
def semicolonEnd {start : Nat} (script : Script) (place : Ahead start) : Ahead start :=
  if script.kindAt place.val = .symbol .semicolon then
    ⟨place.val + 1, Nat.lt_succ_of_lt place.property⟩
  else place

mutual

/-- The end of a statement that is not empty, without the semicolon that may follow it. -/
def unterminatedEnd (script : Script) (running : Option DeclaredType) (place : Nat) :
    Except Diagnostic (Ahead place) := do
  match _kind : script.kindAt place with
  | .keyword .ifWord =>
    let condition ← script.parenthesesEnd (place + 1)
    let body ← bodyEnd script running condition.val
    let chain ← branchesEnd script running body.val
    return ⟨chain.val, Nat.lt_of_lt_of_le (Nat.lt_trans (Nat.lt_of_succ_lt condition.property)
      body.property) chain.property⟩
  | .keyword .forWord | .keyword .whileWord =>
    let header ← script.parenthesesEnd (place + 1)
    let body ← bodyEnd script running header.val
    return ⟨body.val, Nat.lt_trans (Nat.lt_of_succ_lt header.property) body.property⟩
  | .keyword .funcWord =>
    let brace := script.runEnd (· != .symbol .leftBrace) place
    let body ← script.bracesEnd brace.val
    return ⟨body.val, Nat.lt_of_le_of_lt brace.property body.property⟩
  | .symbol .leftBrace => script.bracesEnd place
  | .keyword .printWord | .keyword .printlnWord =>
    let arguments ← script.parenthesesEnd (place + 1)
    return ⟨arguments.val, Nat.lt_of_succ_lt arguments.property⟩
  | .keyword .breakWord | .keyword .continueWord => return ⟨place + 1, Nat.lt_succ_self place⟩
  | .keyword .returnWord =>
    if script.returnHasValue running (script.tokenAt place).position.line (place + 1) then
      let value ← script.expressionEnd (place + 1)
      return ⟨value.val, Nat.lt_of_succ_lt value.property⟩
    else
      return ⟨place + 1, Nat.lt_succ_self place⟩
  | .symbol .dollar => script.declarationEnd place
  | .identifier =>
    if script.kindAt (place + 1) = .symbol .colon then script.declarationEnd place
    else if script.kindAt (place + 1) = .symbol .leftParen then
      let arguments ← script.parenthesesEnd (place + 1)
      return ⟨arguments.val, Nat.lt_of_succ_lt arguments.property⟩
    else script.assignmentEnd place
  | _ => .error (script.fault .statementStart place)
termination_by 3 * (script.size - place)
decreasing_by
  all_goals
    have proper : script.kindAt place ≠ .endOfInput := by simp [_kind]
    have := lt_size_of_kindAt proper
    omega

/-- The end of a statement, with the semicolon that may follow it. A lone semicolon is a
statement. -/
def statementEnd (script : Script) (running : Option DeclaredType) (place : Nat) :
    Except Diagnostic (Ahead place) :=
  if script.kindAt place = .symbol .semicolon then .ok ⟨place + 1, Nat.lt_succ_self place⟩
  else (unterminatedEnd script running place).map script.semicolonEnd
termination_by 3 * (script.size - place) + 1

/-- The end of a block or a single statement. -/
def bodyEnd (script : Script) (running : Option DeclaredType) (place : Nat) :
    Except Diagnostic (Ahead place) :=
  if script.kindAt place = .symbol .leftBrace then script.bracesEnd place
  else statementEnd script running place
termination_by 3 * (script.size - place) + 2

/-- The end of the later branches of a conditional. -/
def branchesEnd (script : Script) (running : Option DeclaredType) (place : Nat) :
    Except Diagnostic (Onward place) := do
  if _more : script.kindAt place = .keyword .elseIfWord then
    let condition ← script.parenthesesEnd (place + 1)
    let body ← bodyEnd script running condition.val
    let chain ← branchesEnd script running body.val
    return ⟨chain.val, Nat.le_of_lt (Nat.lt_of_lt_of_le (Nat.lt_trans
      (Nat.lt_of_succ_lt condition.property) body.property) chain.property)⟩
  else if _last : script.kindAt place = .keyword .elseWord then
    let body ← bodyEnd script running (place + 1)
    return ⟨body.val, Nat.le_of_lt (Nat.lt_of_succ_lt body.property)⟩
  else
    return ⟨place, Nat.le_refl place⟩
termination_by 3 * (script.size - place)
decreasing_by
  all_goals
    have proper : script.kindAt place ≠ .endOfInput := by simp [*]
    have := lt_size_of_kindAt proper
    omega

end

end Script

end Onepass
