import Onepass.Token.Basic
import Onepass.Value.Type

/-! # Functions

A function is known by its signature and by where its body stands among the tokens of the script.
The table of functions keeps the order of declaration; entries are never removed or replaced.
-/

set_option autoImplicit false

namespace Onepass

/-- A parameter; one without a type takes every value. -/
structure Parameter where
  name : String
  type : Option DeclaredType
  deriving DecidableEq, Repr

/-- A function: its signature, the place of the first token of its body, and that of the brace which
ends the body. -/
structure Function where
  name : String
  parameters : List Parameter
  returnType : DeclaredType
  start : Nat
  finish : Nat
  deriving DecidableEq, Repr

namespace Function

/-- How many arguments the function takes. -/
def arity (function : Function) : Nat :=
  function.parameters.length

/-- The tokens of the body. -/
def body (function : Function) (tokens : List Token) : List Token :=
  (tokens.take function.finish).drop function.start

end Function

/-- The functions declared so far, in the order of declaration. -/
abbrev FunctionTable := List Function

namespace FunctionTable

/-- The function with a name. -/
def lookup? (table : FunctionTable) (name : String) : Option Function :=
  table.find? fun function => function.name == name

/-- Adds a function after all others, unless its name is taken. -/
def register? (table : FunctionTable) (function : Function) : Option FunctionTable :=
  if (lookup? table function.name).isSome then none else some (table ++ [function])

end FunctionTable

end Onepass
