import Onepass.Value.Basic

/-! # Scopes

A scope maps names to bindings and keeps the order of declarations. The scopes of an execution are
the global one, the local ones of the block that is running, innermost first, and those of every
caller, which nobody can reach until the call returns. The global scope is always there: it is
shared by all calls and never removed.
-/

set_option autoImplicit false

namespace Onepass

/-- What a name stands for. Only parameters may be without a declared type. -/
structure Binding where
  value : Value
  type : Option DeclaredType
  constant : Bool
  deriving DecidableEq, Repr

/-- Names and their bindings in the order of declaration. -/
structure Scope where
  bindings : List (String × Binding)
  deriving DecidableEq, Repr

namespace Scope

/-- The scope without names. -/
def empty : Scope :=
  ⟨[]⟩

/-- The binding of a name. -/
def lookup? (scope : Scope) (name : String) : Option Binding :=
  scope.bindings.lookup name

/-- Whether the scope has the name. -/
def contains (scope : Scope) (name : String) : Bool :=
  (scope.lookup? name).isSome

/-- Adds a name after all others. The scope must not have it yet. -/
def add (scope : Scope) (name : String) (binding : Binding) : Scope :=
  ⟨scope.bindings ++ [(name, binding)]⟩

/-- Replaces the value that a name stands for. -/
def assign (scope : Scope) (name : String) (value : Value) : Scope :=
  ⟨replaced scope.bindings⟩
where
  /-- The entries with the value of the first one for the name replaced. -/
  replaced : List (String × Binding) → List (String × Binding)
    | [] => []
    | entry :: rest =>
      if entry.1 == name then (entry.1, { entry.2 with value }) :: rest else entry :: replaced rest

end Scope

/-- Why an operation on scopes is refused. -/
inductive ScopeError where
  /-- The global scope was to be removed. -/
  | globalRemoved
  deriving DecidableEq, Repr

/-- The wording of a refusal. -/
def ScopeError.message : ScopeError → String
  | .globalRemoved => "The global scope is never popped."

/-- All scopes of an execution. -/
structure Scopes where
  globals : Scope
  /-- The local scopes of the running block, innermost first. -/
  locals : List Scope
  /-- The local scopes of the callers, the nearest caller first. -/
  suspended : List (List Scope)
  deriving DecidableEq, Repr

namespace Scopes

/-- Only a global scope, without names. -/
def initial : Scopes :=
  ⟨.empty, [], []⟩

/-- The scopes that names are looked up in, innermost first. -/
def visible (scopes : Scopes) : List Scope :=
  scopes.locals ++ [scopes.globals]

/-- The innermost scope. -/
def current (scopes : Scopes) : Scope :=
  scopes.locals.headD scopes.globals

/-- How many scopes names are looked up in. -/
def depth (scopes : Scopes) : Nat :=
  scopes.locals.length + 1

/-- Opens a local scope. -/
def push (scopes : Scopes) (scope : Scope) : Scopes :=
  { scopes with locals := scope :: scopes.locals }

/-- Removes the innermost scope and gives it back. The global scope stays. -/
def pop (scopes : Scopes) : Except ScopeError (Scope × Scopes) :=
  match scopes.locals with
  | [] => .error .globalRemoved
  | scope :: rest => .ok (scope, { scopes with locals := rest })

/-- Removes the innermost local scope, if there is one. -/
def close (scopes : Scopes) : Scopes :=
  { scopes with locals := scopes.locals.tail }

/-- The binding of a name in the innermost scope that has it. -/
def lookup? (scopes : Scopes) (name : String) : Option Binding :=
  scopes.visible.findSome? fun scope => scope.lookup? name

/-- Adds a name to the innermost scope. -/
def add (scopes : Scopes) (name : String) (binding : Binding) : Scopes :=
  match scopes.locals with
  | [] => { scopes with globals := scopes.globals.add name binding }
  | scope :: rest => { scopes with locals := scope.add name binding :: rest }

/-- Adds a name to the innermost scope, unless that scope has it already; the flag tells which. -/
def declare (scopes : Scopes) (name : String) (binding : Binding) : Scopes × Bool :=
  if scopes.current.contains name then (scopes, false) else (scopes.add name binding, true)

/-- Replaces the value of a name in the innermost of the given scopes that has it. -/
def assignIn (name : String) (value : Value) : List Scope → Option (List Scope)
  | [] => none
  | scope :: rest =>
    if scope.contains name then some (scope.assign name value :: rest)
    else (assignIn name value rest).map (scope :: ·)

/-- Replaces the value of a name in the innermost scope that has it; the flag tells whether one
does. -/
def assign (scopes : Scopes) (name : String) (value : Value) : Scopes × Bool :=
  match assignIn name value scopes.locals with
  | some locals => ({ scopes with locals }, true)
  | none =>
    if scopes.globals.contains name then
      ({ scopes with globals := scopes.globals.assign name value }, true)
    else (scopes, false)

/-- Starts a call: the local scopes are put aside. -/
def enter (scopes : Scopes) : Scopes :=
  { scopes with locals := [], suspended := scopes.locals :: scopes.suspended }

/-- Ends a call: the local scopes of the caller come back. -/
def leave (scopes : Scopes) : Scopes :=
  match scopes.suspended with
  | [] => scopes
  | locals :: rest => { scopes with locals, suspended := rest }

/-- Closing undoes opening. -/
@[simp] theorem close_push (scopes : Scopes) (scope : Scope) : (scopes.push scope).close = scopes :=
  rfl

/-- Returning undoes calling. -/
@[simp] theorem leave_enter (scopes : Scopes) : scopes.enter.leave = scopes :=
  rfl

end Scopes

end Onepass
