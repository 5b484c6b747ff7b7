/-! # Scopes

The values of variables. A scope binds names to values. The scopes of a running program are the
global one and one for each function that is being called; a name is looked up in the innermost
scope and then in the global one, never in between.

* `Scope`: names with values.
* `Scopes`: the global scope and those of the calls, innermost first. -/

namespace MazeRobot

/-- Names with values, each name at most once. -/
structure Scope where
  /-- The names and their values. -/
  bindings : List (String × Int)
  deriving DecidableEq, Repr

namespace Scope

/-- The scope without names. -/
def empty : Scope := ⟨[]⟩

/-- The value of a name. -/
def get? (scope : Scope) (name : String) : Option Int := scope.bindings.lookup name

/-- The scope with a name bound to a value. -/
def define (scope : Scope) (name : String) (value : Int) : Scope :=
  ⟨(name, value) :: scope.bindings.filter (·.1 ≠ name)⟩

/-- `get?` finds no name in the `empty` scope. -/
@[simp] theorem get?_empty (name : String) : empty.get? name = none := rfl

/-- `get?` finds the value to which `define` has bound the name. -/
@[simp] theorem get?_define_self (scope : Scope) (name : String) (value : Int) :
    (scope.define name value).get? name = some value := by
  simp [get?, define]

/-- `define` leaves the values of the other names. -/
theorem get?_define_of_ne (scope : Scope) {name other : String} (value : Int)
    (ne : other ≠ name) : (scope.define name value).get? other = scope.get? other := by
  have differs : (other == name) = false := by simpa using ne
  simp only [get?, define, List.lookup_cons, differs]
  induction scope.bindings with
  | nil => rfl
  | cons binding bindings ih =>
    obtain ⟨key, bound⟩ := binding
    by_cases same : key = name
    · subst same
      simpa [List.lookup_cons, differs] using ih
    · rw [List.filter_cons_of_pos (by simpa using same), List.lookup_cons, List.lookup_cons, ih]

/-- The names of a scope. -/
def names (scope : Scope) : List String := scope.bindings.map (·.1)

/-- The scope that binds parameters to arguments, from left to right. -/
def ofArguments (parameters : List String) (arguments : List Int) : Scope :=
  (parameters.zip arguments).foldl (fun scope (name, value) => scope.define name value) empty

end Scope

/-- The scopes of a running program. -/
structure Scopes where
  /-- The scope of the program itself. -/
  globals : Scope
  /-- The scopes of the functions being called, innermost first. -/
  locals : List Scope
  deriving DecidableEq, Repr

namespace Scopes

/-- The scopes at the start of a program. -/
def initial : Scopes := ⟨.empty, []⟩

/-- The number of scopes. -/
def depth (scopes : Scopes) : Nat := scopes.locals.length + 1

/-- The innermost scope. -/
def innermost (scopes : Scopes) : Scope := scopes.locals.headD scopes.globals

/-- The scopes with one more for a call. -/
def push (scopes : Scopes) (scope : Scope) : Scopes :=
  { scopes with locals := scope :: scopes.locals }

/-- The scopes without the innermost ones beyond the given number; the global one always stays. -/
def popTo (scopes : Scopes) (depth : Nat) : Scopes :=
  { scopes with locals := scopes.locals.drop (scopes.locals.length - (depth - 1)) }

/-- `push` adds one scope to the `depth`. -/
@[simp] theorem depth_push (scopes : Scopes) (scope : Scope) :
    (scopes.push scope).depth = scopes.depth + 1 := rfl

/-- `popTo` the depth before a `push` undoes it. -/
@[simp] theorem popTo_push (scopes : Scopes) (scope : Scope) :
    (scopes.push scope).popTo scopes.depth = scopes := by
  simp [popTo, push, depth]

/-- The value of a name: the innermost scope comes first, then the global one. -/
def get? (scopes : Scopes) (name : String) : Option Int :=
  (scopes.innermost.get? name).or (scopes.globals.get? name)

/-- The scopes with a name bound in the innermost one. -/
def assign (scopes : Scopes) (name : String) (value : Int) : Scopes :=
  match scopes.locals with
  | [] => { scopes with globals := scopes.globals.define name value }
  | scope :: outer => { scopes with locals := scope.define name value :: outer }

/-- The names that can be looked up. -/
def visible (scopes : Scopes) : List String := scopes.innermost.names ++ scopes.globals.names

end Scopes

end MazeRobot
