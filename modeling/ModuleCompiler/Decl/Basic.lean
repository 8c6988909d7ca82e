/-
  Declarations: modules, procedures, types and variables, each with a name and the id of
  the declaration that encloses it. Modules and procedures have a scope, which lists the
  declarations in them by name, in the order of the names.
-/
import ModuleCompiler.Diagnostic

namespace ModuleCompiler

/-- A declaration's place in its table. -/
@[ext] structure DeclId where
  index : Nat
  deriving DecidableEq, Repr

/-- The text that stands for an id. -/
def DeclId.label (id : DeclId) : String :=
  "#" ++ toString id.index

/-- What ends an operation: a diagnostic, or an id that is not of the table at hand. -/
inductive Fault where
  | diagnostic (d : Diagnostic)
  | foreignId (id : DeclId)
  deriving DecidableEq, Repr

/-- The names of one declaration's scope, each with the declaration it stands for. -/
structure Scope where
  entries : List (String × DeclId) := []
  deriving DecidableEq, Repr

namespace Scope

/-- The scope with no names. -/
def empty : Scope := {}

/-- The declaration that the name stands for. -/
def find? (s : Scope) (name : String) : Option DeclId :=
  s.entries.lookup name

/-- The name is taken. -/
def contains (s : Scope) (name : String) : Bool :=
  (s.find? name).isSome

/-- The names in order. -/
def names (s : Scope) : List String :=
  s.entries.map Prod.fst

/-- Places an entry before the first greater name. -/
def place (name : String) (id : DeclId) : List (String × DeclId) → List (String × DeclId)
  | [] => [(name, id)]
  | e :: es => if name < e.1 then (name, id) :: e :: es else e :: place name id es

/-- The scope with one more name, which was not taken. -/
def insert (s : Scope) (name : String) (id : DeclId) : Scope :=
  ⟨place name id s.entries⟩

theorem lookup_cons (x name : String) (id : DeclId) (es : List (String × DeclId)) :
    ((name, id) :: es).lookup x = if x = name then some id else es.lookup x := by
  change (match x == name with | true => some id | false => es.lookup x) = _
  by_cases h : x = name
  · simp [h]
  · simp [h, beq_eq_false_iff_ne.2 h]

theorem lookup_place {name : String} {id : DeclId} {es : List (String × DeclId)}
    (h : es.lookup name = none) (x : String) :
    (place name id es).lookup x = if x = name then some id else es.lookup x := by
  induction es with
  | nil => rw [place, lookup_cons]
  | cons e es ih =>
    obtain ⟨n, i⟩ := e
    rw [lookup_cons] at h
    split at h
    · cases h
    · next hn =>
      rw [place]
      split
      · rw [lookup_cons]
      · rw [lookup_cons, ih h, lookup_cons]
        by_cases hx : x = name
        · simp [hx, hn]
        · simp [hx]

theorem find?_insert {s : Scope} {name : String} {id : DeclId} (h : s.find? name = none)
    (x : String) : (s.insert name id).find? x = if x = name then some id else s.find? x :=
  lookup_place h x

end Scope

/-- What a declaration declares. -/
inductive DeclKind where
  | module (scope : Scope)
  | procedure (scope : Scope) (exported : Bool) (returns : Option DeclId)
  | type (representation : String)
  | var (type : Option DeclId) (exported mutable : Bool)
  deriving DecidableEq, Repr

namespace DeclKind

/-- The keyword that introduces such a declaration. -/
def keyword : DeclKind → String
  | module _ => "MODULE"
  | procedure .. => "PROCEDURE"
  | type _ => "TYPE"
  | var .. => "VAR"

/-- The scope of a module or procedure. -/
def scope? : DeclKind → Option Scope
  | module scope | procedure scope _ _ => some scope
  | type _ | var .. => none

/-- The same kind with one more name in its scope, if it has a scope. -/
def register (name : String) (id : DeclId) : DeclKind → DeclKind
  | module scope => module (scope.insert name id)
  | procedure scope exported returns => procedure (scope.insert name id) exported returns
  | kind => kind

theorem scope?_register (name : String) (id : DeclId) (k : DeclKind) :
    (k.register name id).scope? = k.scope?.map (·.insert name id) := by
  cases k <;> rfl

end DeclKind

/-- A declaration: its name, the declaration that encloses it, and what it declares. -/
structure Decl where
  name : String
  parent : Option DeclId
  kind : DeclKind
  deriving DecidableEq, Repr

namespace Decl

/-- The scope of a module or procedure. -/
def scope? (d : Decl) : Option Scope := d.kind.scope?

/-- The declaration is a module. -/
def isModule (d : Decl) : Bool :=
  d.kind matches .module _

/-- The representation of a type declaration. -/
def representation? (d : Decl) : Option String :=
  match d.kind with
  | .type representation => some representation
  | _ => none

theorem representation?_eq_some_iff {d : Decl} {representation : String} :
    d.representation? = some representation ↔ d.kind = .type representation := by
  obtain ⟨_, _, _ | _ | _ | _⟩ := d <;> simp [representation?]

/-- The declaration with one more name in its scope, if it has a scope. -/
def register (d : Decl) (name : String) (id : DeclId) : Decl :=
  { d with kind := d.kind.register name id }

end Decl

end ModuleCompiler
