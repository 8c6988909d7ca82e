/-
  Finding a declaration by name: in one scope alone, or from a scope outward, where the
  innermost declaration of the name wins.
-/
import ModuleCompiler.Decl.Table
import ModuleCompiler.Event

namespace ModuleCompiler.Table

/-- The scope of a declaration of this table, for finding `name` in it. -/
def scopeFor (t : Table) (id : DeclId) (name : String) : Except Fault Scope := do
  let d ← t.decl id
  match d.scope? with
  | some scope => return scope
  | none => throw (.diagnostic (.cannotLookup name d.name))

/-- The declaration of the name in the given scope alone. -/
def lookupLocal (t : Table) (scope : DeclId) (name : String) : Except Fault (Option DeclId) := do
  return (← t.scopeFor scope name).find? name

/-- The first declaration of the name on a walk outward; a declaration without a scope ends
the walk. -/
def lookupAlong (t : Table) (name : String) : List DeclId → Option DeclId
  | [] => none
  | id :: outer =>
    match (t.get? id).bind Decl.scope? with
    | none => none
    | some scope =>
      match scope.find? name with
      | some found => some found
      | none => t.lookupAlong name outer

/-- The declaration of the name in the given scope or else in the nearest one around it. -/
def lookup (t : Table) (scope : DeclId) (name : String) : Except Fault (Option DeclId) := do
  let _ ← t.scopeFor scope name
  return t.lookupAlong name (t.ancestry scope)

/-- The scopes that are searched for the name on a walk outward, by name of their owner. -/
def searchedAlong (t : Table) (name : String) : List DeclId → List String
  | [] => []
  | id :: outer =>
    match t.get? id with
    | none => []
    | some d =>
      match d.scope? with
      | none => []
      | some scope => d.name :: if scope.contains name then [] else t.searchedAlong name outer

/-- The events of looking the name up from the given scope, one per scope searched. -/
def lookupEvents (t : Table) (scope : DeclId) (name : String) : List Event :=
  (t.searchedAlong name (t.ancestry scope)).map (.lookedUp name)

end ModuleCompiler.Table
