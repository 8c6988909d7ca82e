/-
  The names of a declaration for the outside: its path, which names every enclosing
  declaration, and its linkage name, which stops at the nearest module.
-/
import ModuleCompiler.Decl.Table

namespace ModuleCompiler.Table

/-- The names along a walk outward, the outermost first. -/
def namesAlong (t : Table) (walk : List DeclId) : List String :=
  walk.reverse.filterMap fun id => (t.get? id).map Decl.name

/-- The names from the outermost declaration down to the given one, with dots between them. -/
def pathText (t : Table) (id : DeclId) : String :=
  ".".intercalate (t.namesAlong (t.ancestry id))

/-- The path of a declaration of this table. -/
def path (t : Table) (id : DeclId) : Except Fault String := do
  let _ ← t.decl id
  return t.pathText id

/-! ## Linkage names -/

/-- Puts names before the suffix, walking outward up to and including the first module. -/
def mangleAlong (t : Table) : List DeclId → String → String
  | [], suffix => suffix
  | id :: outer, suffix =>
    match t.get? id with
    | none => suffix
    | some d =>
      let joined := d.name ++ "_" ++ suffix
      if d.isModule then joined else t.mangleAlong outer joined

/-- The suffix as a name inside the given declaration. -/
def mangle (t : Table) (id : DeclId) (suffix : String) : Except Fault String := do
  let _ ← t.decl id
  return t.mangleAlong (t.ancestry id) suffix

/-- The name of a declaration in the output: a module's is its own name, any other's is its
name inside its parent. -/
def linkageName (t : Table) (id : DeclId) : Except Fault String := do
  let d ← t.decl id
  if d.isModule then
    return d.name
  match t.parent id with
  | some p => t.mangle p d.name
  | none => return d.name

/-! ## Representations -/

/-- How the absence of a value is written in the output. -/
def voidRepresentation : String := "void"

/-- How values of a type are written in the output: nothing that is no type has values. -/
def representation (t : Table) (type : Option DeclId) : String :=
  ((type.bind t.get?).bind Decl.representation?).getD voidRepresentation

end ModuleCompiler.Table
