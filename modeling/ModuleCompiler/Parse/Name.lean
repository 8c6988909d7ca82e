/-
  Uses of names: `Name` is looked up from a scope outward, and `Module.Name` in the named
  module alone.
-/
import ModuleCompiler.Parse.Basic

namespace ModuleCompiler

/-- What a use of a name stands for, and how it is spelt. -/
structure Resolved where
  decl : DeclId
  spelling : String
  deriving DecidableEq, Repr

namespace Parse

/-- Reads the member of a module behind the period. -/
def member (module : DeclId) (name : String) : Parse Resolved := do
  advance
  let member ← expectIdent
  match ← ask (·.lookupLocal module member) with
  | some found => return ⟨found, name ++ "." ++ member⟩
  | none => fail (.notFoundInModule member name)

/-- Reads `Name` or `Module.Name`; without a scope no name stands for anything. -/
def qualifiedName (scope : Option DeclId) : Parse Resolved := do
  match scope with
  | none => fail (.noScope (← cursor).current.describe)
  | some scope =>
    let name ← expectIdent
    match ← lookup scope name with
    | none => fail (.notFound name)
    | some found =>
      if (← ask (·.decl found)).isModule && (← isAt .period) then
        member found name
      else
        return ⟨found, name⟩

/-- Reads a name that has to stand for a type. -/
def typeName (scope : Option DeclId) : Parse DeclId := do
  let resolved ← qualifiedName scope
  match (← ask (·.decl resolved.decl)).representation? with
  | some _ => return resolved.decl
  | none => fail (.notAType resolved.spelling)

end Parse

end ModuleCompiler
