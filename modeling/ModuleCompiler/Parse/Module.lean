/-
  Modules: procedures, then a body, which becomes a procedure of its own.
-/
import ModuleCompiler.Parse.Procedure

namespace ModuleCompiler.Parse

/-- The name of the procedure that holds a module's body. -/
def initName : String := "_init"

/-- Reads a module's body as a procedure of the module. -/
def initializer (module : DeclId) : Parse DeclId := do
  let opened ← openProcedure initName (some module) true none
  body opened

/-- Reads procedures as long as there are any, at most `bound` of them. -/
def procedures (module : DeclId) : (bound : Nat) → Parse Unit
  | 0 => return
  | bound + 1 => do
    if ← isAt (.keyword .procedureWord) then
      let _ ← procedure module
      procedures module bound

/-- Reads `MODULE name ; procedures body END name .`. A procedure takes more than one token,
so there are no more of them than tokens behind the current one. -/
def module (parent : Option DeclId) : Parse DeclId := do
  consume (.keyword .moduleWord)
  let name ← expectIdent
  consume .semicolon
  let module ← create (·.createModule name parent)
  procedures module (← cursor).remaining
  let _ ← initializer module
  consume (.keyword .endWord)
  closingName "module" name
  consume .period
  tell [.parsedModule name (← get).table.size]
  return module

end ModuleCompiler.Parse
