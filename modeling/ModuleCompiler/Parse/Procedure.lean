/-
  Procedures. A procedure is declared and its header written once its heading is read; its
  body then writes the one line that returns. In between it is open.
-/
import ModuleCompiler.Parse.Name
import ModuleCompiler.Predeclared

namespace ModuleCompiler

/-- A procedure whose header is written and whose body is not. -/
structure OpenProcedure where
  id : DeclId
  name : String
  returns : Option DeclId
  deriving DecidableEq, Repr

namespace Parse

/-- Declares a procedure and writes its header. -/
def openProcedure (name : String) (parent : Option DeclId) (exported : Bool)
    (returns : Option DeclId) : Parse OpenProcedure := do
  let id ← create (·.createProcedure name parent exported returns)
  let linkage ← ask (·.linkageName id)
  let representation := (← get).table.representation returns
  emit (.header representation linkage)
  tell [.emittedPrologue linkage representation]
  return ⟨id, name, returns⟩

/-- Returns without a value, which a procedure with a return type may not do. -/
def returnNothing (p : OpenProcedure) : Parse DeclId := do
  match p.returns with
  | some type => fail (.missingReturnValue p.name (← ask (·.decl type)).name)
  | none =>
    emit .retVoid
    return p.id

/-- Returns the current token's value, which only an INTEGER procedure may do. -/
def returnValue (p : OpenProcedure) (value : Int32) : Parse DeclId := do
  if (← get).table.representation p.returns = Predeclared.integerRepresentation then
    emit (.ret Predeclared.integerRepresentation value)
    advance
    return p.id
  else
    fail (.wrongReturnType p.name)

/-- Reads `[BEGIN] [RETURN [integer]]` and writes the line that returns. -/
def body (p : OpenProcedure) : Parse DeclId := do
  let _ ← skipIf (.keyword .beginWord)
  if ← skipIf (.keyword .returnWord) then
    match (← cursor).current.value with
    | some value => returnValue p value
    | none => returnNothing p
  else
    returnNothing p

/-- Reads the name behind END, which has to be the one that the `kind` began with. -/
def closingName (kind expected : String) : Parse Unit := do
  expect .ident
  let found := (← cursor).current.lexeme
  if found = expected then
    advance
  else
    fail (.nameMismatch kind expected found)

/-- Steps over an empty parameter list, if there is one. -/
def parameters : Parse Unit := do
  if ← skipIf .leftParen then
    consume .rightParen

/-- Reads the return type, if there is one. -/
def returnType (scope : DeclId) : Parse (Option DeclId) := do
  if ← skipIf .colon then
    return some (← typeName (some scope))
  else
    return none

/-- Reads `PROCEDURE name [*] [()] [: Type] ; body END name ;`. -/
def procedure (parent : DeclId) : Parse DeclId := do
  consume (.keyword .procedureWord)
  let name ← expectIdent
  let exported ← skipIf .asterisk
  parameters
  let returns ← returnType parent
  let opened ← openProcedure name (some parent) exported returns
  consume .semicolon
  let id ← body opened
  consume (.keyword .endWord)
  closingName "procedure" name
  consume .semicolon
  return id

end Parse

end ModuleCompiler
