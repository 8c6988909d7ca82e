/-
  Compiling a unit: the whole text has to be one module. Either all of it is accepted, and
  then there are a table and an output, or the first thing wrong is reported.
-/
import ModuleCompiler.Parse.Module

namespace ModuleCompiler

/-- An accepted unit: its table, its module, and its output. -/
structure Compilation where
  table : Table
  module : DeclId
  ir : IR

namespace Compilation

/-- The target triple that is written where none is chosen. -/
def defaultTarget : String := "x86_64-pc-linux-gnu"

/-- The state before the first token: the predeclared table, and the target line written. -/
def start (env : Predeclared) (target : String) (tokens : List Token) : ParserState where
  cursor := .ofTokens tokens
  table := env.table
  ir := [.target target]
  events := []

/-- Reads a module in the predeclared one, with nothing behind it. -/
def unit (env : Predeclared) : Parse DeclId := do
  let module ← Parse.module (some env.system)
  let cursor ← Parse.cursor
  if cursor.atEnd then
    Parse.tell [.compiledModule (← Parse.ask (·.decl module)).name]
    return module
  else
    Parse.fail cursor.unexpected

/-- Parses the tokens of a unit, and shows how far the parse came. -/
def parse (env : Predeclared) (target : String) (tokens : List Token) :
    Except Fault DeclId × ParserState :=
  (unit env).runFrom (start env target tokens)

end Compilation

/-- Compiles a unit, and returns the events to tell whether it is accepted or not. -/
def compileTelling (env : Predeclared) (target source : String) :
    Except Fault Compilation × List Event :=
  match Token.lex source with
  | .error d => (.error (.diagnostic d), [])
  | .ok tokens =>
    let (outcome, final) := Compilation.parse env target tokens
    (outcome.map fun module => ⟨final.table, module, final.ir⟩, final.events)

/-- Compiles a unit. -/
def compile (env : Predeclared) (target source : String) : Except Fault Compilation :=
  (compileTelling env target source).1

end ModuleCompiler
