/-
  The state of parsing and its steps. Parsing reads tokens, grows the table, writes output
  and tells events, all in one pass. A step that fails ends the parse but keeps the state
  that it had reached, so what was read, declared and written up to there can be seen.
-/
import ModuleCompiler.Decl.Create
import ModuleCompiler.Decl.Lookup
import ModuleCompiler.IR
import ModuleCompiler.Token.Cursor

namespace ModuleCompiler

/-- Where the parse is, what is declared, what is written, and what there is to tell. -/
structure ParserState where
  cursor : Cursor
  table : Table
  ir : IR
  events : List Event

/-- A step of parsing: a result or a fault, and the state behind the step. -/
abbrev Parse := ExceptT Fault (StateM ParserState)

namespace Parse

/-- The outcome of a step from a state. -/
def runFrom {α : Type} (step : Parse α) (s : ParserState) : Except Fault α × ParserState :=
  step.run.run s

/-- Ends the parse with a diagnostic. -/
def fail {α : Type} (d : Diagnostic) : Parse α :=
  throw (.diagnostic d)

/-- Adds to the events to tell. -/
def tell (events : List Event) : Parse Unit :=
  modify fun s => { s with events := s.events ++ events }

/-- Writes a piece of output. -/
def emit (piece : IR.Piece) : Parse Unit :=
  modify fun s => { s with ir := s.ir ++ [piece] }

/-! ## Tokens -/

/-- The cursor. -/
def cursor : Parse Cursor :=
  return (← get).cursor

/-- Whether the current token is of the given kind. -/
def isAt (kind : TokenKind) : Parse Bool :=
  return (← cursor).isAt kind

/-- Steps to the next token. -/
def advance : Parse Unit :=
  modify fun s => { s with cursor := s.cursor.advance }

/-- Steps over the current token if it is of the given kind, and tells whether it was. -/
def skipIf (kind : TokenKind) : Parse Bool := do
  if ← isAt kind then
    advance
    return true
  else
    return false

/-- Checks the kind of the current token. -/
def expect (kind : TokenKind) : Parse Unit := do
  match (← cursor).expect kind with
  | .ok () => return
  | .error d => fail d

/-- Steps over a token of the given kind. -/
def consume (kind : TokenKind) : Parse Unit := do
  expect kind
  advance

/-- Steps over an identifier and returns it. -/
def expectIdent : Parse String := do
  expect .ident
  let name := (← cursor).current.lexeme
  advance
  return name

/-! ## Declarations -/

/-- Asks the table. -/
def ask {α : Type} (question : Table → Except Fault α) : Parse α := do
  match question (← get).table with
  | .ok answer => return answer
  | .error fault => throw fault

/-- Grows the table. -/
def create (creation : Table → Except Fault Created) : Parse DeclId := do
  let created ← ask creation
  modify fun s => { s with table := created.table }
  tell created.events
  return created.id

/-- Looks a name up from a scope outward. -/
def lookup (scope : DeclId) (name : String) : Parse (Option DeclId) := do
  let found ← ask (·.lookup scope name)
  tell ((← get).table.lookupEvents scope name)
  return found

/-! ## Outcomes of the steps -/

theorem runFrom_bind {α β : Type} (step : Parse α) (next : α → Parse β) (s : ParserState) :
    (step >>= next).runFrom s =
      match step.runFrom s with
      | (.ok a, s') => (next a).runFrom s'
      | (.error fault, s') => (.error fault, s') := by
  unfold runFrom
  rw [ExceptT.run_bind, StateT.run_bind]
  rcases step.run.run s with ⟨_ | _, s'⟩ <;> rfl

theorem runFrom_tell (events : List Event) (s : ParserState) :
    (tell events).runFrom s = (.ok (), { s with events := s.events ++ events }) := rfl

theorem runFrom_emit (piece : IR.Piece) (s : ParserState) :
    (emit piece).runFrom s = (.ok (), { s with ir := s.ir ++ [piece] }) := rfl

theorem runFrom_get (s : ParserState) : (get : Parse ParserState).runFrom s = (.ok s, s) := rfl

theorem runFrom_cursor (s : ParserState) : cursor.runFrom s = (.ok s.cursor, s) := rfl

theorem runFrom_isAt (kind : TokenKind) (s : ParserState) :
    (isAt kind).runFrom s = (.ok (s.cursor.isAt kind), s) := rfl

theorem runFrom_advance (s : ParserState) :
    advance.runFrom s = (.ok (), { s with cursor := s.cursor.advance }) := rfl

theorem runFrom_skipIf (kind : TokenKind) (s : ParserState) :
    (skipIf kind).runFrom s =
      if s.cursor.isAt kind then (.ok true, { s with cursor := s.cursor.advance })
      else (.ok false, s) := by
  rw [skipIf, runFrom_bind, runFrom_isAt]
  by_cases h : s.cursor.isAt kind <;> simp only [h] <;> rfl

theorem runFrom_expect (kind : TokenKind) (s : ParserState) :
    (expect kind).runFrom s =
      if s.cursor.isAt kind then (.ok (), s)
      else (.error (.diagnostic s.cursor.unexpected), s) := by
  rw [expect, runFrom_bind, runFrom_cursor]
  unfold Cursor.expect
  by_cases h : s.cursor.isAt kind <;> simp only [h] <;> rfl

theorem runFrom_consume (kind : TokenKind) (s : ParserState) :
    (consume kind).runFrom s =
      if s.cursor.isAt kind then (.ok (), { s with cursor := s.cursor.advance })
      else (.error (.diagnostic s.cursor.unexpected), s) := by
  rw [consume, runFrom_bind, runFrom_expect]
  by_cases h : s.cursor.isAt kind <;> simp only [h] <;> rfl

theorem runFrom_expectIdent (s : ParserState) :
    expectIdent.runFrom s =
      if s.cursor.isAt .ident then
        (.ok s.cursor.current.lexeme, { s with cursor := s.cursor.advance })
      else (.error (.diagnostic s.cursor.unexpected), s) := by
  rw [expectIdent, runFrom_bind, runFrom_expect]
  by_cases h : s.cursor.isAt .ident <;> simp only [h] <;> rfl

theorem runFrom_ask {α : Type} (question : Table → Except Fault α) (s : ParserState) :
    (ask question).runFrom s = (question s.table, s) := by
  rw [ask, runFrom_bind, runFrom_get]
  cases h : question s.table <;> simp only [h] <;> rfl

theorem runFrom_create (creation : Table → Except Fault Created) (s : ParserState) :
    (create creation).runFrom s =
      match creation s.table with
      | .ok c => (.ok c.id, { s with table := c.table, events := s.events ++ c.events })
      | .error fault => (.error fault, s) := by
  rw [create, runFrom_bind, runFrom_ask]
  cases creation s.table <;> rfl

theorem runFrom_lookup (scope : DeclId) (name : String) (s : ParserState) :
    (lookup scope name).runFrom s =
      match s.table.lookup scope name with
      | .ok found =>
        (.ok found, { s with events := s.events ++ s.table.lookupEvents scope name })
      | .error fault => (.error fault, s) := by
  rw [lookup, runFrom_bind, runFrom_ask]
  cases s.table.lookup scope name <;> rfl

end Parse

end ModuleCompiler
