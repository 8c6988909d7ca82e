/-
  A place in a list of tokens. The cursor is always on a token, and it stays on the last
  one, which is the end of the input.
-/
import ModuleCompiler.Token.Lexer

namespace ModuleCompiler

/-- Tokens, and the position of the current one. -/
structure Cursor where
  tokens : Array Token
  position : Nat
  position_lt : position < tokens.size

namespace Cursor

/-- The tokens with one for the end of the input behind them, unless they have one there. -/
def closed (tokens : List Token) : List Token :=
  if tokens.getLast?.map Token.kind = some .endOfInput then tokens
  else tokens ++ [.endOfInput (tokens.getLast?.elim 0 fun last => last.span.stop)]

theorem getLast?_closed (tokens : List Token) :
    (closed tokens).getLast?.map Token.kind = some .endOfInput := by
  unfold closed
  split
  · assumption
  · rw [List.getLast?_concat]; rfl

theorem closed_ne_nil (tokens : List Token) : closed tokens ≠ [] := by
  intro h
  have := getLast?_closed tokens
  simp [h] at this

/-- The cursor on the first of the given tokens. -/
def ofTokens (tokens : List Token) : Cursor where
  tokens := (closed tokens).toArray
  position := 0
  position_lt := by
    rw [List.size_toArray]
    exact List.length_pos_iff.2 (closed_ne_nil tokens)

/-- The current token. -/
def current (c : Cursor) : Token :=
  have := c.position_lt
  c.tokens[c.position]

/-- The current token is of the given kind. -/
def isAt (c : Cursor) (kind : TokenKind) : Bool :=
  c.current.kind = kind

/-- The current token is the end of the input. -/
def atEnd (c : Cursor) : Bool :=
  c.isAt .endOfInput

/-- The cursor on the next token, or still on the last one. -/
def advance (c : Cursor) : Cursor :=
  if h : c.position + 1 < c.tokens.size then { c with position := c.position + 1, position_lt := h }
  else c

/-- The number of tokens behind the current one. -/
def remaining (c : Cursor) : Nat :=
  c.tokens.size - (c.position + 1)

/-- The diagnostic that rejects the current token. -/
def unexpected (c : Cursor) : Diagnostic :=
  .unexpectedToken c.current.describe

/-- Checks the kind of the current token. -/
def expect (c : Cursor) (kind : TokenKind) : Except Diagnostic Unit :=
  if c.isAt kind then .ok () else .error c.unexpected

/-- Steps over a token of the given kind. -/
def consume (c : Cursor) (kind : TokenKind) : Except Diagnostic Cursor := do
  c.expect kind
  return c.advance

/-- Steps over an identifier and returns it. -/
def expectIdent (c : Cursor) : Except Diagnostic (String × Cursor) := do
  c.expect .ident
  return (c.current.lexeme, c.advance)

theorem tokens_advance (c : Cursor) : c.advance.tokens = c.tokens := by
  unfold advance
  split <;> rfl

theorem position_le_advance (c : Cursor) : c.position ≤ c.advance.position := by
  unfold advance
  split
  · exact Nat.le_succ _
  · exact Nat.le_refl _

end Cursor

end ModuleCompiler
