/-
  Tokens of a unit: their kinds, the keywords, and the place of a token in the source as
  a range of bytes of its UTF-8 form.
-/

namespace ModuleCompiler

/-- The words that are no identifiers. -/
inductive Keyword where
  | beginWord
  | endWord
  | moduleWord
  | procedureWord
  | returnWord
  deriving DecidableEq, Repr

namespace Keyword

/-- The keywords in the order of their spelling. -/
def all : List Keyword :=
  [beginWord, endWord, moduleWord, procedureWord, returnWord]

/-- The spelling of a keyword. -/
def lexeme : Keyword → String
  | beginWord => "BEGIN"
  | endWord => "END"
  | moduleWord => "MODULE"
  | procedureWord => "PROCEDURE"
  | returnWord => "RETURN"

/-- The keyword with the given spelling. -/
def ofLexeme? (word : String) : Option Keyword :=
  all.find? fun k => k.lexeme = word

theorem ofLexeme?_lexeme (k : Keyword) : ofLexeme? k.lexeme = some k := by
  cases k <;> rfl

end Keyword

/-- What a token is, whatever it says. -/
inductive TokenKind where
  | ident
  | integer
  | leftParen
  | rightParen
  | asterisk
  | period
  | colon
  | semicolon
  | keyword (k : Keyword)
  | endOfInput
  deriving DecidableEq, Repr

/-- The bytes of a token: from `start` up to but not including `stop`. -/
structure Span where
  start : Nat
  stop : Nat
  deriving DecidableEq, Repr

/-- A token: its kind, its text, the value of an integer, and its place. -/
structure Token where
  kind : TokenKind
  lexeme : String
  value : Option Int32
  span : Span
  deriving DecidableEq, Repr

namespace Token

/-- The token behind the last one. -/
def endOfInput (place : Nat) : Token :=
  ⟨.endOfInput, "", none, ⟨place, place⟩⟩

/-- The text that stands for the token in a diagnostic. -/
def describe (t : Token) : String :=
  if t.kind = .endOfInput then "end of input" else t.lexeme

end Token

end ModuleCompiler
