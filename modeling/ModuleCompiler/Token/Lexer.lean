/-
  From text to tokens. Between separators the text is cut into words, numbers and symbols,
  each as long as its kind of character goes on; a token at the end of the input closes
  the list.
-/
import ModuleCompiler.Token.Basic
import ModuleCompiler.Token.Integer
import ModuleCompiler.Token.Separator

namespace ModuleCompiler.Token

/-- The kind of a one-character token. -/
def symbolKind? : Char → Option TokenKind
  | '(' => some .leftParen
  | ')' => some .rightParen
  | '*' => some .asterisk
  | '.' => some .period
  | ':' => some .colon
  | ';' => some .semicolon
  | _ => none

/-- What a token is by its first character. -/
inductive Shape where
  | word
  | number
  | symbol (kind : TokenKind)
  deriving DecidableEq, Repr

/-- The shape of a token that starts with the given character, if one can. -/
def Shape.ofFirst? (c : Char) : Option Shape :=
  if c.isAlpha then some .word
  else if c.isDigit then some .number
  else (symbolKind? c).map .symbol

/-- The character goes on with a token of the shape. -/
def Shape.continues : Shape → Char → Bool
  | word, c => c.isAlphanum
  | number, c => c.isDigit
  | symbol _, _ => false

/-- The kind and the value of a token with the given shape and text. -/
def Shape.classify (lexeme : List Char) : Shape → Except Diagnostic (TokenKind × Option Int32)
  | word =>
    match Keyword.ofLexeme? (String.ofList lexeme) with
    | some k => .ok (.keyword k, none)
    | none => .ok (.ident, none)
  | number => do return (.integer, some (← Integer.ofDigits lexeme))
  | symbol kind => .ok (kind, none)

theorem length_dropWhile_le (p : Char → Bool) (cs : List Char) :
    (cs.dropWhile p).length ≤ cs.length :=
  (List.dropWhile_suffix p).length_le

/-- The tokens of a text that starts at the given byte of the source. -/
def tokensFrom (byte : Nat) (text : List Char) : Except Diagnostic (List Token) :=
  match Separator.skip byte text with
  | none => .error (.unexpectedToken (Separator.unclosedText text))
  | some ⟨⟨start, []⟩, _⟩ => .ok [.endOfInput start]
  | some ⟨⟨start, c :: rest⟩, (_ : (c :: rest).length ≤ text.length)⟩ =>
    match Shape.ofFirst? c with
    | none => .error (.unknownCharacter c)
    | some shape => do
      let lexeme := c :: rest.takeWhile shape.continues
      let (kind, value) ← shape.classify lexeme
      let written := String.ofList lexeme
      let stop := start + written.utf8ByteSize
      let later ← tokensFrom stop (rest.dropWhile shape.continues)
      return ⟨kind, written, value, ⟨start, stop⟩⟩ :: later
termination_by text.length
decreasing_by
  exact Nat.lt_of_lt_of_le (Nat.lt_succ_of_le (length_dropWhile_le shape.continues rest)) ‹_›

/-- The tokens of a source text, up to and including the end of the input. -/
def lex (source : String) : Except Diagnostic (List Token) :=
  tokensFrom 0 source.toList

end ModuleCompiler.Token
