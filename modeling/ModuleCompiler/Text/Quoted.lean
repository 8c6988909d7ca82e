/-
  Quoted text. A name in a diagnostic stands between single quotes as it is; a text value
  in a log line stands between double quotes, and there and in JSON the characters that
  would break the line are escaped.
-/

namespace ModuleCompiler.Text

/-- The name between single quotes, nothing escaped. -/
def singleQuoted (name : String) : String :=
  "'" ++ name ++ "'"

/-- The digits of `n` in base sixteen, lower case, at least `width` of them. -/
def hex (width n : Nat) : String :=
  let digits := Nat.toDigits 16 n
  String.ofList (List.replicate (width - digits.length) '0' ++ digits)

/-! ## Double quotes -/

/-- How a character is written between double quotes. -/
def escapeQuoted (c : Char) : String :=
  match c with
  | '"' => "\\\""
  | '\\' => "\\\\"
  | '\n' => "\\n"
  | '\r' => "\\r"
  | '\t' => "\\t"
  | '\x00' => "\\0"
  | c => if c < ' ' ∨ c = '\x7f' then "\\u\x7b" ++ hex 1 c.toNat ++ "\x7d" else c.toString

/-- The text between double quotes, escaped. -/
def doubleQuoted (text : String) : String :=
  "\"" ++ String.join (text.toList.map escapeQuoted) ++ "\""

/-! ## JSON strings -/

/-- How a character is written in a JSON string. -/
def escapeJson (c : Char) : String :=
  match c with
  | '"' => "\\\""
  | '\\' => "\\\\"
  | '\n' => "\\n"
  | '\r' => "\\r"
  | '\t' => "\\t"
  | '\x08' => "\\b"
  | '\x0c' => "\\f"
  | c => if c < ' ' then "\\u" ++ hex 4 c.toNat else c.toString

/-- The text as a JSON string. -/
def jsonString (text : String) : String :=
  "\"" ++ String.join (text.toList.map escapeJson) ++ "\""

end ModuleCompiler.Text
