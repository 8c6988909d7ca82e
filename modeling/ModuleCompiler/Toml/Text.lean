/-
  The characters of TOML documents, and strings: basic ones between double quotes, with
  escapes, and literal ones between single quotes, each on one line or between three quotes
  on several.
-/

namespace ModuleCompiler.Toml

/-- Reads something at the start of a text and returns it with the rest. -/
abbrev Reader (α : Type) := List Char → Option (α × List Char)

/-- The character separates words on a line. -/
def isBlank (c : Char) : Bool := c = ' ' || c = '\t'

/-- The character may stand in a line of text: it is a tab or no control character. -/
def isPrintable (c : Char) : Bool := c = '\t' || (' ' ≤ c && c ≠ '\x7f')

/-- The text behind spaces and tabs. -/
def skipBlanks (s : List Char) : List Char := s.dropWhile isBlank

/-- The text behind a line break, if it starts with one. -/
def newline? : List Char → Option (List Char)
  | '\n' :: r => some r
  | '\r' :: '\n' :: r => some r
  | _ => none

/-- The text behind a comment, if it starts with one; otherwise all of it. -/
def skipComment : List Char → List Char
  | '#' :: r => r.dropWhile isPrintable
  | s => s

/-- The text behind the rest of a line that may hold a comment only. -/
def lineEnd (s : List Char) : Option (List Char) :=
  match skipComment (skipBlanks s) with
  | [] => some []
  | s => newline? s

/-- The text behind blanks, line breaks and comments. -/
def skipLines : (bound : Nat) → List Char → Option (List Char)
  | 0, s => some s
  | bound + 1, s =>
    match skipBlanks s with
    | '#' :: r => do skipLines bound (← newline? (skipComment ('#' :: r)))
    | '\n' :: r => skipLines bound r
    | '\r' :: r => do skipLines bound (← newline? ('\r' :: r))
    | s => some s

/-- The text behind the given word, if it starts with it. -/
def expectWord : (word : List Char) → List Char → Option (List Char)
  | [], s => some s
  | w :: word, c :: s => if w = c then expectWord word s else none
  | _ :: _, [] => none

/-! ## Escapes -/

/-- The value of a hexadecimal digit. -/
def hexDigit? (c : Char) : Option Nat :=
  if c.isDigit then some (c.toNat - '0'.toNat)
  else if 'a' ≤ c ∧ c ≤ 'f' then some (c.toNat - 'a'.toNat + 10)
  else if 'A' ≤ c ∧ c ≤ 'F' then some (c.toNat - 'A'.toNat + 10)
  else none

/-- Reads a character given by `count` hexadecimal digits. -/
def codePoint (count : Nat) (s : List Char) : Option (Char × List Char) := do
  let digits ← (s.take count).mapM hexDigit?
  if digits.length ≠ count then none
  let n := digits.foldl (fun n d => 16 * n + d) 0
  if n < 0xd800 ∨ (0xdfff < n ∧ n < 0x110000) then
    return (Char.ofNat n, s.drop count)
  else none

/-- Reads what stands behind a backslash for a character. -/
def escape : Reader Char
  | 'b' :: r => some ('\x08', r)
  | 't' :: r => some ('\t', r)
  | 'n' :: r => some ('\n', r)
  | 'f' :: r => some ('\x0c', r)
  | 'r' :: r => some ('\r', r)
  | '"' :: r => some ('"', r)
  | '\\' :: r => some ('\\', r)
  | 'u' :: r => codePoint 4 r
  | 'U' :: r => codePoint 8 r
  | _ => none

/-! ## Strings on one line -/

/-- Reads up to and including the closing quote of a basic string. -/
def basicRest : (bound : Nat) → Reader (List Char)
  | 0, _ => none
  | _, [] => none
  | _, '"' :: r => some ([], r)
  | bound + 1, '\\' :: r => do
    let (c, r) ← escape r
    let (cs, r) ← basicRest bound r
    return (c :: cs, r)
  | bound + 1, c :: r => do
    if !isPrintable c then none
    let (cs, r) ← basicRest bound r
    return (c :: cs, r)

/-- Reads up to and including the closing quote of a literal string. -/
def literalRest (s : List Char) : Option (List Char × List Char) :=
  let inner := fun c => isPrintable c && c ≠ '\''
  match s.dropWhile inner with
  | '\'' :: r => some (s.takeWhile inner, r)
  | _ => none

/-! ## Strings on several lines -/

/-- Reads the quotes at the start of a text inside a string that three of them close: up to
two that belong to the string, and whether the string is closed behind them. -/
def quotes (quote : Char) (s : List Char) : List Char × Bool × List Char :=
  let run := (s.takeWhile (· = quote)).length
  if run < 3 then (s.take run, false, s.drop run)
  else (s.take (min (run - 3) 2), true, s.drop (min run 5))

/-- The text behind blanks and line breaks. -/
def skipBreaks : List Char → List Char
  | '\r' :: '\n' :: r => skipBreaks r
  | c :: r => if isBlank c || c = '\n' then skipBreaks r else c :: r
  | [] => []

/-- Reads up to and including the closing quotes of a string on several lines; escapes are
read in basic strings only, and there a backslash also removes the line break behind it. -/
def linesRest (quote : Char) : (bound : Nat) → Reader (List Char)
  | 0, _ => none
  | _, [] => none
  | bound + 1, c :: r =>
    if c = quote then
      match quotes quote (c :: r) with
      | (inside, true, r) => some (inside, r)
      | (inside, false, r) => do
        let (cs, r) ← linesRest quote bound r
        return (inside ++ cs, r)
    else if c = '\\' ∧ quote = '"' then
      match newline? (skipBlanks r) with
      | some r => linesRest quote bound (skipBreaks r)
      | none => do
        let (c, r) ← escape r
        let (cs, r) ← linesRest quote bound r
        return (c :: cs, r)
    else
      match newline? (c :: r) with
      | some r => do
        let (cs, r) ← linesRest quote bound r
        return ('\n' :: cs, r)
      | none => do
        if !isPrintable c then none
        let (cs, r) ← linesRest quote bound r
        return (c :: cs, r)

/-- Reads a string of any kind; a line break right behind three quotes is no part of it. -/
def string (s : List Char) : Option (String × List Char) := do
  let (cs, r) ← match s with
    | '"' :: '"' :: '"' :: r => linesRest '"' (r.length + 1) ((newline? r).getD r)
    | '\'' :: '\'' :: '\'' :: r => linesRest '\'' (r.length + 1) ((newline? r).getD r)
    | '"' :: r => basicRest (r.length + 1) r
    | '\'' :: r => literalRest r
    | _ => none
  return (String.ofList cs, r)

/-! ## Keys -/

/-- The character may stand in a key without quotes. -/
def isBare (c : Char) : Bool := c.isAlphanum || c = '-' || c = '_'

/-- Reads one key, with or without quotes. -/
def simpleKey (s : List Char) : Option (String × List Char) :=
  match s with
  | '"' :: r => do
    let (cs, r) ← basicRest (r.length + 1) r
    return (String.ofList cs, r)
  | '\'' :: r => do
    let (cs, r) ← literalRest r
    return (String.ofList cs, r)
  | s =>
    match s.takeWhile isBare with
    | [] => none
    | cs => some (String.ofList cs, s.dropWhile isBare)

/-- Reads keys with dots between them; a dotted key has fewer than `bound` parts. -/
def dottedKey : (bound : Nat) → Reader (List String)
  | 0, _ => none
  | bound + 1, s => do
    let (key, r) ← simpleKey (skipBlanks s)
    match skipBlanks r with
    | '.' :: r =>
      let (keys, r) ← dottedKey bound r
      return (key :: keys, r)
    | r => return ([key], r)

/-- How deep keys and values may nest: to less than this. -/
def depthLimit : Nat := 80

/-- Reads a dotted key as the tables on its way and the key in the last of them. -/
def key (s : List Char) : Option ((List String × String) × List Char) := do
  let (keys, r) ← dottedKey (depthLimit - 1) s
  let last ← keys.getLast?
  return ((keys.dropLast, last), r)

end ModuleCompiler.Toml
