/-
  Numbers, dates and times of TOML documents. Digits may be grouped by single underscores
  between them. Integers are signed numbers of 64 bits; a number with a fraction may not be
  greater than all finite ones of 64 bits.
-/
import ModuleCompiler.Toml.Text
import ModuleCompiler.Toml.Value

namespace ModuleCompiler.Toml

/-- Reads the digits that follow a first one, without the underscores between them. -/
def moreDigits (digit : Char → Bool) : List Char → List Char × List Char
  | '_' :: d :: r =>
    if digit d then
      let (ds, r) := moreDigits digit r
      (d :: ds, r)
    else ([], '_' :: d :: r)
  | d :: r =>
    if digit d then
      let (ds, r) := moreDigits digit r
      (d :: ds, r)
    else ([], d :: r)
  | [] => ([], [])

/-- Reads one digit or more. -/
def digits (digit : Char → Bool) : Reader (List Char)
  | d :: r =>
    if digit d then
      let (ds, r) := moreDigits digit r
      some (d :: ds, r)
    else none
  | [] => none

/-- The number that digits stand for in the given base. -/
def natOf (base : Nat) (ds : List Char) : Nat :=
  ds.foldl (fun n d => base * n + (hexDigit? d).getD 0) 0

/-- Reads digits of a base. -/
def inBase (base : Nat) : Reader (List Char) :=
  digits fun c => (hexDigit? c).any (· < base)

/-- Reads a sign, if there is one: true is minus. -/
def sign : List Char → Bool × List Char
  | '-' :: r => (true, r)
  | '+' :: r => (false, r)
  | s => (false, s)

/-- Reads the digits of a decimal number, which starts with a zero only if it is zero. -/
def decimal : Reader (List Char)
  | '0' :: r => some (['0'], r)
  | s => inBase 10 s

/-! ## Integers -/

/-- The number is one of 64 bits with a sign. -/
def fits (n : Int) : Bool := -9223372036854775808 ≤ n && n ≤ 9223372036854775807

/-- The number of the given digits, below zero if it is negative. -/
def signed (negative : Bool) (ds : List Char) : Int :=
  if negative then -(natOf 10 ds) else natOf 10 ds

/-- Reads a number in base sixteen, eight or two, or a decimal one with or without a sign. -/
def intNumber : Reader Int
  | '0' :: 'x' :: r => (inBase 16 r).map fun (ds, r) => (natOf 16 ds, r)
  | '0' :: 'o' :: r => (inBase 8 r).map fun (ds, r) => (natOf 8 ds, r)
  | '0' :: 'b' :: r => (inBase 2 r).map fun (ds, r) => (natOf 2 ds, r)
  | s => (decimal (sign s).2).map fun (ds, r) => (signed (sign s).1 ds, r)

/-- Reads an integer. -/
def integer (s : List Char) : Option (Value × List Char) := do
  let (n, r) ← intNumber s
  if fits n then return (.integer n, r) else none

/-! ## Fractions -/

/-- The number `m` times ten to the `e` is rounded to a finite number of 64 bits: it is less
than the middle between the greatest of these and the next power of two. -/
def isFinite (m : Nat) (e : Int) : Bool :=
  let limit := Nat.pow 2 1024 - Nat.pow 2 970
  let size : Int := (Nat.toDigits 10 m).length + e
  if m = 0 ∨ size < 300 then true
  else if 320 < size then false
  else if e < 0 then m < limit * Nat.pow 10 e.natAbs
  else m * Nat.pow 10 e.natAbs < limit

/-- Reads a point and the digits behind it, if there is one. -/
def fractionPart : Reader (List Char)
  | '.' :: r => inBase 10 r
  | r => some ([], r)

/-- Reads an exponent. -/
def exponent? : Reader Int
  | 'e' :: r | 'E' :: r => (inBase 10 (sign r).2).map fun (ds, r') => (signed (sign r).1 ds, r')
  | _ => none

/-- Reads a number with a fraction or an exponent. -/
def fraction (s : List Char) : Option (Value × List Char) := do
  let (negative, r) := sign s
  let (whole, r) ← decimal r
  let (part, r) ← fractionPart r
  let scaled := exponent? r
  if part.isEmpty ∧ scaled.isNone then none
  let (exponent, r) := scaled.getD (0, r)
  if negative ∨ isFinite (natOf 10 (whole ++ part)) (exponent - part.length) then
    return (.float (String.ofList (s.take (s.length - r.length))), r)
  else none

/-- Reads `inf` or `nan` behind a sign, if there is one. -/
def special (s : List Char) : Option (Value × List Char) := do
  let (_, r) := sign s
  let r ← match r with
    | 'i' :: _ => expectWord ['i', 'n', 'f'] r
    | _ => expectWord ['n', 'a', 'n'] r
  return (.float (String.ofList (s.take (s.length - r.length))), r)

/-! ## Dates and times -/

/-- Reads a number of exactly `count` digits between two bounds. -/
def fixed (count low high : Nat) (s : List Char) : Option (Nat × List Char) := do
  let ds := s.take count
  if ds.length = count ∧ ds.all Char.isDigit ∧ low ≤ natOf 10 ds ∧ natOf 10 ds ≤ high then
    return (natOf 10 ds, s.drop count)
  else none

/-- The number of days of a month. -/
def daysOf (year month : Nat) : Nat :=
  if month = 2 then
    if year % 4 = 0 ∧ (year % 100 ≠ 0 ∨ year % 400 = 0) then 29 else 28
  else if month = 4 ∨ month = 6 ∨ month = 9 ∨ month = 11 then 30 else 31

/-- The text behind a date, if it starts with one. -/
def skipDate (s : List Char) : Option (List Char) := do
  let (year, r) ← fixed 4 0 9999 s
  let r ← expectWord ['-'] r
  let (month, r) ← fixed 2 1 12 r
  let r ← expectWord ['-'] r
  let (_, r) ← fixed 2 1 (daysOf year month) r
  return r

/-- The text behind a time of day, if it starts with one. -/
def skipTime (s : List Char) : Option (List Char) := do
  let (_, r) ← fixed 2 0 23 s
  let r ← expectWord [':'] r
  let (_, r) ← fixed 2 0 59 r
  let r ← expectWord [':'] r
  let (_, r) ← fixed 2 0 60 r
  match r with
  | '.' :: d :: r' => return if d.isDigit then r'.dropWhile Char.isDigit else r
  | r => return r

/-- The text behind an offset from universal time, if it starts with one. -/
def skipOffset (s : List Char) : Option (List Char) := do
  match s with
  | 'Z' :: r | 'z' :: r => return r
  | '+' :: r | '-' :: r =>
    let (_, r) ← fixed 2 0 23 r
    let r ← expectWord [':'] r
    let (_, r) ← fixed 2 0 59 r
    return r
  | _ => none

/-- The text behind a time of day and an offset that follow a date, if they do. -/
def skipTimeOfDate (s : List Char) : Option (List Char) := do
  match s with
  | c :: r =>
    if c = 'T' ∨ c = 't' ∨ c = ' ' then
      let r ← skipTime r
      return (skipOffset r).getD r
    else none
  | [] => none

/-- Reads a date, a time of day, or both. -/
def dateTime (s : List Char) : Option (Value × List Char) := do
  let r ← match skipDate s with
    | some r => some ((skipTimeOfDate r).getD r)
    | none => skipTime s
  return (.dateTime (String.ofList (s.take (s.length - r.length))), r)

/-- Reads a value that starts with a digit or a sign: the first kind that fits. -/
def number (s : List Char) : Option (Value × List Char) :=
  dateTime s <|> fraction s <|> special s <|> integer s

end ModuleCompiler.Toml
