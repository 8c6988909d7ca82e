/-
  The value of an integer literal: decimal, at most the largest signed number of 32 bits.
  Main statement: each digit appends to the decimal value, and the first digit at which
  the value is too large ends the quoted text.
-/
import ModuleCompiler.Diagnostic

namespace ModuleCompiler.Integer

/-- The largest value of a literal. -/
def largest : Nat := 2147483647

/-- The value of one decimal digit. -/
def digitValue (d : Char) : Nat := d.toNat - '0'.toNat

/-- The decimal value of a digit list that continues a number of the given value. -/
def decimalFrom (value : Nat) (digits : List Char) : Nat :=
  digits.foldl (fun value d => 10 * value + digitValue d) value

/-- Reads digits that continue a number: the digits seen before, latest first, had `value`. -/
def readFrom (seen : List Char) (value : Nat) : List Char → Except Diagnostic Int32
  | [] => .ok (Int32.ofNat value)
  | d :: rest =>
    if 10 * value + digitValue d ≤ largest then
      readFrom (d :: seen) (10 * value + digitValue d) rest
    else
      .error (.numericOverflow (String.ofList (d :: seen).reverse))

/-- The value of a literal, or the shortest part from its start that is too large. -/
def ofDigits (digits : List Char) : Except Diagnostic Int32 :=
  readFrom [] 0 digits

theorem le_decimalFrom (value : Nat) (digits : List Char) : value ≤ decimalFrom value digits := by
  induction digits generalizing value with
  | nil => exact Nat.le_refl _
  | cons d rest ih => exact Nat.le_trans (by omega) (ih (10 * value + digitValue d))

theorem readFrom_eq_ok_iff {seen digits : List Char} {value : Nat} (h : value ≤ largest)
    {v : Int32} : readFrom seen value digits = .ok v ↔
      decimalFrom value digits ≤ largest ∧ v = Int32.ofNat (decimalFrom value digits) := by
  induction digits generalizing seen value with
  | nil => simp [readFrom, decimalFrom, h, eq_comm]
  | cons d rest ih =>
    rw [readFrom]
    split
    · next hle => exact ih hle
    · next hgt =>
      have := le_decimalFrom (10 * value + digitValue d) rest
      constructor
      · intro hk; cases hk
      · rintro ⟨hle, _⟩
        exact absurd (Nat.le_trans this hle) hgt

end ModuleCompiler.Integer
