/-
  Integer literals in arithmetic of 32 bits. `accumulate` reads a literal with one product and one
  sum for each digit, and it stops at the first of them that does not fit. A product or a sum
  that fits is exact, and where a digit can be appended both fit (`append?_eq_some_iff`), so what
  is accumulated is the decimal value of the digits read so far.

  * `accumulate_eq`: reading with two checks for each digit is reading with one.
  * `ofDigits_exact`: a literal has its decimal value, or it is quoted up to the digit with which
    it gets too large, whatever stands behind that digit.
-/
import ModuleCompiler.Proofs.Token.Integer

namespace ModuleCompiler.Integer

/-! ## Products and sums that fit -/

/-- The product, if it is a number of 32 bits. -/
def times? (a b : Int32) : Option Int32 :=
  if a.toBitVec.smulOverflow b.toBitVec then none else some (a * b)

/-- The sum, if it is a number of 32 bits. -/
def plus? (a b : Int32) : Option Int32 :=
  if a.toBitVec.saddOverflow b.toBitVec then none else some (a + b)

variable {a b c : Int32}

/-- A result is handed on exactly if it is the one of the integers, where a check refuses just
what is out of range. -/
theorem checked_eq_some_iff {overflows : Bool} {r : Int32} {exact : Int}
    (hover : overflows = true → 2 ^ 31 ≤ exact ∨ exact < -2 ^ 31)
    (hfits : ¬ overflows = true → r.toInt = exact) :
    (if overflows then none else some r) = some c ↔ c.toInt = exact := by
  by_cases h : overflows = true
  · have hout := hover h
    have hlt := c.toInt_lt
    have hle := c.le_toInt
    simp only [if_pos h, reduceCtorEq, false_iff]
    omega
  · rw [if_neg h, Option.some.injEq, ← hfits h, Int32.toInt_inj, eq_comm]

theorem times?_eq_some_iff : times? a b = some c ↔ c.toInt = a.toInt * b.toInt := by
  refine checked_eq_some_iff (fun h => ?_) fun h => ?_
  · simpa [BitVec.smulOverflow] using h
  · rw [← Int32.toInt_toBitVec, Int32.toBitVec_mul]
    exact BitVec.toInt_mul_of_not_smulOverflow h

theorem plus?_eq_some_iff : plus? a b = some c ↔ c.toInt = a.toInt + b.toInt := by
  refine checked_eq_some_iff (fun h => ?_) fun h => ?_
  · simpa [BitVec.saddOverflow] using h
  · rw [← Int32.toInt_toBitVec, Int32.toBitVec_add]
    exact BitVec.toInt_add_of_not_saddOverflow h

/-! ## Digits -/

/-- The value of a digit in 32 bits, as the difference of two code points. -/
def digit (d : Char) : Int32 := Int32.ofNat d.toNat - Int32.ofNat '0'.toNat

/-- The number with one more digit behind it. -/
def append? (value : Int32) (d : Char) : Option Int32 := do
  plus? (← times? value 10) (digit d)

/-- Reads digits that continue a number: the digits seen before, latest first, had `value`. -/
def accumulate (seen : List Char) (value : Int32) : List Char → Except Diagnostic Int32
  | [] => .ok value
  | d :: rest =>
    match append? value d with
    | some value => accumulate (d :: seen) value rest
    | none => .error (.numericOverflow (String.ofList (d :: seen).reverse))

theorem toInt_ofNat {n : Nat} (h : n ≤ 2147483647) : (Int32.ofNat n).toInt = n :=
  Int32.toInt_ofNat_of_lt (by omega)

theorem toInt_digit {d : Char} (hd : d.isDigit) : (digit d).toInt = digitValue d := by
  have hrange : '0'.toNat ≤ d.toNat ∧ d.toNat ≤ '9'.toNat := by
    simpa [Char.isDigit, Char.le_def, UInt32.le_iff_toNat_le] using hd
  obtain ⟨hlow, hhigh⟩ := hrange
  rw [digit, ← Int32.ofNat_sub _ _ hlow]
  exact toInt_ofNat (Nat.le_trans (Nat.sub_le _ _) (Nat.le_trans hhigh (by decide)))

/-- One more digit fits exactly if the decimal value does: the product is not the larger one. -/
theorem append?_eq_some_iff {d : Char} (ha : 0 ≤ a.toInt) (hd : d.isDigit) :
    append? a d = some c ↔ c.toInt = 10 * a.toInt + digitValue d := by
  have hten : (10 : Int32).toInt = 10 := rfl
  simp only [append?, Option.bind_eq_bind, Option.bind_eq_some_iff, times?_eq_some_iff,
    plus?_eq_some_iff, toInt_digit hd, hten]
  constructor
  · intro h
    obtain ⟨m, hm, hc⟩ := h
    omega
  · intro hc
    have hlt := c.toInt_lt
    have hm : (Int32.ofInt (a.toInt * 10)).toInt = a.toInt * 10 :=
      Int32.toInt_ofInt_of_le (by omega) (by omega)
    exact ⟨_, hm, by omega⟩

/-- The accumulator has the decimal value of what was read, digit by digit. -/
theorem accumulate_eq {seen digits : List Char} {value : Nat} (ha : a.toInt = value)
    (hdigits : ∀ d ∈ digits, d.isDigit) :
    accumulate seen a digits = readFrom seen value digits := by
  induction digits generalizing seen a value with
  | nil =>
    have hlt := a.toInt_lt
    rw [accumulate, readFrom, Except.ok.injEq, ← Int32.toInt_inj, toInt_ofNat (by omega), ha]
  | cons d rest ih =>
    obtain ⟨hd, hrest⟩ := List.forall_mem_cons.1 hdigits
    have hstep : ∀ c, append? a d = some c ↔ c.toInt = 10 * value + digitValue d := by
      intro c
      rw [append?_eq_some_iff (by omega) hd, ha]
    rw [accumulate, readFrom]
    by_cases hle : 10 * value + digitValue d ≤ largest
    · have hnext := toInt_ofNat hle
      rw [if_pos hle, (hstep _).2 (by rw [hnext]; push_cast; rfl)]
      exact ih hnext hrest
    · cases hsome : append? a d with
      | none => rw [if_neg hle]
      | some c =>
        have hc := (hstep c).1 hsome
        have hlt := c.toInt_lt
        unfold largest at hle
        omega

/-! ## Literals -/

/-- The literal is read exactly. -/
structure Exact (digits : List Char) : Prop where
  /-- It is read with a product and a sum of 32 bits for each digit. -/
  checked : ofDigits digits = accumulate [] 0 digits
  /-- It has a value exactly if its decimal value is not too large, and then it is that value. -/
  accepted : ∀ v : Int32,
    ofDigits digits = .ok v ↔ decimal digits ≤ 2147483647 ∧ v.toInt = decimal digits
  /-- On the way to the value no product and no sum is too large. -/
  fits : decimal digits ≤ 2147483647 → ∀ q d, q ++ [d] <+: digits → ∃ a m b,
    ofDigits q = .ok a ∧ times? a 10 = some m ∧ plus? m (digit d) = some b ∧
      ofDigits (q ++ [d]) = .ok b
  /-- A literal that is too large is quoted up to the digit with which it gets too large, and so
  is every other one that begins with the same digits. -/
  quoted : 2147483647 < decimal digits → ∃ short, Overflow digits short ∧
    ofDigits digits = .error (.numericOverflow (String.ofList short)) ∧
      ∀ more, ofDigits (short ++ more) = .error (.numericOverflow (String.ofList short))

theorem ofDigits_eq_accumulate {digits : List Char} (hdigits : ∀ d ∈ digits, d.isDigit) :
    ofDigits digits = accumulate [] 0 digits :=
  (accumulate_eq rfl hdigits).symm

theorem ofDigits_of_le {digits : List Char} (h : decimal digits ≤ 2147483647) :
    ofDigits digits = .ok (Int32.ofNat (decimal digits)) :=
  ofDigits_eq_ok_iff.2 ⟨h, toInt_ofNat h⟩

/-- A literal that is no value is too large from some digit on. -/
theorem exists_overflow {digits : List Char} (h : 2147483647 < decimal digits) :
    ∃ short, Overflow digits short := by
  cases hread : ofDigits digits with
  | ok v =>
    obtain ⟨hle, -⟩ := ofDigits_eq_ok_iff.1 hread
    omega
  | error e =>
    obtain ⟨short, hshort, -⟩ := ofDigits_eq_error_iff.1 hread
    exact ⟨short, hshort⟩

theorem Overflow.ofDigits_append {digits short : List Char} (h : Overflow digits short)
    (more : List Char) :
    ofDigits (short ++ more) = .error (.numericOverflow (String.ofList short)) := by
  have hself : Overflow short short :=
    ⟨List.prefix_rfl, h.tooLarge, fun q hq hlarge => h.shortest q (hq.trans h.front) hlarge⟩
  exact ofDigits_eq_error_iff.2 ⟨short, hself.append more, rfl⟩

theorem ofDigits_exact {digits : List Char} (hdigits : ∀ d ∈ digits, d.isDigit) :
    Exact digits where
  checked := ofDigits_eq_accumulate hdigits
  accepted v := ofDigits_eq_ok_iff
  fits := by
    intro hle q d hfront
    obtain ⟨more, rfl⟩ := hfront
    have hd : d.isDigit := hdigits d (by simp)
    have hnext : decimal (q ++ [d]) ≤ 2147483647 :=
      Nat.le_trans (decimal_le_append (q ++ [d]) more) hle
    have hq : decimal q ≤ 2147483647 := Nat.le_trans (decimal_le_append q [d]) hnext
    have hstep : append? (Int32.ofNat (decimal q)) d = some (Int32.ofNat (decimal (q ++ [d]))) := by
      rw [append?_eq_some_iff (by rw [toInt_ofNat hq]; omega) hd, toInt_ofNat hq,
        toInt_ofNat hnext, decimal_concat]
      push_cast
      rfl
    obtain ⟨m, hm, hb⟩ := Option.bind_eq_some_iff.1 hstep
    exact ⟨_, m, _, ofDigits_of_le hq, hm, hb, ofDigits_of_le hnext⟩
  quoted := by
    intro hlarge
    obtain ⟨short, hshort⟩ := exists_overflow hlarge
    have happend := hshort.ofDigits_append
    obtain ⟨more, hmore⟩ := hshort.front
    refine ⟨short, hshort, ?_, happend⟩
    rw [← hmore]
    exact happend more

/-- Zeros in front, the smallest number that is too large, and one digit more. -/
theorem ofDigits_exact_overflow :
    (∀ d ∈ "0021474836480".toList, d.isDigit) ∧ Exact "0021474836480".toList :=
  have hall : "0021474836480".toList.all Char.isDigit = true := by decide +kernel
  have hdigits : ∀ d ∈ "0021474836480".toList, d.isDigit := List.all_eq_true.1 hall
  ⟨hdigits, ofDigits_exact hdigits⟩

end ModuleCompiler.Integer
