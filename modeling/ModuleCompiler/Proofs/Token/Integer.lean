/-
  Integer literals by their decimal value. `decimal` is the value of a digit list, however
  long, and `Overflow` says which part of a digit list is the shortest that is too large.

  * `ofDigits_eq_ok_iff`: a literal has a value exactly if its decimal value is at most the
    largest, and then it is that value.
  * `ofDigits_eq_error_iff`: any other literal is quoted up to the digit with which it gets too
    large.
-/
import ModuleCompiler.Token.Integer
import Mathlib.Data.Nat.Digits.Defs

namespace ModuleCompiler.Integer

/-- The decimal value of a digit list. -/
def decimal (digits : List Char) : Nat :=
  Nat.ofDigits 10 (digits.map digitValue).reverse

theorem decimal_concat (digits : List Char) (d : Char) :
    decimal (digits ++ [d]) = 10 * decimal digits + digitValue d := by
  simp only [decimal, List.map_append, List.map_cons, List.map_nil, List.reverse_append,
    List.reverse_cons, List.reverse_nil, List.nil_append, List.singleton_append,
    Nat.ofDigits_cons]
  exact Nat.add_comm _ _

theorem decimalFrom_decimal (seen digits : List Char) :
    decimalFrom (decimal seen) digits = decimal (seen ++ digits) := by
  induction digits generalizing seen with
  | nil => simp [decimalFrom]
  | cons d digits ih =>
    have hstep : decimalFrom (decimal seen) (d :: digits) =
        decimalFrom (decimal (seen ++ [d])) digits := by
      rw [decimal_concat]
      rfl
    rw [hstep, ih, List.append_assoc, List.singleton_append]

theorem decimalFrom_zero (digits : List Char) : decimalFrom 0 digits = decimal digits := by
  have h := decimalFrom_decimal [] digits
  rwa [List.nil_append] at h

theorem ofDigits_eq_ok_iff {digits : List Char} {v : Int32} :
    ofDigits digits = .ok v ↔ decimal digits ≤ 2147483647 ∧ v.toInt = decimal digits := by
  rw [ofDigits, readFrom_eq_ok_iff (Nat.zero_le _), decimalFrom_zero, largest]
  refine and_congr_right fun hle => ?_
  have hint : (Int32.ofNat (decimal digits)).toInt = decimal digits :=
    Int32.toInt_ofNat_of_lt (by omega)
  rw [← hint, Int32.toInt_inj]

/-! ## Literals that are too large -/

theorem decimal_le_append (digits more : List Char) : decimal digits ≤ decimal (digits ++ more) := by
  have h := le_decimalFrom (decimal digits) more
  rwa [decimalFrom_decimal] at h

/-- The shortest part from the start of the digits that is too large. -/
structure Overflow (digits short : List Char) : Prop where
  front : short <+: digits
  tooLarge : 2147483647 < decimal short
  shortest : ∀ q, q <+: digits → 2147483647 < decimal q → short <+: q

theorem Overflow.unique {digits short short' : List Char} (h : Overflow digits short)
    (h' : Overflow digits short') : short = short' := by
  have hle : short <+: short' := h.shortest short' h'.front h'.tooLarge
  have hge : short' <+: short := h'.shortest short h.front h.tooLarge
  exact hle.eq_of_length_le hge.length_le

theorem Overflow.lt_decimal {digits short : List Char} (h : Overflow digits short) :
    2147483647 < decimal digits := by
  obtain ⟨more, rfl⟩ := h.front
  have hle := decimal_le_append short more
  have hlarge := h.tooLarge
  omega

/-- The first digit with which the value is too large ends the shortest part that is. -/
theorem overflow_concat {q : List Char} {d : Char} (more : List Char)
    (hle : decimal q ≤ 2147483647) (hlarge : 2147483647 < decimal (q ++ [d])) :
    Overflow (q ++ d :: more) (q ++ [d]) := by
  have hfront : q ++ [d] <+: q ++ d :: more := ⟨more, by simp⟩
  refine ⟨hfront, hlarge, fun p hp hplarge => ?_⟩
  obtain hshort | hlong := List.prefix_or_prefix_of_prefix hp hfront
  · obtain rfl | ⟨rest, rfl⟩ := List.prefix_concat_iff.1 hshort
    · exact List.prefix_rfl
    · have hmono := decimal_le_append p rest
      omega
  · exact hlong

/-- What stands behind digits that are too large does not matter. -/
theorem Overflow.append {digits short : List Char} (h : Overflow digits short)
    (more : List Char) : Overflow (digits ++ more) short := by
  refine ⟨h.front.trans (List.prefix_append digits more), h.tooLarge, fun q hq hlarge => ?_⟩
  obtain hshort | hlong := List.prefix_or_prefix_of_prefix hq (List.prefix_append digits more)
  · exact h.shortest q hshort hlarge
  · exact h.front.trans hlong

theorem readFrom_eq_error_iff {seen digits : List Char} (hseen : decimal seen.reverse ≤ largest)
    {e : Diagnostic} : readFrom seen (decimal seen.reverse) digits = .error e ↔
      ∃ short, Overflow (seen.reverse ++ digits) short ∧
        e = .numericOverflow (String.ofList short) := by
  induction digits generalizing seen with
  | nil =>
    rw [readFrom, List.append_nil]
    simp only [reduceCtorEq, false_iff]
    intro h
    obtain ⟨short, hshort, -⟩ := h
    have hlarge := hshort.lt_decimal
    unfold largest at hseen
    omega
  | cons d digits ih =>
    have hstep : 10 * decimal seen.reverse + digitValue d = decimal (d :: seen).reverse := by
      rw [List.reverse_cons, decimal_concat]
    have hsplit : seen.reverse ++ d :: digits = (d :: seen).reverse ++ digits := by simp
    rw [readFrom, hstep]
    by_cases hle : decimal (d :: seen).reverse ≤ largest
    · rw [if_pos hle, ih hle, hsplit]
    · have hover : Overflow (seen.reverse ++ d :: digits) (d :: seen).reverse := by
        rw [List.reverse_cons] at hle ⊢
        exact overflow_concat digits hseen (Nat.lt_of_not_le hle)
      rw [if_neg hle, Except.error.injEq]
      constructor
      · intro h
        exact ⟨_, hover, h.symm⟩
      · intro h
        obtain ⟨short, hshort, rfl⟩ := h
        rw [hover.unique hshort]

/-- A literal is rejected exactly if it is too large, and then it is quoted up to the digit with
which it gets too large. -/
theorem ofDigits_eq_error_iff {digits : List Char} {e : Diagnostic} :
    ofDigits digits = .error e ↔
      ∃ short, Overflow digits short ∧ e = .numericOverflow (String.ofList short) :=
  @readFrom_eq_error_iff [] digits (Nat.zero_le largest) e

end ModuleCompiler.Integer
