/-
  What is wrong where no token can be read. `Defect rest e` says that the text `rest` begins with
  what the diagnostic `e` is about: a character that no token starts with, a number that is too
  large, or a comment that is never closed. A text begins with one of the three at most
  (`Defect.code_eq`), and with the first two whatever is appended to it (`Defect.append`).
-/
import ModuleCompiler.Proofs.Token.Nesting
import ModuleCompiler.Proofs.Token.Spelling

namespace ModuleCompiler.Token

open Separator

/-- The text begins with what the diagnostic is about. -/
def Defect (rest : List Char) : Diagnostic → Prop
  | .unknownCharacter c =>
    rest.head? = some c ∧ ¬c ≤ ' ' ∧ c.isAlphanum = false ∧ ∀ kind, (c, kind) ∉ symbols
  | .numericOverflow short =>
    ∃ digits behind, rest = digits ++ behind ∧ IsNumber digits ∧
      (∀ d ∈ behind.head?, d.isDigit = false) ∧ Integer.Overflow digits short.toList
  | .unexpectedToken _ => Unclosed rest
  | _ => False

theorem isNumber_append {digits more : List Char} (h : IsNumber digits)
    (hmore : ∀ d ∈ more, d.isDigit) : IsNumber (digits ++ more) := by
  obtain ⟨hc, hcs⟩ := h
  refine .intro hc fun d hd => ?_
  obtain hd | hd := List.mem_append.1 hd
  · exact hcs d hd
  · exact hmore d hd

/-- What a text with a defect begins with. -/
theorem Defect.first {rest : List Char} {e : Diagnostic} (h : Defect rest e) :
    ∃ c more, rest = c :: more ∧
      ((Shape.ofFirst? c = none ∧ ¬c ≤ ' ' ∧ e = .unknownCharacter c) ∨
        (Shape.ofFirst? c = some .number ∧ ∃ short, e = .numericOverflow short) ∨
        (Shape.ofFirst? c = some (.symbol .leftParen) ∧ ∃ q, e = .unexpectedToken q)) := by
  cases e with
  | unknownCharacter c =>
    obtain ⟨hhead, hblank, halnum, hsymbol⟩ := h
    obtain ⟨more, rfl⟩ := List.head?_eq_some_iff.1 hhead
    exact ⟨c, more, rfl, .inl ⟨Shape.ofFirst?_eq_none_iff.2 ⟨halnum, hsymbol⟩, hblank, rfl⟩⟩
  | numericOverflow short =>
    obtain ⟨digits, behind, rfl, hnumber, -, -⟩ := h
    obtain ⟨hc, -⟩ := hnumber
    exact ⟨_, _, rfl, .inr (.inl ⟨Shape.ofFirst?_of_isDigit hc, short, rfl⟩)⟩
  | unexpectedToken q =>
    obtain ⟨more, rfl, -⟩ := h
    exact ⟨'(', _, rfl, .inr (.inr ⟨rfl, q, rfl⟩)⟩
  | _ => exact h.elim

theorem Defect.ne_nil {rest : List Char} {e : Diagnostic} (h : Defect rest e) : rest ≠ [] := by
  obtain ⟨c, more, rfl, -⟩ := h.first
  exact List.cons_ne_nil c more

/-- The first character decides what a text is rejected for. -/
theorem Defect.code_eq {rest : List Char} {e e' : Diagnostic} (h : Defect rest e)
    (h' : Defect rest e') : e'.code = e.code := by
  obtain ⟨c, more, rfl, hc⟩ := h.first
  obtain ⟨c', more', heq, hc'⟩ := h'.first
  cases heq
  obtain ⟨hshape, -, rfl⟩ | ⟨hshape, short, rfl⟩ | ⟨hshape, q, rfl⟩ := hc <;>
    obtain ⟨hshape', -, rfl⟩ | ⟨hshape', short', rfl⟩ | ⟨hshape', q', rfl⟩ := hc' <;>
    first
    | rfl
    | cases hshape.symm.trans hshape'

/-- A character that starts no token and a number that is too large are so whatever follows. -/
theorem Defect.append {rest : List Char} {e : Diagnostic} (h : Defect rest e)
    (hclosed : ∀ q, e ≠ .unexpectedToken q) (more : List Char) : Defect (rest ++ more) e := by
  cases e with
  | unknownCharacter c =>
    obtain ⟨hhead, hc⟩ := h
    refine ⟨?_, hc⟩
    rw [List.head?_append, hhead]
    rfl
  | numericOverflow short =>
    obtain ⟨digits, behind, rfl, hnumber, -, hover⟩ := h
    -- the run of digits may go on in what is appended
    have hsplit : digits ++ behind ++ more = digits ++ (behind ++ more).takeWhile Char.isDigit ++
        (behind ++ more).dropWhile Char.isDigit := by
      rw [List.append_assoc, List.append_assoc, List.takeWhile_append_dropWhile]
    have hdigits : ∀ d ∈ (behind ++ more).takeWhile Char.isDigit, d.isDigit :=
      List.all_eq_true.1 List.all_takeWhile
    refine ⟨_, _, hsplit, isNumber_append hnumber hdigits, ?_, hover.append _⟩
    intro d hd
    have hstop := List.head?_dropWhile_not Char.isDigit (behind ++ more)
    rw [hd] at hstop
    simpa using hstop
  | unexpectedToken q => exact absurd rfl (hclosed q)
  | _ => exact h.elim

end ModuleCompiler.Token
