/-
  Comments by their depth. `nestingEnd depth text` goes through a text once, one level deeper
  at each opening and one level back at each closing, up to where the depth is zero. It ends
  where the comments end that are read one inside the other (`nestingEnd_succ`). So a comment
  is never closed exactly if the depth never gets back to zero, and separators cannot be
  skipped exactly if they run into such a comment (`gapEnd_eq_none_iff`).
-/
import ModuleCompiler.Proofs.Token.Separator

namespace ModuleCompiler.Separator

/-- What is left where the depth gets back to zero: an opening leads one level deeper, a closing
leads one level back, and any other character is passed over. -/
def nestingEnd : Nat → List Char → Option (List Char)
  | 0, text => some text
  | _ + 1, [] => none
  | depth + 1, '*' :: ')' :: rest => nestingEnd depth rest
  | depth + 1, '(' :: '*' :: rest => nestingEnd (depth + 2) rest
  | depth + 1, _ :: rest => nestingEnd (depth + 1) rest

theorem nestingEnd_other {depth : Nat} {c : Char} {rest : List Char}
    (hclose : ¬['*', ')'] <+: c :: rest) (hopen : ¬['(', '*'] <+: c :: rest) :
    nestingEnd (depth + 1) (c :: rest) = nestingEnd (depth + 1) rest := by
  rw [nestingEnd.eq_5]
  · rintro more rfl rfl
    exact hclose ⟨more, rfl⟩
  · rintro more rfl rfl
    exact hopen ⟨more, rfl⟩

/-- What a text inside a comment goes on with. -/
theorem inside_cases (text : List Char) : text = [] ∨ (∃ rest, text = '*' :: ')' :: rest) ∨
    (∃ rest, text = '(' :: '*' :: rest) ∨
    ∃ c rest, text = c :: rest ∧ ¬['*', ')'] <+: c :: rest ∧ ¬['(', '*'] <+: c :: rest := by
  cases text with
  | nil => exact .inl rfl
  | cons c rest =>
    by_cases hclose : ['*', ')'] <+: c :: rest
    · obtain ⟨rfl, more, rfl⟩ := pair_prefix_iff.1 hclose
      exact .inr (.inl ⟨more, rfl⟩)
    · by_cases hopen : ['(', '*'] <+: c :: rest
      · obtain ⟨rfl, more, rfl⟩ := pair_prefix_iff.1 hopen
        exact .inr (.inr (.inl ⟨more, rfl⟩))
      · exact .inr (.inr (.inr ⟨c, rest, rfl, hclose, hopen⟩))

/-- To get one level back is to get behind one comment. -/
theorem nestingEnd_succ (depth byte : Nat) (text : List Char) :
    nestingEnd (depth + 1) text =
      (commentEnd byte text).bind fun p => nestingEnd depth p.rest := by
  -- a comment inside leaves a shorter text, in which the depth is one less
  induction hn : text.length using Nat.strongRecOn generalizing depth byte text with
  | ind n ih =>
    obtain rfl | ⟨rest, rfl⟩ | ⟨rest, rfl⟩ | ⟨c, rest, rfl, hclose, hopen⟩ := inside_cases text
    · rw [commentEnd_nil]
      rfl
    · rw [commentEnd_close]
      rfl
    · have hrest : rest.length < n := by simp at hn; omega
      have hinner := ih _ hrest (depth + 1) (byte + 2) rest rfl
      rw [commentEnd_open, Option.bind_assoc]
      refine hinner.trans (Option.bind_congr fun p hp => ?_)
      obtain ⟨tail, -, htail, -⟩ := tail_of_commentEnd hp
      have hshort : p.rest.length < n := by simp [htail] at hrest; omega
      exact ih _ hshort depth p.byte p.rest rfl
    · have hrest : rest.length < n := by simp at hn; omega
      rw [nestingEnd_other hclose hopen, commentEnd_other hclose hopen]
      exact ih _ hrest depth (byte + c.utf8Size) rest rfl

/-- What the depth leaves behind an opening is what is left behind the comment. -/
theorem nestingEnd_one (byte : Nat) (text : List Char) :
    nestingEnd 1 text = (commentEnd byte text).map Place.rest := by
  rw [nestingEnd_succ 0 byte]
  cases commentEnd byte text <;> simp [nestingEnd]

/-- The text begins with a comment that is never closed. -/
def Unclosed (text : List Char) : Prop :=
  ∃ rest, text = '(' :: '*' :: rest ∧ nestingEnd 1 rest = none

theorem unclosed_iff (byte : Nat) {text : List Char} :
    Unclosed text ↔ ∃ rest, text = '(' :: '*' :: rest ∧ commentEnd byte rest = none := by
  simp only [Unclosed, nestingEnd_one byte, Option.map_eq_none_iff]

/-! ## Separators that cannot be skipped -/

/-- What a text goes on with where a separator may stand. -/
theorem gap_cases (text : List Char) : (∃ c rest, text = c :: rest ∧ c ≤ ' ') ∨
    (∃ rest, text = '(' :: '*' :: rest) ∨ NoGap text := by
  cases text with
  | nil => exact .inr (.inr ⟨by simp, by simp⟩)
  | cons c rest =>
    by_cases hblank : c ≤ ' '
    · exact .inl ⟨c, rest, rfl, hblank⟩
    · by_cases hopen : ['(', '*'] <+: c :: rest
      · obtain ⟨rfl, more, rfl⟩ := pair_prefix_iff.1 hopen
        exact .inr (.inl ⟨more, rfl⟩)
      · exact .inr (.inr ⟨by simpa using hblank, hopen⟩)

theorem unclosed_of_gapEnd {byte : Nat} {text : List Char} (h : gapEnd byte text = none) :
    ∃ gap rest, Gap gap ∧ text = gap ++ rest ∧ Unclosed rest := by
  induction hn : text.length using Nat.strongRecOn generalizing byte text with
  | ind n ih =>
    obtain ⟨c, rest, rfl, hc⟩ | ⟨rest, rfl⟩ | hno := gap_cases text
    · have hrest : rest.length < n := by simp at hn; omega
      rw [gapEnd_blank hc] at h
      obtain ⟨gap, more, hgap, rfl, hmore⟩ := ih _ hrest h rfl
      exact ⟨c :: gap, more, .blank hc hgap, rfl, hmore⟩
    · rw [gapEnd_comment] at h
      cases hend : commentEnd (byte + 2) rest with
      | none => exact ⟨[], _, .nil, rfl, (unclosed_iff (byte + 2)).2 ⟨rest, rfl, hend⟩⟩
      | some p =>
        obtain ⟨tail, htail, hsplit, -⟩ := tail_of_commentEnd hend
        have hshort : p.rest.length < n := by simp [hsplit] at hn; omega
        rw [hend, Option.bind_some] at h
        obtain ⟨gap, more, hgap, hrest, hmore⟩ := ih _ hshort h rfl
        exact ⟨'(' :: '*' :: (tail ++ gap), more, .comment htail hgap, by simp [hsplit, hrest],
          hmore⟩
    · rw [gapEnd_noGap hno] at h
      cases h

theorem gapEnd_of_unclosed {gap rest : List Char} (hgap : Gap gap) (hrest : Unclosed rest)
    (byte : Nat) : gapEnd byte (gap ++ rest) = none := by
  induction hgap generalizing byte with
  | nil =>
    obtain ⟨more, rfl, hmore⟩ := (unclosed_iff (byte + 2)).1 hrest
    rw [List.nil_append, gapEnd_comment, hmore]
    rfl
  | blank hc _ ih => rw [List.cons_append, gapEnd_blank hc, ih]
  | @comment tail gap htail _ ih =>
    have hassoc : '(' :: '*' :: (tail ++ gap) ++ rest =
        '(' :: '*' :: (tail ++ (gap ++ rest)) := by simp
    rw [hassoc, gapEnd_comment, commentEnd_tail htail, Option.bind_some, ih]

/-- Separators cannot be skipped exactly if they run into a comment that is never closed. -/
theorem gapEnd_eq_none_iff {byte : Nat} {text : List Char} :
    gapEnd byte text = none ↔ ∃ gap rest, Gap gap ∧ text = gap ++ rest ∧ Unclosed rest := by
  constructor
  · exact unclosed_of_gapEnd
  · intro h
    obtain ⟨gap, rest, hgap, rfl, hrest⟩ := h
    exact gapEnd_of_unclosed hgap hrest byte

/-! ## The longest separators -/

theorem Gap.append {gap more : List Char} (h : Gap gap) (hmore : Gap more) :
    Gap (gap ++ more) := by
  induction h with
  | nil => exact hmore
  | blank hc _ ih => exact .blank hc ih
  | @comment tail gap htail _ ih =>
    have hassoc : '(' :: '*' :: (tail ++ gap) ++ more =
        '(' :: '*' :: (tail ++ (gap ++ more)) := by simp
    rw [hassoc]
    exact .comment htail ih

/-- No beginning of a text that is made of blanks and comments is longer than the one in front of
what is no separator. -/
theorem Gap.prefix_of_noGap {gap rest other : List Char} (hgap : Gap gap) (hno : NoGap rest)
    (hother : Gap other) (h : other <+: gap ++ rest) : other <+: gap := by
  obtain ⟨more, hmore⟩ := h
  have hend := gapEnd_gap hgap hno 0
  rw [← hmore] at hend
  cases hs : gapEnd 0 more with
  | none =>
    obtain ⟨g, u, hg, rfl, hu⟩ := unclosed_of_gapEnd hs
    rw [← List.append_assoc, gapEnd_of_unclosed (hother.append hg) hu] at hend
    cases hend
  | some p =>
    obtain ⟨g, hg, rfl, -, hp⟩ := gap_of_gapEnd hs
    rw [← List.append_assoc, gapEnd_gap (hother.append hg) hp, Option.some.injEq] at hend
    have hrest : p.rest = rest := congrArg Place.rest hend
    rw [hrest, ← List.append_assoc] at hmore
    exact ⟨g, List.append_cancel_right hmore⟩

end ModuleCompiler.Separator
