/-
  Separators as a grammar. `CommentTail` derives what stands behind the opening of a
  comment, up to and including its closing; `Gap` derives what may stand between two tokens:
  blanks and whole comments. Both are read off the text alone, with no place in it.

  * `commentEnd_eq_some_iff`: what is left behind a comment is what is left behind a
    `CommentTail`.
  * `gapEnd_eq_some_iff`: what is left behind separators is what is left behind a `Gap`
    that no separator follows.
-/
import ModuleCompiler.Token.Separator

namespace ModuleCompiler.Separator

/-- What stands behind an opening, up to and including its closing: at each point a closing
comes before anything else, and an opening before any other character. -/
inductive CommentTail : List Char → Prop where
  | close : CommentTail ['*', ')']
  | comment {inner outer : List Char} :
      CommentTail inner → CommentTail outer → CommentTail ('(' :: '*' :: (inner ++ outer))
  | other {c : Char} {tail : List Char} :
      ¬['*', ')'] <+: c :: tail → ¬['(', '*'] <+: c :: tail → CommentTail tail →
      CommentTail (c :: tail)

/-- What may stand between two tokens: blanks and closed comments. -/
inductive Gap : List Char → Prop where
  | nil : Gap []
  | blank {c : Char} {gap : List Char} : c ≤ ' ' → Gap gap → Gap (c :: gap)
  | comment {tail gap : List Char} :
      CommentTail tail → Gap gap → Gap ('(' :: '*' :: (tail ++ gap))

/-- The text does not go on with a separator. -/
def NoGap (text : List Char) : Prop :=
  (∀ c ∈ text.head?, ¬c ≤ ' ') ∧ ¬['(', '*'] <+: text

theorem pair_prefix_iff {a b c : Char} {rest : List Char} :
    [a, b] <+: c :: rest ↔ c = a ∧ ∃ more, rest = b :: more := by
  constructor
  · intro h
    obtain ⟨more, h⟩ := h
    cases h
    exact ⟨rfl, more, rfl⟩
  · intro h
    obtain ⟨rfl, more, rfl⟩ := h
    exact ⟨more, rfl⟩

theorem CommentTail.ne_nil {tail : List Char} (h : CommentTail tail) : tail ≠ [] := by
  cases h <;> exact List.cons_ne_nil _ _

theorem byteSize_opening (text : List Char) :
    byteSize ('(' :: '*' :: text) = 2 + byteSize text := by
  rw [byteSize, byteSize, ← Nat.add_assoc]
  rfl

/-! ## Comments -/

/-- The place behind a comment whose opening was just read. -/
def commentEnd (byte : Nat) (text : List Char) : Option Place :=
  (closeComment byte text).map (·.val)

theorem commentEnd_nil (byte : Nat) : commentEnd byte [] = none := by
  rw [commentEnd, closeComment]
  rfl

theorem commentEnd_close (byte : Nat) (rest : List Char) :
    commentEnd byte ('*' :: ')' :: rest) = some ⟨byte + 2, rest⟩ := by
  rw [commentEnd, closeComment]
  rfl

theorem commentEnd_open (byte : Nat) (rest : List Char) :
    commentEnd byte ('(' :: '*' :: rest) =
      (commentEnd (byte + 2) rest).bind fun p => commentEnd p.byte p.rest := by
  rw [commentEnd, closeComment, commentEnd]
  cases closeComment (byte + 2) rest with
  | none => rfl
  | some p =>
    simp only [Option.map_some, Option.bind_some, commentEnd]
    cases closeComment p.val.byte p.val.rest <;> rfl

theorem commentEnd_other {byte : Nat} {c : Char} {rest : List Char}
    (hclose : ¬['*', ')'] <+: c :: rest) (hopen : ¬['(', '*'] <+: c :: rest) :
    commentEnd byte (c :: rest) = commentEnd (byte + c.utf8Size) rest := by
  rw [commentEnd, closeComment.eq_4, commentEnd]
  · cases closeComment (byte + c.utf8Size) rest <;> rfl
  · rintro more rfl rfl
    exact hclose ⟨more, rfl⟩
  · rintro more rfl rfl
    exact hopen ⟨more, rfl⟩

theorem tail_of_commentEnd {byte : Nat} {text : List Char} {p : Place}
    (h : commentEnd byte text = some p) :
    ∃ tail, CommentTail tail ∧ text = tail ++ p.rest ∧ p.byte = byte + byteSize tail := by
  fun_induction closeComment byte text generalizing p with
  | case1 byte =>
    rw [commentEnd_nil] at h
    cases h
  | case2 byte rest =>
    rw [commentEnd_close] at h
    cases h
    exact ⟨['*', ')'], .close, rfl, rfl⟩
  | case3 byte rest hin | case4 byte rest inner hi hin hout ihi =>
    have hnone : commentEnd byte ('(' :: '*' :: rest) = none := by
      rw [commentEnd_open]
      simp [commentEnd, *]
    rw [hnone] at h
    cases h
  | case5 byte rest inner hi hin outer ho hout ihi iho =>
    have hinner : commentEnd (byte + 2) rest = some inner := by rw [commentEnd, hin]; rfl
    rw [commentEnd_open, hinner, Option.bind_some] at h
    obtain ⟨a, ha, hrest, hab⟩ := ihi hinner
    obtain ⟨b, hb, hinnerRest, hbb⟩ := iho h
    refine ⟨'(' :: '*' :: (a ++ b), .comment ha hb, by simp [hrest, hinnerRest], ?_⟩
    rw [byteSize_opening, byteSize_append]
    omega
  | case6 byte c rest hclose hopen hc ih | case7 byte c rest hclose hopen q hq hc ih =>
    have hclose' : ¬['*', ')'] <+: c :: rest := by
      intro hpre
      obtain ⟨rfl, more, rfl⟩ := pair_prefix_iff.1 hpre
      exact hclose more rfl rfl
    have hopen' : ¬['(', '*'] <+: c :: rest := by
      intro hpre
      obtain ⟨rfl, more, rfl⟩ := pair_prefix_iff.1 hpre
      exact hopen more rfl rfl
    rw [commentEnd_other hclose' hopen'] at h
    obtain ⟨tail, htail, hrest, hb⟩ := ih h
    refine ⟨c :: tail, .other ?_ ?_ htail, by simp [hrest], by simp [hb, byteSize, Nat.add_assoc]⟩
    · exact fun hpre => hclose' (hpre.trans ⟨p.rest, by simp [hrest]⟩)
    · exact fun hpre => hopen' (hpre.trans ⟨p.rest, by simp [hrest]⟩)

/-- A pair of characters in front of a longer text is in front of any part that holds both. -/
theorem pair_prefix_append {a b c : Char} {tail rest : List Char} (ht : tail ≠ [])
    (h : [a, b] <+: c :: (tail ++ rest)) : [a, b] <+: c :: tail := by
  obtain ⟨d, tail, rfl⟩ := List.exists_cons_of_ne_nil ht
  obtain ⟨rfl, more, hmore⟩ := pair_prefix_iff.1 h
  cases hmore
  exact ⟨tail, rfl⟩

theorem commentEnd_tail {tail : List Char} (ht : CommentTail tail) (byte : Nat)
    (rest : List Char) :
    commentEnd byte (tail ++ rest) = some ⟨byte + byteSize tail, rest⟩ := by
  induction ht generalizing byte rest with
  | close => exact commentEnd_close byte rest
  | @comment inner outer _ _ ihi iho =>
    have hassoc : '(' :: '*' :: (inner ++ outer) ++ rest =
        '(' :: '*' :: (inner ++ (outer ++ rest)) := by simp
    rw [hassoc, commentEnd_open, ihi, Option.bind_some, iho]
    rw [byteSize_opening, byteSize_append, ← Nat.add_assoc, ← Nat.add_assoc]
  | @other c tail hclose hopen htail ih =>
    rw [List.cons_append, commentEnd_other, ih, byteSize, Nat.add_assoc]
    · exact fun h => hclose (pair_prefix_append htail.ne_nil h)
    · exact fun h => hopen (pair_prefix_append htail.ne_nil h)

theorem commentEnd_eq_some_iff {byte : Nat} {text : List Char} {p : Place} :
    commentEnd byte text = some p ↔
      ∃ tail, CommentTail tail ∧ text = tail ++ p.rest ∧ p.byte = byte + byteSize tail := by
  constructor
  · exact tail_of_commentEnd
  · intro h
    obtain ⟨tail, htail, rfl, hb⟩ := h
    rw [commentEnd_tail htail, ← hb]

/-! ## Separators -/

/-- The place behind all separators. -/
def gapEnd (byte : Nat) (text : List Char) : Option Place :=
  (skip byte text).map (·.val)

theorem gapEnd_comment (byte : Nat) (rest : List Char) :
    gapEnd byte ('(' :: '*' :: rest) =
      (commentEnd (byte + 2) rest).bind fun p => gapEnd p.byte p.rest := by
  rw [gapEnd, skip, commentEnd]
  cases closeComment (byte + 2) rest with
  | none => rfl
  | some p =>
    simp only [Option.map_some, Option.bind_some, gapEnd]
    cases skip p.val.byte p.val.rest <;> rfl

theorem gapEnd_blank {byte : Nat} {c : Char} {rest : List Char} (hc : c ≤ ' ') :
    gapEnd byte (c :: rest) = gapEnd (byte + c.utf8Size) rest := by
  have hb : isBlank c = true := by simpa [isBlank] using hc
  rw [gapEnd, skip.eq_3, if_pos hb, gapEnd]
  · cases skip (byte + c.utf8Size) rest <;> rfl
  · rintro more rfl _
    exact absurd hc (by decide)

theorem gapEnd_noGap {byte : Nat} {text : List Char} (h : NoGap text) :
    gapEnd byte text = some ⟨byte, text⟩ := by
  cases text with
  | nil => rw [gapEnd, skip]; rfl
  | cons c rest =>
    have hb : ¬isBlank c = true := by simpa [isBlank] using h.1 c rfl
    rw [gapEnd, skip.eq_3, if_neg hb]
    · rfl
    · rintro more rfl rfl
      exact h.2 ⟨more, rfl⟩

theorem gap_of_gapEnd {byte : Nat} {text : List Char} {p : Place}
    (h : gapEnd byte text = some p) :
    ∃ gap, Gap gap ∧ text = gap ++ p.rest ∧ p.byte = byte + byteSize gap ∧ NoGap p.rest := by
  fun_induction skip byte text generalizing p with
  | case1 byte =>
    have hno : NoGap [] := ⟨by simp, by simp⟩
    rw [gapEnd_noGap hno] at h
    cases h
    exact ⟨[], .nil, rfl, rfl, hno⟩
  | case2 byte rest hin | case3 byte rest inner hi hin hout ihi =>
    have hnone : gapEnd byte ('(' :: '*' :: rest) = none := by
      rw [gapEnd_comment]
      simp [commentEnd, gapEnd, *]
    rw [hnone] at h
    cases h
  | case4 byte rest inner hi hin q hq hs ih =>
    have hinner : commentEnd (byte + 2) rest = some inner := by rw [commentEnd, hin]; rfl
    rw [gapEnd_comment, hinner, Option.bind_some] at h
    obtain ⟨tail, htail, hrest, htb⟩ := commentEnd_eq_some_iff.1 hinner
    obtain ⟨gap, hgap, hinnerRest, hgb, hno⟩ := ih h
    refine ⟨'(' :: '*' :: (tail ++ gap), .comment htail hgap, by simp [hrest, hinnerRest], ?_, hno⟩
    rw [byteSize_opening, byteSize_append]
    omega
  | case5 byte c rest hopen hb hs ih | case6 byte c rest hopen hb q hq hs ih =>
    have hc : c ≤ ' ' := by simpa [isBlank] using hb
    rw [gapEnd_blank hc] at h
    obtain ⟨gap, hgap, hrest, hgb, hno⟩ := ih h
    exact ⟨c :: gap, .blank hc hgap, by simp [hrest], by simp [hgb, byteSize, Nat.add_assoc], hno⟩
  | case7 byte c rest hopen hb =>
    have hno : NoGap (c :: rest) := by
      refine ⟨fun d hd => ?_, fun hpre => ?_⟩
      · cases hd
        simpa [isBlank] using hb
      · obtain ⟨rfl, more, rfl⟩ := pair_prefix_iff.1 hpre
        exact hopen more rfl rfl
    rw [gapEnd_noGap hno] at h
    cases h
    exact ⟨[], .nil, rfl, rfl, hno⟩

theorem gapEnd_gap {gap : List Char} (hgap : Gap gap) {rest : List Char} (hno : NoGap rest)
    (byte : Nat) : gapEnd byte (gap ++ rest) = some ⟨byte + byteSize gap, rest⟩ := by
  induction hgap generalizing byte with
  | nil => exact gapEnd_noGap hno
  | blank hc _ ih => rw [List.cons_append, gapEnd_blank hc, ih, byteSize, Nat.add_assoc]
  | @comment tail gap htail _ ih =>
    have hassoc : '(' :: '*' :: (tail ++ gap) ++ rest =
        '(' :: '*' :: (tail ++ (gap ++ rest)) := by simp
    rw [hassoc, gapEnd_comment, commentEnd_tail htail, Option.bind_some, ih]
    rw [byteSize_opening, byteSize_append, ← Nat.add_assoc, ← Nat.add_assoc]

theorem gapEnd_eq_some_iff {byte : Nat} {text : List Char} {p : Place} :
    gapEnd byte text = some p ↔
      ∃ gap, Gap gap ∧ text = gap ++ p.rest ∧ p.byte = byte + byteSize gap ∧ NoGap p.rest := by
  constructor
  · exact gap_of_gapEnd
  · intro h
    obtain ⟨gap, hgap, rfl, hb, hno⟩ := h
    rw [gapEnd_gap hgap hno, ← hb]

end ModuleCompiler.Separator
