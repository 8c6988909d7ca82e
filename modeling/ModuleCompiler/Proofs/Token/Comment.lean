/-
  Comments and separators as scanners put together from smaller ones. The scanner for a comment
  calls itself for the comments inside, and it never has to count how deep it is; `nestingEnd`
  goes through the text once and does nothing but count. They end at the same place
  (`comment_eq_byDepth`), and so do these scanners and the places `closeComment` and `skip`
  (`comment_counts_depth`).
-/
import ModuleCompiler.Proofs.Token.Combinators
import ModuleCompiler.Proofs.Token.Nesting
import Mathlib.Data.List.TakeWhile

namespace ModuleCompiler.Separator

/-- No comment is opened or closed by the character. -/
def isPlain (c : Char) : Bool := c ≠ '(' && c ≠ '*'

namespace Combinators

variable {k : Combinators} {text rest : List Char}

/-! ## Scanners -/

/-- Passes over what stands inside a comment: another comment, a run of plain characters, or any
other character. -/
def item (k : Combinators) (inner : Scanner) : Scanner :=
  k.alt inner (k.alt (k.run isPlain) k.any)

/-- Passes over what stands behind an opening, up to and including its closing. What is not closed
is a failure. -/
def tail (k : Combinators) (inner : Scanner) : Scanner :=
  k.cut (k.repeatedTill (k.item inner) (k.literal ['*', ')']))

/-- Passes over a comment, where `inner` is what passes over the comments in it. -/
def commentBy (k : Combinators) (inner : Scanner) : Scanner := fun text =>
  match k.literal ['(', '*'] text with
  | .accepted rest => k.tail inner rest
  | s => s

/-- Passes over a comment. The comments in it are shorter. -/
def comment (k : Combinators) (text : List Char) : Scan :=
  k.commentBy
    (fun inner => if inner.length < text.length then comment k inner else .refused inner) text
termination_by text.length

/-- Passes over blanks and comments. -/
def gap (k : Combinators) : Scanner :=
  k.repeated (k.alt (k.run isBlank) k.comment)

/-! ## Comments -/

/-- What a scanner does that finds a closing, or finds none. -/
def closing : Option (List Char) → Scan
  | some rest => .accepted rest
  | none => .failed

theorem closing_eq_accepted_iff {found : Option (List Char)} :
    closing found = .accepted rest ↔ found = some rest := by
  cases found <;> simp [closing]

theorem closing_eq_failed_iff {found : Option (List Char)} :
    closing found = .failed ↔ found = none := by
  cases found <;> simp [closing]

theorem behind?_closing (found : Option (List Char)) : (closing found).behind? = found := by
  cases found <;> rfl

/-- What a scanner for comments does that counts how deep it is. -/
def byDepth : Scanner
  | '(' :: '*' :: rest => closing (nestingEnd 1 rest)
  | text => .refused text

theorem byDepth_of_not (h : ¬['(', '*'] <+: text) : byDepth text = .refused text := by
  unfold byDepth
  split
  · exact absurd ⟨_, rfl⟩ h
  · rfl

theorem length_of_nestingEnd {r : List Char} (h : nestingEnd 1 text = some r) :
    r.length < text.length := by
  rw [nestingEnd_one 0, Option.map_eq_some_iff] at h
  obtain ⟨p, hp, rfl⟩ := h
  obtain ⟨tail, htail, rfl, -⟩ := tail_of_commentEnd hp
  have hlength := List.length_pos_iff.2 htail.ne_nil
  rw [List.length_append]
  omega

/-- Two levels back is one level back twice. -/
theorem nestingEnd_two (text : List Char) :
    nestingEnd 2 text = (nestingEnd 1 text).bind (nestingEnd 1) := by
  rw [nestingEnd_succ 1 0, nestingEnd_one 0, Option.bind_map]
  rfl

theorem not_prefix_of_isPlain {c : Char} (h : isPlain c = true) (rest : List Char) :
    ¬['*', ')'] <+: c :: rest ∧ ¬['(', '*'] <+: c :: rest := by
  simp only [isPlain, ne_eq, decide_not, Bool.and_eq_true, Bool.not_eq_true',
    decide_eq_false_iff_not] at h
  constructor
  · intro hpre
    exact h.2 (pair_prefix_iff.1 hpre).1
  · intro hpre
    exact h.1 (pair_prefix_iff.1 hpre).1

/-- Plain characters leave the depth as it is. -/
theorem nestingEnd_dropWhile (depth : Nat) (text : List Char) :
    nestingEnd (depth + 1) (text.dropWhile isPlain) = nestingEnd (depth + 1) text := by
  induction text with
  | nil => rfl
  | cons c rest ih =>
    rw [List.dropWhile_cons]
    split
    · next hc =>
      obtain ⟨hclose, hopen⟩ := not_prefix_of_isPlain hc rest
      rw [ih, nestingEnd_other hclose hopen]
    · rfl

/-- Characters that neither close nor open a comment are passed over, and the depth stays. -/
theorem item_other (hk : k.Lawful) {inner : Scanner} {c : Char}
    (hinner : inner (c :: rest) = .refused (c :: rest)) (hclose : ¬['*', ')'] <+: c :: rest)
    (hopen : ¬['(', '*'] <+: c :: rest) :
    ∃ r, k.item inner (c :: rest) = .accepted r ∧ r.length ≤ rest.length ∧
      nestingEnd 1 r = nestingEnd 1 (c :: rest) := by
  unfold item
  rw [hk.alt_next _ _ _ _ hinner]
  by_cases hc : isPlain c = true
  · have hrun := hk.run_hit isPlain c rest hc
    refine ⟨rest.dropWhile isPlain, ?_, List.length_dropWhile_le isPlain rest, ?_⟩
    · rw [hk.alt_first _ _ _ (by simp [hrun]), hrun]
    · rw [nestingEnd_dropWhile, nestingEnd_other hclose hopen]
  · have hrun := hk.run_miss isPlain (c :: rest) (by simpa using hc)
    refine ⟨rest, ?_, Nat.le_refl _, (nestingEnd_other hclose hopen).symm⟩
    rw [hk.alt_next _ _ _ _ hrun, hk.any_hit]

/-- A comment inside is passed over whole, and the depth is what it was, or nothing closes it. -/
theorem item_comment (hk : k.Lawful) {inner : Scanner}
    (hinner : inner ('(' :: '*' :: rest) = closing (nestingEnd 1 rest)) :
    (∃ r, k.item inner ('(' :: '*' :: rest) = .accepted r ∧ r.length < rest.length ∧
        nestingEnd 1 r = nestingEnd 1 ('(' :: '*' :: rest)) ∨
      k.item inner ('(' :: '*' :: rest) = .failed ∧ nestingEnd 1 ('(' :: '*' :: rest) = none := by
  have htwo : nestingEnd 1 ('(' :: '*' :: rest) = (nestingEnd 1 rest).bind (nestingEnd 1) :=
    nestingEnd_two rest
  have hitem : k.item inner ('(' :: '*' :: rest) = closing (nestingEnd 1 rest) := by
    rw [← hinner]
    refine hk.alt_first _ _ _ fun r => ?_
    rw [hinner]
    cases nestingEnd 1 rest <;> simp [closing]
  rw [hitem, htwo]
  cases hend : nestingEnd 1 rest with
  | none => exact .inr ⟨rfl, rfl⟩
  | some r => exact .inl ⟨r, rfl, length_of_nestingEnd hend, rfl⟩

/-- The loop inside a comment ends where the depth does, if the comments inside end there. -/
theorem tail_eq (hk : k.Lawful) {inner : Scanner} {bound : Nat}
    (hinner : ∀ t : List Char, t.length < bound → inner t = byDepth t) (hlt : text.length < bound) :
    k.tail inner text = closing (nestingEnd 1 text) := by
  unfold tail
  rw [hk.cut_hard]
  induction hn : text.length using Nat.strongRecOn generalizing text with
  | ind n ih =>
    -- an item that is passed over leaves a shorter text at the same depth
    have hmore : ∀ r, ¬['*', ')'] <+: text → k.item inner text = .accepted r →
        r.length < text.length → nestingEnd 1 r = nestingEnd 1 text →
        (k.repeatedTill (k.item inner) (k.literal ['*', ')']) text).hard =
          closing (nestingEnd 1 text) := by
      intro r hclose hr hshort hdepth
      rw [hk.repeatedTill_more _ _ _ _ r (hk.literal_miss _ _ hclose) hr hshort, ← hdepth]
      exact ih r.length (by omega) (by omega) rfl
    obtain rfl | ⟨rest, rfl⟩ | ⟨rest, rfl⟩ | ⟨c, rest, rfl, hclose, hopen⟩ := inside_cases text
    · have hstuck : k.item inner [] = .refused [] := by
        unfold item
        rw [hk.alt_next _ _ _ [] (hinner [] hlt), hk.alt_next _ _ _ [] (hk.run_miss _ _ (by simp)),
          hk.any_miss]
      rw [hk.repeatedTill_stuck _ _ _ _ (hk.literal_miss _ [] (by simp)) (by simp [hstuck]),
        hstuck]
      rfl
    · have hclose := hk.literal_hit ['*', ')'] rest
      rw [hk.repeatedTill_end _ _ ('*' :: ')' :: rest) rest hclose, nestingEnd, nestingEnd]
      rfl
    · have hclose : ¬['*', ')'] <+: '(' :: '*' :: rest := by simp
      obtain ⟨r, hr, hshort, hdepth⟩ | ⟨hfailed, hnone⟩ := item_comment hk (hinner _ hlt)
      · exact hmore r hclose hr (by simp only [List.length_cons]; omega) hdepth
      · rw [hk.repeatedTill_stuck _ _ _ _ (hk.literal_miss _ _ hclose) (by simp [hfailed]),
          hfailed, hnone]
        rfl
    · have hrefused : inner (c :: rest) = .refused (c :: rest) :=
        (hinner _ hlt).trans (byDepth_of_not hopen)
      obtain ⟨r, hr, hshort, hdepth⟩ := item_other hk hrefused hclose hopen
      exact hmore r hclose hr (by simp only [List.length_cons]; omega) hdepth

theorem commentBy_eq (hk : k.Lawful) {inner : Scanner}
    (hinner : ∀ t : List Char, t.length < text.length → inner t = byDepth t) :
    k.commentBy inner text = byDepth text := by
  unfold commentBy
  by_cases hopen : ['(', '*'] <+: text
  · obtain ⟨rest, rfl⟩ := hopen
    rw [hk.literal_hit]
    refine tail_eq hk hinner ?_
    simp only [List.length_append, List.length_cons, List.length_nil]
    omega
  · rw [hk.literal_miss _ _ hopen, byDepth_of_not hopen]

/-- To call itself for the comments inside is to count. -/
theorem comment_eq_byDepth (hk : k.Lawful) (text : List Char) : k.comment text = byDepth text := by
  induction hn : text.length using Nat.strongRecOn generalizing text with
  | ind n ih =>
    rw [comment]
    refine commentBy_eq hk fun t ht => ?_
    rw [if_pos ht]
    exact ih t.length (hn ▸ ht) t rfl

theorem comment_recursive (hk : k.Lawful) (text : List Char) :
    k.comment text = k.commentBy k.comment text := by
  rw [comment_eq_byDepth hk, commentBy_eq hk fun t _ => comment_eq_byDepth hk t]

/-! ## Separators -/

/-- Blanks that are passed over leave what separators leave. -/
theorem gapEnd_dropWhile (byte : Nat) (text : List Char) :
    ∃ byte', gapEnd byte' (text.dropWhile isBlank) = gapEnd byte text := by
  induction text generalizing byte with
  | nil => exact ⟨byte, rfl⟩
  | cons c rest ih =>
    rw [List.dropWhile_cons]
    split
    · next hc =>
      obtain ⟨byte', h⟩ := ih (byte + c.utf8Size)
      exact ⟨byte', h.trans (gapEnd_blank (by simpa [isBlank] using hc)).symm⟩
    · exact ⟨byte, rfl⟩

/-- Separators are passed over up to where they end. -/
theorem gap_eq (hk : k.Lawful) (byte : Nat) (text : List Char) :
    k.gap text = closing ((gapEnd byte text).map Place.rest) := by
  unfold gap
  induction hn : text.length using Nat.strongRecOn generalizing byte text with
  | ind n ih =>
    obtain ⟨c, rest, rfl, hc⟩ | ⟨rest, rfl⟩ | hno := gap_cases text
    · have hblank : isBlank c = true := by simpa [isBlank] using hc
      have hrun := hk.run_hit isBlank c rest hblank
      have hitem := (hk.alt_first _ k.comment _ (by simp [hrun])).trans hrun
      have hshort := List.length_dropWhile_le isBlank rest
      simp only [List.length_cons] at hn
      obtain ⟨byte', hend⟩ := gapEnd_dropWhile (byte + c.utf8Size) rest
      rw [hk.repeated_more _ _ _ hitem (by simp only [List.length_cons]; omega), gapEnd_blank hc,
        ← hend]
      exact ih _ (by omega) byte' _ rfl
    · have hrun := hk.run_miss isBlank ('(' :: '*' :: rest) (by simp [isBlank])
      have hitem := hk.alt_next _ k.comment _ _ hrun
      rw [comment_eq_byDepth hk, byDepth, nestingEnd_one (byte + 2)] at hitem
      rw [gapEnd_comment]
      cases hend : commentEnd (byte + 2) rest with
      | none =>
        rw [hend] at hitem
        exact hk.repeated_failed _ _ hitem
      | some p =>
        rw [hend] at hitem
        obtain ⟨tail, -, rfl, -⟩ := tail_of_commentEnd hend
        simp only [List.length_cons, List.length_append] at hn
        rw [hk.repeated_more _ _ _ hitem (by simp; omega)]
        exact ih _ (by omega) p.byte p.rest rfl
    · have hblank : ∀ c ∈ text.head?, isBlank c = false := by
        simpa [isBlank] using hno.1
      have hitem := hk.alt_next _ k.comment _ _ (hk.run_miss isBlank text hblank)
      rw [comment_eq_byDepth hk, byDepth_of_not hno.2] at hitem
      rw [hk.repeated_last _ _ _ hitem, gapEnd_noGap hno]
      rfl

/-! ## What the scanners do -/

/-- The scanners for comments and for separators do what counting the depth says. -/
structure CountsDepth (k : Combinators) : Prop where
  /-- The scanner for a comment calls itself for the comments inside. -/
  recursive : ∀ text, k.comment text = k.commentBy k.comment text
  /-- A comment ends where the depth gets back to zero. -/
  closed : ∀ rest r, k.comment ('(' :: '*' :: rest) = .accepted r ↔ nestingEnd 1 rest = some r
  /-- It fails for good where the depth never does. -/
  unclosed : ∀ rest, k.comment ('(' :: '*' :: rest) = .failed ↔ nestingEnd 1 rest = none
  /-- What begins with no comment is refused, and nothing of it is passed over. -/
  refused : ∀ text, ¬['(', '*'] <+: text → k.comment text = .refused text
  /-- The longest beginning of blanks and comments is passed over, unless it is followed by a
  comment that is never closed. -/
  gap : ∀ text,
    (∃ gap r, k.gap text = .accepted r ∧ text = gap ++ r ∧ Gap gap ∧
      ∀ other, Gap other → other <+: text → other <+: gap) ∨
    (k.gap text = .failed ∧ ∃ gap r, text = gap ++ r ∧ Gap gap ∧ Unclosed r)
  /-- The places behind a comment and behind separators are those that the scanners leave. -/
  closeComment_rest : ∀ byte rest, (closeComment byte rest).map (·.val.rest) =
    (k.comment ('(' :: '*' :: rest)).behind?
  skip_rest : ∀ byte text, (skip byte text).map (·.val.rest) = (k.gap text).behind?

theorem gap_cases_of_lawful (hk : k.Lawful) (text : List Char) :
    (∃ gap r, k.gap text = .accepted r ∧ text = gap ++ r ∧ Gap gap ∧
      ∀ other, Gap other → other <+: text → other <+: gap) ∨
    (k.gap text = .failed ∧ ∃ gap r, text = gap ++ r ∧ Gap gap ∧ Unclosed r) := by
  have heq := gap_eq hk 0 text
  cases hend : gapEnd 0 text with
  | none =>
    rw [hend] at heq
    obtain ⟨gap, r, hgap, htext, hr⟩ := unclosed_of_gapEnd hend
    exact .inr ⟨heq, gap, r, htext, hgap, hr⟩
  | some p =>
    rw [hend] at heq
    obtain ⟨gap, hgap, rfl, -, hno⟩ := gap_of_gapEnd hend
    exact .inl ⟨gap, p.rest, heq, rfl, hgap, fun other => hgap.prefix_of_noGap hno⟩

/-- A scanner that calls itself for the comments inside a comment counts how deep it is. -/
theorem comment_counts_depth (hk : k.Lawful) : k.CountsDepth where
  recursive := comment_recursive hk
  closed rest r := by
    rw [comment_eq_byDepth hk, byDepth, closing_eq_accepted_iff]
  unclosed rest := by
    rw [comment_eq_byDepth hk, byDepth, closing_eq_failed_iff]
  refused text h := by
    rw [comment_eq_byDepth hk, byDepth_of_not h]
  gap := gap_cases_of_lawful hk
  closeComment_rest byte rest := by
    rw [comment_eq_byDepth hk, byDepth, behind?_closing, nestingEnd_one byte, commentEnd,
      Option.map_map]
    rfl
  skip_rest byte text := by
    rw [gap_eq hk byte, behind?_closing, gapEnd, Option.map_map]
    rfl

/-- A star in front of the closing is no part of it, and a parenthesis behind an opening is no
closing. -/
theorem comment_counts_depth_standard : standard.Lawful ∧
    standard.comment ('(' :: '*' :: ['*', '*', ')', 'x']) = .accepted ['x'] ∧
    standard.comment ('(' :: '*' :: ['(', '*', ')', '*', ')']) = .failed := by
  have h := comment_counts_depth lawful_standard
  exact ⟨lawful_standard, (h.closed _ _).2 rfl, (h.unclosed _).2 rfl⟩

end Combinators

end ModuleCompiler.Separator
