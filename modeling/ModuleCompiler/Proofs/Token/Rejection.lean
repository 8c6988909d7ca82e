/-
  Sources that have no tokens. What is reported is the first defect behind whole tokens and
  separators, and nothing behind it makes up for it, unless it is a comment that is not closed
  (`lex_error_leftmost`). An unclosed comment is quoted by its first twelve characters if no other
  comment stands between it and the token before it; if one does, the quoted text begins there
  (`lex_unclosed_quoted`).
-/
import ModuleCompiler.Proofs.Token.Layout
import Mathlib

namespace ModuleCompiler

namespace Separator

/-- A separator is blank, or it has a first comment behind blanks. -/
theorem Gap.blank_or_comment {gap : List Char} (h : Gap gap) : (∀ c ∈ gap, c ≤ ' ') ∨
    ∃ blanks tail behind, gap = blanks ++ '(' :: '*' :: (tail ++ behind) ∧
      (∀ c ∈ blanks, c ≤ ' ') ∧ CommentTail tail := by
  induction h with
  | nil => exact .inl (by simp)
  | @blank c gap hc _ ih =>
    obtain hall | ⟨blanks, tail, behind, rfl, hblanks, htail⟩ := ih
    · exact .inl (List.forall_mem_cons.2 ⟨hc, hall⟩)
    · exact .inr ⟨c :: blanks, tail, behind, rfl, List.forall_mem_cons.2 ⟨hc, hblanks⟩, htail⟩
  | @comment tail gap htail _ _ => exact .inr ⟨[], tail, gap, rfl, by simp, htail⟩

theorem fromOpening?_blanks {blanks : List Char} (hblanks : ∀ c ∈ blanks, c ≤ ' ')
    (more : List Char) :
    fromOpening? (blanks ++ '(' :: '*' :: more) = some ('(' :: '*' :: more) := by
  induction blanks with
  | nil => rfl
  | cons c blanks ih =>
    obtain ⟨hc, hblanks⟩ := List.forall_mem_cons.1 hblanks
    have hother : ∀ rest, c = '(' → blanks ++ '(' :: '*' :: more = '*' :: rest → False := by
      rintro rest rfl
      exact absurd hc (by decide)
    rw [List.cons_append, fromOpening?.eq_3 _ _ hother, ih hblanks]

/-- Blanks are not quoted. -/
theorem unclosedText_blanks {blanks : List Char} (hblanks : ∀ c ∈ blanks, c ≤ ' ')
    (more : List Char) : unclosedText (blanks ++ '(' :: '*' :: more) =
      String.ofList (('(' :: '*' :: more).take 12) := by
  rw [unclosedText, fromOpening?_blanks hblanks]

/-- A text that begins with a closed comment does not begin with an unclosed one. -/
theorem Unclosed.not_closed {tail rest : List Char} (h : Unclosed rest)
    (htail : CommentTail tail) : ¬('(' :: '*' :: tail <+: rest) := by
  rintro ⟨more, rfl⟩
  obtain ⟨inner, heq, hopen⟩ := (unclosed_iff 0).1 h
  have hinner : inner = tail ++ more := by simpa using heq.symm
  rw [hinner, commentEnd_tail htail] at hopen
  cases hopen

/-- The quotes of a closed comment and of an unclosed one behind it are the same exactly if the
closed one alone shows twelve characters of the other. -/
theorem Unclosed.take_append_iff {tail rest : List Char} (h : Unclosed rest)
    (htail : CommentTail tail) (behind : List Char) (n : Nat) :
    ('(' :: '*' :: tail ++ behind).take n = rest.take n ↔
      ('(' :: '*' :: tail).take n = rest.take n := by
  have hno := h.not_closed htail
  generalize '(' :: '*' :: tail = closed at hno ⊢
  by_cases hlong : n ≤ closed.length
  · rw [List.take_append_of_le_length hlong]
  · have hall : closed.take n = closed := List.take_of_length_le (by omega)
    constructor
    · intro heq
      have hfront : closed <+: rest.take n := by
        rw [← heq]
        exact ⟨behind.take (n - closed.length), by rw [List.take_append, hall]⟩
      exact absurd (hfront.trans (List.take_prefix n rest)) hno
    · intro heq
      rw [hall] at heq
      exact absurd ⟨rest.drop n, by rw [heq, List.take_append_drop]⟩ hno

end Separator

namespace Token

open Separator

/-- A source without tokens has a first defect, which is the one reported; if it is no unclosed
comment, no text behind the source makes up for it. -/
theorem lex_error_leftmost {source : String} {e : Diagnostic} (h : lex source = .error e) :
    (∃ gap pieces ts rest, Split 0 source.toList gap pieces ts rest ∧ Defect rest e ∧
      ∀ e', Defect rest e' → e'.code = e.code) ∧
    ((∀ q, e ≠ .unexpectedToken q) → ∀ more : String, lex (source ++ more) = .error e) := by
  obtain ⟨gap, pieces, ts, rest, hsplit, hreported⟩ := split_of_error h
  have hdefect := hreported.defect
  refine ⟨⟨gap, pieces, ts, rest, hsplit, hdefect, fun e' he' => hdefect.code_eq he'⟩, ?_⟩
  intro hclosed more
  have hlonger : Split 0 (source ++ more).toList gap pieces ts (rest ++ more.toList) := by
    rw [String.toList_append]
    exact hsplit.append hdefect.ne_nil more.toList
  exact hlonger.rejected ⟨hdefect.append hclosed _, fun q hq => absurd hq (hclosed q)⟩

/-- Behind a comment and a word is a number that is too large, and that a longer run of digits is
too large as well. -/
theorem lex_error_leftmost_digits :
    lex "x(* 1 *) 21474836480" = .error (.numericOverflow "2147483648") ∧
      (∃ gap pieces ts rest, Split 0 "x(* 1 *) 21474836480".toList gap pieces ts rest ∧
        Defect rest (.numericOverflow "2147483648")) ∧
      lex "x(* 1 *) 214748364805 (*" = .error (.numericOverflow "2147483648") := by
  have h : lex "x(* 1 *) 21474836480" = .error (.numericOverflow "2147483648") := by cbv
  obtain ⟨⟨gap, pieces, ts, rest, hsplit, hdefect, -⟩, hlonger⟩ := lex_error_leftmost h
  exact ⟨h, ⟨gap, pieces, ts, rest, hsplit, hdefect⟩, hlonger (by simp) "5 (*"⟩

/-- An unclosed comment is quoted from the first comment behind the last token on. That is the
unclosed one, or one whose quote is the same exactly if it begins with the same twelve characters. -/
theorem lex_unclosed_quoted {source q : String}
    (h : lex source = .error (.unexpectedToken q)) :
    ∃ gap pieces ts rest, Split 0 source.toList gap pieces ts rest ∧ Unclosed rest ∧
      (((∀ c ∈ lastGap gap pieces, c ≤ ' ') ∧ q = String.ofList (rest.take 12)) ∨
        ∃ blanks tail behind, lastGap gap pieces = blanks ++ '(' :: '*' :: (tail ++ behind) ∧
          (∀ c ∈ blanks, c ≤ ' ') ∧ CommentTail tail ∧
          q = String.ofList (('(' :: '*' :: (tail ++ behind) ++ rest).take 12) ∧
          (q = String.ofList (rest.take 12) ↔ ('(' :: '*' :: tail).take 12 = rest.take 12)) := by
  obtain ⟨gap, pieces, ts, rest, hsplit, hdefect, hquoted⟩ := split_of_error h
  have hopen : Unclosed rest := hdefect
  have hq := hquoted q rfl
  refine ⟨gap, pieces, ts, rest, hsplit, hopen, ?_⟩
  obtain hblank | ⟨blanks, tail, behind, hgap, hblanks, htail⟩ :=
    hsplit.layout.gap_lastGap.blank_or_comment
  · obtain ⟨inner, rfl, -⟩ := hopen
    rw [unclosedText_blanks hblank] at hq
    exact .inl ⟨hblank, hq⟩
  · rw [hgap, List.append_assoc, List.cons_append, List.cons_append, unclosedText_blanks hblanks] at hq
    refine .inr ⟨blanks, tail, behind, hgap, hblanks, htail, hq, ?_⟩
    rw [hq, String.ofList_inj, ← hopen.take_append_iff htail (behind ++ rest) 12]
    simp

/-- The quote of an unclosed comment can be that of a closed one before it. -/
theorem lex_unclosed_misquoted :
    lex "(* a *) (* b" = .error (.unexpectedToken "(* a *) (* b") ∧
      Split 0 "(* a *) (* b".toList ['(', '*', ' ', 'a', ' ', '*', ')', ' '] [] []
        ['(', '*', ' ', 'b'] ∧
      Unclosed ['(', '*', ' ', 'b'] ∧
      "(* a *) (* b" ≠ String.ofList (['(', '*', ' ', 'b'].take 12) := by
  have htail : CommentTail [' ', 'a', ' ', '*', ')'] :=
    .other (by decide) (by decide) (.other (by decide) (by decide)
      (.other (by decide) (by decide) .close))
  have hgap : Gap ['(', '*', ' ', 'a', ' ', '*', ')', ' '] :=
    .comment htail (.blank (by decide) .nil)
  refine ⟨by cbv, split_nil hgap 0 _, ⟨[' ', 'b'], rfl, rfl⟩, by decide⟩

theorem lex_unclosed_quoted_behind_comment :
    lex "(* a *) (* b" = .error (.unexpectedToken "(* a *) (* b") ∧
      ∃ gap pieces ts rest, Split 0 "(* a *) (* b".toList gap pieces ts rest ∧ Unclosed rest := by
  have h : lex "(* a *) (* b" = .error (.unexpectedToken "(* a *) (* b") := by cbv
  obtain ⟨gap, pieces, ts, rest, hsplit, hopen, -⟩ := lex_unclosed_quoted h
  exact ⟨h, gap, pieces, ts, rest, hsplit, hopen⟩

end Token

end ModuleCompiler
