/-
  The tokens of a text. A text is laid out as a separator and then pieces, each the text of
  one token with the separator behind it. `Layout` says which pieces may stand side by side,
  and `Reads` which tokens they are, with their bytes. What is read behind the pieces is what
  would be read there alone (`tokensFrom_of_split`), and every text is cut into pieces up to its
  end or up to the first defect (`split_of_tokensFrom`).

  * `lex_eq_ok_iff`: a source has tokens exactly if it can be laid out, and they are those
    of the pieces.
-/
import ModuleCompiler.Proofs.Outcome
import ModuleCompiler.Proofs.Token.Defect
import Mathlib.Data.List.Chain

namespace ModuleCompiler.Token

open Separator

/-- The text of one token, and the separator behind it. -/
structure Piece where
  word : List Char
  gap : List Char

/-- All the characters of a piece. -/
def Piece.text (p : Piece) : List Char := p.word ++ p.gap

/-- A separator, and pieces of which none runs into the next one. -/
structure Layout (gap : List Char) (pieces : List Piece) : Prop where
  first : Gap gap
  behind : ∀ p ∈ pieces, Gap p.gap
  apart : pieces.IsChain fun p q => p.gap = [] → ¬Merge p.word q.word

/-- The tokens of pieces that start at the given byte: each has the text of its piece, what
that spells, and the bytes where it stands. -/
inductive Reads : Nat → List Piece → List Token → Prop where
  | nil {byte : Nat} : Reads byte [] []
  | cons {byte : Nat} {p : Piece} {ps : List Piece} {kind : TokenKind} {value : Option Int32}
      {ts : List Token} :
      Spells p.word kind value →
      Reads (byte + (String.ofList p.text).utf8ByteSize) ps ts →
      Reads byte (p :: ps)
        (⟨kind, String.ofList p.word, value,
          ⟨byte, byte + (String.ofList p.word).utf8ByteSize⟩⟩ :: ts)

theorem utf8ByteSize_ofList (cs : List Char) : (String.ofList cs).utf8ByteSize = byteSize cs := by
  induction cs with
  | nil => rfl
  | cons c cs ih =>
    have hc : String.ofList (c :: cs) = String.singleton c ++ String.ofList cs := by
      rw [String.singleton_eq_ofList, ← String.ofList_append, List.singleton_append]
    rw [hc, String.utf8ByteSize_append, ih, byteSize, String.utf8ByteSize_singleton]

/-! ## One step -/

theorem tokensFrom_eq (byte : Nat) (text : List Char) :
    tokensFrom byte text =
      match gapEnd byte text with
      | none => .error (.unexpectedToken (unclosedText text))
      | some ⟨start, []⟩ => .ok [endOfInput start]
      | some ⟨start, c :: rest⟩ =>
        match Shape.ofFirst? c with
        | none => .error (.unknownCharacter c)
        | some shape => do
          let lexeme := c :: rest.takeWhile shape.continues
          let (kind, value) ← shape.classify lexeme
          let written := String.ofList lexeme
          let stop := start + written.utf8ByteSize
          let later ← tokensFrom stop (rest.dropWhile shape.continues)
          return ⟨kind, written, value, ⟨start, stop⟩⟩ :: later := by
  rw [tokensFrom, gapEnd]
  rcases skip byte text with _ | ⟨⟨start, _ | ⟨c, rest⟩⟩, h⟩
  · rfl
  · rfl
  · cases hshape : Shape.ofFirst? c <;> simp only [Option.map_some, hshape]

theorem Reads.spells {byte : Nat} {pieces : List Piece} {tokens : List Token}
    (h : Reads byte pieces tokens) :
    ∀ p ∈ pieces, ∃ kind value, Spells p.word kind value := by
  induction h with
  | nil => simp
  | cons hspells _ ih => exact List.forall_mem_cons.2 ⟨⟨_, _, hspells⟩, ih⟩

theorem noGap_word {c : Char} {cs rest : List Char} {kind : TokenKind} {value : Option Int32}
    (hc : Spells (c :: cs) kind value) (hrest : ∀ d ∈ rest.head?, ¬(c = '(' ∧ d = '*')) :
    NoGap (c :: (cs ++ rest)) := by
  constructor
  · rintro d ⟨⟩
    exact hc.not_le_space
  · intro hpre
    obtain ⟨rfl, more, hmore⟩ := pair_prefix_iff.1 hpre
    have hcs := (hc.eq_singleton_iff (k := .leftParen) (by simp [symbols])).2 rfl
    cases hcs
    cases hmore
    exact hrest '*' rfl ⟨rfl, rfl⟩

theorem takeWhile_cut {p : Char → Bool} {cs rest : List Char} (hcs : ∀ d ∈ cs, p d)
    (hrest : ∀ d ∈ rest.head?, p d = false) : (cs ++ rest).takeWhile p = cs := by
  rw [List.takeWhile_append_of_pos hcs]
  cases rest with
  | nil => simp
  | cons d rest => simp [hrest d rfl]

theorem dropWhile_cut {p : Char → Bool} {cs rest : List Char} (hcs : ∀ d ∈ cs, p d)
    (hrest : ∀ d ∈ rest.head?, p d = false) : (cs ++ rest).dropWhile p = rest := by
  rw [List.dropWhile_append_of_pos hcs]
  cases rest with
  | nil => simp
  | cons d rest => simp [hrest d rfl]

theorem head?_gap {gap : List Char} (h : Gap gap) : ∀ c ∈ gap.head?, c ≤ ' ' ∨ c = '(' := by
  cases h with
  | nil => simp
  | blank hc _ => simpa using .inl hc
  | comment _ _ => simp

/-- One token is read, and then what stands behind it. -/
theorem tokensFrom_word {byte : Nat} {gap w rest : List Char} {kind : TokenKind}
    {value : Option Int32} (hgap : Gap gap) (hw : Spells w kind value)
    (hrest : ∀ d ∈ rest.head?, ¬RunsOn w d) :
    tokensFrom byte (gap ++ (w ++ rest)) =
      (tokensFrom (byte + byteSize gap + byteSize w) rest).map
        (⟨kind, String.ofList w, value,
          ⟨byte + byteSize gap, byte + byteSize gap + byteSize w⟩⟩ :: ·) := by
  obtain ⟨c, cs, rfl⟩ := List.exists_cons_of_ne_nil hw.ne_nil
  obtain ⟨shape, hshape, hcs, hclass⟩ := spells_cons_iff.1 hw
  simp only [runsOn_iff hw hshape, not_or, Bool.not_eq_true] at hrest
  have htake := takeWhile_cut hcs fun d hd => (hrest d hd).1
  have hdrop := dropWhile_cut hcs fun d hd => (hrest d hd).1
  have hno := noGap_word hw fun d hd => (hrest d hd).2
  rw [tokensFrom_eq, List.cons_append, gapEnd_gap hgap hno]
  simp only [hshape, htake, hdrop, hclass, utf8ByteSize_ofList]
  show (tokensFrom _ rest >>= _) = _
  cases tokensFrom (byte + byteSize gap + byteSize (c :: cs)) rest <;> rfl

/-! ## Splits of a text -/

/-- The separator behind the last piece. -/
def lastGap : List Char → List Piece → List Char
  | gap, [] => gap
  | _, p :: ps => lastGap p.gap ps

/-- The last token ends where its piece ends: the rest does not run on from it. -/
def EndsBefore (pieces : List Piece) (rest : List Char) : Prop :=
  ∀ p ∈ pieces.getLast?, p.gap = [] → ∀ d ∈ rest.head?, ¬RunsOn p.word d

/-- What stands behind a separator matters to a token in front of it only if the separator is
empty. -/
theorem not_runsOn_append {w gap rest : List Char} (hgap : Gap gap) :
    (∀ d ∈ (gap ++ rest).head?, ¬RunsOn w d) ↔ (gap = [] → ∀ d ∈ rest.head?, ¬RunsOn w d) := by
  cases hgap' : gap with
  | nil => simp
  | cons c more =>
    have hfirst : ∀ d ∈ gap.head?, ¬RunsOn w d := by
      intro d hd
      have hno : d.isAlphanum = false ∧ d.isDigit = false ∧ d ≠ '*' := by
        obtain hblank | rfl := head?_gap hgap d hd
        · have halnum := not_isAlphanum_of_le_space hblank
          refine ⟨halnum, (Bool.or_eq_false_iff.1 halnum).2, ?_⟩
          rintro rfl
          exact absurd hblank (by decide)
        · decide
      simp [RunsOn, hno]
    rw [hgap'] at hfirst
    simpa using hfirst

theorem layout_cons_iff {gap : List Char} {p : Piece} {ps : List Piece} :
    Layout gap (p :: ps) ↔ Gap gap ∧ Layout p.gap ps ∧
      ∀ q ∈ ps.head?, p.gap = [] → ¬Merge p.word q.word := by
  constructor
  · intro h
    obtain ⟨hnext, hchain⟩ := List.isChain_cons.1 h.apart
    obtain ⟨hp, hps⟩ := List.forall_mem_cons.1 h.behind
    exact ⟨h.first, ⟨hp, hps, hchain⟩, hnext⟩
  · intro h
    obtain ⟨hgap, hlay, hnext⟩ := h
    exact ⟨hgap, List.forall_mem_cons.2 ⟨hlay.first, hlay.behind⟩,
      List.isChain_cons.2 ⟨hnext, hlay.apart⟩⟩

/-- A piece stands in front of others, and all of them in front of the rest, exactly if what is
behind its text does not run on from it. -/
theorem split_cons_iff {gap rest : List Char} {p : Piece} {ps : List Piece}
    (hps : ∀ q ∈ ps, ∃ kind value, Spells q.word kind value) :
    Layout gap (p :: ps) ∧ EndsBefore (p :: ps) rest ↔
      Gap gap ∧ (Layout p.gap ps ∧ EndsBefore ps rest) ∧
        ∀ d ∈ (p.gap ++ (ps.flatMap Piece.text ++ rest)).head?, ¬RunsOn p.word d := by
  rw [layout_cons_iff, and_assoc]
  refine and_congr_right fun _ => ?_
  rw [and_assoc, and_assoc]
  refine and_congr_right fun hlay => ?_
  rw [not_runsOn_append hlay.first]
  cases ps with
  | nil => simp [EndsBefore]
  | cons q qs =>
    obtain ⟨kind, value, hq⟩ := hps q (List.mem_cons_self ..)
    obtain ⟨e, es, hword⟩ := List.exists_cons_of_ne_nil hq.ne_nil
    rw [hword] at hq
    have hends : EndsBefore (p :: q :: qs) rest ↔ EndsBefore (q :: qs) rest := by
      simp only [EndsBefore, List.getLast?_cons_cons]
    rw [hends]
    simp [Piece.text, hword, merge_iff hq, and_comm]

/-- The text is cut into a separator, pieces of which the tokens are known, and a rest. -/
structure Split (byte : Nat) (text gap : List Char) (pieces : List Piece) (ts : List Token)
    (rest : List Char) : Prop where
  text_eq : text = gap ++ (pieces.flatMap Piece.text ++ rest)
  layout : Layout gap pieces
  reads : Reads (byte + (String.ofList gap).utf8ByteSize) pieces ts
  ends : EndsBefore pieces rest

theorem split_nil {gap : List Char} (hgap : Gap gap) (byte : Nat) (rest : List Char) :
    Split byte (gap ++ rest) gap [] [] rest where
  text_eq := rfl
  layout := ⟨hgap, by simp, .nil⟩
  reads := .nil
  ends := by
    intro p hp
    cases hp

/-- A token in front of a split text is one more piece, if the text does not run on from it. -/
theorem Split.cons {byte : Nat} {gap w after gap' rest : List Char} {pieces : List Piece}
    {ts : List Token} {kind : TokenKind} {value : Option Int32} (hgap : Gap gap)
    (hw : Spells w kind value) (hafter : ∀ d ∈ after.head?, ¬RunsOn w d)
    (h : Split (byte + byteSize gap + byteSize w) after gap' pieces ts rest) :
    ∃ t, Split byte (gap ++ (w ++ after)) gap (⟨w, gap'⟩ :: pieces) (t :: ts) rest := by
  obtain ⟨rfl, hlay, hreads, hends⟩ := h
  obtain ⟨hlay', hends'⟩ :=
    (split_cons_iff (p := ⟨w, gap'⟩) hreads.spells).2 ⟨hgap, ⟨hlay, hends⟩, hafter⟩
  have hlater : Reads (byte + (String.ofList gap).utf8ByteSize +
      (String.ofList (Piece.mk w gap').text).utf8ByteSize) pieces ts := by
    simp only [utf8ByteSize_ofList, Piece.text, byteSize_append] at hreads ⊢
    rwa [← Nat.add_assoc]
  exact ⟨_, by simp [Piece.text], hlay', .cons hw hlater, hends'⟩

/-- Where something is left, it goes on with what is appended to the text. -/
theorem Split.append {byte : Nat} {text gap rest : List Char} {pieces : List Piece}
    {ts : List Token} (h : Split byte text gap pieces ts rest) (hrest : rest ≠ [])
    (more : List Char) : Split byte (text ++ more) gap pieces ts (rest ++ more) where
  text_eq := by simp [h.text_eq]
  layout := h.layout
  reads := h.reads
  ends := by
    intro p hp hgap d hd
    rw [List.head?_append_of_ne_nil rest hrest] at hd
    exact h.ends p hp hgap d hd

/-! ## Reading a split text -/

/-- The pieces are read one by one, and then the rest behind the last separator. -/
theorem Split.tokensFrom_eq {byte : Nat} {text gap rest : List Char} {pieces : List Piece}
    {ts : List Token} (h : Split byte text gap pieces ts rest) :
    ∃ last, last + byteSize (lastGap gap pieces) =
        byte + byteSize (gap ++ pieces.flatMap Piece.text) ∧
      tokensFrom byte text =
        (tokensFrom last (lastGap gap pieces ++ rest)).map (ts ++ ·) := by
  obtain ⟨rfl, hlay, hreads, hends⟩ := h
  induction pieces generalizing byte gap ts with
  | nil =>
    cases hreads
    refine ⟨byte, by simp [lastGap], ?_⟩
    cases h : tokensFrom byte (gap ++ rest) <;> simp [lastGap, h, Except.map]
  | cons p ps ih =>
    have hps := (List.forall_mem_cons.1 hreads.spells).2
    obtain ⟨hgap, ⟨hlay', hends'⟩, hrest⟩ := (split_cons_iff hps).1 ⟨hlay, hends⟩
    cases hreads with
    | @cons _ _ _ kind value ts hspells hlater =>
      have hbyte : byte + (String.ofList gap).utf8ByteSize + (String.ofList p.text).utf8ByteSize =
          byte + byteSize gap + byteSize p.word + (String.ofList p.gap).utf8ByteSize := by
        simp only [utf8ByteSize_ofList, Piece.text, byteSize_append]
        omega
      rw [hbyte] at hlater
      obtain ⟨last, hlast, hread⟩ := ih hlay' hlater hends'
      refine ⟨last, ?_, ?_⟩
      · rw [lastGap, hlast]
        simp only [List.flatMap_cons, Piece.text, byteSize_append]
        omega
      · have htext : (p :: ps).flatMap Piece.text ++ rest =
            p.word ++ (p.gap ++ (ps.flatMap Piece.text ++ rest)) := by
          simp [Piece.text]
        rw [htext, tokensFrom_word hgap hspells hrest, hread, lastGap]
        simp only [utf8ByteSize_ofList]
        cases tokensFrom last (lastGap p.gap ps ++ rest) <;> rfl

theorem Layout.gap_lastGap {gap : List Char} {pieces : List Piece} (h : Layout gap pieces) :
    Gap (lastGap gap pieces) := by
  induction pieces generalizing gap with
  | nil => exact h.first
  | cons p ps ih =>
    obtain ⟨-, hlay, -⟩ := layout_cons_iff.1 h
    exact ih hlay

/-- Nothing is left behind the pieces. -/
theorem Split.read {byte : Nat} {text gap : List Char} {pieces : List Piece} {ts : List Token}
    (h : Split byte text gap pieces ts []) :
    tokensFrom byte text = .ok (ts ++ [endOfInput (byte + byteSize text)]) := by
  obtain ⟨last, hlast, hread⟩ := h.tokensFrom_eq
  have hno : NoGap [] := ⟨by simp, by simp⟩
  have htext : text = gap ++ pieces.flatMap Piece.text := by simpa using h.text_eq
  rw [List.append_nil] at hread
  rw [hread, Token.tokensFrom_eq, ← List.append_nil (lastGap gap pieces),
    gapEnd_gap h.layout.gap_lastGap hno, hlast, htext]
  rfl

/-- The diagnostic is that of the defect behind a separator; for an unclosed comment it quotes
the text from the separator on. -/
structure Reported (gap rest : List Char) (e : Diagnostic) : Prop where
  defect : Defect rest e
  quoted : ∀ q, e = .unexpectedToken q → q = unclosedText (gap ++ rest)

theorem Reported.tokensFrom_eq {gap rest : List Char} {e : Diagnostic} (h : Reported gap rest e)
    (hgap : Gap gap) (byte : Nat) : tokensFrom byte (gap ++ rest) = .error e := by
  obtain ⟨hdefect, hquoted⟩ := h
  cases e with
  | unknownCharacter c =>
    obtain ⟨hhead, hblank, halnum, hsymbol⟩ := hdefect
    obtain ⟨more, rfl⟩ := List.head?_eq_some_iff.1 hhead
    have hshape : Shape.ofFirst? c = none := Shape.ofFirst?_eq_none_iff.2 ⟨halnum, hsymbol⟩
    have hno : NoGap (c :: more) := by
      refine ⟨by simpa using hblank, fun hopen => ?_⟩
      obtain ⟨rfl, -⟩ := pair_prefix_iff.1 hopen
      cases hshape
    rw [Token.tokensFrom_eq, gapEnd_gap hgap hno]
    simp only [hshape]
  | numericOverflow short =>
    obtain ⟨digits, behind, rfl, hnumber, hstop, hover⟩ := hdefect
    cases hnumber with
    | @intro c cs hc hcs =>
      have hshape := Shape.ofFirst?_of_isDigit hc
      have hno : NoGap (c :: (cs ++ behind)) := by
        refine ⟨?_, fun hopen => ?_⟩
        · intro d hd hblank
          cases hd
          have halnum := not_isAlphanum_of_le_space hblank
          simp [Char.isAlphanum, hc] at halnum
        · obtain ⟨rfl, -⟩ := pair_prefix_iff.1 hopen
          cases hc
      have htake : (cs ++ behind).takeWhile Shape.number.continues = cs := takeWhile_cut hcs hstop
      have hclass : Shape.number.classify (c :: cs) = .error (.numericOverflow short) :=
        Shape.classify_eq_error_iff.2 ⟨rfl, short.toList, hover, by rw [String.ofList_toList]⟩
      rw [List.cons_append, Token.tokensFrom_eq, gapEnd_gap hgap hno]
      simp only [hshape, htake, hclass]
      rfl
  | unexpectedToken q =>
    rw [Token.tokensFrom_eq, gapEnd_of_unclosed hgap hdefect, hquoted q rfl]
  | _ => exact hdefect.elim

/-- Behind the pieces is a defect. -/
theorem Split.rejected {byte : Nat} {text gap rest : List Char} {pieces : List Piece}
    {ts : List Token} {e : Diagnostic} (h : Split byte text gap pieces ts rest)
    (he : Reported (lastGap gap pieces) rest e) : tokensFrom byte text = .error e := by
  obtain ⟨last, -, hread⟩ := h.tokensFrom_eq
  rw [hread, he.tokensFrom_eq h.layout.gap_lastGap]
  rfl

/-! ## Splitting a text -/

/-- The text of a token ends where the scanner cuts it off. -/
theorem not_runsOn_of_cut {c : Char} {rest : List Char} {shape : Shape} {kind : TokenKind}
    {value : Option Int32} (hshape : Shape.ofFirst? c = some shape) (hno : NoGap (c :: rest))
    (hc : Spells (c :: rest.takeWhile shape.continues) kind value) :
    ∀ d ∈ (rest.dropWhile shape.continues).head?,
      ¬RunsOn (c :: rest.takeWhile shape.continues) d := by
  intro d hd hruns
  obtain hcont | ⟨rfl, rfl⟩ := (runsOn_iff hc hshape).1 hruns
  · have hstop := List.head?_dropWhile_not shape.continues rest
    rw [hd] at hstop
    simp [hcont] at hstop
  · cases hshape
    cases rest with
    | nil => cases hd
    | cons e more =>
      have he : e = '*' := by simpa [Shape.continues] using hd
      exact hno.2 ⟨more, by rw [he]; rfl⟩

/-- Where no separator stands, there is the text of a token, up to where the scanner cuts it off,
or a defect. -/
theorem token_or_defect {c : Char} {rest : List Char} (hno : NoGap (c :: rest)) :
    (∃ cs after kind value, c :: rest = c :: cs ++ after ∧ Spells (c :: cs) kind value ∧
        ∀ d ∈ after.head?, ¬RunsOn (c :: cs) d) ∨
      ∃ e, Defect (c :: rest) e ∧ ∀ q, e ≠ .unexpectedToken q := by
  cases hshape : Shape.ofFirst? c with
  | none =>
    obtain ⟨halnum, hsymbol⟩ := Shape.ofFirst?_eq_none_iff.1 hshape
    exact .inr ⟨.unknownCharacter c, ⟨rfl, hno.1 c rfl, halnum, hsymbol⟩, by simp⟩
  | some shape =>
    have hcut : c :: rest = c :: rest.takeWhile shape.continues ++
        rest.dropWhile shape.continues := by
      rw [List.cons_append, List.takeWhile_append_dropWhile]
    have hcs : ∀ d ∈ rest.takeWhile shape.continues, shape.continues d :=
      List.all_eq_true.1 List.all_takeWhile
    cases hclass : shape.classify (c :: rest.takeWhile shape.continues) with
    | ok found =>
      have hc : Spells (c :: rest.takeWhile shape.continues) found.1 found.2 :=
        spells_cons_iff.2 ⟨shape, hshape, hcs, hclass⟩
      exact .inl ⟨_, _, _, _, hcut, hc, not_runsOn_of_cut hshape hno hc⟩
    | error e =>
      obtain ⟨rfl, short, hover, rfl⟩ := Shape.classify_eq_error_iff.1 hclass
      obtain ⟨hword, -⟩ | ⟨-, hdigit⟩ | ⟨kind, hsymbol, -⟩ := Shape.ofFirst?_eq_some hshape
      · cases hword
      · refine .inr ⟨.numericOverflow (String.ofList short),
          ⟨_, _, hcut, .intro hdigit hcs, ?_, ?_⟩, by simp⟩
        · intro d hd
          have hstop := List.head?_dropWhile_not Shape.number.continues rest
          rw [hd] at hstop
          simpa [Shape.continues] using hstop
        · rwa [String.toList_ofList]
      · cases hsymbol

/-- Every text is cut into pieces up to its end or up to a defect. -/
theorem exists_split (byte : Nat) (text : List Char) :
    ∃ gap pieces ts rest, Split byte text gap pieces ts rest ∧
      (rest = [] ∨ ∃ e, Reported (lastGap gap pieces) rest e) := by
  -- the text gets shorter, since a token has a first character
  induction hn : text.length using Nat.strongRecOn generalizing byte text with
  | ind n ih =>
    cases hend : gapEnd byte text with
    | none =>
      obtain ⟨gap, rest, hgap, rfl, hopen⟩ := gapEnd_eq_none_iff.1 hend
      refine ⟨gap, [], [], rest, split_nil hgap byte rest, .inr ?_⟩
      exact ⟨.unexpectedToken (unclosedText (gap ++ rest)), hopen, by rintro q ⟨⟩; rfl⟩
    | some p =>
      obtain ⟨gap, hgap, rfl, -, hno⟩ := gapEnd_eq_some_iff.1 hend
      obtain ⟨start, rest⟩ := p
      dsimp only at hno hn
      cases rest with
      | nil => exact ⟨gap, [], [], [], split_nil hgap byte [], .inl rfl⟩
      | cons c rest =>
        obtain ⟨cs, after, kind, value, hcut, hc, hafter⟩ | ⟨e, he, hother⟩ :=
          token_or_defect hno
        · have hshort : after.length < n := by
            have hlength := congrArg List.length hcut
            simp at hlength hn
            omega
          obtain ⟨gap', pieces, ts, rest', hsplit, hrest⟩ :=
            ih _ hshort (byte + byteSize gap + byteSize (c :: cs)) after rfl
          obtain ⟨t, hsplit'⟩ := hsplit.cons hgap hc hafter
          rw [hcut]
          exact ⟨gap, _, _, rest', hsplit', hrest⟩
        · refine ⟨gap, [], [], c :: rest, split_nil hgap byte _, .inr ⟨e, he, ?_⟩⟩
          exact fun q hq => absurd hq (hother q)

/-- What cannot be read has been cut up to the defect that is reported. -/
theorem split_of_error {byte : Nat} {text : List Char} {e : Diagnostic}
    (h : tokensFrom byte text = .error e) :
    ∃ gap pieces ts rest, Split byte text gap pieces ts rest ∧
      Reported (lastGap gap pieces) rest e := by
  obtain ⟨gap, pieces, ts, rest, hsplit, rfl | ⟨e', he'⟩⟩ := exists_split byte text
  · rw [hsplit.read] at h
    cases h
  · rw [hsplit.rejected he'] at h
    cases h
    exact ⟨gap, pieces, ts, rest, hsplit, he'⟩

/-! ## Texts that are read to their end -/

theorem layout_of_tokensFrom {byte : Nat} {text : List Char} {tokens : List Token}
    (h : tokensFrom byte text = .ok tokens) :
    ∃ gap pieces ts, text = gap ++ pieces.flatMap Piece.text ∧ Layout gap pieces ∧
      Reads (byte + (String.ofList gap).utf8ByteSize) pieces ts ∧
      tokens = ts ++ [endOfInput (byte + (String.ofList text).utf8ByteSize)] := by
  obtain ⟨gap, pieces, ts, rest, hsplit, rfl | ⟨e, he⟩⟩ := exists_split byte text
  · rw [hsplit.read] at h
    cases h
    rw [utf8ByteSize_ofList]
    exact ⟨gap, pieces, ts, by simpa using hsplit.text_eq, hsplit.layout, hsplit.reads, rfl⟩
  · rw [hsplit.rejected he] at h
    cases h

theorem tokensFrom_of_layout {byte stop : Nat} {gap : List Char} {pieces : List Piece}
    {ts : List Token} (hlay : Layout gap pieces)
    (hreads : Reads (byte + (String.ofList gap).utf8ByteSize) pieces ts)
    (hstop : stop = byte + byteSize (gap ++ pieces.flatMap Piece.text)) :
    tokensFrom byte (gap ++ pieces.flatMap Piece.text) = .ok (ts ++ [endOfInput stop]) := by
  have hsplit : Split byte (gap ++ pieces.flatMap Piece.text) gap pieces ts [] :=
    ⟨by simp, hlay, hreads, by rintro p - - d ⟨⟩⟩
  rw [hsplit.read, hstop]

/-- A source has tokens exactly if it is laid out as separators and the texts of tokens; then
it has one token for each of these, and the end of the input behind them. -/
theorem lex_eq_ok_iff (source : String) (tokens : List Token) :
    lex source = .ok tokens ↔
      ∃ gap pieces ts, source.toList = gap ++ pieces.flatMap Piece.text ∧ Layout gap pieces ∧
        Reads (String.ofList gap).utf8ByteSize pieces ts ∧
        tokens = ts ++ [endOfInput source.utf8ByteSize] := by
  constructor
  · intro h
    obtain ⟨gap, pieces, ts, htext, hlay, hreads, rfl⟩ := layout_of_tokensFrom h
    rw [Nat.zero_add, String.ofList_toList]
    rw [Nat.zero_add] at hreads
    exact ⟨gap, pieces, ts, htext, hlay, hreads, rfl⟩
  · intro h
    obtain ⟨gap, pieces, ts, htext, hlay, hreads, rfl⟩ := h
    rw [← Nat.zero_add (String.ofList gap).utf8ByteSize] at hreads
    rw [lex, htext]
    refine tokensFrom_of_layout hlay hreads ?_
    rw [Nat.zero_add, ← htext, ← utf8ByteSize_ofList, String.ofList_toList]

end ModuleCompiler.Token
