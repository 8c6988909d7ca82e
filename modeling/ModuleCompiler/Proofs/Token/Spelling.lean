/-
  How one token is spelt. `Spells w kind value` says which texts are words, numbers and
  symbols, and what kind and value a token with that text has; `Merge v w` says when the
  texts of two tokens must not touch.

  * `spells_cons_iff`: what the scanner cuts off by its first character is what is spelt so.
  * `runsOn_iff`, `merge_iff`: two texts merge exactly if the first character of the second one
    goes on with the first one, or if the two open a comment.
-/
import ModuleCompiler.Proofs.Token.Integer
import ModuleCompiler.Token.Lexer

namespace ModuleCompiler

theorem Keyword.ofLexeme?_eq_some_iff {word : String} {k : Keyword} :
    ofLexeme? word = some k ↔ word = k.lexeme := by
  constructor
  · intro h
    unfold ofLexeme? at h
    simpa [eq_comm] using List.find?_some h
  · rintro rfl
    exact ofLexeme?_lexeme k

namespace Token

/-- A letter, then letters and digits. -/
inductive IsWord : List Char → Prop where
  | intro {c : Char} {cs : List Char} :
      c.isAlpha → (∀ d ∈ cs, d.isAlphanum) → IsWord (c :: cs)

theorem isWord_cons_iff {c : Char} {cs : List Char} :
    IsWord (c :: cs) ↔ c.isAlpha ∧ cs.all Char.isAlphanum := by
  rw [List.all_eq_true]
  constructor
  · intro h
    cases h with
    | intro hc hcs => exact ⟨hc, hcs⟩
  · intro h
    obtain ⟨hc, hcs⟩ := h
    exact .intro hc hcs

instance : DecidablePred IsWord
  | [] => isFalse nofun
  | _ :: _ => decidable_of_iff' _ isWord_cons_iff

/-- A word has no character but letters and digits. -/
theorem IsWord.not_mem {w : List Char} (h : IsWord w) {c : Char} (hc : c.isAlphanum = false) :
    c ∉ w := by
  intro hmem
  have hall : c.isAlphanum := by
    cases h with
    | intro hfirst hrest =>
      obtain rfl | hmem := List.mem_cons.1 hmem
      · rw [Char.isAlphanum, hfirst, Bool.true_or]
      · exact hrest c hmem
  rw [hall] at hc
  cases hc

/-- Decimal digits, at least one. -/
inductive IsNumber : List Char → Prop where
  | intro {c : Char} {cs : List Char} :
      c.isDigit → (∀ d ∈ cs, d.isDigit) → IsNumber (c :: cs)

/-- The one-character tokens. -/
def symbols : List (Char × TokenKind) :=
  [('(', .leftParen), (')', .rightParen), ('*', .asterisk), ('.', .period), (':', .colon),
    (';', .semicolon)]

/-- The text is a token of the kind, with the value if it is a number. -/
inductive Spells : List Char → TokenKind → Option Int32 → Prop where
  | keyword (k : Keyword) : Spells k.lexeme.toList (.keyword k) none
  | ident {w : List Char} :
      IsWord w → (∀ k : Keyword, w ≠ k.lexeme.toList) → Spells w .ident none
  | integer {w : List Char} {v : Int32} :
      IsNumber w → Integer.decimal w ≤ 2147483647 → v.toInt = Integer.decimal w →
      Spells w .integer (some v)
  | symbol {c : Char} {kind : TokenKind} : (c, kind) ∈ symbols → Spells [c] kind none

/-- The two texts, one right behind the other, would be read in another way: as one word or
number, or as the opening of a comment. -/
def Merge (v w : List Char) : Prop :=
  (IsWord v ∧ (IsWord w ∨ IsNumber w)) ∨ (IsNumber v ∧ IsNumber w) ∨ (v = ['('] ∧ w = ['*'])

/-- The character, right behind the text of a token, would be read as part of it, or would open a
comment with it. -/
def RunsOn (w : List Char) (c : Char) : Prop :=
  (IsWord w ∧ c.isAlphanum) ∨ (IsNumber w ∧ c.isDigit) ∨ (w = ['('] ∧ c = '*')

theorem isWord_lexeme (k : Keyword) : IsWord k.lexeme.toList := by
  cases k <;> exact .intro rfl (List.all_eq_true.1 rfl)

theorem symbolKind?_eq_some_iff {c : Char} {kind : TokenKind} :
    symbolKind? c = some kind ↔ (c, kind) ∈ symbols := by
  constructor
  · intro h
    unfold symbolKind? at h
    split at h <;> simp_all [symbols]
  · intro h
    simp only [symbols, List.mem_cons, List.not_mem_nil, or_false, Prod.mk.injEq] at h
    rcases h with ⟨rfl, rfl⟩ | ⟨rfl, rfl⟩ | ⟨rfl, rfl⟩ | ⟨rfl, rfl⟩ | ⟨rfl, rfl⟩ | ⟨rfl, rfl⟩ <;>
      rfl

/-- A symbol is no letter and no digit. -/
theorem not_isAlphanum_of_mem_symbols {c : Char} {kind : TokenKind} (h : (c, kind) ∈ symbols) :
    c.isAlphanum = false := by
  have hall : ∀ e ∈ symbols, (!e.1.isAlphanum) = true := List.all_eq_true.1 rfl
  simpa using hall _ h

theorem isAlpha_iff_toNat {c : Char} : c.isAlpha ↔
    (65 ≤ c.toNat ∧ c.toNat ≤ 90) ∨ (97 ≤ c.toNat ∧ c.toNat ≤ 122) := by
  show (decide ('A'.val ≤ c.val ∧ c.val ≤ 'Z'.val) ||
    (decide ('a'.val ≤ c.val) && decide (c.val ≤ 'z'.val))) = true ↔ _
  rw [Bool.or_eq_true, Bool.and_eq_true, decide_eq_true_iff, decide_eq_true_iff, decide_eq_true_iff]
  exact Iff.rfl

theorem not_isAlpha_of_isDigit {c : Char} (h : c.isDigit) : c.isAlpha = false := by
  have h9 : c.toNat ≤ 57 := (Char.isDigit_iff_toNat.1 h).2
  have hne : ¬c.isAlpha := by
    rw [isAlpha_iff_toNat]
    omega
  exact Bool.eq_false_of_not_eq_true hne

theorem not_isAlphanum_of_le_space {c : Char} (h : c ≤ ' ') : c.isAlphanum = false := by
  have hval : c.toNat ≤ 32 := UInt32.le_iff_toNat_le.1 h
  have halpha : ¬c.isAlpha := by
    rw [isAlpha_iff_toNat]
    omega
  have hdigit : ¬c.isDigit := by
    intro hd
    have h0 : 48 ≤ c.toNat := (Char.isDigit_iff_toNat.1 hd).1
    omega
  rw [Char.isAlphanum, Bool.eq_false_of_not_eq_true halpha, Bool.eq_false_of_not_eq_true hdigit,
    Bool.or_self]

/-! ## Shapes -/

theorem Shape.ofFirst?_of_isAlpha {c : Char} (h : c.isAlpha) : ofFirst? c = some .word :=
  if_pos h

theorem Shape.ofFirst?_of_isDigit {c : Char} (h : c.isDigit) : ofFirst? c = some .number := by
  rw [ofFirst?, if_neg (by simp [not_isAlpha_of_isDigit h]), if_pos h]

theorem Shape.ofFirst?_of_mem_symbols {c : Char} {kind : TokenKind} (h : (c, kind) ∈ symbols) :
    ofFirst? c = some (.symbol kind) := by
  have hc := not_isAlphanum_of_mem_symbols h
  simp only [Char.isAlphanum, Bool.or_eq_false_iff] at hc
  rw [ofFirst?, if_neg (by simp [hc.1]), if_neg (by simp [hc.2]), symbolKind?_eq_some_iff.2 h]
  rfl

theorem Shape.ofFirst?_eq_some {c : Char} {shape : Shape} (h : ofFirst? c = some shape) :
    (shape = .word ∧ c.isAlpha) ∨ (shape = .number ∧ c.isDigit) ∨
      ∃ kind, shape = .symbol kind ∧ (c, kind) ∈ symbols := by
  unfold ofFirst? at h
  split at h
  · next ha => exact .inl ⟨(Option.some.inj h).symm, ha⟩
  · split at h
    · next hd => exact .inr (.inl ⟨(Option.some.inj h).symm, hd⟩)
    · obtain ⟨kind, hk, rfl⟩ := Option.map_eq_some_iff.1 h
      exact .inr (.inr ⟨kind, rfl, symbolKind?_eq_some_iff.1 hk⟩)

theorem Shape.ofFirst?_eq_none_iff {c : Char} :
    ofFirst? c = none ↔ c.isAlphanum = false ∧ ∀ kind, (c, kind) ∉ symbols := by
  simp only [← symbolKind?_eq_some_iff, ← Option.eq_none_iff_forall_ne_some, Char.isAlphanum,
    Bool.or_eq_false_iff, ofFirst?]
  cases c.isAlpha <;> cases c.isDigit <;> simp

theorem Shape.classify_word_eq_ok_iff {w : List Char} {kind : TokenKind} {value : Option Int32} :
    classify w .word = .ok (kind, value) ↔
      value = none ∧ ((∃ k : Keyword, w = k.lexeme.toList ∧ kind = .keyword k) ∨
        ((∀ k : Keyword, w ≠ k.lexeme.toList) ∧ kind = .ident)) := by
  have hw : ∀ k : Keyword, w = k.lexeme.toList ↔ Keyword.ofLexeme? (String.ofList w) = some k := by
    intro k
    rw [Keyword.ofLexeme?_eq_some_iff, ← String.toList_inj, String.toList_ofList]
  simp only [classify, ne_eq, hw]
  cases Keyword.ofLexeme? (String.ofList w) <;> simp [eq_comm, and_comm]

theorem Shape.classify_number_eq_ok_iff {w : List Char} {kind : TokenKind}
    {value : Option Int32} :
    classify w .number = .ok (kind, value) ↔
      kind = .integer ∧ ∃ v : Int32, value = some v ∧ Integer.decimal w ≤ 2147483647 ∧
        v.toInt = Integer.decimal w := by
  simp only [← Integer.ofDigits_eq_ok_iff, classify]
  cases Integer.ofDigits w <;> simp [bind, Except.bind, pure, Except.pure, eq_comm]

/-- Only a number can have a text that spells no token, and then it is too large. -/
theorem Shape.classify_eq_error_iff {w : List Char} {shape : Shape} {e : Diagnostic} :
    classify w shape = .error e ↔ shape = .number ∧
      ∃ short, Integer.Overflow w short ∧ e = .numericOverflow (String.ofList short) := by
  rw [← Integer.ofDigits_eq_error_iff]
  cases shape with
  | word => cases h : Keyword.ofLexeme? (String.ofList w) <;> simp [classify, h]
  | number =>
    cases h : Integer.ofDigits w <;> simp [classify, h, bind, Except.bind, pure, Except.pure]
  | symbol kind => simp [classify]

theorem Shape.classify_symbol_eq_ok_iff {w : List Char} {k kind : TokenKind}
    {value : Option Int32} :
    classify w (.symbol k) = .ok (kind, value) ↔ kind = k ∧ value = none := by
  simp [classify, eq_comm]

theorem spells_cons_iff {c : Char} {cs : List Char} {kind : TokenKind} {value : Option Int32} :
    Spells (c :: cs) kind value ↔
      ∃ shape, Shape.ofFirst? c = some shape ∧ (∀ d ∈ cs, shape.continues d) ∧
        shape.classify (c :: cs) = .ok (kind, value) := by
  constructor
  · intro h
    generalize hw : c :: cs = w at h
    cases h with
    | keyword k =>
      have hword : IsWord (c :: cs) := hw ▸ isWord_lexeme k
      cases hword with
      | intro hc hcs =>
        exact ⟨.word, Shape.ofFirst?_of_isAlpha hc, hcs,
          Shape.classify_word_eq_ok_iff.2 ⟨rfl, .inl ⟨k, rfl, rfl⟩⟩⟩
    | ident hword hk =>
      subst hw
      cases hword with
      | intro hc hcs =>
        exact ⟨.word, Shape.ofFirst?_of_isAlpha hc, hcs,
          Shape.classify_word_eq_ok_iff.2 ⟨rfl, .inr ⟨hk, rfl⟩⟩⟩
    | integer hnumber hle hv =>
      subst hw
      cases hnumber with
      | intro hc hcs =>
        exact ⟨.number, Shape.ofFirst?_of_isDigit hc, hcs,
          Shape.classify_number_eq_ok_iff.2 ⟨rfl, _, rfl, hle, hv⟩⟩
    | symbol hmem =>
      cases hw
      exact ⟨.symbol kind, Shape.ofFirst?_of_mem_symbols hmem, by simp,
        Shape.classify_symbol_eq_ok_iff.2 ⟨rfl, rfl⟩⟩
  · intro h
    obtain ⟨shape, hshape, hcs, hclass⟩ := h
    obtain ⟨rfl, hc⟩ | ⟨rfl, hc⟩ | ⟨k, rfl, hmem⟩ := Shape.ofFirst?_eq_some hshape
    · obtain ⟨rfl, ⟨k, hk, rfl⟩ | ⟨hk, rfl⟩⟩ := Shape.classify_word_eq_ok_iff.1 hclass
      · exact hk ▸ .keyword k
      · exact .ident (.intro hc hcs) hk
    · obtain ⟨rfl, v, rfl, hle, hv⟩ := Shape.classify_number_eq_ok_iff.1 hclass
      exact .integer (.intro hc hcs) hle hv
    · obtain ⟨rfl, rfl⟩ := Shape.classify_symbol_eq_ok_iff.1 hclass
      cases cs with
      | nil => exact .symbol hmem
      | cons d ds => exact absurd (hcs d (List.mem_cons_self ..)) (by simp [Shape.continues])

/-- A token starts with no blank. -/
theorem Spells.not_le_space {c : Char} {cs : List Char} {kind : TokenKind}
    {value : Option Int32} (h : Spells (c :: cs) kind value) : ¬c ≤ ' ' := by
  intro hc
  obtain ⟨shape, hshape, _, _⟩ := spells_cons_iff.1 h
  have hno := not_isAlphanum_of_le_space hc
  rw [Char.isAlphanum, Bool.or_eq_false_iff] at hno
  obtain ⟨_, ha⟩ | ⟨_, hd⟩ | ⟨kind, _, hmem⟩ := Shape.ofFirst?_eq_some hshape
  · exact absurd ha (by simp [hno.1])
  · exact absurd hd (by simp [hno.2])
  · have hall : ∀ e ∈ symbols, (!decide (e.1 ≤ ' ')) = true := List.all_eq_true.1 rfl
    have hno : ¬c ≤ ' ' := by simpa using hall _ hmem
    exact hno hc

theorem Spells.ne_nil {w : List Char} {kind : TokenKind} {value : Option Int32}
    (h : Spells w kind value) : w ≠ [] := by
  cases h with
  | keyword k => cases k <;> decide
  | ident hw _ => cases hw; exact List.cons_ne_nil _ _
  | integer hw _ _ => cases hw; exact List.cons_ne_nil _ _
  | symbol _ => exact List.cons_ne_nil _ _

/-! ## Touching texts -/

theorem Spells.isWord_iff {c : Char} {cs : List Char} {kind : TokenKind} {value : Option Int32}
    (h : Spells (c :: cs) kind value) : IsWord (c :: cs) ↔ c.isAlpha := by
  constructor
  · intro hword
    obtain ⟨hc, _⟩ := hword
    exact hc
  · intro hc
    obtain ⟨shape, hshape, hcs, _⟩ := spells_cons_iff.1 h
    cases (Shape.ofFirst?_of_isAlpha hc).symm.trans hshape
    exact .intro hc hcs

theorem Spells.isNumber_iff {c : Char} {cs : List Char} {kind : TokenKind}
    {value : Option Int32} (h : Spells (c :: cs) kind value) :
    IsNumber (c :: cs) ↔ c.isDigit := by
  constructor
  · intro hnumber
    obtain ⟨hc, _⟩ := hnumber
    exact hc
  · intro hc
    obtain ⟨shape, hshape, hcs, _⟩ := spells_cons_iff.1 h
    cases (Shape.ofFirst?_of_isDigit hc).symm.trans hshape
    exact .intro hc hcs

theorem Spells.eq_singleton_iff {c s : Char} {cs : List Char} {k kind : TokenKind}
    {value : Option Int32} (h : Spells (c :: cs) kind value) (hs : (s, k) ∈ symbols) :
    c :: cs = [s] ↔ c = s := by
  constructor
  · intro he
    exact (List.cons.inj he).1
  · rintro rfl
    obtain ⟨shape, hshape, hcs, _⟩ := spells_cons_iff.1 h
    cases (Shape.ofFirst?_of_mem_symbols hs).symm.trans hshape
    cases cs with
    | nil => rfl
    | cons d ds => exact absurd (hcs d (List.mem_cons_self ..)) (by simp [Shape.continues])

/-- What runs on from a token is what the scanner goes on with, or the second half of the opening
of a comment. -/
theorem runsOn_iff {c d : Char} {cs : List Char} {shape : Shape} {kind : TokenKind}
    {value : Option Int32} (hc : Spells (c :: cs) kind value)
    (hshape : Shape.ofFirst? c = some shape) :
    RunsOn (c :: cs) d ↔ shape.continues d ∨ (c = '(' ∧ d = '*') := by
  have hopen : ('(', TokenKind.leftParen) ∈ symbols := by simp [symbols]
  rw [RunsOn, hc.isWord_iff, hc.isNumber_iff, hc.eq_singleton_iff hopen]
  obtain ⟨rfl, ha⟩ | ⟨rfl, hn⟩ | ⟨kind, rfl, hmem⟩ := Shape.ofFirst?_eq_some hshape
  · have hn : ¬c.isDigit := by
      intro hdigit
      exact absurd ha (by simp [not_isAlpha_of_isDigit hdigit])
    simp [ha, hn, Shape.continues]
  · simp [hn, not_isAlpha_of_isDigit hn, Shape.continues]
  · have hno := not_isAlphanum_of_mem_symbols hmem
    simp only [Char.isAlphanum, Bool.or_eq_false_iff] at hno
    simp [hno.1, hno.2, Shape.continues]

/-- Two texts merge exactly if the first character of the second one runs on from the first. -/
theorem merge_iff {d : Char} {w ds : List Char} {kind : TokenKind} {value : Option Int32}
    (hd : Spells (d :: ds) kind value) : Merge w (d :: ds) ↔ RunsOn w d := by
  have hstar : ('*', TokenKind.asterisk) ∈ symbols := by simp [symbols]
  rw [Merge, RunsOn, hd.isWord_iff, hd.isNumber_iff, hd.eq_singleton_iff hstar, Char.isAlphanum,
    Bool.or_eq_true]

end Token

end ModuleCompiler
