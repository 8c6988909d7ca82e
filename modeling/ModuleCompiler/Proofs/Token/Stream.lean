/-
  Tokens as the scanner hands them on: proper tokens, each spelt as its kind and value say,
  and the end of the input behind them (`lexed_of_lex`).
-/
import ModuleCompiler.Parse.Module
import ModuleCompiler.Proofs.Token.Layout
import ModuleCompiler.Proofs.Unit.Grammar

namespace ModuleCompiler

/-- All tokens of the kind are alike. -/
def TokenKind.isFixed : TokenKind → Bool
  | ident | integer | endOfInput => false
  | _ => true

def Terminal.value? : Terminal → Option Int32
  | integer value => some value
  | _ => none

namespace Token

/-- The token has a text that spells it. -/
def Proper (t : Token) : Prop :=
  ∃ w, t.lexeme = String.ofList w ∧ Spells w t.kind t.value

/-- Proper tokens, and the end of the input behind them. -/
inductive Lexed : List Token → Prop where
  | last (place : Nat) : Lexed [endOfInput place]
  | cons {t : Token} {ts : List Token} : t.Proper → Lexed ts → Lexed (t :: ts)

theorem Reads.lexed {byte : Nat} {pieces : List Piece} {ts : List Token} (h : Reads byte pieces ts)
    (place : Nat) : Lexed (ts ++ [endOfInput place]) := by
  induction h with
  | nil => exact .last place
  | cons hspells _ ih => exact .cons ⟨_, rfl, hspells⟩ ih

theorem lexed_of_lex {source : String} {tokens : List Token} (h : lex source = .ok tokens) :
    Lexed tokens := by
  obtain ⟨gap, pieces, ts, -, -, hreads, rfl⟩ := layout_of_tokensFrom h
  exact hreads.lexed _

/-! ## Terminals -/

theorem kind_terminal (t : Token) : t.terminal.kind = t.kind := by
  unfold terminal
  split <;> simp_all [Terminal.kind]

theorem kind_terminal_ne {t : Token} {kind : TokenKind} (h : t.kind ≠ kind) :
    t.terminal.kind ≠ kind := by
  rw [kind_terminal]
  exact h

theorem terminal_of_ident {t : Token} (h : t.kind = .ident) : t.terminal = .ident t.lexeme := by
  simp only [terminal, h]

theorem terminal_of_isFixed {t : Token} (h : t.kind.isFixed) : t.terminal = .mark t.kind := by
  unfold terminal
  split
  · next hk => simp [hk, TokenKind.isFixed] at h
  · next hk _ => simp [hk, TokenKind.isFixed] at h
  · rfl

theorem kind_ne_endOfInput_of_isFixed {t : Token} (h : t.kind.isFixed) :
    t.kind ≠ .endOfInput := by
  intro hk
  rw [hk] at h
  cases h

/-! ## Proper tokens -/

theorem Proper.kind_ne_endOfInput {t : Token} (h : t.Proper) : t.kind ≠ .endOfInput := by
  obtain ⟨kind, lexeme, value, span⟩ := t
  obtain ⟨w, -, hspells⟩ := h
  rintro rfl
  cases hspells with
  | symbol hmem => simp [symbols] at hmem

theorem Proper.value_eq {t : Token} (h : t.Proper) : t.value = t.terminal.value? := by
  obtain ⟨kind, lexeme, value, span⟩ := t
  obtain ⟨w, -, hspells⟩ := h
  cases hspells with
  | keyword k => rfl
  | ident _ _ => rfl
  | integer _ _ _ => rfl
  | symbol hmem =>
    simp only [symbols, List.mem_cons, List.not_mem_nil, or_false, Prod.mk.injEq] at hmem
    rcases hmem with ⟨-, rfl⟩ | ⟨-, rfl⟩ | ⟨-, rfl⟩ | ⟨-, rfl⟩ | ⟨-, rfl⟩ | ⟨-, rfl⟩ <;> rfl

theorem Proper.kind_ne_integer {t : Token} (h : t.Proper) (hv : t.value = none) :
    t.kind ≠ .integer := by
  obtain ⟨kind, lexeme, value, span⟩ := t
  obtain ⟨w, -, hspells⟩ := h
  rintro rfl
  cases hspells with
  | integer _ _ _ => cases hv
  | symbol hmem => simp [symbols] at hmem

/-- The name of a module's body is none that a unit can use. -/
theorem Proper.lexeme_ne_initName {t : Token} (h : t.Proper) (hk : t.kind = .ident) :
    t.lexeme ≠ Parse.initName := by
  obtain ⟨kind, lexeme, value, span⟩ := t
  obtain ⟨w, hw, hspells⟩ := h
  dsimp only at hk hw hspells
  subst hk
  intro hinit
  cases hspells with
  | ident hword _ =>
    cases hword with
    | @intro c cs hc _ =>
      have hlist : c :: cs = Parse.initName.toList := by
        rw [← hinit, hw, String.toList_ofList]
      cases hlist
      exact absurd hc (by decide)
  | symbol hmem => simp [symbols] at hmem

theorem Lexed.ne_nil {ts : List Token} (h : Lexed ts) : ts ≠ [] := by
  cases h <;> exact List.cons_ne_nil _ _

theorem Lexed.tail {t : Token} {ts : List Token} (h : Lexed (t :: ts)) (hk : t.kind ≠ .endOfInput) :
    t.Proper ∧ Lexed ts := by
  cases h with
  | last place => exact absurd rfl hk
  | cons ht hts => exact ⟨ht, hts⟩

theorem Lexed.kind_ne_integer {t : Token} {ts : List Token} (h : Lexed (t :: ts))
    (hv : t.value = none) : t.kind ≠ .integer := by
  cases h with
  | last place =>
    intro hk
    cases hk
  | cons ht _ => exact ht.kind_ne_integer hv

theorem Lexed.value_eq {t : Token} {ts : List Token} (h : Lexed (t :: ts)) :
    t.value = t.terminal.value? := by
  cases h with
  | last place => rfl
  | cons ht _ => exact ht.value_eq

theorem Lexed.terminal_of_value {t : Token} {ts : List Token} {value : Int32}
    (h : Lexed (t :: ts)) (hv : t.value = some value) : t.terminal = .integer value := by
  rw [h.value_eq] at hv
  cases hterm : t.terminal with
  | integer x =>
    rw [hterm] at hv
    cases hv
    rfl
  | ident x => rw [hterm] at hv; cases hv
  | mark k => rw [hterm] at hv; cases hv

end Token

end ModuleCompiler
