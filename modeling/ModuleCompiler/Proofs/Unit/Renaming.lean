/-
  Renaming of identifiers. A renaming permutes the words that are identifiers and keeps the
  predeclared ones; every other text, such as a keyword, `_init` or "end of input", it leaves
  alone. It goes on to what is made of names: dotted spellings, symbols of the output,
  diagnostics and tokens.

  * `name_injective`: no two names become one.
  * `spelling_member`, `symbol_member`: in a dotted spelling and in a symbol each part is renamed.
-/
import ModuleCompiler.Proofs.Token.Stream
import Mathlib.Logic.Equiv.Defs

namespace ModuleCompiler

open Predeclared

/-- A letter, then letters and digits, but no keyword. -/
def IsIdentifier (n : String) : Prop :=
  Token.IsWord n.toList ∧ Keyword.ofLexeme? n = none

instance : DecidablePred IsIdentifier := fun _ => inferInstanceAs (Decidable (_ ∧ _))

/-- An identifier. -/
abbrev Identifier := { n : String // IsIdentifier n }

/-- The predeclared module's name. -/
def Identifier.system : Identifier := ⟨systemName, by decide⟩

/-- The predeclared type's name. -/
def Identifier.integer : Identifier := ⟨integerName, by decide⟩

/-- An identifier has no character but letters and digits. -/
theorem IsIdentifier.not_mem {n : String} (h : IsIdentifier n) {c : Char}
    (hc : c.isAlphanum = false) : c ∉ n.toList :=
  h.1.not_mem hc

/-- A permutation of the identifiers that keeps the predeclared ones. -/
structure Renaming where
  perm : Equiv.Perm Identifier
  system : perm .system = .system
  integer : perm .integer = .integer

namespace Renaming

variable (r : Renaming)

/-! ## Names -/

/-- The name, renamed if it is an identifier. -/
def name (n : String) : String :=
  if h : IsIdentifier n then r.perm ⟨n, h⟩ else n

theorem name_of_not {n : String} (h : ¬ IsIdentifier n) : r.name n = n :=
  dif_neg h

theorem name_of {n : String} (h : IsIdentifier n) : r.name n = r.perm ⟨n, h⟩ :=
  dif_pos h

theorem isIdentifier_name {n : String} : IsIdentifier (r.name n) ↔ IsIdentifier n := by
  by_cases h : IsIdentifier n
  · rw [r.name_of h]
    exact ⟨fun _ => h, fun _ => (r.perm ⟨n, h⟩).2⟩
  · rw [r.name_of_not h]

theorem name_injective : Function.Injective r.name := by
  intro n n' heq
  have hiff : IsIdentifier n ↔ IsIdentifier n' := by
    rw [← r.isIdentifier_name, heq, r.isIdentifier_name]
  by_cases h : IsIdentifier n
  · rw [r.name_of h, r.name_of (hiff.1 h)] at heq
    have hsame := r.perm.injective (Subtype.ext heq)
    exact congrArg Subtype.val hsame
  · rw [r.name_of_not h, r.name_of_not fun h' => h (hiff.2 h')] at heq
    exact heq

theorem name_inj {n n' : String} : r.name n = r.name n' ↔ n = n' :=
  r.name_injective.eq_iff

theorem name_system : r.name systemName = systemName := by
  rw [r.name_of (n := systemName) Identifier.system.2]
  exact congrArg Subtype.val r.system

theorem name_integer : r.name integerName = integerName := by
  rw [r.name_of (n := integerName) Identifier.integer.2]
  exact congrArg Subtype.val r.integer

theorem name_init : r.name Parse.initName = Parse.initName :=
  r.name_of_not (by decide)

/-! ## What is made of names -/

/-- A dotted spelling, with each part between the dots renamed. -/
def spelling (s : String) : String :=
  ".".intercalate ((s.toList.splitOn '.').map fun part => r.name (String.ofList part))

/-- A symbol of the output, with the names before and behind its first underscore renamed. -/
def symbol (s : String) : String :=
  match s.toList.dropWhile (· ≠ '_') with
  | [] => r.name s
  | _ :: rest =>
    r.name (String.ofList (s.toList.takeWhile (· ≠ '_'))) ++ "_" ++ r.name (String.ofList rest)

theorem spelling_name {n : String} (h : IsIdentifier n) : r.spelling n = r.name n := by
  have hdot : ∀ part ∈ [n.toList], '.' ∉ part := by
    intro part hpart
    rw [List.mem_singleton.1 hpart]
    exact h.not_mem (by decide)
  have hsplit : n.toList.splitOn '.' = [n.toList] := by
    have hone := List.splitOn_intercalate '.' hdot (by simp)
    rwa [List.intercalate_singleton] at hone
  rw [spelling, hsplit]
  simp

theorem spelling_member {q n : String} (hq : IsIdentifier q) (hn : IsIdentifier n) :
    r.spelling (q ++ "." ++ n) = r.name q ++ "." ++ r.name n := by
  have hdot : ∀ part ∈ [q.toList, n.toList], '.' ∉ part := by
    intro part hpart
    obtain rfl | hpart := List.mem_cons.1 hpart
    · exact hq.not_mem (by decide)
    · rw [List.mem_singleton.1 hpart]
      exact hn.not_mem (by decide)
  have hsplit : (q ++ "." ++ n).toList.splitOn '.' = [q.toList, n.toList] := by
    have htwo := List.splitOn_intercalate '.' hdot (by simp)
    simpa [List.intercalate] using htwo
  rw [spelling, hsplit]
  show r.name (String.ofList q.toList) ++ "." ++ r.name (String.ofList n.toList) = _
  rw [String.ofList_toList, String.ofList_toList]

theorem symbol_member {m : String} (hm : IsIdentifier m) (p : String) :
    r.symbol (m ++ "_" ++ p) = r.name m ++ "_" ++ r.name p := by
  have hlist : (m ++ "_" ++ p).toList = m.toList ++ '_' :: p.toList := by simp
  have hall : ∀ c ∈ m.toList, (c ≠ '_') := by
    intro c hc heq
    exact hm.not_mem (by rw [heq]; decide) hc
  have hdrop : (m ++ "_" ++ p).toList.dropWhile (· ≠ '_') = '_' :: p.toList := by
    rw [hlist, List.dropWhile_append_of_pos (by simpa using hall)]
    rfl
  have htake : (m ++ "_" ++ p).toList.takeWhile (· ≠ '_') = m.toList := by
    rw [hlist, List.takeWhile_append_of_pos (by simpa using hall)]
    simp
  rw [symbol, hdrop, htake]
  simp

/-- The diagnostic with its names renamed. What it says of the kind of a declaration, of a
number or of a character stays. -/
def diagnostic : Diagnostic → Diagnostic
  | .noParent kind name => .noParent kind (r.name name)
  | .duplicateName name scope => .duplicateName (r.name name) (r.name scope)
  | .notFound name => .notFound (r.name name)
  | .notFoundInModule name module => .notFoundInModule (r.name name) (r.name module)
  | .notAType spelling => .notAType (r.spelling spelling)
  | .cannotLookup name decl => .cannotLookup (r.name name) (r.name decl)
  | .cannotInsert name decl => .cannotInsert (r.name name) (r.name decl)
  | .noScope name => .noScope (r.name name)
  | .nameMismatch kind expected found => .nameMismatch kind (r.name expected) (r.name found)
  | .unsupportedUnexported procedure => .unsupportedUnexported (r.name procedure)
  | .missingReturnValue procedure type => .missingReturnValue (r.name procedure) (r.name type)
  | .wrongReturnType procedure => .wrongReturnType (r.name procedure)
  | .unexpectedToken text => .unexpectedToken (r.name text)
  | .numericOverflow digits => .numericOverflow digits
  | .unknownCharacter c => .unknownCharacter c
  | .tableFull name => .tableFull (r.name name)

/-- The fault with its names renamed. -/
def fault : Fault → Fault
  | .diagnostic d => .diagnostic (r.diagnostic d)
  | .foreignId id => .foreignId id

/-- The piece of output with its symbol renamed, if it has one. -/
def piece : IR.Piece → IR.Piece
  | .header representation symbol => .header representation (r.symbol symbol)
  | piece => piece

/-! ## Tokens -/

/-- The second token says the same as the first one, but for the name of an identifier. -/
structure Renames (t t' : Token) : Prop where
  kind : t'.kind = t.kind
  value : t'.value = t.value
  lexeme : t'.lexeme = if t.kind = .ident then r.name t.lexeme else t.lexeme

instance (t t' : Token) : Decidable (r.Renames t t') :=
  decidable_of_iff (t'.kind = t.kind ∧ t'.value = t.value ∧
      t'.lexeme = if t.kind = .ident then r.name t.lexeme else t.lexeme)
    ⟨fun h => ⟨h.1, h.2.1, h.2.2⟩, fun h => ⟨h.kind, h.value, h.lexeme⟩⟩

end Renaming

/-- Of the proper tokens the identifiers are those that are spelt so. -/
theorem Token.Proper.isIdentifier_iff {t : Token} (h : t.Proper) :
    IsIdentifier t.lexeme ↔ t.kind = .ident := by
  obtain ⟨kind, lexeme, value, span⟩ := t
  obtain ⟨w, rfl, hspells⟩ := h
  show IsIdentifier (String.ofList w) ↔ kind = .ident
  unfold IsIdentifier
  rw [String.toList_ofList]
  cases hspells with
  | keyword k =>
    rw [String.ofList_toList, Keyword.ofLexeme?_lexeme]
    simp
  | ident hword hkeyword =>
    refine ⟨fun _ => rfl, fun _ => ⟨hword, ?_⟩⟩
    rw [Option.eq_none_iff_forall_ne_some]
    intro k hk
    rw [Keyword.ofLexeme?_eq_some_iff] at hk
    exact hkeyword k (by rw [← hk, String.toList_ofList])
  | integer hnumber _ _ =>
    refine ⟨fun hident => ?_, nofun⟩
    obtain ⟨hword, -⟩ := hident
    cases hnumber with
    | intro hdigit _ =>
      cases hword with
      | intro halpha _ =>
        rw [not_isAlpha_of_isDigit hdigit] at halpha
        cases halpha
  | symbol hmem =>
    have hother := not_isAlphanum_of_mem_symbols hmem
    constructor
    · intro hident
      obtain ⟨hword, -⟩ := hident
      cases hword with
      | intro halpha _ =>
        rw [Char.isAlphanum, halpha] at hother
        cases hother
    · intro hkind
      rw [hkind] at hmem
      simp [symbols] at hmem

/-- The token is one that the scanner hands on. -/
def Token.Scanned (t : Token) : Prop := t.Proper ∨ t.kind = .endOfInput

theorem Token.Lexed.scanned {ts : List Token} (h : Token.Lexed ts) : ∀ t ∈ ts, t.Scanned := by
  induction h with
  | last place =>
    intro t ht
    rw [List.mem_singleton.1 ht]
    exact .inr rfl
  | cons hproper _ ih => exact List.forall_mem_cons.2 ⟨.inl hproper, ih⟩

theorem Token.Scanned.isIdentifier {t : Token} (ht : t.Scanned) (hk : t.kind = .ident) :
    IsIdentifier t.lexeme := by
  obtain hproper | hend := ht
  · exact hproper.isIdentifier_iff.2 hk
  · rw [hk] at hend
    cases hend

namespace Renaming.Renames

variable {r : Renaming} {t t' : Token}

theorem lexeme_ident (h : r.Renames t t') (hk : t.kind = .ident) :
    t'.lexeme = r.name t.lexeme := by
  rw [h.lexeme, if_pos hk]

/-- The text that stands for the token is renamed with it. -/
theorem describe (h : r.Renames t t') (ht : t.Scanned) : t'.describe = r.name t.describe := by
  unfold Token.describe
  rw [h.kind]
  obtain hproper | hend := ht
  · rw [if_neg hproper.kind_ne_endOfInput, if_neg hproper.kind_ne_endOfInput, h.lexeme]
    split
    · rfl
    · next hk => exact (r.name_of_not fun hident => hk (hproper.isIdentifier_iff.1 hident)).symm
  · rw [if_pos hend, if_pos hend]
    exact (r.name_of_not (by decide)).symm

end Renaming.Renames

end ModuleCompiler
