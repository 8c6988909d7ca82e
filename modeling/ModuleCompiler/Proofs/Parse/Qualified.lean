/-
  Uses of names. A use is one identifier, or three tokens where the identifier stands for a module
  and a period follows; then the module's own scope decides, whatever else can be seen from there
  (`Names`). Anything else ahead is rejected, in one of five ways (`NamesNothing`). Reading a use
  does just that, and it leaves the table and the output alone (`qualifiedName_run`).

  * `ends_of_names`, `ends_of_namesNothing`: what is ahead decides the outcome and how many tokens
    are stepped over. The cursor stays on the last token, but no part of a use is the last token.
  * `exists_decides`: something is always decided. A step ends in one way only, so the outcome is
    the one that is decided (`ends_iff`).
-/
import ModuleCompiler.Proofs.Decl.Resolution
import ModuleCompiler.Proofs.Parse.Reading

namespace ModuleCompiler

/-! ## Tokens ahead -/

namespace Cursor

/-- The last token is the end of the input. -/
def Ended (c : Cursor) : Prop :=
  ∃ tokens, c.tokens = (closed tokens).toArray

/-- The token that is so many places behind the current one. -/
def ahead (c : Cursor) (k : Nat) : Option Token :=
  c.tokens[c.position + k]?

/-- The token so many places behind the current one is of the kind. -/
def KindAt (c : Cursor) (k : Nat) (kind : TokenKind) : Prop :=
  ∃ t, c.ahead k = some t ∧ t.kind = kind

/-- The token so many places behind the current one is the identifier. -/
def IdentAt (c : Cursor) (k : Nat) (name : String) : Prop :=
  ∃ t, c.ahead k = some t ∧ t.kind = .ident ∧ t.lexeme = name

variable {c : Cursor} {kind : TokenKind} {name : String}

theorem ahead_zero (c : Cursor) : c.ahead 0 = some c.current := c.getElem?_position

theorem kindAt_zero : c.KindAt 0 kind ↔ c.isAt kind := by
  simp [KindAt, isAt, ahead_zero]

theorem identAt_zero : c.IdentAt 0 name ↔ c.isAt .ident ∧ c.current.lexeme = name := by
  simp [IdentAt, isAt, ahead_zero]

theorem Ended.advance (h : c.Ended) : c.advance.Ended := by
  obtain ⟨tokens, htokens⟩ := h
  exact ⟨tokens, c.tokens_advance.trans htokens⟩

theorem Ended.kind_last (h : c.Ended) (hlast : c.position + 1 = c.tokens.size) :
    c.current.kind = .endOfInput := by
  obtain ⟨tokens, htokens⟩ := h
  have hkind := getLast?_closed tokens
  have hposition := c.getElem?_position
  simp only [htokens, List.size_toArray, List.getElem?_toArray] at hlast hposition
  have hindex : (closed tokens).length - 1 = c.position := by omega
  rw [List.getLast?_eq_getElem?, hindex, hposition] at hkind
  exact Option.some.inj hkind

/-- From any token but the end of the input there is a next one. -/
theorem Ended.position_advance (h : c.Ended) (hat : c.isAt kind) (hkind : kind ≠ .endOfInput) :
    c.advance.position = c.position + 1 := by
  have hcurrent : c.current.kind = kind := of_decide_eq_true hat
  have hlt := c.position_lt
  have hne : c.position + 1 ≠ c.tokens.size := fun hlast =>
    hkind (hcurrent.symm.trans (h.kind_last hlast))
  rw [Cursor.position_advance, if_pos (by omega)]

theorem Ended.ahead_advance (h : c.Ended) (hat : c.isAt kind) (hkind : kind ≠ .endOfInput)
    (k : Nat) : c.advance.ahead k = c.ahead (k + 1) := by
  have hindex : c.position + 1 + k = c.position + (k + 1) := by omega
  rw [ahead, ahead, h.position_advance hat hkind, tokens_advance, hindex]

theorem Ended.kindAt_advance (h : c.Ended) (hat : c.isAt kind) (hkind : kind ≠ .endOfInput)
    {k : Nat} {other : TokenKind} : c.advance.KindAt k other ↔ c.KindAt (k + 1) other := by
  rw [KindAt, KindAt, h.ahead_advance hat hkind]

theorem Ended.identAt_advance (h : c.Ended) (hat : c.isAt kind) (hkind : kind ≠ .endOfInput)
    {k : Nat} : c.advance.IdentAt k name ↔ c.IdentAt (k + 1) name := by
  rw [IdentAt, IdentAt, h.ahead_advance hat hkind]

end Cursor

/-! ## What a use names -/

namespace Table

variable {t : Table} {id : DeclId} {d : Decl}

/-- The declaration is a module of the table. -/
def IsModule (t : Table) (id : DeclId) : Prop :=
  ∃ d, t.get? id = some d ∧ d.isModule = true

theorem isModule_iff (hd : t.get? id = some d) : t.IsModule id ↔ d.isModule = true := by
  simp [IsModule, hd]

end Table

open Table

/-- Seen from the scope, the tokens ahead name a declaration, and so many of them do. -/
inductive Names (t : Table) (scope : DeclId) (c : Cursor) : Resolved → Nat → Prop where
  | plain {n : String} {f : DeclId} : c.IdentAt 0 n → t.lookup scope n = .ok (some f) →
      ¬(t.IsModule f ∧ c.KindAt 1 .period) → Names t scope c ⟨f, n⟩ 1
  | member {n x : String} {f d : DeclId} : c.IdentAt 0 n → t.lookup scope n = .ok (some f) →
      t.IsModule f → c.KindAt 1 .period → c.IdentAt 2 x → t.listing f x = some d →
      Names t scope c ⟨d, n ++ "." ++ x⟩ 3

/-- The tokens ahead name nothing, for the given reason, which shows behind so many of them. -/
inductive NamesNothing (t : Table) (scope : DeclId) (c : Cursor) : Diagnostic → Nat → Prop where
  | noIdent {next : Token} : c.ahead 0 = some next → next.kind ≠ .ident →
      NamesNothing t scope c (.unexpectedToken next.describe) 0
  | noNames {n : String} {d : Diagnostic} : c.IdentAt 0 n →
      t.lookup scope n = .error (.diagnostic d) → NamesNothing t scope c d 1
  | unknown {n : String} : c.IdentAt 0 n → t.lookup scope n = .ok none →
      NamesNothing t scope c (.notFound n) 1
  | noMember {n : String} {f : DeclId} {next : Token} : c.IdentAt 0 n →
      t.lookup scope n = .ok (some f) → t.IsModule f → c.KindAt 1 .period →
      c.ahead 2 = some next → next.kind ≠ .ident →
      NamesNothing t scope c (.unexpectedToken next.describe) 2
  | unknownMember {n x : String} {f : DeclId} : c.IdentAt 0 n →
      t.lookup scope n = .ok (some f) → t.IsModule f → c.KindAt 1 .period → c.IdentAt 2 x →
      t.listing f x = none → NamesNothing t scope c (.notFoundInModule x n) 3

/-- The tokens ahead decide the outcome, which takes so many of them. -/
def Decides (t : Table) (scope : DeclId) (c : Cursor) : Except Diagnostic Resolved → Nat → Prop
  | .ok r => Names t scope c r
  | .error d => NamesNothing t scope c d

namespace Parse

variable {α β : Type} {f : Parse α} {next : α → Parse β} {s s' : ParserState}

/-! ## Outcomes -/

/-- The step has the outcome, and it steps over so many tokens. -/
def Ends (f : Parse α) (s : ParserState) (outcome : Except Diagnostic α) (k : Nat) : Prop :=
  ∃ s', f.runFrom s = (outcome.mapError .diagnostic, s') ∧
    s'.cursor.position = s.cursor.position + k

theorem Ends.unique {o o' : Except Diagnostic α} {k k' : Nat} (h : Ends f s o k)
    (h' : Ends f s o' k') : o = o' ∧ k = k' := by
  obtain ⟨t, hrun, hposition⟩ := h
  obtain ⟨t', hrun', hposition'⟩ := h'
  obtain ⟨houtcome, rfl⟩ := Prod.mk.inj (hrun.symm.trans hrun')
  refine ⟨?_, by omega⟩
  cases o <;> cases o' <;> cases houtcome <;> rfl

/-- A step ends in the one way that is decided. -/
theorem ends_iff {decides : Except Diagnostic α → Nat → Prop}
    (hends : ∀ o k, decides o k → Ends f s o k) (hexists : ∃ o k, decides o k)
    (o : Except Diagnostic α) (k : Nat) : Ends f s o k ↔ decides o k := by
  constructor
  · intro h
    obtain ⟨o', k', h'⟩ := hexists
    obtain ⟨rfl, rfl⟩ := h.unique (hends o' k' h')
    exact h'
  · exact hends o k

theorem ends_pure (a : α) (s : ParserState) : Ends (pure a) s (.ok a) 0 := ⟨s, rfl, rfl⟩

theorem ends_fail (d : Diagnostic) (s : ParserState) :
    Ends (fail d : Parse α) s (.error d) 0 := ⟨s, rfl, rfl⟩

section

variable {a : α} {d : Diagnostic} {o : Except Diagnostic β} {k m : Nat}

theorem Ends.bind (h : f.runFrom s = (.ok a, s'))
    (hposition : s'.cursor.position = s.cursor.position + k) (hnext : Ends (next a) s' o m) :
    Ends (f >>= next) s o (m + k) := by
  obtain ⟨t, hrun, ht⟩ := hnext
  refine ⟨t, ?_, by omega⟩
  rw [runFrom_bind, h]
  exact hrun

theorem Ends.bind_error (h : f.runFrom s = (.error (.diagnostic d), s')) 
    (hposition : s'.cursor.position = s.cursor.position + k) :
    Ends (f >>= next) s (.error d) k := by
  refine ⟨s', ?_, hposition⟩
  rw [runFrom_bind, h]
  rfl

theorem Ends.bind_ask {question : Table → Except Fault α} (h : question s.table = .ok a)
    (hnext : Ends (next a) s o m) : Ends (ask question >>= next) s o m := by
  refine .bind (k := 0) ?_ rfl hnext
  rw [runFrom_ask, h]

theorem Ends.bind_expectIdent {next : String → Parse β} {n : String} (hended : s.cursor.Ended)
    (hn : s.cursor.IdentAt 0 n) (hnext : Ends (next n) { s with cursor := s.cursor.advance } o m) :
    Ends (expectIdent >>= next) s o (m + 1) := by
  obtain ⟨hat, hlexeme⟩ := Cursor.identAt_zero.1 hn
  refine .bind ?_ (hended.position_advance hat (by decide)) hnext
  rw [runFrom_expectIdent, if_pos hat, hlexeme]

theorem Ends.of_not_ident {next : String → Parse β} {t : Token} (ht : s.cursor.ahead 0 = some t)
    (hkind : t.kind ≠ .ident) :
    Ends (expectIdent >>= next) s (.error (.unexpectedToken t.describe)) 0 := by
  rw [Cursor.ahead_zero] at ht
  cases ht
  have hat : ¬s.cursor.isAt .ident := fun h => hkind (of_decide_eq_true h)
  have hrun := runFrom_expectIdent s
  rw [if_neg hat] at hrun
  exact .bind_error hrun rfl

theorem Ends.bind_lookup {next : Option DeclId → Parse β} {scope : DeclId} {n : String}
    {found : Option DeclId} (hfound : s.table.lookup scope n = .ok found)
    (hnext : ∀ told : ParserState, told.cursor = s.cursor → told.table = s.table →
      Ends (next found) told o m) : Ends (lookup scope n >>= next) s o m := by
  have hrun := runFrom_lookup scope n s
  rw [hfound] at hrun
  exact .bind (k := 0) hrun rfl (hnext _ rfl rfl)

end

/-! ## Reading a use -/

variable {scope f : DeclId} {n : String}

theorem ends_member {x : String} (hended : s.cursor.Ended) (hf : s.table.IsModule f)
    (hperiod : s.cursor.KindAt 0 .period) (hx : s.cursor.IdentAt 1 x) :
    Ends (member f n) s
      (match s.table.listing f x with
        | some d => .ok ⟨d, n ++ "." ++ x⟩
        | none => .error (.notFoundInModule x n)) 2 := by
  obtain ⟨d, hd, hmodule⟩ := hf
  have hat := Cursor.kindAt_zero.1 hperiod
  refine .bind (runFrom_advance s) (hended.position_advance hat (by decide)) ?_
  refine .bind_expectIdent hended.advance ((hended.identAt_advance hat (by decide)).2 hx) ?_
  refine .bind_ask (lookupLocal_eq hd (Decl.encloses_of_isModule hmodule) x) ?_
  cases s.table.listing f x with
  | some found => exact ends_pure _ _
  | none => exact ends_fail _ _

theorem ends_member_of_not_ident {t : Token} (hended : s.cursor.Ended)
    (hperiod : s.cursor.KindAt 0 .period) (ht : s.cursor.ahead 1 = some t)
    (hkind : t.kind ≠ .ident) :
    Ends (member f n) s (.error (.unexpectedToken t.describe)) 1 := by
  have hat := Cursor.kindAt_zero.1 hperiod
  refine .bind (runFrom_advance s) (hended.position_advance hat (by decide)) ?_
  exact .of_not_ident ((hended.ahead_advance hat (by decide) 0).trans ht) hkind

/-- What is found is a module with a period behind its name, or the use ends with the name. -/
theorem ends_found {o : Except Diagnostic Resolved} {m : Nat} {d : Decl} (hended : s.cursor.Ended)
    (hn : s.cursor.IdentAt 0 n) (hf : s.table.lookup scope n = .ok (some f))
    (hd : s.table.get? f = some d)
    (hnext : ∀ told : ParserState, told.cursor = s.cursor.advance → told.table = s.table →
      Ends (if d.isModule && told.cursor.isAt .period then member f n else pure ⟨f, n⟩) told o m) :
    Ends (qualifiedName (some scope)) s o (m + 1) := by
  refine .bind_expectIdent hended hn (.bind_lookup hf fun told hcursor htable => ?_)
  refine .bind_ask (decl_eq_ok_iff.2 (htable ▸ hd)) ?_
  exact .bind (k := 0) (runFrom_isAt .period told) rfl (hnext told hcursor htable)

theorem ends_in_module {o : Except Diagnostic Resolved} {m : Nat} (hended : s.cursor.Ended)
    (hn : s.cursor.IdentAt 0 n) (hf : s.table.lookup scope n = .ok (some f))
    (hmodule : s.table.IsModule f) (hperiod : s.cursor.KindAt 1 .period)
    (hmember : ∀ told : ParserState, told.cursor = s.cursor.advance → told.table = s.table →
      told.cursor.KindAt 0 .period → Ends (member f n) told o m) :
    Ends (qualifiedName (some scope)) s o (m + 1) := by
  obtain ⟨d, hd, hd'⟩ := hmodule
  have hat := (Cursor.identAt_zero.1 hn).1
  refine ends_found hended hn hf hd fun told hcursor htable => ?_
  have hperiod' : told.cursor.KindAt 0 .period := by
    rw [hcursor, hended.kindAt_advance hat (by decide)]
    exact hperiod
  rw [if_pos (Bool.and_eq_true_iff.2 ⟨hd', Cursor.kindAt_zero.1 hperiod'⟩)]
  exact hmember told hcursor htable hperiod'

/-- In a module the scope of the module decides. -/
theorem ends_of_identAt_two {x : String} (hended : s.cursor.Ended) (hn : s.cursor.IdentAt 0 n)
    (hf : s.table.lookup scope n = .ok (some f)) (hmodule : s.table.IsModule f)
    (hperiod : s.cursor.KindAt 1 .period) (hx : s.cursor.IdentAt 2 x) :
    Ends (qualifiedName (some scope)) s
      (match s.table.listing f x with
        | some d => .ok ⟨d, n ++ "." ++ x⟩
        | none => .error (.notFoundInModule x n)) 3 := by
  have hat := (Cursor.identAt_zero.1 hn).1
  refine ends_in_module hended hn hf hmodule hperiod fun told hcursor htable hperiod' => ?_
  have hx' : told.cursor.IdentAt 1 x := by
    rw [hcursor, hended.identAt_advance hat (by decide)]
    exact hx
  rw [← htable] at hmodule ⊢
  exact ends_member (hcursor ▸ hended.advance) hmodule hperiod' hx'

theorem ends_of_names {r : Resolved} {k : Nat} (hended : s.cursor.Ended)
    (hknown : ∀ n f, s.table.lookup scope n = .ok (some f) → ∃ d, s.table.get? f = some d)
    (h : Names s.table scope s.cursor r k) : Ends (qualifiedName (some scope)) s (.ok r) k := by
  cases h with
  | @plain n f hn hf hno =>
    obtain ⟨d, hd⟩ := hknown n f hf
    have hat := (Cursor.identAt_zero.1 hn).1
    refine ends_found hended hn hf hd fun told hcursor _ => ?_
    have hcond : ¬(d.isModule && told.cursor.isAt .period) = true := by
      intro hboth
      rw [hcursor, Bool.and_eq_true, ← isModule_iff hd, ← Cursor.kindAt_zero,
        hended.kindAt_advance hat (by decide)] at hboth
      exact hno hboth
    rw [if_neg hcond]
    exact ends_pure _ _
  | member hn hf hmodule hperiod hx hd =>
    have hends := ends_of_identAt_two hended hn hf hmodule hperiod hx
    rw [hd] at hends
    exact hends

theorem ends_of_namesNothing {d : Diagnostic} {k : Nat} (hended : s.cursor.Ended)
    (h : NamesNothing s.table scope s.cursor d k) :
    Ends (qualifiedName (some scope)) s (.error d) k := by
  cases h with
  | noIdent hnext hkind => exact .of_not_ident hnext hkind
  | @noNames n d hn hd =>
    have hrun := runFrom_lookup scope n { s with cursor := s.cursor.advance }
    rw [hd] at hrun
    exact .bind_expectIdent hended hn (.bind_error (k := 0) hrun rfl)
  | unknown hn hnone =>
    exact .bind_expectIdent hended hn (.bind_lookup hnone fun told _ _ => ends_fail _ told)
  | noMember hn hf hmodule hperiod hnext hkind =>
    have hat := (Cursor.identAt_zero.1 hn).1
    refine ends_in_module hended hn hf hmodule hperiod fun told hcursor _ hperiod' => ?_
    have hended' : told.cursor.Ended := hcursor ▸ hended.advance
    refine ends_member_of_not_ident hended' hperiod' ?_ hkind
    rw [hcursor, hended.ahead_advance hat (by decide)]
    exact hnext
  | unknownMember hn hf hmodule hperiod hx hnone =>
    have hends := ends_of_identAt_two hended hn hf hmodule hperiod hx
    rw [hnone] at hends
    exact hends

/-! ## What is ahead -/

theorem exists_decides {rs : List Request} {o : Decl} {c : Cursor} (hended : c.Ended)
    (hscope : (empty.run rs).get? scope = some o) :
    ∃ outcome k, Decides (empty.run rs) scope c outcome k := by
  by_cases hat : c.isAt .ident
  · have hn : c.IdentAt 0 c.current.lexeme := Cursor.identAt_zero.2 ⟨hat, rfl⟩
    obtain ⟨d, hd⟩ | hnone | ⟨f, hf, -⟩ := lookup_cases hscope c.current.lexeme
    · exact ⟨.error d, 1, .noNames hn hd⟩
    · exact ⟨.error _, 1, .unknown hn hnone⟩
    · by_cases hmember : (empty.run rs).IsModule f ∧ c.KindAt 1 .period
      · obtain ⟨hmodule, hperiod⟩ := hmember
        have hat' := Cursor.kindAt_zero.1 ((hended.kindAt_advance hat (by decide)).2 hperiod)
        -- neither the identifier nor the period is the last token
        have htwo : c.ahead 2 = some c.advance.advance.current := by
          rw [← hended.ahead_advance hat (by decide) 1,
            ← hended.advance.ahead_advance hat' (by decide) 0, Cursor.ahead_zero]
        generalize c.advance.advance.current = next at htwo
        by_cases hident : next.kind = .ident
        · have hx : c.IdentAt 2 next.lexeme := ⟨next, htwo, hident, rfl⟩
          cases hd : (empty.run rs).listing f next.lexeme with
          | some d => exact ⟨.ok _, 3, .member hn hf hmodule hperiod hx hd⟩
          | none => exact ⟨.error _, 3, .unknownMember hn hf hmodule hperiod hx hd⟩
        · exact ⟨.error _, 2, .noMember hn hf hmodule hperiod htwo hident⟩
      · exact ⟨.ok _, 1, .plain hn hf hmember⟩
  · exact ⟨.error _, 0, .noIdent c.ahead_zero fun h => hat (decide_eq_true h)⟩

/-! ## Every use -/

/-- What reading a use does, seen from a declaration of the table. -/
structure ReadsUse (rs : List Request) (scope : DeclId) (s : ParserState) : Prop where
  /-- The table and the output stay as they are, whatever the outcome. -/
  unchanged : s.Reads ((qualifiedName (some scope)).runFrom s).2
  /-- The outcome is a declaration or a diagnostic. -/
  total : ∃ o k, Ends (qualifiedName (some scope)) s o k
  accepted_iff : ∀ r k, Ends (qualifiedName (some scope)) s (.ok r) k ↔
    Names (empty.run rs) scope s.cursor r k
  rejected_iff : ∀ d k, Ends (qualifiedName (some scope)) s (.error d) k ↔
    NamesNothing (empty.run rs) scope s.cursor d k
  /-- What a module has under a name is declared in it, or it is the module itself. -/
  member_iff : ∀ f x d, (empty.run rs).listing f x = some d ↔ Denotes rs f x d
  /-- A type is a use that names one. -/
  type_iff : ∀ id s', (typeName (some scope)).runFrom s = (.ok id, s') ↔
    ∃ r d representation, (qualifiedName (some scope)).runFrom s = (.ok r, s') ∧ r.decl = id ∧
      (empty.run rs).get? id = some d ∧ d.kind = .type representation
  noScope : (qualifiedName none).runFrom s =
    (.error (.diagnostic (.noScope s.cursor.current.describe)), s)

/-- From any token, and seen from any declaration of a table that requests can make, reading a
use comes to what the tokens ahead name. -/
theorem qualifiedName_run {rs : List Request} {tokens : List Token} {o : Decl}
    (htable : s.table = empty.run rs) (htokens : s.cursor.tokens = (Cursor.closed tokens).toArray)
    (hscope : s.table.get? scope = some o) : ReadsUse rs scope s := by
  have hended : s.cursor.Ended := ⟨tokens, htokens⟩
  rw [htable] at hscope
  have hends : ∀ o k, Decides (empty.run rs) scope s.cursor o k →
      Ends (qualifiedName (some scope)) s o k := by
    intro o k h
    rw [← htable] at h
    cases o with
    | error d => exact ends_of_namesNothing hended h
    | ok r =>
      refine ends_of_names hended (fun n f hf => ?_) h
      rw [htable] at hf ⊢
      exact exists_get?_of_lookup hscope hf
  have hexists := exists_decides hended hscope
  have hiff := ends_iff hends hexists
  obtain ⟨outcome, k, hdecides⟩ := hexists
  refine ⟨reading_qualifiedName (some scope) s, ⟨outcome, k, hends outcome k hdecides⟩,
    fun r k => hiff (.ok r) k, fun d k => hiff (.error d) k, fun f x d => listing_run_iff,
    fun id s' => ?_, rfl⟩
  rw [← htable]
  exact typeName_ok_iff

/-- From a module inside of SYSTEM, `SYSTEM.INTEGER` names the type of SYSTEM. -/
theorem qualifiedName_run_integer :
    let rs : List Request := [.createModule "SYSTEM" none, .insert ⟨0⟩ ⟨0⟩,
      .createType "INTEGER" (some ⟨0⟩) "i32", .createModule "M" (some ⟨0⟩)]
    let tokens : List Token := [⟨.ident, "SYSTEM", none, ⟨0, 6⟩⟩, ⟨.period, ".", none, ⟨6, 7⟩⟩,
      ⟨.ident, "INTEGER", none, ⟨7, 14⟩⟩]
    let s : ParserState := ⟨.ofTokens tokens, empty.run rs, [], []⟩
    let o : Decl := ⟨"M", some ⟨0⟩, .module .empty⟩
    s.table.get? ⟨2⟩ = some o ∧ ReadsUse rs ⟨2⟩ s ∧
      Ends (qualifiedName (some ⟨2⟩)) s (.ok ⟨⟨1⟩, "SYSTEM.INTEGER"⟩) 3 := by
  intro rs tokens s o
  have hscope : s.table.get? ⟨2⟩ = some o := by decide +kernel
  have htokens : s.cursor.tokens = (Cursor.closed tokens).toArray := rfl
  have huse : ReadsUse rs ⟨2⟩ s := qualifiedName_run rfl htokens hscope
  have hname : Names (empty.run rs) ⟨2⟩ s.cursor ⟨⟨1⟩, "SYSTEM" ++ "." ++ "INTEGER"⟩ 3 :=
    .member (f := ⟨0⟩) ⟨_, rfl, rfl, rfl⟩ (by decide +kernel) ⟨_, rfl, rfl⟩ ⟨_, rfl, rfl⟩
      ⟨_, rfl, rfl, rfl⟩ (by decide +kernel)
  exact ⟨hscope, huse, (huse.accepted_iff _ _).2 hname⟩

/-- The module does not have the type, which can be seen from there. -/
example :
    let rs : List Request := [.createModule "SYSTEM" none,
      .createType "INTEGER" (some ⟨0⟩) "i32", .createModule "M" (some ⟨0⟩), .insert ⟨2⟩ ⟨2⟩]
    let tokens : List Token := [⟨.ident, "M", none, ⟨0, 1⟩⟩, ⟨.period, ".", none, ⟨1, 2⟩⟩,
      ⟨.ident, "INTEGER", none, ⟨2, 9⟩⟩]
    let s : ParserState := ⟨.ofTokens tokens, empty.run rs, [], []⟩
    s.table.lookup ⟨2⟩ "INTEGER" = .ok (some ⟨1⟩) ∧
      ((qualifiedName (some ⟨2⟩)).runFrom s).1 =
        .error (.diagnostic (.notFoundInModule "INTEGER" "M")) := by
  decide +kernel

end Parse

end ModuleCompiler
