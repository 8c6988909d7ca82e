/-
  Reading a type in the module of a unit: it resolves to INTEGER, or a fault stops it
  (`typeName_yields`).
-/
import ModuleCompiler.Proofs.Unit.Fault
import ModuleCompiler.Proofs.Unit.Scene

namespace ModuleCompiler.Parse

open Predeclared

variable {m : String} {earlier : List String} {v : View}

/-- A fault, or a token with which the reading is stuck. -/
def Stopped (fault : Diagnostic → List Terminal → List Token → Prop)
    (stuck : List Terminal → Terminal → Prop) (d : Diagnostic) (read : List Terminal)
    (rest : List Token) : Prop :=
  fault d read rest ∨
    ∃ next more, rest = next :: more ∧ d = .unexpectedToken next.describe ∧ stuck read next.terminal

theorem Stopped.of_eq {fault : Diagnostic → List Terminal → List Token → Prop}
    {stuck : List Terminal → Terminal → Prop} {d : Diagnostic} {read read' : List Terminal}
    {rest : List Token} (h : read = read') (hstop : Stopped fault stuck d read' rest) :
    Stopped fault stuck d read rest :=
  h ▸ hstop

theorem Stopped.stuck {fault : Diagnostic → List Terminal → List Token → Prop}
    {stuck : List Terminal → Terminal → Prop} {read : List Terminal} {next : Token}
    {more : List Token} (h : stuck read next.terminal) :
    Stopped fault stuck (.unexpectedToken next.describe) read (next :: more) :=
  .inr ⟨next, more, rfl, rfl, h⟩

theorem member_yields {q : String} {id : DeclId} {t : Token} {ts : List Token}
    (hrest : v.rest = t :: ts) (hk : t.kind = .period)
    (hlocal : ∀ n, v.table.lookupLocal id n = .ok (v.table.listing id n)) :
    (member id q).Yields v
      (fun r read w => ∃ n more, read = [.mark .period, .ident n] ∧ w = { v with rest := more } ∧
        r.spelling = q ++ "." ++ n ∧ v.table.listing id n = some r.decl)
      (Stopped
        (fun d read _ => ∃ n, read = [.mark .period, .ident n] ∧ v.table.listing id n = none ∧
          d = .notFoundInModule n q)
        (fun read next => read = [.mark .period] ∧ next.kind ≠ .ident)) := by
  have hfixed : t.kind.isFixed := by
    rw [hk]
    rfl
  unfold member
  refine .bind_advance hrest (Token.kind_ne_endOfInput_of_isFixed hfixed) ?_
  rw [Token.terminal_of_isFixed hfixed, hk]
  refine .bind_expectIdent ?_ ?_
  · intro t ts _ _ _
    refine .bind_ask (hlocal t.lexeme) ?_
    cases hl : v.table.listing id t.lexeme with
    | none => exact .fail (.inl ⟨_, rfl, hl, rfl⟩)
    | some found => exact .pure ⟨_, _, rfl, rfl, rfl, hl⟩
  · intro t ts _ hk
    exact .stuck ⟨rfl, Token.kind_terminal_ne hk⟩

/-- The use stands for INTEGER, or for a declaration that is no type. -/
def Resolves (m : String) (earlier : List String) (t : Table) (next : TokenKind) (type : TypeUse)
    (id : DeclId) : Prop :=
  (type.IsInteger earlier ∧ id = integerId) ∨
    (TypeFault m earlier next (.notAType type.spelling) type ∧
      ∃ b, t.bare? id = some b ∧ b.representation? = none)

/-- Reading a type is stuck at the token. -/
def TypeStuck (read : List Terminal) (next : Terminal) : Prop :=
  next.kind ≠ .ident ∧ (read = [] ∨ ∃ q, read = [.ident q, .mark .period])

/-- No type is read, or one that is rejected. -/
def TypeStopped (m : String) (earlier : List String) :
    Diagnostic → List Terminal → List Token → Prop :=
  Stopped
    (fun d read rest => ∃ type, read = type.terminals ∧ TypeFault m earlier (nextKind rest) d type)
    TypeStuck

/-- A type is read that resolves to the declaration, and nothing else happens. -/
def TypeRead (m : String) (earlier : List String) (v : View) (r : Resolved)
    (read : List Terminal) (w : View) : Prop :=
  ∃ type ts, read = type.terminals ∧ r.spelling = type.spelling ∧ w = { v with rest := ts } ∧
    Resolves m earlier v.table (nextKind ts) type r.decl

/-- What a member of SYSTEM stands for. -/
theorem resolves_system {t : Table} (hs : Scene m earlier t) (hhidden : systemName ∉ earlier)
    (next : TokenKind) (n : String) :
    match t.listing systemId n with
    | some id => Resolves m earlier t next (.member systemName n) id
    | none => TypeFault m earlier next (.notFoundInModule n systemName) (.member systemName n) := by
  rw [hs.inSystem]
  by_cases hint : n = integerName
  · subst hint
    exact .inl ⟨⟨rfl, rfl, hhidden⟩, rfl⟩
  rw [if_neg hint]
  by_cases hsys : n = systemName
  · subst hsys
    exact .inr ⟨.member hhidden (.inl ⟨rfl, .inl rfl⟩), _, hs.system, rfl⟩
  rw [if_neg hsys]
  by_cases hm : n = m
  · subst hm
    rw [if_pos rfl]
    exact .inr ⟨.member hhidden (.inl ⟨rfl, .inr rfl⟩), _, hs.module, rfl⟩
  · rw [if_neg hm]
    exact .unknownMember hhidden (.inl ⟨rfl, hsys, hint, hm⟩)

/-- What a member of the unit's module stands for. -/
theorem resolves_module {t : Table} (hs : Scene m earlier t) (hhidden : m ∉ earlier)
    (next : TokenKind) (n : String) :
    match t.listing unitId n with
    | some id => Resolves m earlier t next (.member m n) id
    | none => TypeFault m earlier next (.notFoundInModule n m) (.member m n) := by
  by_cases hn : n ∈ earlier
  · obtain ⟨c, returns, hc, hb⟩ := hs.listed n hn
    rw [hc]
    exact .inr ⟨.member hhidden (.inr ⟨rfl, hn⟩), _, hb, rfl⟩
  · rw [hs.unlisted n hn]
    exact .unknownMember hhidden (.inr ⟨rfl, hn⟩)

/-- A name that stands for a module is a type of its own or is read on behind a period. -/
theorem moduleName_yields {q : String} {id : DeclId} (hq : q = systemName ∨ q = m)
    (hhidden : q ∉ earlier) {b : Decl} (hb : v.table.bare? id = some b)
    (hno : b.representation? = none)
    (hlocal : ∀ n, v.table.lookupLocal id n = .ok (v.table.listing id n))
    (hmember : ∀ next n, match v.table.listing id n with
      | some c => Resolves m earlier v.table next (.member q n) c
      | none => TypeFault m earlier next (.notFoundInModule n q) (.member q n)) :
    (if decide (nextKind v.rest = .period) then member id q
      else pure ⟨id, q⟩ : Parse Resolved).Yields v
      (fun r read w => TypeRead m earlier v r (.ident q :: read) w)
      (fun d read rest => TypeStopped m earlier d (.ident q :: read) rest) := by
  split
  · next hperiod =>
    rw [decide_eq_true_iff] at hperiod
    obtain ⟨t, ts, hrest⟩ : ∃ t ts, v.rest = t :: ts := by
      cases hv : v.rest with
      | nil => rw [hv] at hperiod; cases hperiod
      | cons t ts => exact ⟨t, ts, rfl⟩
    rw [hrest] at hperiod
    refine (member_yields hrest hperiod hlocal).mono ?_ ?_
    · intro r read w hread
      obtain ⟨n, more, rfl, rfl, hspelling, hl⟩ := hread
      have hres := hmember (nextKind more) n
      rw [hl] at hres
      exact ⟨.member q n, more, rfl, hspelling, rfl, hres⟩
    · intro d read rest hstop
      obtain ⟨n, rfl, hl, rfl⟩ | ⟨next, more, rfl, rfl, rfl, hk⟩ := hstop
      · have hres := hmember (nextKind rest) n
        rw [hl] at hres
        exact .inl ⟨.member q n, rfl, hres⟩
      · exact .stuck ⟨hk, .inr ⟨q, rfl⟩⟩
  · next hperiod =>
    rw [decide_eq_true_iff] at hperiod
    refine .pure ⟨.plain q, v.rest, rfl, rfl, rfl, .inr ⟨?_, b, hb, hno⟩⟩
    exact .module hhidden hq hperiod

theorem qualifiedName_yields (hs : Scene m earlier v.table) :
    (qualifiedName (some unitId)).Yields v (TypeRead m earlier v) (TypeStopped m earlier) := by
  unfold qualifiedName
  refine .bind_expectIdent ?_ ?_
  · intro t ts _ _ _
    generalize t.lexeme = n
    -- the cases are in the order of the lookup: procedures hide SYSTEM and what is in it
    refine .bind_lookup (hs.lookup_eq n) ?_
    by_cases hn : n ∈ earlier
    · obtain ⟨c, returns, hc, hb⟩ := hs.listed n hn
      obtain ⟨d, hd, -, hmod, -⟩ := Table.decl_of_bare? hb
      rw [hc]
      refine .bind_ask hd (.bind_isAt ?_)
      rw [hmod]
      exact .pure ⟨.plain n, ts, rfl, rfl, rfl, .inr ⟨.procedure hn, _, hb, rfl⟩⟩
    rw [hs.unlisted n hn, Option.none_or, hs.inSystem]
    by_cases hint : n = integerName
    · subst hint
      obtain ⟨d, hd, -, hmod, -⟩ := Table.decl_of_bare? hs.integer
      refine .bind_ask hd (.bind_isAt ?_)
      rw [hmod]
      exact .pure ⟨.plain integerName, ts, rfl, rfl, rfl, .inl ⟨⟨rfl, hn⟩, rfl⟩⟩
    rw [if_neg hint]
    by_cases hsys : n = systemName
    · subst hsys
      obtain ⟨d, hd, -, hmod, -⟩ := Table.decl_of_bare? hs.system
      refine .bind_ask hd (.bind_isAt ?_)
      rw [hmod]
      exact moduleName_yields (.inl rfl) hn hs.system rfl hs.lookupLocal_system
        (resolves_system hs hn)
    rw [if_neg hsys]
    by_cases hm : n = m
    · subst hm
      obtain ⟨d, hd, -, hmod, -⟩ := Table.decl_of_bare? hs.module
      rw [if_pos rfl]
      refine .bind_ask hd (.bind_isAt ?_)
      rw [hmod]
      exact moduleName_yields (.inr rfl) hn hs.module rfl hs.lookupLocal_module
        (resolves_module hs hn)
    · rw [if_neg hm]
      exact .fail (.inl ⟨.plain n, rfl, .unknown hsys hint hm hn⟩)
  · intro t ts _ hk
    exact .stuck ⟨Token.kind_terminal_ne hk, .inl rfl⟩

theorem typeName_yields (hs : Scene m earlier v.table) :
    (typeName (some unitId)).Yields v
      (fun id read w => ∃ (type : TypeUse) (ts : List Token), read = type.terminals ∧
        type.IsInteger earlier ∧ id = integerId ∧ w = { v with rest := ts })
      (TypeStopped m earlier) := by
  unfold typeName
  refine (qualifiedName_yields hs).bind ?_ fun _ _ _ h => h
  rintro ⟨id, spelling⟩ _ _ ⟨type, ts, rfl, hspelling, rfl, hres⟩
  dsimp only at hspelling hres ⊢
  obtain ⟨hinteger, rfl⟩ | ⟨hfault, b, hb, hno⟩ := hres
  · obtain ⟨d, hd, -, -, hrep⟩ := Table.decl_of_bare? hs.integer
    refine .bind_ask hd ?_
    rw [hrep]
    exact .pure ⟨type, ts, List.append_nil _, hinteger, rfl, rfl⟩
  · obtain ⟨d, hd, -, -, hrep⟩ := Table.decl_of_bare? hb
    refine .bind_ask hd ?_
    rw [hrep, hno]
    refine .fail (.inl ⟨type, List.append_nil _, ?_⟩)
    rw [hspelling]
    exact hfault

end ModuleCompiler.Parse
