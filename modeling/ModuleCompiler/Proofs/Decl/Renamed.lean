/-
  Tables that are the same but for their names. `t.Renamed r t'` says that the declarations of
  `t'` are those of `t` under the same ids, with renamed names, and that their scopes list the
  same under renamed names, in whatever order. Every operation of a table answers for the two
  alike (`Renaming.Both`).
-/
import ModuleCompiler.Proofs.Decl.Enclosure
import ModuleCompiler.Proofs.Unit.Renaming

namespace ModuleCompiler

open Predeclared

variable {r : Renaming}

/-! ## Outcomes -/

/-- Both outcomes are results, which are related, or both are faults, the second one being the
first one renamed. -/
inductive Renaming.Both (r : Renaming) {α : Type} (Q : α → α → Prop) :
    Except Fault α → Except Fault α → Prop where
  | ok {a a' : α} : Q a a' → Both r Q (.ok a) (.ok a')
  | error (fault : Fault) : Both r Q (.error fault) (.error (r.fault fault))

namespace Renaming.Both

variable {α β : Type} {Q : α → α → Prop} {R : β → β → Prop}

theorem bind {x x' : Except Fault α} {f f' : α → Except Fault β} (hx : r.Both Q x x')
    (hf : ∀ a a', Q a a' → r.Both R (f a) (f' a')) : r.Both R (x >>= f) (x' >>= f') := by
  cases hx with
  | ok h => exact hf _ _ h
  | error fault => exact .error fault

theorem of_ok {a : α} {x' : Except Fault α} (h : r.Both Q (.ok a) x') :
    ∃ a', x' = .ok a' ∧ Q a a' := by
  cases h with
  | ok hq => exact ⟨_, rfl, hq⟩

theorem of_error {fault : Fault} {x' : Except Fault α} (h : r.Both Q (.error fault) x') :
    x' = .error (r.fault fault) := by
  cases h with
  | error => rfl

theorem diagnostic (d : Diagnostic) :
    r.Both Q (.error (.diagnostic d)) (.error (.diagnostic (r.diagnostic d))) :=
  .error (.diagnostic d)

end Renaming.Both

/-! ## Declarations -/

/-- The scopes list the same declarations, under renamed names. -/
structure Scope.Renamed (s : Scope) (r : Renaming) (s' : Scope) : Prop where
  entries : s'.entries.Perm (s.entries.map fun e => (r.name e.1, e.2))
  find? : ∀ n, s'.find? (r.name n) = s.find? n

theorem Scope.renamed_empty (r : Renaming) : Scope.empty.Renamed r .empty :=
  ⟨.refl _, fun _ => rfl⟩

theorem Scope.Renamed.contains {s s' : Scope} (h : s.Renamed r s') (n : String) :
    s'.contains (r.name n) = s.contains n := by
  unfold Scope.contains
  rw [h.find?]

theorem Scope.Renamed.insert {s s' : Scope} (h : s.Renamed r s') {n : String}
    (hfree : s.find? n = none) (id : DeclId) :
    (s.insert n id).Renamed r (s'.insert (r.name n) id) where
  entries := by
    have hcons := (place_perm (r.name n) id s'.entries).trans (h.entries.cons (r.name n, id))
    have hmap := (place_perm n id s.entries).map fun e : String × DeclId => (r.name e.1, e.2)
    exact hcons.trans hmap.symm
  find? x := by
    rw [find?_insert ((h.find? n).trans hfree), find?_insert hfree, h.find?]
    simp only [r.name_inj]

/-- The declarations are of the same kind; where they have scopes, these list the same. -/
inductive DeclKind.Renamed (r : Renaming) : DeclKind → DeclKind → Prop where
  | module {s s' : Scope} : s.Renamed r s' → Renamed r (.module s) (.module s')
  | procedure {s s' : Scope} (exported : Bool) (returns : Option DeclId) :
      s.Renamed r s' → Renamed r (.procedure s exported returns) (.procedure s' exported returns)
  | type (representation : String) : Renamed r (.type representation) (.type representation)
  | var (type : Option DeclId) (exported mutable : Bool) :
      Renamed r (.var type exported mutable) (.var type exported mutable)

/-- The declarations are the same but for the names. -/
structure Decl.Renamed (d : Decl) (r : Renaming) (d' : Decl) : Prop where
  name : d'.name = r.name d.name
  parent : d'.parent = d.parent
  kind : d.kind.Renamed r d'.kind

namespace Decl.Renamed

variable {d d' : Decl}

theorem isModule (h : d.Renamed r d') : d'.isModule = d.isModule := by
  obtain ⟨n, p, k⟩ := d
  obtain ⟨n', p', k'⟩ := d'
  obtain ⟨-, -, hkind⟩ := h
  cases hkind <;> rfl

theorem representation? (h : d.Renamed r d') : d'.representation? = d.representation? := by
  obtain ⟨n, p, k⟩ := d
  obtain ⟨n', p', k'⟩ := d'
  obtain ⟨-, -, hkind⟩ := h
  cases hkind <;> rfl

/-- Both declarations have a scope or neither has one. -/
theorem scope? (h : d.Renamed r d') : (d.scope? = none ∧ d'.scope? = none) ∨
    ∃ s s', d.scope? = some s ∧ d'.scope? = some s' ∧ s.Renamed r s' := by
  obtain ⟨n, p, k⟩ := d
  obtain ⟨n', p', k'⟩ := d'
  obtain ⟨-, -, hkind⟩ := h
  cases hkind with
  | module hs => exact .inr ⟨_, _, rfl, rfl, hs⟩
  | procedure _ _ hs => exact .inr ⟨_, _, rfl, rfl, hs⟩
  | type _ => exact .inl ⟨rfl, rfl⟩
  | var _ _ _ => exact .inl ⟨rfl, rfl⟩

theorem register (h : d.Renamed r d') {n : String}
    (hfree : ∀ s, d.scope? = some s → s.find? n = none) (id : DeclId) :
    (d.register n id).Renamed r (d'.register (r.name n) id) where
  name := h.name
  parent := h.parent
  kind := by
    obtain ⟨m, p, k⟩ := d
    obtain ⟨m', p', k'⟩ := d'
    obtain ⟨-, -, hkind⟩ := h
    cases hkind with
    | module hs => exact .module (hs.insert (hfree _ rfl) id)
    | procedure exported returns hs => exact .procedure exported returns (hs.insert (hfree _ rfl) id)
    | type representation => exact .type representation
    | var type exported mutable => exact .var type exported mutable

end Decl.Renamed

/-! ## Tables -/

namespace Table

variable {t t' : Table}

/-- The tables are the same but for the names. -/
structure Renamed (t : Table) (r : Renaming) (t' : Table) : Prop where
  size : t'.size = t.size
  get? : ∀ id d, t.get? id = some d → ∃ d', t'.get? id = some d' ∧ d.Renamed r d'

theorem Renamed.get?_none (h : t.Renamed r t') {id : DeclId} (hid : t.get? id = none) :
    t'.get? id = none := by
  have hge : t.size ≤ id.index := Array.getElem?_eq_none_iff.1 hid
  exact Array.getElem?_eq_none_iff.2 (Nat.le_trans (Nat.le_of_eq h.size) hge)

theorem Renamed.decl (h : t.Renamed r t') (id : DeclId) :
    r.Both (Decl.Renamed · r ·) (t.decl id) (t'.decl id) := by
  unfold Table.decl
  cases hd : t.get? id with
  | none =>
    rw [h.get?_none hd]
    exact .error (.foreignId id)
  | some d =>
    obtain ⟨d', hd', hrenamed⟩ := h.get? id d hd
    rw [hd']
    exact .ok hrenamed

theorem Renamed.parent (h : t.Renamed r t') (id : DeclId) : t'.parent id = t.parent id := by
  unfold Table.parent
  cases hd : t.get? id with
  | none => rw [h.get?_none hd]
  | some d =>
    obtain ⟨d', hd', hrenamed⟩ := h.get? id d hd
    rw [hd']
    exact hrenamed.parent

theorem Renamed.ancestry (h : t.Renamed r t') (id : DeclId) : t'.ancestry id = t.ancestry id :=
  ancestry_congr (fun x _ => h.parent x) (Nat.lt_succ_self id.index)

theorem Renamed.representation (h : t.Renamed r t') (type : Option DeclId) :
    t'.representation type = t.representation type := by
  unfold Table.representation
  cases type with
  | none => rfl
  | some id =>
    rw [Option.bind_some, Option.bind_some]
    cases hd : t.get? id with
    | none => rw [h.get?_none hd]
    | some d =>
      obtain ⟨d', hd', hrenamed⟩ := h.get? id d hd
      rw [hd', Option.bind_some, Option.bind_some, hrenamed.representation?]

/-! ## Names -/

theorem Renamed.scopeFor (h : t.Renamed r t') (id : DeclId) (n : String) :
    r.Both (Scope.Renamed · r ·) (t.scopeFor id n) (t'.scopeFor id (r.name n)) := by
  refine (h.decl id).bind fun d d' hd => ?_
  obtain ⟨hs, hs'⟩ | ⟨s, s', hs, hs', hrenamed⟩ := hd.scope?
  · rw [hs, hs', hd.name]
    exact .diagnostic (.cannotLookup n d.name)
  · rw [hs, hs']
    exact .ok hrenamed

theorem Renamed.lookupLocal (h : t.Renamed r t') (id : DeclId) (n : String) :
    r.Both Eq (t.lookupLocal id n) (t'.lookupLocal id (r.name n)) :=
  (h.scopeFor id n).bind fun _ _ hs => .ok (hs.find? n).symm

theorem Renamed.lookupAlong (h : t.Renamed r t') (n : String) (walk : List DeclId) :
    t'.lookupAlong (r.name n) walk = t.lookupAlong n walk := by
  induction walk with
  | nil => rfl
  | cons id outer ih =>
    rw [Table.lookupAlong, Table.lookupAlong]
    cases hd : t.get? id with
    | none =>
      rw [h.get?_none hd]
      rfl
    | some d =>
      obtain ⟨d', hd', hrenamed⟩ := h.get? id d hd
      rw [hd', Option.bind_some, Option.bind_some]
      obtain ⟨hs, hs'⟩ | ⟨s, s', hs, hs', hscope⟩ := hrenamed.scope?
      · rw [hs, hs']
      · rw [hs, hs']
        dsimp only
        rw [hscope.find?, ih]

theorem Renamed.lookup (h : t.Renamed r t') (id : DeclId) (n : String) :
    r.Both Eq (t.lookup id n) (t'.lookup id (r.name n)) := by
  refine (h.scopeFor id n).bind fun _ _ _ => .ok ?_
  rw [h.ancestry, h.lookupAlong]

/-! ## Creations -/

theorem Renamed.insertable (h : t.Renamed r t') (owner : DeclId) (n : String) :
    r.Both (Decl.Renamed · r ·) (t.insertable owner n) (t'.insertable owner (r.name n)) := by
  refine (h.decl owner).bind fun d d' hd => ?_
  obtain ⟨hs, hs'⟩ | ⟨s, s', hs, hs', hscope⟩ := hd.scope?
  · rw [hs, hs', hd.name]
    exact .diagnostic (.cannotInsert n d.name)
  · rw [hs, hs']
    dsimp only
    rw [hscope.contains]
    split
    · rw [hd.name]
      exact .diagnostic (.duplicateName n d.name)
    · exact .ok hd

theorem Renamed.grow (h : t.Renamed r t') {n : String} {owner : DeclId} {kind : DeclKind}
    {o : Decl} {scope : Scope} (ho : t.get? owner = some o) (hscope : o.scope? = some scope)
    (hfree : scope.find? n = none) (hkind : kind.Renamed r kind) (hlt : owner.index < t.size)
    (hlt' : owner.index < t'.size) :
    (t.grow n owner kind hlt).Renamed r (t'.grow (r.name n) owner kind hlt') := by
  have hnext : t'.next = t.next := DeclId.ext h.size
  -- the new declaration, and each old one before the name is listed
  have hpush : ∀ id d,
      (t.push ⟨n, some owner, kind⟩ (by rintro p ⟨⟩; exact hlt)).get? id = some d → ∃ d',
        (t'.push ⟨r.name n, some owner, kind⟩ (by rintro p ⟨⟩; exact hlt')).get? id = some d' ∧
          d.Renamed r d' := by
    intro id d hd
    rw [get?_push] at hd ⊢
    rw [hnext]
    split at hd
    · next hid =>
      cases hd
      rw [if_pos hid]
      exact ⟨_, rfl, rfl, rfl, hkind⟩
    · next hid =>
      rw [if_neg hid]
      exact h.get? id d hd
  refine ⟨?_, ?_⟩
  · rw [size_grow, size_grow, h.size]
  · intro id d hd
    rw [Table.grow, get?_register] at hd ⊢
    split at hd
    · next hid =>
      obtain ⟨d₀, hd₀, rfl⟩ := Option.map_eq_some_iff.1 hd
      obtain ⟨d', hd', hrenamed⟩ := hpush id d₀ hd₀
      rw [if_pos hid, hd', hnext]
      refine ⟨_, rfl, hrenamed.register ?_ _⟩
      intro s hs
      rw [← hid, get?_push_of_lt hlt, ho] at hd₀
      cases hd₀
      cases hs.symm.trans hscope
      exact hfree
    · next hid =>
      rw [if_neg hid]
      exact hpush id d hd

end Table

/-- The ids are the same, and so are the tables but for the names. -/
structure Created.Renamed (c : Created) (r : Renaming) (c' : Created) : Prop where
  id : c'.id = c.id
  table : c.table.Renamed r c'.table

namespace Table

variable {t t' : Table}

theorem Renamed.attach (h : t.Renamed r t') (n : String) (owner : DeclId) {kind : DeclKind}
    (hkind : kind.Renamed r kind) :
    r.Both (Created.Renamed · r ·) (t.attach n owner kind) (t'.attach (r.name n) owner kind) := by
  have hinsertable := h.insertable owner n
  cases ho : t.insertable owner n with
  | error fault =>
    rw [ho] at hinsertable
    rw [attach_of_error ho, attach_of_error hinsertable.of_error]
    exact .error fault
  | ok o =>
    rw [ho] at hinsertable
    obtain ⟨o', ho', -⟩ := hinsertable.of_ok
    obtain ⟨hget, scope, hscope, hfree⟩ := insertable_eq_ok_iff.1 ho
    have hlt := lt_of_get? hget
    have hlt' := lt_of_get? (insertable_eq_ok_iff.1 ho').1
    rw [attach_eq ho hlt, attach_eq ho' hlt']
    exact .ok ⟨DeclId.ext h.size, h.grow hget hscope hfree hkind hlt hlt'⟩

theorem Renamed.createModule (h : t.Renamed r t') (n : String) (owner : DeclId) :
    r.Both (Created.Renamed · r ·) (t.createModule n (some owner))
      (t'.createModule (r.name n) (some owner)) :=
  h.attach n owner (.module (Scope.renamed_empty r))

theorem Renamed.createProcedure (h : t.Renamed r t') (n : String) (owner : DeclId)
    (exported : Bool) (returns : Option DeclId) :
    r.Both (Created.Renamed · r ·) (t.createProcedure n (some owner) exported returns)
      (t'.createProcedure (r.name n) (some owner) exported returns) := by
  unfold Table.createProcedure
  split
  · exact .diagnostic (.unsupportedUnexported n)
  · exact h.attach n owner (.procedure exported returns (Scope.renamed_empty r))

/-- The predeclared table has no names that a renaming changes. -/
theorem renamed_standard (r : Renaming) : standard.table.Renamed r standard.table := by
  have hinteger : ∀ n, (r.name n = integerName) = (n = integerName) := by
    intro n
    conv_lhs => rw [← r.name_integer, r.name_inj]
  have hsystem : ∀ n, (r.name n = systemName) = (n = systemName) := by
    intro n
    conv_lhs => rw [← r.name_system, r.name_inj]
  have hscope : Scope.Renamed ⟨[(integerName, ⟨1⟩), (systemName, ⟨0⟩)]⟩ r
      ⟨[(integerName, ⟨1⟩), (systemName, ⟨0⟩)]⟩ := by
    refine ⟨?_, fun n => ?_⟩
    · rw [List.map_cons, List.map_cons, List.map_nil, r.name_integer, r.name_system]
    · show List.lookup (r.name n) [(integerName, _), (systemName, _)] = List.lookup n _
      simp only [Scope.lookup_cons, hinteger, hsystem]
      rfl
  refine ⟨rfl, fun id d hd => ⟨d, hd, ?_⟩⟩
  obtain ⟨hlt, rfl⟩ := get?_eq_some_iff.1 hd
  obtain ⟨i⟩ := id
  match i, hlt with
  | 0, _ => exact ⟨r.name_system.symm, rfl, .module hscope⟩
  | 1, _ => exact ⟨r.name_integer.symm, rfl, .type integerRepresentation⟩

end Table

end ModuleCompiler
