/-
  Two views of a table. `bare?` is a declaration without what its scope lists: name, parent
  and kind, which never change. `listing` is what a scope has under a name. The equations
  say what a new declaration and a new entry do to either view.
-/
import ModuleCompiler.Proofs.Decl.Request

namespace ModuleCompiler

namespace Decl

theorem isModule_bare (d : Decl) : d.bare.isModule = d.isModule := by
  obtain ⟨_, _, _ | _ | _ | _⟩ := d <;> rfl

theorem isSome_scope?_bare (d : Decl) : d.bare.scope?.isSome = d.scope?.isSome := by
  obtain ⟨_, _, _ | _ | _ | _⟩ := d <;> rfl

theorem representation?_bare (d : Decl) : d.bare.representation? = d.representation? := by
  obtain ⟨_, _, _ | _ | _ | _⟩ := d <;> rfl

theorem scope?_register (d : Decl) (name : String) (id : DeclId) :
    (d.register name id).scope? = d.scope?.map (·.insert name id) :=
  d.kind.scope?_register name id

/-- The declaration is one that can enclose others: a module or a procedure. -/
def Encloses (d : Decl) : Prop :=
  (∃ scope, d.kind = .module scope) ∨
    ∃ scope exported returns, d.kind = .procedure scope exported returns

theorem encloses_iff {d : Decl} : d.Encloses ↔ ∃ scope, d.scope? = some scope := by
  obtain ⟨_, _, _ | _ | _ | _⟩ := d <;> simp [Encloses, scope?, DeclKind.scope?]

theorem encloses_of_isModule {d : Decl} (h : d.isModule = true) : d.Encloses := by
  obtain ⟨_, _, _ | _ | _ | _⟩ := d
  · exact .inl ⟨_, rfl⟩
  all_goals cases h

theorem encloses_of_bare {d d' : Decl} (hbare : d'.bare = d.bare) (h : d.Encloses) :
    d'.Encloses := by
  obtain ⟨scope, hscope⟩ := encloses_iff.1 h
  have hscope' : d'.scope?.isSome := by
    rw [← isSome_scope?_bare, hbare, isSome_scope?_bare, hscope]
    rfl
  obtain ⟨scope', h'⟩ := Option.isSome_iff_exists.1 hscope'
  exact encloses_iff.2 ⟨scope', h'⟩

end Decl

namespace Table

/-- A declaration without what its scope lists. -/
def bare? (t : Table) (id : DeclId) : Option Decl := (t.get? id).map Decl.bare

/-- What the scope of a declaration lists under a name. -/
def listing (t : Table) (id : DeclId) (name : String) : Option DeclId :=
  ((t.get? id).bind Decl.scope?).bind (·.find? name)

theorem parent_of_get? {t : Table} {id : DeclId} {d : Decl} (h : t.get? id = some d) :
    t.parent id = d.parent := by
  rw [parent, h]
  rfl

theorem bare?_eq_some_iff {t : Table} {id : DeclId} {b : Decl} :
    t.bare? id = some b ↔ ∃ d, t.get? id = some d ∧ d.bare = b :=
  Option.map_eq_some_iff

theorem listing_of_get? {t : Table} {id : DeclId} {d : Decl} {scope : Scope}
    (h : t.get? id = some d) (hscope : d.scope? = some scope) (name : String) :
    t.listing id name = scope.find? name := by
  simp [listing, h, hscope]

theorem listing_eq_some_iff {t : Table} {id c : DeclId} {name : String} :
    t.listing id name = some c ↔
      ∃ d scope, t.get? id = some d ∧ d.scope? = some scope ∧ scope.find? name = some c := by
  simp only [listing, Option.bind_eq_some_iff]
  constructor
  · intro h
    obtain ⟨scope, ⟨d, hd, hscope⟩, hc⟩ := h
    exact ⟨d, scope, hd, hscope, hc⟩
  · intro h
    obtain ⟨d, scope, hd, hscope, hc⟩ := h
    exact ⟨scope, ⟨d, hd, hscope⟩, hc⟩

/-! ## Equations -/

theorem bare?_push (t : Table) (d : Decl) (h) (id : DeclId) :
    (t.push d h).bare? id = if id = t.next then some d.bare else t.bare? id := by
  rw [bare?, get?_push]
  split <;> rfl

theorem bare?_register (t : Table) (owner : DeclId) (name : String) (id x : DeclId) :
    (t.register owner name id).bare? x = t.bare? x := by
  rw [bare?, get?_register]
  split
  · rw [Option.map_map, bare?]
    congr 1
    funext d
    exact d.bare_register name id
  · rfl

theorem get?_next (t : Table) : t.get? t.next = none :=
  Array.getElem?_eq_none (Nat.le_refl _)

theorem listing_push (t : Table) {d : Decl} (h) (hnew : ∀ s, d.scope? = some s → s = .empty)
    (id : DeclId) (name : String) : (t.push d h).listing id name = t.listing id name := by
  rw [listing, get?_push, listing]
  split
  · next hid =>
    rw [hid, get?_next, Option.bind_some]
    cases hs : d.scope? with
    | none => rfl
    | some s => rw [hnew s hs]; rfl
  · rfl

theorem listing_register {t : Table} {owner : DeclId} {o : Decl} {scope : Scope} {name : String}
    (ho : t.get? owner = some o) (hscope : o.scope? = some scope)
    (hfree : scope.find? name = none) (id x : DeclId) (n : String) :
    (t.register owner name id).listing x n =
      if x = owner ∧ n = name then some id else t.listing x n := by
  by_cases hx : x = owner
  · subst hx
    have hget : (t.register x name id).get? x = some (o.register name id) := by
      rw [get?_register, if_pos rfl, ho]
      rfl
    have hscope' : (o.register name id).scope? = some (scope.insert name id) := by
      rw [Decl.scope?_register, hscope]
      rfl
    rw [listing_of_get? hget hscope', Scope.find?_insert hfree, listing_of_get? ho hscope]
    simp
  · rw [listing, get?_register, if_neg (Ne.symm hx), if_neg (fun h => hx h.1), listing]

theorem bare?_grow (t : Table) (name : String) (owner : DeclId) (kind : DeclKind) (h)
    (x : DeclId) :
    (t.grow name owner kind h).bare? x =
      if x = t.next then some ⟨name, some owner, kind.bare⟩ else t.bare? x := by
  rw [grow, bare?_register, bare?_push]
  rfl

theorem listing_grow {t : Table} {name : String} {owner : DeclId} {kind : DeclKind} {o : Decl}
    {scope : Scope} (ho : t.get? owner = some o) (hscope : o.scope? = some scope)
    (hfree : scope.find? name = none) (hnew : ∀ s, kind.scope? = some s → s = .empty)
    (h : owner.index < t.size) (x : DeclId) (n : String) :
    (t.grow name owner kind h).listing x n =
      if x = owner ∧ n = name then some t.next else t.listing x n := by
  have hget := get?_push_of_lt (d := ⟨name, some owner, kind⟩) (h := by rintro p ⟨⟩; exact h) h
  rw [grow, listing_register (hget.trans ho) hscope hfree,
    listing_push t (d := ⟨name, some owner, kind⟩) _ hnew]

/-- A new declaration is listed in its parent, under a name that was free, and nowhere else. -/
theorem listing_of_create {t : Table} {d : Decl} {c : Created} (h : t.create d = .ok c) :
    (∀ p, d.parent = some p → t.listing p d.name = none) ∧ ∀ x n, c.table.listing x n =
      if d.parent = some x ∧ n = d.name then some t.next else t.listing x n := by
  obtain ⟨hbare, rfl⟩ | ⟨owner, hparent, hatt⟩ := create_eq_ok h
  · have hparent : d.parent = none := congrArg Decl.parent hbare
    refine ⟨fun p hp => ?_, fun x n => ?_⟩
    · cases hparent.symm.trans hp
    · have hlisting := t.listing_push (t.parent_lt_of_root d.name) (by rintro s ⟨⟩; rfl) x n
      rw [hlisting, hparent, if_neg (by rintro ⟨hx, -⟩; cases hx)]
  · obtain ⟨o, scope, ho, hscope, hfree, rfl⟩ := attach_eq_ok_iff.1 hatt
    refine ⟨fun p hp => ?_, fun x n => ?_⟩
    · cases hparent.symm.trans hp
      rw [listing_of_get? ho hscope, hfree]
    · rw [listing_grow ho hscope hfree fun _ => DeclKind.scope?_bare, hparent]
      simp only [Option.some.injEq, eq_comm]

end Table

end ModuleCompiler
