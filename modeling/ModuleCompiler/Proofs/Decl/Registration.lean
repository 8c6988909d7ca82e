/-
  The three records of one tree: ids, parents and scopes agree. `Registered` says so of one
  table in its two views, and every change keeps it (`Registered.change`). `OneTree` spells
  out what follows for the declarations and the entries of their scopes; it holds of every
  table that requests can make, whatever becomes of them (`oneTree_run`).
-/
import ModuleCompiler.Proofs.Decl.View
import Mathlib.Logic.Relation

namespace ModuleCompiler

/-! ## Scopes are ordered -/

namespace Scope

/-- The names of the scope ascend. -/
def Ordered (s : Scope) : Prop :=
  s.entries.Pairwise fun e f => e.1 < f.1

theorem place_perm (name : String) (id : DeclId) (es : List (String × DeclId)) :
    (place name id es).Perm ((name, id) :: es) := by
  induction es with
  | nil => exact .refl _
  | cons e es ih =>
    rw [place]
    split
    · exact .refl _
    · exact (ih.cons e).trans (.swap _ _ _)

theorem mem_place {name n : String} {id c : DeclId} {es : List (String × DeclId)} :
    (n, c) ∈ place name id es ↔ (n, c) = (name, id) ∨ (n, c) ∈ es := by
  rw [(place_perm name id es).mem_iff, List.mem_cons]

theorem ordered_place {name : String} {id : DeclId} {es : List (String × DeclId)}
    (hes : es.Pairwise fun e f => e.1 < f.1) (hfree : es.lookup name = none) :
    (place name id es).Pairwise fun e f => e.1 < f.1 := by
  induction es with
  | nil => simp [place]
  | cons e es ih =>
    obtain ⟨n, c⟩ := e
    rw [lookup_cons] at hfree
    have hne : name ≠ n := by
      rintro rfl
      simp at hfree
    rw [if_neg hne] at hfree
    obtain ⟨hfirst, hrest⟩ := List.pairwise_cons.1 hes
    rw [place]
    split
    · next hlt =>
      refine List.pairwise_cons.2 ⟨?_, hes⟩
      intro f hf
      rcases List.mem_cons.1 hf with rfl | hf
      · exact hlt
      · exact String.lt_trans hlt (hfirst f hf)
    · next hge =>
      have hlt : n < name := by
        rcases String.le_total name n with hle | hle
        · exact absurd (String.le_antisymm hle (String.not_lt.1 hge)) hne
        · exact String.not_le.1 fun h => hne (String.le_antisymm h hle)
      refine List.pairwise_cons.2 ⟨?_, ih hrest hfree⟩
      rintro ⟨n', c'⟩ hf
      rcases mem_place.1 hf with h | h
      · cases h
        exact hlt
      · exact hfirst _ h

theorem Ordered.insert {s : Scope} {name : String} {id : DeclId} (hs : s.Ordered)
    (hfree : s.find? name = none) : (s.insert name id).Ordered :=
  ordered_place hs hfree

theorem mem_entries_iff {s : Scope} (hs : s.Ordered) {n : String} {c : DeclId} :
    (n, c) ∈ s.entries ↔ s.find? n = some c := by
  obtain ⟨es⟩ := s
  unfold Ordered find? at *
  dsimp only at *
  induction es with
  | nil => simp
  | cons e es ih =>
    obtain ⟨m, d⟩ := e
    obtain ⟨hfirst, hrest⟩ := List.pairwise_cons.1 hs
    rw [lookup_cons, List.mem_cons, ih hrest]
    split
    · next heq =>
      subst heq
      constructor
      · intro h
        obtain h | h := h
        · cases h; rfl
        · exact absurd (hfirst _ ((ih hrest).2 h)) (String.lt_irrefl _)
      · rintro ⟨⟩
        exact .inl rfl
    · next hne =>
      constructor
      · intro hmem
        obtain h | h := hmem
        · cases h; exact absurd rfl hne
        · exact h
      · exact .inr

end Scope

namespace Table

/-- Ids, parents and scopes record one tree. -/
structure Registered (t : Table) : Prop where
  root : ∀ {id d}, t.bare? id = some d → d.parent = none → d.isModule
  child : ∀ {id d p}, t.bare? id = some d → d.parent = some p → t.listing p d.name = some id
  entry : ∀ {p n c}, t.listing p n = some c →
    ∃ d, t.bare? c = some d ∧ d.name = n ∧ (d.parent = some p ∨ c = p)
  ordered : ∀ {id d scope}, t.get? id = some d → d.scope? = some scope → scope.Ordered

theorem registered_empty : Registered empty where
  root h := by cases h
  child h := by cases h
  entry h := by cases h
  ordered h := by cases h

theorem lt_of_bare? {t : Table} {id : DeclId} {b : Decl} (h : t.bare? id = some b) :
    id.index < t.size := by
  obtain ⟨d, hd, -⟩ := bare?_eq_some_iff.1 h
  exact lt_of_get? hd

/-! ## What a change keeps -/

theorem Registered.push_root {t : Table} (ht : t.Registered) (name : String) :
    (t.push ⟨name, none, .module .empty⟩ nofun).Registered := by
  have hnew : ∀ s, (⟨name, none, .module .empty⟩ : Decl).scope? = some s → s = .empty := by
    rintro s ⟨⟩
    rfl
  refine ⟨?_, ?_, ?_, ?_⟩
  · intro id d hd hp
    rw [bare?_push] at hd
    split at hd
    · cases hd; rfl
    · exact ht.root hd hp
  · intro id d p hd hp
    rw [listing_push t _ hnew]
    rw [bare?_push] at hd
    split at hd
    · cases hd; cases hp
    · exact ht.child hd hp
  · intro p n c h
    rw [listing_push t _ hnew] at h
    obtain ⟨d, hd, hn, hp⟩ := ht.entry h
    refine ⟨d, ?_, hn, hp⟩
    rw [bare?_push, if_neg (ne_next (lt_of_bare? hd)), hd]
  · intro id d scope hd hscope
    rw [get?_push] at hd
    split at hd
    · cases hd; cases hscope
      exact .nil
    · exact ht.ordered hd hscope

/-- One more entry, under a name that is free, leaves every scope in order. -/
theorem ordered_register {t : Table} {owner : DeclId} {name : String} {o : Decl} {scope : Scope}
    (ht : ∀ {id d scope}, t.get? id = some d → d.scope? = some scope → scope.Ordered)
    (ho : t.get? owner = some o) (hscope : o.scope? = some scope)
    (hfree : scope.find? name = none) (c : DeclId) {id : DeclId} {d : Decl} {s : Scope}
    (hd : (t.register owner name c).get? id = some d) (hs : d.scope? = some s) : s.Ordered := by
  rw [get?_register] at hd
  split at hd
  · next heq =>
    subst heq
    rw [ho] at hd
    cases hd
    rw [Decl.scope?_register, hscope] at hs
    cases hs
    exact (ht ho hscope).insert hfree
  · exact ht hd hs

theorem Registered.grow {t : Table} (ht : t.Registered) {name : String} {owner : DeclId}
    {kind : DeclKind} {o : Decl} {scope : Scope} (ho : t.get? owner = some o)
    (hscope : o.scope? = some scope) (hfree : scope.find? name = none)
    (hnew : ∀ s, kind.scope? = some s → s = .empty) :
    (t.grow name owner kind (lt_of_get? ho)).Registered := by
  have hlisting := listing_grow ho hscope hfree hnew (lt_of_get? ho)
  have hbare := bare?_grow t name owner kind (lt_of_get? ho)
  refine ⟨?_, ?_, ?_, ?_⟩
  · intro id d hd hp
    rw [hbare] at hd
    split at hd
    · cases hd; cases hp
    · exact ht.root hd hp
  · intro id d p hd hp
    rw [hlisting]
    rw [hbare] at hd
    split at hd
    · next hid =>
      cases hd; cases hp
      rw [if_pos ⟨rfl, rfl⟩, hid]
    · have hold := ht.child hd hp
      rw [if_neg, hold]
      intro h
      obtain ⟨rfl, hn⟩ := h
      rw [listing_of_get? ho hscope, hn, hfree] at hold
      cases hold
  · intro p n c h
    rw [hlisting] at h
    split at h
    · next heq =>
      cases h
      exact ⟨_, (hbare _).trans (if_pos rfl), heq.2.symm, .inl (congrArg some heq.1.symm)⟩
    · obtain ⟨d, hd, hn, hp⟩ := ht.entry h
      exact ⟨d, by rw [hbare, if_neg (ne_next (lt_of_bare? hd)), hd], hn, hp⟩
  · intro id d s hd hs
    have hget := get?_push_of_lt (d := ⟨name, some owner, kind⟩)
      (h := by rintro p ⟨⟩; exact lt_of_get? ho) (lt_of_get? ho)
    refine ordered_register ?_ (hget.trans ho) hscope hfree _ hd hs
    intro id d s hd hs
    rw [get?_push] at hd
    split at hd
    · cases hd
      rw [hnew s hs]
      exact .nil
    · exact ht.ordered hd hs

theorem Registered.register {t : Table} (ht : t.Registered) {owner child : DeclId} {d o : Decl}
    {scope : Scope} (hd : t.get? child = some d) (hmay : owner = child ∨ d.parent = some owner)
    (ho : t.get? owner = some o) (hscope : o.scope? = some scope)
    (hfree : scope.find? d.name = none) : (t.register owner d.name child).Registered := by
  have hlisting := listing_register ho hscope hfree child
  refine ⟨?_, ?_, ?_, ?_⟩
  · intro id e he hp
    rw [bare?_register] at he
    exact ht.root he hp
  · intro id e p he hp
    rw [bare?_register] at he
    have hold := ht.child he hp
    rw [hlisting, if_neg, hold]
    intro h
    obtain ⟨rfl, hn⟩ := h
    rw [listing_of_get? ho hscope, hn, hfree] at hold
    cases hold
  · intro p n c h
    rw [hlisting] at h
    split at h
    · next heq =>
      cases h
      refine ⟨d.bare, ?_, heq.2.symm, ?_⟩
      · rw [bare?_register]
        exact bare?_eq_some_iff.2 ⟨d, hd, rfl⟩
      · rw [heq.1]
        exact hmay.elim (fun h => .inr h.symm) .inl
    · obtain ⟨e, he, hn, hp⟩ := ht.entry h
      exact ⟨e, by rw [bare?_register, he], hn, hp⟩
  · intro id e s he hs
    exact ordered_register ht.ordered ho hscope hfree child he hs

theorem Registered.change {t t' : Table} (h : Change t t') (ht : t.Registered) :
    t'.Registered := by
  cases h with
  | root name => exact ht.push_root name
  | child ho hscope hfree hnew => exact ht.grow ho hscope hfree hnew
  | listing hd hmay ho hscope hfree => exact ht.register hd hmay ho hscope hfree

theorem registered_of_run {t : Table} (ht : t.Registered) (rs : List Request) :
    (t.run rs).Registered :=
  run_keeps (fun _ _ h => Registered.change h) ht rs

/-! ## The tree -/

/-- The declarations of a table form a tree, which the scopes repeat entry by entry. -/
structure OneTree (t : Table) : Prop where
  root_isModule : ∀ id d, t.get? id = some d → d.parent = none → d.isModule
  parent_encloses : ∀ id d p, t.get? id = some d → d.parent = some p →
    p.index < id.index ∧ ∃ o, t.get? p = some o ∧ o.Encloses
  listed : ∀ id d p, t.get? id = some d → d.parent = some p →
    ∃ o scope, t.get? p = some o ∧ o.scope? = some scope ∧ scope.find? d.name = some id
  entry : ∀ p o scope n c, t.get? p = some o → o.scope? = some scope → (n, c) ∈ scope.entries →
    ∃ d, t.get? c = some d ∧ d.name = n ∧ (d.parent = some p ∨ c = p)
  sibling : ∀ a b d e p, t.get? a = some d → t.get? b = some e → d.parent = some p →
    e.parent = some p → d.name = e.name → a = b
  rooted : ∀ id d, t.get? id = some d → ∃ top r,
    Relation.ReflTransGen (fun x y => t.parent x = some y) id top ∧
      t.get? top = some r ∧ r.parent = none ∧ r.isModule

theorem Registered.listing_parent {t : Table} (ht : t.Registered) {id p : DeclId} {d : Decl}
    (hd : t.get? id = some d) (hp : d.parent = some p) : t.listing p d.name = some id :=
  ht.child (d := d.bare) (bare?_eq_some_iff.2 ⟨d, hd, rfl⟩) hp

theorem Registered.isModule_of_root {t : Table} (ht : t.Registered) {id : DeclId} {d : Decl}
    (hd : t.get? id = some d) (hp : d.parent = none) : d.isModule := by
  rw [← d.isModule_bare]
  exact ht.root (d := d.bare) (bare?_eq_some_iff.2 ⟨d, hd, rfl⟩) hp

theorem Registered.rooted {t : Table} (ht : t.Registered) (id : DeclId) {d : Decl}
    (hd : t.get? id = some d) :
    ∃ top r, Relation.ReflTransGen (fun x y => t.parent x = some y) id top ∧
      t.get? top = some r ∧ r.parent = none ∧ r.isModule := by
  -- the walk outward ends since ids fall along it
  induction hn : id.index using Nat.strongRecOn generalizing id d with
  | ind n ih =>
    cases hp : d.parent with
    | none => exact ⟨id, d, .refl, hd, hp, ht.isModule_of_root hd hp⟩
    | some p =>
      have hstep : t.parent id = some p := (parent_of_get? hd).trans hp
      obtain ⟨o, scope, ho, -, -⟩ := listing_eq_some_iff.1 (ht.listing_parent hd hp)
      obtain ⟨top, r, hchain, hr⟩ := ih p.index (hn ▸ lt_of_parent hstep) p ho rfl
      exact ⟨top, r, .head hstep hchain, hr⟩

theorem Registered.oneTree {t : Table} (ht : t.Registered) : t.OneTree where
  root_isModule _ _ hd hp := ht.isModule_of_root hd hp
  parent_encloses id d p hd hp := by
    obtain ⟨o, scope, ho, hscope, -⟩ := listing_eq_some_iff.1 (ht.listing_parent hd hp)
    have hstep : t.parent id = some p := (parent_of_get? hd).trans hp
    exact ⟨lt_of_parent hstep, o, ho, Decl.encloses_iff.2 ⟨scope, hscope⟩⟩
  listed _ _ _ hd hp := listing_eq_some_iff.1 (ht.listing_parent hd hp)
  entry p o scope n c ho hscope hmem := by
    rw [Scope.mem_entries_iff (ht.ordered ho hscope), ← listing_of_get? ho hscope] at hmem
    obtain ⟨b, hb, hn, hp⟩ := ht.entry hmem
    obtain ⟨d, hd, rfl⟩ := bare?_eq_some_iff.1 hb
    exact ⟨d, hd, hn, hp⟩
  sibling a b d e p hd he hdp hep hname := by
    have ha := ht.listing_parent hd hdp
    rw [hname, ht.listing_parent he hep] at ha
    exact (Option.some.inj ha).symm
  rooted id _ hd := ht.rooted id hd

/-- Whatever is requested, accepted or not, the declarations stay one tree. -/
theorem oneTree_run (rs : List Request) : (empty.run rs).OneTree :=
  (registered_of_run registered_empty rs).oneTree

end Table

end ModuleCompiler
