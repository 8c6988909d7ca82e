/-
  What the operations of a table answer, in its two views: what is found by name, what a
  declaration is called in the output, and when one more can be created.
-/
import ModuleCompiler.Decl.Lookup
import ModuleCompiler.Proofs.Decl.Walk

namespace ModuleCompiler

namespace Table

variable {t : Table} {id : DeclId} {b : Decl}

/-! ## Single declarations -/

theorem decl_of_bare? (hb : t.bare? id = some b) : ∃ d, t.decl id = .ok d ∧ d.name = b.name ∧
    d.isModule = b.isModule ∧ d.representation? = b.representation? := by
  obtain ⟨d, hd, rfl⟩ := bare?_eq_some_iff.1 hb
  exact ⟨d, decl_eq_ok_iff.2 hd, rfl, d.isModule_bare.symm, d.representation?_bare.symm⟩

theorem parent_of_bare? (hb : t.bare? id = some b) : t.parent id = b.parent := by
  obtain ⟨d, hd, rfl⟩ := bare?_eq_some_iff.1 hb
  exact (parent_of_get? hd).trans rfl

theorem scope_of_bare? (hb : t.bare? id = some b) (hscope : b.scope?.isSome) :
    ∃ d scope, t.get? id = some d ∧ d.bare = b ∧ d.scope? = some scope := by
  obtain ⟨d, hd, rfl⟩ := bare?_eq_some_iff.1 hb
  rw [d.isSome_scope?_bare] at hscope
  obtain ⟨scope, hs⟩ := Option.isSome_iff_exists.1 hscope
  exact ⟨d, scope, hd, rfl, hs⟩

theorem representation_eq (t : Table) (type : Option DeclId) :
    t.representation type =
      ((type.bind t.bare?).bind Decl.representation?).getD voidRepresentation := by
  cases type with
  | none => rfl
  | some id =>
    rw [representation, Option.bind_some, Option.bind_some, bare?]
    cases t.get? id with
    | none => rfl
    | some d => rw [Option.map_some, Option.bind_some, Option.bind_some, d.representation?_bare]

/-! ## Names -/

theorem scopeFor_of_bare? (hb : t.bare? id = some b) (hscope : b.scope?.isSome) (name : String) :
    ∃ scope, t.scopeFor id name = .ok scope ∧ scope.find? name = t.listing id name := by
  obtain ⟨d, scope, hd, -, hs⟩ := scope_of_bare? hb hscope
  refine ⟨scope, ?_, (listing_of_get? hd hs name).symm⟩
  refine bind_eq_ok_iff.2 ⟨d, decl_eq_ok_iff.2 hd, ?_⟩
  rw [hs]
  rfl

theorem lookupLocal_of_bare? (hb : t.bare? id = some b) (hscope : b.scope?.isSome)
    (name : String) : t.lookupLocal id name = .ok (t.listing id name) := by
  obtain ⟨scope, hs, hfind⟩ := scopeFor_of_bare? hb hscope name
  refine bind_eq_ok_iff.2 ⟨scope, hs, ?_⟩
  rw [hfind]
  rfl

theorem lookupAlong_cons_of_bare? (hb : t.bare? id = some b) (hscope : b.scope?.isSome)
    (name : String) (outer : List DeclId) :
    t.lookupAlong name (id :: outer) = (t.listing id name).or (t.lookupAlong name outer) := by
  obtain ⟨d, scope, hd, -, hs⟩ := scope_of_bare? hb hscope
  have hbind : (t.get? id).bind Decl.scope? = some scope := by
    rw [hd]
    exact hs
  rw [lookupAlong, hbind, listing_of_get? hd hs]
  cases hfind : scope.find? name <;> simp only [hfind] <;> rfl

theorem lookup_of_bare? (hb : t.bare? id = some b) (hscope : b.scope?.isSome) (name : String) :
    t.lookup id name = .ok (t.lookupAlong name (t.ancestry id)) := by
  obtain ⟨scope, hs, -⟩ := scopeFor_of_bare? hb hscope name
  exact bind_eq_ok_iff.2 ⟨scope, hs, rfl⟩

/-! ## Linkage names -/

/-- A module's member has the module's name in front of its own. -/
theorem linkageName_of_bare? {p : DeclId} {o : Decl} (hb : t.bare? id = some b)
    (hkind : b.isModule = false) (hparent : b.parent = some p) (ho : t.bare? p = some o)
    (hmodule : o.isModule = true) : t.linkageName id = .ok (o.name ++ "_" ++ b.name) := by
  obtain ⟨d, hd, rfl⟩ := bare?_eq_some_iff.1 hb
  obtain ⟨e, he, rfl⟩ := bare?_eq_some_iff.1 ho
  rw [Decl.isModule_bare] at hkind hmodule
  have hstep := (parent_of_bare? hb).trans hparent
  refine bind_eq_ok_iff.2 ⟨d, decl_eq_ok_iff.2 hd, ?_⟩
  rw [hkind, hstep]
  refine bind_eq_ok_iff.2 ⟨e, decl_eq_ok_iff.2 he, ?_⟩
  obtain ⟨outer, houter⟩ := t.head_ancestry p
  rw [houter, mangleAlong, he]
  simp only [hmodule, if_true]
  rfl

/-! ## Creations -/

theorem attach_of_listing_none (name : String) (kind : DeclKind) (hb : t.bare? id = some b)
    (hscope : b.scope?.isSome) (hfree : t.listing id name = none)
    (hnew : ∀ s, kind.scope? = some s → s = .empty) :
    ∃ c, t.attach name id kind = .ok c ∧ c.id = t.next ∧
      (∀ x, c.table.bare? x = if x = t.next then some ⟨name, some id, kind.bare⟩ else t.bare? x) ∧
      ∀ x n, c.table.listing x n =
        if x = id ∧ n = name then some t.next else t.listing x n := by
  obtain ⟨d, scope, hd, -, hs⟩ := scope_of_bare? hb hscope
  rw [listing_of_get? hd hs] at hfree
  refine ⟨_, attach_eq_ok_iff.2 ⟨d, scope, hd, hs, hfree, rfl⟩, rfl, ?_, ?_⟩
  · exact bare?_grow t name id kind (lt_of_get? hd)
  · exact listing_grow hd hs hfree hnew (lt_of_get? hd)

theorem attach_of_listing_some {name : String} {kind : DeclKind} {c : DeclId}
    (hb : t.bare? id = some b) (htaken : t.listing id name = some c) :
    t.attach name id kind = .error (.diagnostic (.duplicateName name b.name)) := by
  obtain ⟨d, scope, hd, hs, hfind⟩ := listing_eq_some_iff.1 htaken
  have hname : d.name = b.name := by
    obtain ⟨e, he, rfl⟩ := bare?_eq_some_iff.1 hb
    cases hd.symm.trans he
    rfl
  have hins : t.insertable id name = .error (.diagnostic (.duplicateName name b.name)) := by
    have htake : scope.contains name = true := by
      rw [Scope.contains, hfind]
      rfl
    rw [insertable, decl_eq_ok_iff.2 hd, ← hname]
    simp only [bind, Except.bind, hs]
    exact if_pos htake
  unfold attach
  split
  · next fault hfault =>
    rw [hins] at hfault
    cases hfault
    rfl
  · next hok => rw [hins] at hok; cases hok

end Table

end ModuleCompiler
