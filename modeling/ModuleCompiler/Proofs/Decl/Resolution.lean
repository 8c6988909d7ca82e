/-
  What a name stands for. In the table that the requests `rs` make, `Denotes rs a n d` says
  that `d` is the declaration of the name `n` in `a`, or that `d` is `a` itself, goes by the
  name and was listed in itself. A scope lists exactly that (`listing_run_iff`), and a look-up
  finds what the nearest scope has (`resolves`).
-/
import ModuleCompiler.Proofs.Decl.Growth
import ModuleCompiler.Proofs.Decl.InPlace
import Mathlib.Data.List.Induction

namespace ModuleCompiler.Table

variable {t : Table} {rs : List Request} {s a d : DeclId} {n : String}

/-- Among the requests is one that lists the declaration in itself, and it is accepted. -/
def SelfListed (rs : List Request) (a : DeclId) : Prop :=
  ∃ before behind, rs = before ++ .insert a a :: behind ∧
    ∃ t', (empty.run before).answer (.insert a a) = .ok t'

/-- The name stands for `d` in `a`: `d` is declared there under the name, or it is `a` itself. -/
def Denotes (rs : List Request) (a : DeclId) (n : String) (d : DeclId) : Prop :=
  ∃ e, (empty.run rs).get? d = some e ∧ e.name = n ∧
    (e.parent = some a ∨ (d = a ∧ SelfListed rs a))

/-! ## What scopes list -/

theorem run_append (t : Table) (rs rs' : List Request) : t.run (rs ++ rs') = (t.run rs).run rs' :=
  List.foldl_append

/-- A creation lists nothing in itself: a declaration that has become listed in itself was
requested to be. -/
theorem Registered.requested_of_listing (ht : t.Registered) {r : Request}
    (h : (t.after r).listing a n = some a) :
    t.listing a n = some a ∨ (r = .insert a a ∧ ∃ t', t.answer r = .ok t') := by
  unfold after at h
  cases hanswer : t.answer r with
  | error fault =>
    rw [hanswer] at h
    exact .inl h
  | ok t' =>
    rw [hanswer] at h
    dsimp only at h
    obtain ⟨e, he⟩ | ⟨owner, child, rfl⟩ := r.creates_or_inserts
    · rw [answer_of_creates t he] at hanswer
      obtain ⟨c, hc, rfl⟩ := map_eq_ok_iff.1 hanswer
      obtain ⟨hid, hcreates⟩ := creates_of_create hc
      rw [(listing_of_create hc).2] at h
      split at h
      · next hnew =>
        -- the parent of the new declaration is an old one
        obtain ⟨o, -, ho, -⟩ := hcreates.parent a hnew.1
        have hself : a = t.next := (Option.some.inj h).symm
        exact absurd hself (ne_next (lt_of_get? ho))
      · exact .inl h
    · obtain ⟨listed, hlisted, rfl⟩ := map_eq_ok_iff.1 hanswer
      obtain ⟨rfl, -⟩ := ht.insert_self hlisted
      obtain ⟨e, o, scope, he, -, ho, hscope, hfree, rfl⟩ := insert_eq_ok_iff.1 hlisted
      rw [listing_register ho hscope hfree] at h
      split at h
      · next hnew =>
        rw [hnew.1]
        exact .inr ⟨rfl, _, rfl⟩
      · exact .inl h

theorem selfListed_of_listing (h : (empty.run rs).listing a n = some a) : SelfListed rs a := by
  induction rs using List.reverseRecOn with
  | nil => cases h
  | append_singleton rs r ih =>
    rw [run_append] at h
    have ht : (empty.run rs).Registered := registered_of_run registered_empty rs
    obtain hold | ⟨rfl, t', ht'⟩ := ht.requested_of_listing h
    · obtain ⟨before, behind, rfl, haccepted⟩ := ih hold
      exact ⟨before, behind ++ [r], by simp, haccepted⟩
    · exact ⟨rs, [], rfl, t', ht'⟩

/-- What was listed in itself once is listed there ever after. -/
theorem listing_of_selfListed (h : SelfListed rs a) :
    ∃ b, (empty.run rs).bare? a = some b ∧ (empty.run rs).listing a b.name = some a := by
  obtain ⟨before, behind, rfl, t', ht'⟩ := h
  have hafter : (empty.run before).after (.insert a a) = t' := by rw [after, ht']
  have hextends : t'.Extends (empty.run (before ++ .insert a a :: behind)) := by
    rw [run_append, ← hafter]
    exact extends_run _ behind
  obtain ⟨listed, hlisted, rfl⟩ := map_eq_ok_iff.1 ht'
  obtain ⟨e, o, scope, he, -, ho, hscope, hfree, rfl⟩ := insert_eq_ok_iff.1 hlisted
  have hbare : ((empty.run before).register a e.name a).bare? a = some e.bare := by
    rw [bare?_register]
    exact bare?_eq_some_iff.2 ⟨e, he, rfl⟩
  refine ⟨e.bare, (hextends.bare?_eq a (lt_of_bare? hbare)).trans hbare, hextends.listing ?_⟩
  rw [listing_register ho hscope hfree]
  exact if_pos ⟨rfl, rfl⟩

/-- A scope lists what names stand for in it, and nothing else. -/
theorem listing_run_iff : (empty.run rs).listing a n = some d ↔ Denotes rs a n d := by
  have ht : (empty.run rs).Registered := registered_of_run registered_empty rs
  constructor
  · intro h
    obtain ⟨b, hb, hname, hplace⟩ := ht.entry h
    obtain ⟨e, he, rfl⟩ := bare?_eq_some_iff.1 hb
    refine ⟨e, he, hname, ?_⟩
    obtain hparent | rfl := hplace
    · exact .inl hparent
    · exact .inr ⟨rfl, selfListed_of_listing h⟩
  · intro h
    obtain ⟨e, he, rfl, hparent | ⟨rfl, hself⟩⟩ := h
    · exact ht.listing_parent he hparent
    · obtain ⟨b, hb, hlisting⟩ := listing_of_selfListed hself
      obtain ⟨e', he', rfl⟩ := bare?_eq_some_iff.1 hb
      cases he.symm.trans he'
      exact hlisting

theorem listing_run_eq_none_iff :
    (empty.run rs).listing a n = none ↔ ∀ d, ¬Denotes rs a n d := by
  rw [Option.eq_none_iff_forall_ne_some]
  exact forall_congr' fun d => not_congr listing_run_iff

/-! ## Looking up -/

/-- Whatever a declaration with a scope is within has a scope as well. -/
theorem Registered.encloses_of_within (ht : t.Registered) {o : Decl} (hs : t.get? s = some o)
    (henc : o.Encloses) (h : t.Within s a) : ∃ e, t.get? a = some e ∧ e.Encloses := by
  induction h with
  | refl => exact ⟨o, hs, henc⟩
  | @tail x y hwithin hstep ih =>
    obtain ⟨e, he, -⟩ := ih
    have hparent : e.parent = some y := (parent_of_get? he).symm.trans hstep
    exact (ht.oneTree.parent_encloses x e y he hparent).2

theorem lookupAlong_eq_findSome? {walk : List DeclId}
    (h : ∀ a ∈ walk, ∃ e, t.get? a = some e ∧ e.Encloses) (n : String) :
    t.lookupAlong n walk = walk.findSome? (t.listing · n) := by
  induction walk with
  | nil => rfl
  | cons a outer ih =>
    obtain ⟨⟨e, he, henc⟩, houter⟩ := List.forall_mem_cons.1 h
    obtain ⟨scope, hscope⟩ := Decl.encloses_iff.1 henc
    have hbare : t.bare? a = some e.bare := bare?_eq_some_iff.2 ⟨e, he, rfl⟩
    have hsome : e.bare.scope?.isSome := by
      rw [e.isSome_scope?_bare, hscope]
      rfl
    rw [lookupAlong_cons_of_bare? hbare hsome, ih houter, List.findSome?_cons]
    cases t.listing a n <;> rfl

theorem Registered.lookup_eq (ht : t.Registered) {o : Decl} (hs : t.get? s = some o)
    (henc : o.Encloses) (n : String) :
    t.lookup s n = .ok ((t.ancestry s).findSome? (t.listing · n)) := by
  have hwalk : ∀ a ∈ t.ancestry s, ∃ e, t.get? a = some e ∧ e.Encloses :=
    fun a ha => ht.encloses_of_within hs henc (mem_ancestry.1 ha)
  obtain ⟨scope, hscope⟩ := Decl.encloses_iff.1 henc
  rw [← lookupAlong_eq_findSome? hwalk]
  refine bind_eq_ok_iff.2 ⟨scope, bind_eq_ok_iff.2 ⟨o, decl_eq_ok_iff.2 hs, ?_⟩, rfl⟩
  rw [hscope]
  rfl

theorem lookupLocal_eq {o : Decl} (hs : t.get? s = some o) (henc : o.Encloses) (n : String) :
    t.lookupLocal s n = .ok (t.listing s n) := by
  obtain ⟨scope, hscope⟩ := Decl.encloses_iff.1 henc
  refine bind_eq_ok_iff.2 ⟨scope, bind_eq_ok_iff.2 ⟨o, decl_eq_ok_iff.2 hs, ?_⟩, ?_⟩
  · rw [hscope]
    rfl
  · rw [listing_of_get? hs hscope]
    rfl

/-- Nothing can be looked up in a type or a variable. -/
theorem scopeFor_eq_error {o : Decl} (hs : t.get? s = some o) (henc : ¬o.Encloses) (n : String) :
    t.scopeFor s n = .error (.diagnostic (.cannotLookup n o.name)) := by
  have hscope : o.scope? = none := by
    rw [Option.eq_none_iff_forall_ne_some]
    exact fun scope h => henc (Decl.encloses_iff.2 ⟨scope, h⟩)
  unfold scopeFor
  simp only [decl_eq_ok_iff.2 hs, hscope, bind, Except.bind, throw, throwThe,
    MonadExceptOf.throw]

/-- What looking a name up from a declaration with a scope comes to. -/
structure Resolves (rs : List Request) (s : DeclId) (n : String) : Prop where
  /-- The walk outward meets declarations of the table only, and all of them have a scope. -/
  encloses : ∀ a, (empty.run rs).Within s a → ∃ e, (empty.run rs).get? a = some e ∧ e.Encloses
  /-- The nearest declaration in which the name stands for something decides. -/
  lookup : ∃ found, (empty.run rs).lookup s n = .ok found ∧
    (∀ d, found = some d ↔ ∃ a, (empty.run rs).Within s a ∧ Denotes rs a n d ∧
      ∀ b, (empty.run rs).Within s b → (empty.run rs).Inside b a → ∀ e, ¬Denotes rs b n e) ∧
    (found = none ↔ ∀ a, (empty.run rs).Within s a → ∀ d, ¬Denotes rs a n d)
  lookupLocal : ∃ found, (empty.run rs).lookupLocal s n = .ok found ∧
    (∀ d, found = some d ↔ Denotes rs s n d) ∧ (found = none ↔ ∀ d, ¬Denotes rs s n d)
  /-- What is found in the scope alone is what is found. -/
  local_first : ∀ d, (empty.run rs).lookupLocal s n = .ok (some d) →
    (empty.run rs).lookup s n = .ok (some d)

theorem resolves {o : Decl} (hs : (empty.run rs).get? s = some o) (henc : o.Encloses)
    (n : String) : Resolves rs s n := by
  have ht : (empty.run rs).Registered := registered_of_run registered_empty rs
  refine ⟨fun a => ht.encloses_of_within hs henc,
    ⟨_, ht.lookup_eq hs henc n, fun d => ?_, ?_⟩,
    ⟨_, lookupLocal_eq hs henc n, fun d => listing_run_iff, listing_run_eq_none_iff⟩,
    fun d hd => ?_⟩
  · simp only [findSome?_ancestry_eq_some_iff, listing_run_iff, listing_run_eq_none_iff]
  · simp only [findSome?_ancestry_eq_none_iff, listing_run_eq_none_iff]
  · rw [lookupLocal_eq hs henc] at hd
    have hlisting : (empty.run rs).listing s n = some d := Except.ok.inj hd
    obtain ⟨outer, houter⟩ := (empty.run rs).head_ancestry s
    rw [ht.lookup_eq hs henc, houter, List.findSome?_cons, hlisting]

/-- A look-up ends in a diagnostic, or it finds nothing or a declaration of the table. -/
theorem lookup_cases {o : Decl} (hs : (empty.run rs).get? s = some o) (n : String) :
    (∃ e, (empty.run rs).lookup s n = .error (.diagnostic e)) ∨
      (empty.run rs).lookup s n = .ok none ∨
      ∃ d, (empty.run rs).lookup s n = .ok (some d) ∧ ∃ e, (empty.run rs).get? d = some e := by
  by_cases henc : o.Encloses
  · obtain ⟨found, hfound, hsome, -⟩ := (resolves hs henc n).lookup
    cases found with
    | none => exact .inr (.inl hfound)
    | some d =>
      obtain ⟨a, -, ⟨e, he, -⟩, -⟩ := (hsome d).1 rfl
      exact .inr (.inr ⟨d, hfound, e, he⟩)
  · refine .inl ⟨.cannotLookup n o.name, ?_⟩
    rw [lookup, scopeFor_eq_error hs henc]
    rfl

theorem exists_get?_of_lookup {o : Decl} (hs : (empty.run rs).get? s = some o)
    (hd : (empty.run rs).lookup s n = .ok (some d)) : ∃ e, (empty.run rs).get? d = some e := by
  obtain ⟨fault, hfault⟩ | hnone | ⟨d', hd', he⟩ := lookup_cases hs n
  · cases hd.symm.trans hfault
  · cases hd.symm.trans hnone
  · cases hd.symm.trans hd'
    exact he

/-- A name is resolved by the nearest declaration around it that has it; a type or a variable
has no names in it. -/
theorem lookup_run {o : Decl} (hs : (empty.run rs).get? s = some o) (n : String) :
    (o.Encloses → Resolves rs s n) ∧
      (¬o.Encloses →
        (empty.run rs).lookup s n = .error (.diagnostic (.cannotLookup n o.name)) ∧
        (empty.run rs).lookupLocal s n = .error (.diagnostic (.cannotLookup n o.name))) := by
  refine ⟨fun henc => resolves hs henc n, fun henc => ⟨?_, ?_⟩⟩
  · rw [lookup, scopeFor_eq_error hs henc]
    rfl
  · rw [lookupLocal, scopeFor_eq_error hs henc]
    rfl

/-- From a procedure of a module: the name of the module around it, which lists itself. -/
theorem lookup_run_system :
    let rs : List Request := [.createModule "SYSTEM" none, .insert ⟨0⟩ ⟨0⟩,
      .createModule "M" (some ⟨0⟩), .createProcedure "P" (some ⟨1⟩) true none]
    let o : Decl := ⟨"P", some ⟨1⟩, .procedure .empty true none⟩
    (empty.run rs).get? ⟨2⟩ = some o ∧ o.Encloses ∧
      (empty.run rs).lookup ⟨2⟩ "SYSTEM" = .ok (some ⟨0⟩) ∧ Resolves rs ⟨2⟩ "SYSTEM" := by
  intro rs o
  have hs : (empty.run rs).get? ⟨2⟩ = some o := by decide +kernel
  have henc : o.Encloses := .inr ⟨_, _, _, rfl⟩
  exact ⟨hs, henc, by decide +kernel, (lookup_run hs "SYSTEM").1 henc⟩

end ModuleCompiler.Table
