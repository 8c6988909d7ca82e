/-
  Declarations that are listed in themselves. Whether a declaration can be listed in itself
  depends on its scope alone, not on what it is: a module passes as a procedure does. So the
  scopes of the table that requests make have such entries exactly where it was asked for
  (`selfListing_run`), and they are modules exactly if the requests name modules only. A
  procedure that is listed in itself (`procedure_lists_itself`) has its own name taken.
-/
import ModuleCompiler.Predeclared
import ModuleCompiler.Proofs.Decl.Resolution

namespace ModuleCompiler.Table

variable {t : Table} {rs : List Request} {a : DeclId} {e : Decl} {n : String}

/-- Every entry that stands for the declaration whose scope it is in is in the scope of a
module. -/
def OnlyModulesListThemselves (t : Table) : Prop :=
  ∀ a e scope n, t.get? a = some e → e.scope? = some scope → (n, a) ∈ scope.entries →
    e.isModule = true

/-- What it comes to that a declaration can be listed in itself. -/
structure SelfListing (rs : List Request) (a : DeclId) (e : Decl) : Prop where
  /-- The request is accepted for a module or a procedure whose own name is free in it. -/
  accepted : (∃ t', (empty.run rs).answer (.insert a a) = .ok t') ↔
    e.Encloses ∧ (empty.run rs).listing a e.name = none
  /-- The declaration stands in its own scope, under its own name, exactly if a request for that
  was accepted. -/
  entry : ∀ n, (empty.run rs).listing a n = some a ↔ n = e.name ∧ SelfListed rs a
  /-- From then on no declaration of the name can be made inside it. -/
  taken : SelfListed rs a → e.Encloses ∧ ∀ kind,
    (empty.run rs).attach e.name a kind = .error (.diagnostic (.duplicateName e.name e.name))

theorem answer_insert_self_iff (ha : t.get? a = some e) :
    (∃ t', t.answer (.insert a a) = .ok t') ↔ e.Encloses ∧ t.listing a e.name = none := by
  constructor
  · intro h
    obtain ⟨t', ht'⟩ := h
    obtain ⟨listed, hlisted, -⟩ := map_eq_ok_iff.1 ht'
    obtain ⟨d, o, scope, hd, -, ho, hscope, hfree, -⟩ := insert_eq_ok_iff.1 hlisted
    cases ha.symm.trans hd
    cases ha.symm.trans ho
    rw [listing_of_get? ha hscope]
    exact ⟨Decl.encloses_iff.2 ⟨scope, hscope⟩, hfree⟩
  · intro h
    obtain ⟨henc, hfree⟩ := h
    obtain ⟨scope, hscope⟩ := Decl.encloses_iff.1 henc
    rw [listing_of_get? ha hscope] at hfree
    exact ⟨_, map_eq_ok_iff.2
      ⟨_, insert_eq_ok_iff.2 ⟨e, e, scope, ha, .inl rfl, ha, hscope, hfree, rfl⟩, rfl⟩⟩

theorem listing_self_iff (ha : (empty.run rs).get? a = some e) :
    (empty.run rs).listing a n = some a ↔ n = e.name ∧ SelfListed rs a := by
  constructor
  · intro h
    obtain ⟨d, hd, hname, -⟩ := listing_run_iff.1 h
    cases ha.symm.trans hd
    exact ⟨hname.symm, selfListed_of_listing h⟩
  · intro h
    obtain ⟨rfl, hself⟩ := h
    exact listing_run_iff.2 ⟨e, ha, rfl, .inr ⟨rfl, hself⟩⟩

theorem selfListing (ha : (empty.run rs).get? a = some e) : SelfListing rs a e where
  accepted := answer_insert_self_iff ha
  entry _ := listing_self_iff ha
  taken hself := by
    have hlisted : (empty.run rs).listing a e.name = some a :=
      (listing_self_iff ha).2 ⟨rfl, hself⟩
    have hbare : (empty.run rs).bare? a = some e.bare := bare?_eq_some_iff.2 ⟨e, ha, rfl⟩
    refine ⟨?_, fun kind => attach_of_listing_some (b := e.bare) hbare hlisted⟩
    obtain ⟨d, scope, hd, hscope, -⟩ := listing_eq_some_iff.1 hlisted
    cases ha.symm.trans hd
    exact Decl.encloses_iff.2 ⟨scope, hscope⟩

/-- An entry of a scope that stands for the owner of the scope was requested. -/
theorem selfListed_iff_entry (ha : (empty.run rs).get? a = some e) :
    (∃ scope n, e.scope? = some scope ∧ (n, a) ∈ scope.entries) ↔ SelfListed rs a := by
  have ht : (empty.run rs).Registered := registered_of_run registered_empty rs
  constructor
  · intro h
    obtain ⟨scope, n, hscope, hentry⟩ := h
    rw [Scope.mem_entries_iff (ht.ordered ha hscope), ← listing_of_get? ha hscope] at hentry
    exact ((listing_self_iff ha).1 hentry).2
  · intro hself
    obtain ⟨henc, -⟩ := (selfListing ha).taken hself
    obtain ⟨scope, hscope⟩ := Decl.encloses_iff.1 henc
    refine ⟨scope, e.name, hscope, ?_⟩
    rw [Scope.mem_entries_iff (ht.ordered ha hscope), ← listing_of_get? ha hscope]
    exact (listing_self_iff ha).2 ⟨rfl, hself⟩

theorem onlyModulesListThemselves_iff : (empty.run rs).OnlyModulesListThemselves ↔
    ∀ a e, (empty.run rs).get? a = some e → SelfListed rs a → e.isModule = true := by
  constructor
  · intro h a e ha hself
    obtain ⟨scope, n, hscope, hentry⟩ := (selfListed_iff_entry ha).2 hself
    exact h a e scope n ha hscope hentry
  · intro h a e scope n ha hscope hentry
    exact h a e ha ((selfListed_iff_entry ha).1 ⟨scope, n, hscope, hentry⟩)

/-- The requests that the predeclared environment is made by. -/
def predeclaring : List Request :=
  [.createModule Predeclared.systemName none, .insert ⟨0⟩ ⟨0⟩,
    .createType Predeclared.integerName (some ⟨0⟩) Predeclared.integerRepresentation]

theorem run_predeclaring : empty.run predeclaring = Predeclared.standard.table := by
  with_unfolding_all rfl

/-- Requests list a declaration in itself if it has a scope that is free for it, whether it is a
module or a procedure, and so only modules list themselves exactly if the requests that list a
declaration in itself are about modules. The predeclared table is made by such requests. -/
theorem selfListing_run (rs : List Request) :
    (∀ a e, (empty.run rs).get? a = some e → SelfListing rs a e) ∧
    ((empty.run rs).OnlyModulesListThemselves ↔
      ∀ a e, (empty.run rs).get? a = some e → SelfListed rs a → e.isModule = true) ∧
    Predeclared.standard.table.run rs = empty.run (predeclaring ++ rs) := by
  refine ⟨fun a e ha => selfListing ha, onlyModulesListThemselves_iff, ?_⟩
  rw [run_append, run_predeclaring]

/-- A procedure is listed in itself, which leaves no room for a variable of its name. -/
theorem procedure_lists_itself :
    let rs : List Request := [.createModule "M" none, .createProcedure "P" (some ⟨0⟩) true none,
      .insert ⟨1⟩ ⟨1⟩]
    ¬(empty.run rs).OnlyModulesListThemselves ∧
      (empty.run rs).createVariable "P" (some ⟨1⟩) none false true =
        .error (.diagnostic (.duplicateName "P" "P")) := by
  intro rs
  have hP : (empty.run rs).get? ⟨1⟩ =
      some ⟨"P", some ⟨0⟩, .procedure ⟨[("P", ⟨1⟩)]⟩ true none⟩ := by decide +kernel
  have hlisted : (empty.run rs).listing ⟨1⟩ "P" = some ⟨1⟩ := by decide +kernel
  have htaken : (empty.run rs).attach "P" ⟨1⟩ (.var none false true) =
      .error (.diagnostic (.duplicateName "P" "P")) :=
    attach_of_listing_some (bare?_eq_some_iff.2 ⟨_, hP, rfl⟩) hlisted
  refine ⟨fun h => ?_, htaken⟩
  cases h _ _ _ "P" hP rfl (List.mem_singleton.2 rfl)

end ModuleCompiler.Table
