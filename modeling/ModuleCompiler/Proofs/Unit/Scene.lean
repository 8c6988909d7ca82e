/-
  The table while a unit is read. `Scene m earlier t` says that `t` has the predeclared
  module and type, the unit's module `m` and procedures of the `earlier` names in it.

  * `Scene.start`: the unit's module makes the first scene, unless its name is taken.
  * `Scene.addProcedure`: a procedure of a new name makes the next one.
  * `Scene.lookup_eq`: which names can be seen from within the module.
-/
import ModuleCompiler.Predeclared
import ModuleCompiler.Proofs.Decl.Answer

namespace ModuleCompiler

open Predeclared

def systemId : DeclId := ⟨0⟩

def integerId : DeclId := ⟨1⟩

def unitId : DeclId := ⟨2⟩

/-- The predeclared declarations, a unit's module, and procedures of the given names. -/
structure Scene (m : String) (earlier : List String) (t : Table) : Prop where
  free : m ≠ systemName ∧ m ≠ integerName
  system : t.bare? systemId = some ⟨systemName, none, .module .empty⟩
  integer : t.bare? integerId = some ⟨integerName, some systemId, .type integerRepresentation⟩
  module : t.bare? unitId = some ⟨m, some systemId, .module .empty⟩
  inSystem : ∀ n, t.listing systemId n =
    if n = integerName then some integerId else if n = systemName then some systemId
    else if n = m then some unitId else none
  listed : ∀ n ∈ earlier, ∃ c returns, t.listing unitId n = some c ∧
    t.bare? c = some ⟨n, some unitId, .procedure .empty true returns⟩
  unlisted : ∀ n, n ∉ earlier → t.listing unitId n = none

/-! ## The first scene -/

theorem bare?_standard :
    standard.table.bare? systemId = some ⟨systemName, none, .module .empty⟩ := rfl

theorem listing_standard (n : String) : standard.table.listing systemId n =
    if n = integerName then some integerId else if n = systemName then some systemId else none := by
  show List.lookup n [(integerName, integerId), (systemName, systemId)] = _
  rw [Scope.lookup_cons, Scope.lookup_cons]
  rfl

theorem Scene.start {m : String} (hsystem : m ≠ systemName) (hinteger : m ≠ integerName) :
    ∃ c, standard.table.createModule m (some standard.system) = .ok c ∧ c.id = unitId ∧
      Scene m [] c.table := by
  have hfree : standard.table.listing systemId m = none := by
    rw [listing_standard, if_neg hinteger, if_neg hsystem]
  obtain ⟨c, hc, hid, hbare, hlisting⟩ := Table.attach_of_listing_none m (.module .empty)
    bare?_standard rfl hfree (by rintro s ⟨⟩; rfl)
  refine ⟨c, hc, hid, ⟨hsystem, hinteger⟩, ?_, ?_, ?_, ?_, by simp, ?_⟩
  · rw [hbare]
    rfl
  · rw [hbare]
    rfl
  · rw [hbare]
    rfl
  · intro n
    rw [hlisting, listing_standard]
    by_cases hn : n = m
    · subst hn
      simp [hsystem, hinteger]
      rfl
    · simp [hn]
  · intro n _
    rw [hlisting, if_neg (by rintro ⟨h, -⟩; cases h)]
    rfl

theorem start_taken {m : String} (h : m = systemName ∨ m = integerName) :
    standard.table.createModule m (some standard.system) =
      .error (.diagnostic (.duplicateName m systemName)) := by
  have htaken : ∃ c, standard.table.listing systemId m = some c := by
    rw [listing_standard]
    rcases h with rfl | rfl
    · exact ⟨systemId, rfl⟩
    · exact ⟨integerId, rfl⟩
  obtain ⟨c, hc⟩ := htaken
  exact Table.attach_of_listing_some bare?_standard hc

namespace Scene

variable {m : String} {earlier : List String} {t : Table}

/-! ## What can be seen -/

theorem lookup_eq (h : Scene m earlier t) (n : String) :
    t.lookup unitId n = .ok ((t.listing unitId n).or (t.listing systemId n)) := by
  have hwalk : t.ancestry unitId = [unitId, systemId] := by
    rw [Table.ancestry_of_parent (Table.parent_of_bare? h.module),
      Table.ancestry_of_root (Table.parent_of_bare? h.system)]
  rw [Table.lookup_of_bare? h.module rfl, hwalk, Table.lookupAlong_cons_of_bare? h.module rfl,
    Table.lookupAlong_cons_of_bare? h.system rfl, Table.lookupAlong, Option.or_none]

theorem lookupLocal_system (h : Scene m earlier t) (n : String) :
    t.lookupLocal systemId n = .ok (t.listing systemId n) :=
  Table.lookupLocal_of_bare? h.system rfl n

theorem lookupLocal_module (h : Scene m earlier t) (n : String) :
    t.lookupLocal unitId n = .ok (t.listing unitId n) :=
  Table.lookupLocal_of_bare? h.module rfl n

theorem representation_integer (h : Scene m earlier t) :
    t.representation (some integerId) = integerRepresentation := by
  rw [Table.representation_eq, Option.bind_some, h.integer]
  rfl

/-! ## The next scene -/

theorem duplicate (h : Scene m earlier t) {name : String} (hname : name ∈ earlier)
    (returns : Option DeclId) : t.createProcedure name (some unitId) true returns =
      .error (.diagnostic (.duplicateName name m)) := by
  obtain ⟨c, _, hc, _⟩ := h.listed name hname
  exact Table.attach_of_listing_some h.module hc

theorem ne_next {id : DeclId} {b : Decl} (hb : t.bare? id = some b) : id ≠ t.next := by
  obtain ⟨d, hd, -⟩ := Table.bare?_eq_some_iff.1 hb
  exact Table.ne_next (Table.lt_of_get? hd)

theorem addProcedure (h : Scene m earlier t) {name : String} (hname : name ∉ earlier)
    (returns : Option DeclId) :
    ∃ c, t.createProcedure name (some unitId) true returns = .ok c ∧
      Scene m (earlier ++ [name]) c.table ∧ c.table.linkageName c.id = .ok (m ++ "_" ++ name) := by
  obtain ⟨c, hc, hid, hbare, hlisting⟩ :=
    Table.attach_of_listing_none name (.procedure .empty true returns) h.module rfl
      (h.unlisted name hname) (by rintro s ⟨⟩; rfl)
  have hold : ∀ {id b}, t.bare? id = some b → c.table.bare? id = some b := by
    intro id b hb
    rw [hbare, if_neg (ne_next hb), hb]
  have hnew : c.table.bare? c.id = some ⟨name, some unitId, .procedure .empty true returns⟩ := by
    rw [hbare, if_pos hid]
    rfl
  refine ⟨c, hc, ⟨h.free, hold h.system, hold h.integer, hold h.module, ?_, ?_, ?_⟩, ?_⟩
  · intro n
    rw [hlisting, if_neg (by rintro ⟨h, -⟩; cases h)]
    exact h.inSystem n
  · intro n hn
    rw [hlisting]
    by_cases heq : n = name
    · subst heq
      exact ⟨t.next, returns, if_pos ⟨rfl, rfl⟩, by rw [hbare, if_pos rfl]; rfl⟩
    · obtain hn | hn := List.mem_append.1 hn
      · obtain ⟨d, r, hd, hr⟩ := h.listed n hn
        exact ⟨d, r, by rw [if_neg fun hand => heq hand.2, hd], hold hr⟩
      · exact absurd (List.mem_singleton.1 hn) heq
  · intro n hn
    rw [List.mem_append, List.mem_singleton, not_or] at hn
    rw [hlisting, if_neg fun hand => hn.2 hand.2]
    exact h.unlisted n hn.1
  · exact Table.linkageName_of_bare? hnew rfl rfl (hold h.module) rfl

end Scene

end ModuleCompiler
