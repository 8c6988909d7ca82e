/-
  A table with one more module. `t.WithModule parent name rs t'` says that behind the
  declarations of `t` the table `t'` has a module and its routines, the scope of the module lists
  exactly these, and of the old declarations only the parent of the module has changed.

  * `WithModule.start`: an accepted module is one without routines.
  * `WithModule.extend`: an accepted procedure of the module is one more routine.
-/
import ModuleCompiler.Proofs.Decl.Growth
import ModuleCompiler.Proofs.Decl.Registration

namespace ModuleCompiler

/-- A routine of a module: its name, its return type, and the value that it returns. -/
structure Routine where
  name : String
  returns : Option DeclId
  value : Option Int32

theorem Decl.representation?_register (d : Decl) (name : String) (id : DeclId) :
    (d.register name id).representation? = d.representation? := by
  obtain ⟨_, _, _ | _ | _ | _⟩ := d <;> rfl

namespace Table

variable {t t' : Table} {parent : Option DeclId} {name : String} {rs : List Routine}

/-- The id of the routine with the given number in a module that stands behind `t`. -/
def routineId (t : Table) (i : Nat) : DeclId := ⟨t.size + 1 + i⟩

/-- Behind the declarations of `t` there are a module and its routines, and nothing else. -/
structure WithModule (t : Table) (parent : Option DeclId) (name : String) (rs : List Routine)
    (t' : Table) : Prop where
  size : t'.size = t.size + 1 + rs.length
  /-- The name was free in the scope of the parent. -/
  free : ∀ p, parent = some p →
    ∃ o scope, t.get? p = some o ∧ o.scope? = some scope ∧ scope.find? name = none
  /-- The parent lists the module now, and every other declaration is as it was. -/
  old : ∀ id : DeclId, id.index < t.size → t'.get? id =
    if parent = some id then (t.get? id).map (·.register name t.next) else t.get? id
  /-- The module lists each of its routines once, and nothing else. -/
  module : ∃ scope, t'.get? t.next = some ⟨name, parent, .module scope⟩ ∧
    scope.entries.Perm (rs.mapIdx fun i r => (r.name, t.routineId i))
  routine : ∀ i r, rs[i]? = some r →
    t'.get? (t.routineId i) = some ⟨r.name, some t.next, .procedure .empty true r.returns⟩

theorem WithModule.start {c : Created} (h : t.createModule name parent = .ok c) :
    c.id = t.next ∧ t.WithModule parent name [] c.table := by
  cases parent with
  | none =>
    cases h
    refine ⟨rfl, ?_, by simp, ?_, ⟨.empty, ?_, .refl _⟩, by simp⟩
    · exact size_push t _ (t.parent_lt_of_root name)
    · intro id hid
      exact get?_push_of_lt (h := t.parent_lt_of_root name) hid
    · exact (get?_push t _ (t.parent_lt_of_root name) _).trans (if_pos rfl)
  | some owner =>
    obtain ⟨o, scope, ho, hscope, hfree, rfl⟩ := attach_eq_ok_iff.1 h
    have hlt := lt_of_get? ho
    refine ⟨rfl, t.size_grow _ _ _ hlt, ?_, ?_, ⟨.empty, ?_, .refl _⟩, by simp⟩
    · intro p hp
      cases hp
      exact ⟨o, scope, ho, hscope, hfree⟩
    · intro id hid
      rw [grow, get?_register, get?_push_of_lt hid]
      simp only [Option.some.injEq]
    · rw [grow, get?_register, if_neg (ne_next hlt), get?_push, if_pos rfl]

theorem WithModule.bare?_next (h : t.WithModule parent name rs t') :
    t'.bare? t.next = some ⟨name, parent, .module .empty⟩ := by
  obtain ⟨scope, hmodule, -⟩ := h.module
  rw [bare?, hmodule]
  rfl

/-- The types of the table are the ones that it had before. -/
theorem WithModule.type (h : t.WithModule parent name rs t') {id : DeclId} {d : Decl}
    {representation : String} (hd : t'.get? id = some d)
    (hrep : d.representation? = some representation) :
    ∃ o, t.get? id = some o ∧ o.representation? = some representation := by
  obtain hlt | heq | hgt := Nat.lt_trichotomy id.index t.size
  · rw [h.old id hlt] at hd
    split at hd
    · obtain ⟨o, ho, rfl⟩ := Option.map_eq_some_iff.1 hd
      rw [Decl.representation?_register] at hrep
      exact ⟨o, ho, hrep⟩
    · exact ⟨d, hd, hrep⟩
  · obtain ⟨scope, hmodule, -⟩ := h.module
    have hnext : id = t.next := DeclId.ext heq
    rw [hnext, hmodule] at hd
    cases hd
    cases hrep
  · have hsize := h.size
    have hlt := lt_of_get? hd
    have hi : id.index - (t.size + 1) < rs.length := by omega
    have hid : id = t.routineId (id.index - (t.size + 1)) := by
      refine DeclId.ext ?_
      show id.index = t.size + 1 + (id.index - (t.size + 1))
      omega
    rw [hid, h.routine _ _ (List.getElem?_eq_getElem hi)] at hd
    cases hd
    cases hrep

/-- The next routine: its id follows on the ones before, and the module lists it. -/
theorem WithModule.extend (h : t.WithModule parent name rs t') {r : Routine} {exported : Bool}
    {c : Created}
    (hc : t'.createProcedure r.name (some t.next) exported r.returns = .ok c) :
    t.WithModule parent name (rs ++ [r]) c.table ∧
      c.table.linkageName c.id = .ok (name ++ "_" ++ r.name) := by
  obtain ⟨rfl, owner, howner, hatt⟩ := createProcedure_eq_ok hc
  cases howner
  obtain ⟨hid, hgains⟩ := gains_of_createProcedure hc
  obtain ⟨o, scope, ho, hscope, -, rfl⟩ := attach_eq_ok_iff.1 hatt
  have hnext : t'.next = t.routineId rs.length := DeclId.ext h.size
  have hold : ∀ id : DeclId, id.index < t'.size → id ≠ t.next →
      (t'.grow r.name t.next (.procedure .empty true r.returns) (lt_of_get? ho)).get? id =
        t'.get? id := by
    intro id hlt hne
    rw [grow, get?_register, if_neg (Ne.symm hne), get?_push_of_lt hlt]
  refine ⟨⟨?_, h.free, ?_, ?_, ?_⟩, ?_⟩
  · rw [hgains.size, h.size, List.length_append]
    rfl
  · intro id hlt
    have hsize := h.size
    rw [hold id (by omega) (ne_next hlt), h.old id hlt]
  · obtain ⟨listed, hmodule, hentries⟩ := h.module
    cases ho.symm.trans hmodule
    refine ⟨listed.insert r.name t'.next, ?_, ?_⟩
    · rw [grow, get?_register, if_pos rfl, get?_push_of_lt (lt_of_get? ho), ho]
      rfl
    · rw [List.mapIdx_concat, ← hnext]
      exact (Scope.place_perm _ _ _).trans <|
        (hentries.cons _).trans (List.perm_append_singleton ..).symm
  · intro i q hq
    have hsize := h.size
    rw [List.getElem?_append] at hq
    split at hq
    · next hlt =>
      have hlt' : (t.routineId i).index < t'.size := by
        show t.size + 1 + i < t'.size
        omega
      have hne : t.routineId i ≠ t.next := by
        intro heq
        have hindex : t.size + 1 + i = t.size := congrArg DeclId.index heq
        omega
      rw [hold _ hlt' hne, h.routine i q hq]
    · next hge =>
      rw [List.getElem?_singleton] at hq
      split at hq
      · next hzero =>
        cases hq
        have hi : i = rs.length := by omega
        rw [hi, ← hnext, grow, get?_register, if_neg (ne_next (lt_of_get? ho)), get?_push,
          if_pos rfl]
      · cases hq
  · refine linkageName_of_bare? (b := ⟨r.name, some t.next, .procedure .empty true r.returns⟩)
      (o := ⟨name, parent, .module .empty⟩) ?_ rfl rfl ?_ rfl
    · rw [hgains.bare?, if_pos hid]
    · rw [hgains.bare?, if_neg (ne_next (lt_of_get? ho)), h.bare?_next]

end Table

end ModuleCompiler
