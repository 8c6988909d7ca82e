/-
  Growth of a table. `t.GrowsTo t'` says that the declarations of `t` are in `t'` under the
  same ids, whatever their scopes list by now, and `t.Extends t'` that these list no less than
  they did, as after every run (`extends_run`). What a declaration is called in the output and
  how a type is written there are settled once they are known (`GrowsTo.linkageName`,
  `GrowsTo.representation`). An accepted creation makes one declaration (`Gains`).
-/
import ModuleCompiler.Proofs.Decl.Answer

namespace ModuleCompiler

/-- The declaration is a procedure. -/
def Decl.isProcedure (d : Decl) : Bool :=
  d.kind matches .procedure ..

namespace Table

variable {t t' t'' : Table} {id : DeclId}

/-- All declarations of `t` are in `t'`, with the same names, parents and kinds. -/
structure GrowsTo (t t' : Table) : Prop where
  size_le : t.size ≤ t'.size
  bare?_eq : ∀ id : DeclId, id.index < t.size → t'.bare? id = t.bare? id

theorem GrowsTo.refl (t : Table) : t.GrowsTo t := ⟨Nat.le_refl _, fun _ _ => rfl⟩

theorem GrowsTo.trans (h : t.GrowsTo t') (h' : t'.GrowsTo t'') : t.GrowsTo t'' where
  size_le := Nat.le_trans h.size_le h'.size_le
  bare?_eq id hid := by
    have hid' : id.index < t'.size := Nat.lt_of_lt_of_le hid h.size_le
    rw [h'.bare?_eq id hid', h.bare?_eq id hid]

/-- All declarations of `t` are in `t'`, and the scopes list all that they listed. -/
structure Extends (t t' : Table) : Prop extends GrowsTo t t' where
  listing : ∀ {id c : DeclId} {name : String},
    t.listing id name = some c → t'.listing id name = some c

theorem Extends.refl (t : Table) : t.Extends t := ⟨.refl t, id⟩

theorem Extends.trans (h : t.Extends t') (h' : t'.Extends t'') : t.Extends t'' :=
  ⟨h.toGrowsTo.trans h'.toGrowsTo, fun hc => h'.listing (h.listing hc)⟩

theorem Change.extends (h : Change t t') : t.Extends t' := by
  cases h with
  | root name =>
    have hsize := t.size_push ⟨name, none, .module .empty⟩ (t.parent_lt_of_root name)
    refine ⟨⟨by omega, fun id hid => ?_⟩, fun hc => ?_⟩
    · rw [bare?_push, if_neg (ne_next hid)]
    · rw [listing_push t _ (by rintro s ⟨⟩; rfl), hc]
  | @child name owner kind o scope ho hscope hfree hnew =>
    have hsize := t.size_grow name owner kind (lt_of_get? ho)
    refine ⟨⟨by omega, fun id hid => ?_⟩, fun hc => ?_⟩
    · rw [bare?_grow, if_neg (ne_next hid)]
    · rw [listing_grow ho hscope hfree hnew, if_neg, hc]
      rintro ⟨rfl, rfl⟩
      rw [listing_of_get? ho hscope, hfree] at hc
      cases hc
  | @listing owner child d o scope hd hmay ho hscope hfree =>
    have hsize := t.size_register owner d.name child
    refine ⟨⟨by omega, fun id hid => bare?_register t _ _ _ id⟩, fun hc => ?_⟩
    · rw [listing_register ho hscope hfree, if_neg, hc]
      rintro ⟨rfl, rfl⟩
      rw [listing_of_get? ho hscope, hfree] at hc
      cases hc

theorem extends_run (t : Table) (rs : List Request) : t.Extends (t.run rs) :=
  run_keeps (fun _ _ hchange h => h.trans hchange.extends) (.refl t) rs

/-! ## Names stay -/

theorem GrowsTo.parent (h : t.GrowsTo t') (hid : id.index < t.size) :
    t'.parent id = t.parent id := by
  rw [parent_eq, h.bare?_eq id hid, ← parent_eq]

theorem GrowsTo.ancestry (h : t.GrowsTo t') (hid : id.index < t.size) :
    t'.ancestry id = t.ancestry id :=
  ancestry_congr (fun _ hx => h.parent hx) hid

theorem mangleAlong_cons (t : Table) (id : DeclId) (outer : List DeclId) (suffix : String) :
    t.mangleAlong (id :: outer) suffix =
      match t.bare? id with
      | none => suffix
      | some b =>
        if b.isModule then b.name ++ "_" ++ suffix
        else t.mangleAlong outer (b.name ++ "_" ++ suffix) := by
  rw [mangleAlong, bare?]
  cases t.get? id with
  | none => rfl
  | some d =>
    simp only [Option.map_some, d.isModule_bare]
    rfl

theorem GrowsTo.mangleAlong (h : t.GrowsTo t') {walk : List DeclId}
    (hwalk : ∀ x ∈ walk, x.index < t.size) (suffix : String) :
    t'.mangleAlong walk suffix = t.mangleAlong walk suffix := by
  induction walk generalizing suffix with
  | nil => rfl
  | cons id outer ih =>
    obtain ⟨hid, houter⟩ := List.forall_mem_cons.1 hwalk
    rw [mangleAlong_cons, mangleAlong_cons, h.bare?_eq id hid]
    cases t.bare? id with
    | none => rfl
    | some b => simp only [ih houter]

theorem namesAlong_cons (t : Table) (id : DeclId) (outer : List DeclId) :
    t.namesAlong (id :: outer) =
      t.namesAlong outer ++ ((t.bare? id).map Decl.name).toList := by
  unfold namesAlong bare?
  rw [List.reverse_cons, List.filterMap_append, List.filterMap_cons]
  cases t.get? id <;> rfl

theorem GrowsTo.namesAlong (h : t.GrowsTo t') {walk : List DeclId}
    (hwalk : ∀ x ∈ walk, x.index < t.size) : t'.namesAlong walk = t.namesAlong walk := by
  induction walk with
  | nil => rfl
  | cons id outer ih =>
    obtain ⟨hid, houter⟩ := List.forall_mem_cons.1 hwalk
    rw [namesAlong_cons, namesAlong_cons, ih houter, h.bare?_eq id hid]

theorem lt_of_mem_ancestry {x : DeclId} (hid : id.index < t.size) (hx : x ∈ t.ancestry id) :
    x.index < t.size :=
  Nat.lt_of_le_of_lt (le_of_mem_ancestry hx) hid

theorem decl_of_lt (hid : id.index < t.size) : ∃ d, t.decl id = .ok d :=
  ⟨_, decl_eq_ok_iff.2 (get?_eq_some_iff.2 ⟨hid, rfl⟩)⟩

theorem mangle_eq (hid : id.index < t.size) (suffix : String) :
    t.mangle id suffix = .ok (t.mangleAlong (t.ancestry id) suffix) := by
  obtain ⟨d, hd⟩ := decl_of_lt hid
  exact bind_eq_ok_iff.2 ⟨d, hd, rfl⟩

theorem path_eq (hid : id.index < t.size) : t.path id = .ok (t.pathText id) := by
  obtain ⟨d, hd⟩ := decl_of_lt hid
  exact bind_eq_ok_iff.2 ⟨d, hd, rfl⟩

theorem GrowsTo.mangle (h : t.GrowsTo t') (hid : id.index < t.size) (suffix : String) :
    t'.mangle id suffix = t.mangle id suffix := by
  have hid' : id.index < t'.size := Nat.lt_of_lt_of_le hid h.size_le
  rw [mangle_eq hid, mangle_eq hid', h.ancestry hid,
    h.mangleAlong fun x => lt_of_mem_ancestry hid]

theorem GrowsTo.path (h : t.GrowsTo t') (hid : id.index < t.size) : t'.path id = t.path id := by
  have hid' : id.index < t'.size := Nat.lt_of_lt_of_le hid h.size_le
  rw [path_eq hid, path_eq hid', pathText, pathText, h.ancestry hid,
    h.namesAlong fun x => lt_of_mem_ancestry hid]

/-- Every declaration has a linkage name. -/
theorem linkageName_eq {b : Decl} (hb : t.bare? id = some b) :
    t.linkageName id = .ok (if b.isModule then b.name else
      (t.parent id).elim b.name fun p => t.mangleAlong (t.ancestry p) b.name) := by
  obtain ⟨d, hd, rfl⟩ := bare?_eq_some_iff.1 hb
  refine bind_eq_ok_iff.2 ⟨d, decl_eq_ok_iff.2 hd, ?_⟩
  rw [d.isModule_bare]
  by_cases hmodule : d.isModule
  · rw [if_pos hmodule, if_pos hmodule]
    rfl
  · rw [if_neg hmodule, if_neg hmodule]
    cases hp : t.parent id with
    | none => rfl
    | some p =>
      exact mangle_eq (Nat.lt_trans (lt_of_parent hp) (lt_of_get? hd)) d.name

theorem GrowsTo.linkageName (h : t.GrowsTo t') (hid : id.index < t.size) :
    t'.linkageName id = t.linkageName id := by
  obtain ⟨b, hb⟩ : ∃ b, t.bare? id = some b :=
    ⟨_, bare?_eq_some_iff.2 ⟨_, get?_eq_some_iff.2 ⟨hid, rfl⟩, rfl⟩⟩
  rw [linkageName_eq hb, linkageName_eq ((h.bare?_eq id hid).trans hb), h.parent hid]
  cases hp : t.parent id with
  | none => rfl
  | some p =>
    have hlt : p.index < t.size := Nat.lt_trans (lt_of_parent hp) hid
    rw [Option.elim_some, Option.elim_some, h.ancestry hlt,
      h.mangleAlong fun x => lt_of_mem_ancestry hlt]

theorem GrowsTo.representation (h : t.GrowsTo t') {type : Option DeclId}
    (htype : ∀ id, type = some id → id.index < t.size) :
    t'.representation type = t.representation type := by
  rw [representation_eq, representation_eq]
  cases type with
  | none => rfl
  | some id => rw [Option.bind_some, Option.bind_some, h.bare?_eq id (htype id rfl)]

/-! ## What an accepted request makes -/

/-- One more declaration, which has nothing in its scope. -/
structure Gains (t : Table) (b : Decl) (t' : Table) : Prop where
  size : t'.size = t.size + 1
  bare? : ∀ id, t'.bare? id = if id = t.next then some b else t.bare? id

theorem Gains.growsTo {b : Decl} (h : t.Gains b t') : t.GrowsTo t' where
  size_le := by rw [h.size]; omega
  bare?_eq id hid := by rw [h.bare?, if_neg (ne_next hid)]

theorem gains_of_create {d : Decl} {c : Created} (h : t.create d = .ok c) :
    c.id = t.next ∧ t.Gains d.bare c.table := by
  obtain ⟨hbare, rfl⟩ | ⟨owner, hparent, hatt⟩ := create_eq_ok h
  · rw [hbare]
    exact ⟨rfl, size_push t _ (t.parent_lt_of_root d.name),
      bare?_push t _ (t.parent_lt_of_root d.name)⟩
  · obtain ⟨o, scope, ho, -, -, rfl⟩ := attach_eq_ok_iff.1 hatt
    have hbare := bare?_grow t d.name owner d.kind.bare (lt_of_get? ho)
    rw [DeclKind.bare_bare, ← hparent] at hbare
    exact ⟨rfl, t.size_grow _ _ _ (lt_of_get? ho), hbare⟩

theorem gains_of_createModule {name : String} {parent : Option DeclId} {c : Created}
    (h : t.createModule name parent = .ok c) :
    c.id = t.next ∧ t.Gains ⟨name, parent, .module .empty⟩ c.table :=
  gains_of_create (d := ⟨name, parent, .module .empty⟩) h

theorem gains_of_createProcedure {name : String} {parent returns : Option DeclId}
    {exported : Bool} {c : Created}
    (h : t.createProcedure name parent exported returns = .ok c) :
    c.id = t.next ∧ t.Gains ⟨name, parent, .procedure .empty exported returns⟩ c.table :=
  gains_of_create (d := ⟨name, parent, .procedure .empty exported returns⟩) h

/-! ## Procedures -/

/-- The procedures from the id `n` on, in the order of their ids. -/
def proceduresFrom (t : Table) (n : Nat) : List DeclId :=
  ((List.range' n (t.size - n)).map DeclId.mk).filter fun id =>
    (t.bare? id).any Decl.isProcedure

theorem proceduresFrom_size (t : Table) : t.proceduresFrom t.size = [] := by
  rw [proceduresFrom, Nat.sub_self]
  rfl

theorem mem_proceduresFrom {n : Nat} :
    id ∈ t.proceduresFrom n ↔ n ≤ id.index ∧ ∃ b, t.bare? id = some b ∧ b.isProcedure := by
  unfold proceduresFrom
  rw [List.mem_filter, List.mem_map, Option.any_eq_true]
  constructor
  · intro h
    obtain ⟨⟨i, hi, rfl⟩, hb⟩ := h
    exact ⟨(List.mem_range'_1.1 hi).1, hb⟩
  · intro h
    obtain ⟨hn, b, hb, hproc⟩ := h
    obtain ⟨d, hd, -⟩ := bare?_eq_some_iff.1 hb
    have hlt := lt_of_get? hd
    exact ⟨⟨id.index, List.mem_range'_1.2 (by omega), rfl⟩, b, hb, hproc⟩

theorem GrowsTo.proceduresFrom (h : t.GrowsTo t') {n : Nat} (hn : n ≤ t.size) :
    t'.proceduresFrom n = t.proceduresFrom n ++ t'.proceduresFrom t.size := by
  have hle := h.size_le
  have hranges : List.range' n (t'.size - n) =
      List.range' n (t.size - n) ++ List.range' t.size (t'.size - t.size) := by
    have happend := List.range'_append_1 (s := n) (m := t.size - n) (n := t'.size - t.size)
    rw [show n + (t.size - n) = t.size by omega,
      show t.size - n + (t'.size - t.size) = t'.size - n by omega] at happend
    exact happend.symm
  unfold Table.proceduresFrom
  rw [hranges, List.map_append, List.filter_append]
  congr 1
  refine List.filter_congr fun id hid => ?_
  obtain ⟨i, hi, rfl⟩ := List.mem_map.1 hid
  have hlt := (List.mem_range'_1.1 hi).2
  have hi : i < t.size := by omega
  rw [h.bare?_eq ⟨i⟩ hi]

/-- A new declaration is a new procedure or none. -/
theorem Gains.proceduresFrom {b : Decl} (h : t.Gains b t') :
    t'.proceduresFrom t.size = if b.isProcedure then [t.next] else [] := by
  have hnext : t'.bare? t.next = some b := by rw [h.bare?, if_pos rfl]
  have hone : (List.range' t.size (t'.size - t.size)).map DeclId.mk = [t.next] := by
    rw [h.size, Nat.add_sub_cancel_left]
    rfl
  rw [Table.proceduresFrom, hone, List.filter_cons, hnext, List.filter_nil]
  rfl

end Table

end ModuleCompiler
