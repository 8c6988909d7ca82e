/-
  When linkage names clash. `t.InModule id m names` says that `m` is the nearest module at or
  around the declaration `id`, and that `names` are the names from `m` down to it. The linkage
  name has underscores between these names (`InModule.linkageName`). A name has no underscore,
  or it is that of an initializer and begins with one, so the names can be read off the text
  they are joined to (`join_injective`). Within one module, names that lead to a declaration
  lead to no other (`Registered.eq_of_inModule`): only what is in different modules of one name
  can clash, at whatever depth.
-/
import ModuleCompiler.Parse.Module
import ModuleCompiler.Proofs.Decl.Growth
import ModuleCompiler.Proofs.Decl.Registration
import ModuleCompiler.Proofs.Token.Spelling

namespace ModuleCompiler

/-! ## Joined names -/

/-- A word, or the name of initializers. -/
def PlainName (name : String) : Prop :=
  Token.IsWord name.toList ∨ name = Parse.initName

instance : DecidablePred PlainName := fun _ => inferInstanceAs (Decidable (_ ∨ _))

/-- What stands between the underscores of a name. -/
def segments (name : String) : List String :=
  if name = Parse.initName then ["", "init"] else [name]

theorem segments_ne_nil (name : String) : segments name ≠ [] := by
  unfold segments
  split <;> simp

theorem join_segments (name : String) : "_".intercalate (segments name) = name := by
  unfold segments
  split
  · next h =>
    rw [h]
    rfl
  · exact String.intercalate_singleton

theorem join_flatMap_segments (names : List String) :
    "_".intercalate (names.flatMap segments) = "_".intercalate names := by
  induction names with
  | nil => rfl
  | cons name names ih =>
    rw [List.flatMap_cons]
    by_cases hnil : names = []
    · rw [hnil, List.flatMap_nil, List.append_nil, join_segments, String.intercalate_singleton]
    · have hrest : names.flatMap segments ≠ [] := by
        obtain ⟨n, hn⟩ := List.exists_mem_of_ne_nil names hnil
        intro hempty
        exact segments_ne_nil n (List.flatMap_eq_nil_iff.1 hempty n hn)
      rw [String.intercalate_append_of_ne_nil (segments_ne_nil name) hrest, ih, join_segments,
        String.intercalate_cons_of_ne_nil hnil]

theorem PlainName.not_mem_segments {name : String} (h : PlainName name) :
    ∀ s ∈ segments name, '_' ∉ s.toList := by
  unfold segments
  split
  · decide
  · next hne =>
    intro s hs
    rw [List.mem_singleton.1 hs]
    exact (h.resolve_right hne).not_mem (by decide)

theorem PlainName.ne_empty {name : String} (h : PlainName name) : name ≠ "" := by
  rintro rfl
  revert h
  decide

/-- Names are told apart from the front: an empty segment opens the name of an initializer. -/
theorem segments_append_inj {n n' : String} {rest rest' : List String} (h : PlainName n)
    (h' : PlainName n') (heq : segments n ++ rest = segments n' ++ rest') :
    n = n' ∧ rest = rest' := by
  unfold segments at heq
  split at heq <;> split at heq
  · next hn hn' =>
    rw [hn, hn']
    exact ⟨rfl, List.append_cancel_left heq⟩
  · next hn hn' =>
    have hempty : "" = n' := (List.cons.inj heq).1
    exact absurd hempty.symm h'.ne_empty
  · next hn hn' =>
    have hempty : n = "" := (List.cons.inj heq).1
    exact absurd hempty h.ne_empty
  · next hn hn' => exact List.cons.inj heq

theorem flatMap_segments_injective {names names' : List String}
    (h : ∀ n ∈ names, PlainName n) (h' : ∀ n ∈ names', PlainName n)
    (heq : names.flatMap segments = names'.flatMap segments) : names = names' := by
  induction names generalizing names' with
  | nil =>
    cases names' with
    | nil => rfl
    | cons n' ns' =>
      rw [List.flatMap_cons, eq_comm] at heq
      exact absurd (List.append_eq_nil_iff.1 heq).1 (segments_ne_nil n')
  | cons n ns ih =>
    cases names' with
    | nil =>
      rw [List.flatMap_cons] at heq
      exact absurd (List.append_eq_nil_iff.1 heq).1 (segments_ne_nil n)
    | cons n' ns' =>
      obtain ⟨hn, hns⟩ := List.forall_mem_cons.1 h
      obtain ⟨hn', hns'⟩ := List.forall_mem_cons.1 h'
      rw [List.flatMap_cons, List.flatMap_cons] at heq
      obtain ⟨rfl, hrest⟩ := segments_append_inj hn hn' heq
      rw [ih hns hns' hrest]

/-- The segments of joined names are what the joined text has between its underscores. -/
theorem splitOn_join {names : List String} (hne : names ≠ []) (h : ∀ n ∈ names, PlainName n) :
    ("_".intercalate names).toList.splitOn '_' = (names.flatMap segments).map String.toList := by
  have hmem : ∀ w ∈ (names.flatMap segments).map String.toList, '_' ∉ w := by
    intro w hw
    obtain ⟨s, hs, rfl⟩ := List.mem_map.1 hw
    obtain ⟨n, hn, hs⟩ := List.mem_flatMap.1 hs
    exact (h n hn).not_mem_segments s hs
  have hnil : (names.flatMap segments).map String.toList ≠ [] := by
    obtain ⟨n, hn⟩ := List.exists_mem_of_ne_nil names hne
    intro hempty
    exact segments_ne_nil n (List.flatMap_eq_nil_iff.1 (List.map_eq_nil_iff.1 hempty) n hn)
  rw [← join_flatMap_segments, String.toList_intercalate]
  exact List.splitOn_intercalate '_' hmem hnil

theorem join_injective {names names' : List String} (hne : names ≠ []) (hne' : names' ≠ [])
    (h : ∀ n ∈ names, PlainName n) (h' : ∀ n ∈ names', PlainName n)
    (heq : "_".intercalate names = "_".intercalate names') : names = names' := by
  refine flatMap_segments_injective h h' ?_
  have hsplit := splitOn_join hne h
  rw [heq, splitOn_join hne' h'] at hsplit
  exact ((List.map_inj_right fun _ _ => String.toList_injective).1 hsplit).symm

namespace Table

variable {t : Table} {id m : DeclId} {names : List String}

/-- `m` is the nearest module at or around `id`, and the names lead from `m` down to it. -/
inductive InModule (t : Table) : DeclId → DeclId → List String → Prop where
  | module {m : DeclId} {d : Decl} :
      t.get? m = some d → d.isModule = true → InModule t m m [d.name]
  | inside {id p m : DeclId} {d : Decl} {names : List String} :
      t.get? id = some d → d.isModule = false → d.parent = some p → InModule t p m names →
      InModule t id m (names ++ [d.name])

theorem InModule.names_ne_nil (h : t.InModule id m names) : names ≠ [] := by
  cases h <;> simp

/-- The names begin with that of the module. -/
theorem InModule.head_names (h : t.InModule id m names) :
    ∃ e, t.get? m = some e ∧ names.head? = some e.name := by
  induction h with
  | module hd _ => exact ⟨_, hd, rfl⟩
  | inside _ _ _ hin ih =>
    obtain ⟨e, he, hhead⟩ := ih
    exact ⟨e, he, by rw [List.head?_append, hhead]; rfl⟩

theorem InModule.plainNames (h : t.InModule id m names)
    (hplain : ∀ d ∈ t.decls, PlainName d.name) : ∀ n ∈ names, PlainName n := by
  have hname : ∀ {x : DeclId} {d : Decl}, t.get? x = some d → PlainName d.name :=
    fun hd => hplain _ (Array.mem_of_getElem? hd)
  induction h with
  | module hd _ =>
    intro n hn
    rw [List.mem_singleton.1 hn]
    exact hname hd
  | inside hd _ _ _ ih =>
    intro n hn
    obtain hn | hn := List.mem_append.1 hn
    · exact ih n hn
    · rw [List.mem_singleton.1 hn]
      exact hname hd

theorem Registered.exists_inModule (ht : t.Registered) {d : Decl} (hd : t.get? id = some d) :
    ∃ m names, t.InModule id m names := by
  -- outward from a declaration that is no module there is always a parent
  induction hn : id.index using Nat.strongRecOn generalizing id d with
  | ind n ih =>
    cases hmodule : d.isModule with
    | true => exact ⟨id, _, .module hd hmodule⟩
    | false =>
      cases hp : d.parent with
      | none =>
        rw [ht.isModule_of_root hd hp] at hmodule
        cases hmodule
      | some p =>
        have hstep : t.parent id = some p := (parent_of_get? hd).trans hp
        obtain ⟨-, o, ho, -⟩ := ht.oneTree.parent_encloses id d p hd hp
        obtain ⟨m, names, hin⟩ := ih p.index (hn ▸ lt_of_parent hstep) ho rfl
        exact ⟨m, _, .inside hd hmodule hp hin⟩

/-- In one module, names lead to one declaration at most. -/
theorem Registered.eq_of_inModule (ht : t.Registered) {a b n : DeclId} {names' : List String}
    (ha : t.InModule a m names) (hb : t.InModule b n names') (hmodules : m = n)
    (hnames : names = names') : a = b := by
  induction ha generalizing b names' with
  | module hd hmodule =>
    cases hb with
    | module => exact hmodules
    | inside _ _ _ hin =>
      -- one name leads to the module itself, and to a declaration in it lead more
      obtain ⟨hnil, -⟩ | ⟨-, hnil⟩ := List.append_eq_singleton_iff.1 hnames.symm
      · exact absurd hnil hin.names_ne_nil
      · cases hnil
  | @inside a p m d names hd hmodule hp hin ih =>
    cases hb with
    | module =>
      obtain ⟨hnil, -⟩ | ⟨-, hnil⟩ := List.append_eq_singleton_iff.1 hnames
      · exact absurd hnil hin.names_ne_nil
      · cases hnil
    | @inside _ q _ e _ he _ hq hin' =>
      obtain ⟨hrest, hname⟩ := List.append_singleton_inj.1 hnames
      obtain rfl : p = q := ih hin' hmodules hrest
      exact ht.oneTree.sibling a b d e p hd he hp hq hname

/-! ## Linkage names -/

theorem join_concat (names : List String) (name suffix : String) :
    "_".intercalate (names ++ [name ++ "_" ++ suffix]) =
      "_".intercalate (names ++ [name] ++ [suffix]) := by
  by_cases hnil : names = []
  · rw [hnil]
    simp
  · rw [List.append_assoc, String.intercalate_append_of_ne_nil hnil (by simp),
      String.intercalate_append_of_ne_nil hnil (by simp)]
    simp

theorem InModule.mangleAlong (h : t.InModule id m names) (suffix : String) :
    t.mangleAlong (t.ancestry id) suffix = "_".intercalate (names ++ [suffix]) := by
  induction h generalizing suffix with
  | @module m d hd hmodule =>
    obtain ⟨outer, houter⟩ := t.head_ancestry m
    rw [houter, Table.mangleAlong, hd]
    simp [hmodule]
  | @inside id p m d names hd hmodule hp hin ih =>
    have hstep : t.parent id = some p := (parent_of_get? hd).trans hp
    rw [ancestry_of_parent hstep, Table.mangleAlong, hd]
    simp only [hmodule]
    rw [← join_concat, ← ih]
    rfl

/-- The linkage name of a declaration has the names from its module down to it. -/
theorem InModule.linkageName (h : t.InModule id m names) :
    t.linkageName id = .ok ("_".intercalate names) := by
  cases h with
  | @module m d hd hmodule =>
    rw [linkageName_eq (bare?_eq_some_iff.2 ⟨d, hd, rfl⟩), d.isModule_bare, if_pos hmodule]
    simp
    rfl
  | @inside id p m d names hd hmodule hp hin =>
    have hstep : t.parent id = some p := (parent_of_get? hd).trans hp
    rw [linkageName_eq (bare?_eq_some_iff.2 ⟨d, hd, rfl⟩), d.isModule_bare, hmodule, hstep]
    exact congrArg Except.ok (hin.mangleAlong d.name)

/-- Two declarations have one linkage name exactly if the same names lead to them in two modules
of one name. -/
theorem linkageName_clash_iff {rs : List Request}
    (hplain : ∀ d ∈ (empty.run rs).decls, PlainName d.name) {a b : DeclId} (hne : a ≠ b)
    (ha : a.index < (empty.run rs).size) (hb : b.index < (empty.run rs).size) :
    ∃ m e names n f names' x y,
      (empty.run rs).get? m = some e ∧ (empty.run rs).InModule a m names ∧
      (empty.run rs).get? n = some f ∧ (empty.run rs).InModule b n names' ∧
      (empty.run rs).linkageName a = .ok x ∧ (empty.run rs).linkageName b = .ok y ∧
      (x = y ↔ m ≠ n ∧ e.name = f.name ∧ names = names') ∧ (m = n → x ≠ y) := by
  have ht : (empty.run rs).Registered := registered_of_run registered_empty rs
  have hda : (empty.run rs).get? a = some _ := get?_eq_some_iff.2 ⟨ha, rfl⟩
  have hdb : (empty.run rs).get? b = some _ := get?_eq_some_iff.2 ⟨hb, rfl⟩
  obtain ⟨m, names, hina⟩ := ht.exists_inModule hda
  obtain ⟨n, names', hinb⟩ := ht.exists_inModule hdb
  obtain ⟨e, he, hhead⟩ := hina.head_names
  obtain ⟨f, hf, hhead'⟩ := hinb.head_names
  have hclash : "_".intercalate names = "_".intercalate names' ↔
      m ≠ n ∧ e.name = f.name ∧ names = names' := by
    constructor
    · intro heq
      have hsame : names = names' := join_injective hina.names_ne_nil hinb.names_ne_nil
        (hina.plainNames hplain) (hinb.plainNames hplain) heq
      refine ⟨fun hmodules => hne (ht.eq_of_inModule hina hinb hmodules hsame), ?_, hsame⟩
      rw [hsame, hhead'] at hhead
      exact (Option.some.inj hhead).symm
    · intro h
      rw [h.2.2]
  refine ⟨m, e, names, n, f, names', _, _, he, hina, hf, hinb, hina.linkageName,
    hinb.linkageName, hclash, fun hmodules heq => (hclash.1 heq).1 hmodules⟩

/-- Two modules `M`, each with a procedure `P`: `M_P` is there twice. -/
theorem linkageName_clash_twice :
    let rs : List Request := [.createModule "M" none, .createProcedure "P" (some ⟨0⟩) true none,
      .createProcedure "_init" (some ⟨0⟩) true none, .createModule "M" none,
      .createProcedure "P" (some ⟨3⟩) true none]
    (∀ d ∈ (empty.run rs).decls, PlainName d.name) ∧
      ∃ m n names, m ≠ n ∧ (empty.run rs).InModule ⟨1⟩ m names ∧
        (empty.run rs).InModule ⟨4⟩ n names ∧ (empty.run rs).linkageName ⟨1⟩ = .ok "M_P" := by
  intro rs
  have hplain : ∀ d ∈ (empty.run rs).decls, PlainName d.name := by decide +kernel
  have hone : (empty.run rs).linkageName ⟨1⟩ = .ok "M_P" := by decide +kernel
  have hfour : (empty.run rs).linkageName ⟨4⟩ = .ok "M_P" := by decide +kernel
  obtain ⟨m, e, names, n, f, names', x, y, -, hina, -, hinb, hx, hy, hclash, -⟩ :=
    linkageName_clash_iff (a := ⟨1⟩) (b := ⟨4⟩) hplain (by decide) (by decide +kernel)
      (by decide +kernel)
  cases hone.symm.trans hx
  cases hfour.symm.trans hy
  obtain ⟨hmodules, -, rfl⟩ := hclash.1 rfl
  exact ⟨hplain, m, n, names, hmodules, hina, hinb, hone⟩

end Table

end ModuleCompiler
