/-
  Paths as addresses. A path is read off the parents, from a declaration outward, and `follow` goes
  the other way: from a root module inward, name by name, through what the scopes list. On the
  names of a path it comes to the declaration that the path is of (`Registered.exists_chain`), even
  where modules list themselves: an entry for a module in its own scope leads inward to the module
  again, and no parent leads back. So paths are as good as the root modules that they begin in.
-/
import ModuleCompiler.Proofs.Decl.Growth
import ModuleCompiler.Proofs.Decl.Resolution
import Mathlib.Data.List.Chain

namespace ModuleCompiler

/-- Texts in which a character is not can be read off what it joins them to. -/
theorem intercalate_injective {c : Char} {names names' : List String} (hne : names ≠ [])
    (hne' : names' ≠ []) (h : ∀ n ∈ names, c ∉ n.toList) (h' : ∀ n ∈ names', c ∉ n.toList)
    (heq : (String.singleton c).intercalate names = (String.singleton c).intercalate names') :
    names = names' := by
  have hsplit : ∀ ns : List String, ns ≠ [] → (∀ n ∈ ns, c ∉ n.toList) →
      ((String.singleton c).intercalate ns).toList.splitOn c = ns.map String.toList := by
    intro ns hns hfree
    rw [String.toList_intercalate, String.toList_singleton]
    refine List.splitOn_intercalate c (fun w hw => ?_) (mt List.map_eq_nil_iff.1 hns)
    obtain ⟨n, hn, rfl⟩ := List.mem_map.1 hw
    exact hfree n hn
  have hmap := hsplit names hne h
  rw [heq, hsplit names' hne' h'] at hmap
  exact ((List.map_inj_right fun _ _ => String.toList_injective).1 hmap).symm

namespace Table

variable {t : Table} {id root : DeclId} {chain : List DeclId} {names : List String}

/-! ## Inward -/

/-- Goes to what a declaration lists under the first name, from there to what that lists under the
next name, and so on. -/
def follow (t : Table) (id : DeclId) : List String → Except Fault (Option DeclId)
  | [] => .ok (some id)
  | name :: names => do
    match ← t.lookupLocal id name with
    | some child => t.follow child names
    | none => return none

theorem follow_append {p : DeclId} (h : t.follow id names = .ok (some p)) (more : List String) :
    t.follow id (names ++ more) = t.follow p more := by
  induction names generalizing id with
  | nil =>
    cases h
    rfl
  | cons name names ih =>
    obtain ⟨found, hfound, hrest⟩ := bind_eq_ok_iff.1 h
    rw [List.cons_append, follow, hfound]
    cases found with
    | none => cases hrest
    | some child => exact ih hrest

/-! ## Chains -/

/-- The chain is from a root module to a declaration, each of it the parent of the next, and it has
the given names. -/
structure Chain (t : Table) (root id : DeclId) (chain : List DeclId) (names : List String) :
    Prop where
  outermost : ∃ r, t.get? root = some r ∧ r.parent = none ∧ r.isModule = true
  head : chain.head? = some root
  steps : chain.IsChain fun a b => t.parent b = some a
  last : chain.getLast? = some id
  names : chain.map (fun x => (t.get? x).map Decl.name) = names.map some

theorem Chain.names_ne_nil (h : t.Chain root id chain names) : names ≠ [] := by
  rintro rfl
  have hhead := h.head
  rw [List.map_eq_nil_iff.1 h.names] at hhead
  cases hhead

theorem Chain.head_names (h : t.Chain root id chain names) :
    ∃ r, t.get? root = some r ∧ names.head? = some r.name := by
  obtain ⟨r, hr, -⟩ := h.outermost
  have hhead := congrArg List.head? h.names
  rw [List.head?_map, List.head?_map, h.head, Option.map_some, hr, Option.map_some] at hhead
  obtain ⟨n, hn, heq⟩ := Option.map_eq_some_iff.1 hhead.symm
  exact ⟨r, hr, hn.trans heq⟩

theorem Chain.mem_names (h : t.Chain root id chain names) :
    ∀ n ∈ names, ∃ x d, t.get? x = some d ∧ d.name = n := by
  intro n hn
  have hmem : some n ∈ names.map some := List.mem_map_of_mem hn
  rw [← h.names] at hmem
  obtain ⟨x, -, hx⟩ := List.mem_map.1 hmem
  obtain ⟨d, hd, hname⟩ := Option.map_eq_some_iff.1 hx
  exact ⟨x, d, hd, hname⟩

theorem chain_root {r : Decl} (hr : t.get? root = some r) (hparent : r.parent = none)
    (hmodule : r.isModule = true) : t.Chain root root [root] [r.name] where
  outermost := ⟨r, hr, hparent, hmodule⟩
  head := rfl
  steps := .singleton _
  last := rfl
  names := by rw [List.map_singleton, hr]; rfl

theorem Chain.snoc {p : DeclId} {d : Decl} (h : t.Chain root p chain names)
    (hd : t.get? id = some d) (hp : d.parent = some p) :
    t.Chain root id (chain ++ [id]) (names ++ [d.name]) where
  outermost := h.outermost
  head := by rw [List.head?_append, h.head]; rfl
  steps := by
    refine List.isChain_append.2 ⟨h.steps, .singleton _, fun x hx y hy => ?_⟩
    cases h.last.symm.trans hx
    cases hy
    exact (parent_of_get? hd).trans hp
  last := List.getLast?_concat
  names := by rw [List.map_append, List.map_append, h.names, List.map_singleton, hd]; rfl

/-- To every declaration leads a chain, its names are those along the walk outward, and following
them inward leads to the declaration. -/
theorem Registered.exists_chain (ht : t.Registered) {d : Decl} (hd : t.get? id = some d) :
    ∃ root chain names, t.Chain root id chain names ∧ t.Within id root ∧
      t.namesAlong (t.ancestry id) = names ∧ t.follow root names.tail = .ok (some id) := by
  -- the chain to a declaration is the chain to its parent and one more step
  induction hn : id.index using Nat.strongRecOn generalizing id d with
  | ind n ih =>
    have hname : (t.bare? id).map Decl.name = some d.name := by
      rw [bare?, hd]
      rfl
    cases hp : d.parent with
    | none =>
      have hchain := chain_root hd hp (ht.isModule_of_root hd hp)
      refine ⟨id, [id], [d.name], hchain, .refl, ?_, rfl⟩
      rw [ancestry_of_root ((parent_of_get? hd).trans hp), namesAlong_cons, hname]
      rfl
    | some p =>
      have hstep : t.parent id = some p := (parent_of_get? hd).trans hp
      obtain ⟨-, o, ho, henc⟩ := ht.oneTree.parent_encloses id d p hd hp
      obtain ⟨root, chain, names, hchain, hwithin, hnames, hfollow⟩ :=
        ih p.index (hn ▸ lt_of_parent hstep) ho rfl
      refine ⟨root, chain ++ [id], names ++ [d.name], hchain.snoc hd hp, .head hstep hwithin,
        ?_, ?_⟩
      · rw [ancestry_of_parent hstep, namesAlong_cons, hnames, hname]
        rfl
      · rw [List.tail_append_of_ne_nil hchain.names_ne_nil, follow_append hfollow, follow,
          lookupLocal_eq ho henc, ht.listing_parent hd hp]
        rfl

/-- What is outermost is so alone. -/
theorem Within.root_unique {a b : DeclId} (ha : t.Within id a) (hb : t.Within id b)
    (hroota : t.parent a = none) (hrootb : t.parent b = none) : a = b := by
  have hunique : Relator.RightUnique fun x y => t.parent x = some y := by
    intro x y z hy hz
    exact Option.some.inj (hy.symm.trans hz)
  obtain h | h := Relation.ReflTransGen.total_of_right_unique hunique ha hb
  · exact (within_iff_of_root hroota).1 h
  · exact ((within_iff_of_root hrootb).1 h).symm

/-! ## Every table -/

/-- No declaration has a name with a dot in it. -/
def Dotless (t : Table) : Prop := ∀ id d, t.get? id = some d → '.' ∉ d.name.toList

/-- The path of a declaration is a way to it, and the only one from its root module. -/
structure FaithfulPaths (t : Table) : Prop where
  /-- The names of a path are those on a chain of declarations down from a root module, and
  following them from there leads to the declaration. -/
  address : ∀ id d, t.get? id = some d → ∃ root chain names, t.Chain root id chain names ∧
    t.path id = .ok (".".intercalate names) ∧ t.follow root names.tail = .ok (some id)
  /-- Within one root module, paths are different. -/
  distinct : t.Dotless → ∀ root x y, t.parent root = none → t.Within x root → t.Within y root →
    x.index < t.size → y.index < t.size → x ≠ y → t.path x ≠ t.path y
  /-- Paths are the same only in different root modules that have the same name. -/
  clash : t.Dotless → ∀ x y, x.index < t.size → y.index < t.size → x ≠ y → t.path x = t.path y →
    ∃ a b r s, t.Within x a ∧ t.Within y b ∧ t.get? a = some r ∧ t.get? b = some s ∧
      r.parent = none ∧ s.parent = none ∧ r.isModule = true ∧ s.isModule = true ∧
      a ≠ b ∧ r.name = s.name

/-- Equal paths have equal names on the chains, and from one root equal names lead to one
declaration. -/
theorem Registered.path_clash (ht : t.Registered) (hdot : t.Dotless) {x y : DeclId}
    (hx : x.index < t.size) (hy : y.index < t.size) (hne : x ≠ y) (hpath : t.path x = t.path y) :
    ∃ a b r s, t.Within x a ∧ t.Within y b ∧ t.get? a = some r ∧ t.get? b = some s ∧
      r.parent = none ∧ s.parent = none ∧ r.isModule = true ∧ s.isModule = true ∧
      a ≠ b ∧ r.name = s.name := by
  obtain ⟨a, chain, names, hchain, hwithin, hnames, hfollow⟩ :=
    ht.exists_chain (get?_eq_some_iff.2 ⟨hx, rfl⟩)
  obtain ⟨b, chain', names', hchain', hwithin', hnames', hfollow'⟩ :=
    ht.exists_chain (get?_eq_some_iff.2 ⟨hy, rfl⟩)
  have hfree : ∀ {a id : DeclId} {chain : List DeclId} {names : List String},
      t.Chain a id chain names → ∀ n ∈ names, '.' ∉ n.toList := by
    intro a id chain names h n hn
    obtain ⟨z, d, hd, rfl⟩ := h.mem_names n hn
    exact hdot z d hd
  rw [path_eq hx, path_eq hy, pathText, pathText, hnames, hnames'] at hpath
  obtain rfl : names = names' := intercalate_injective (c := '.') hchain.names_ne_nil
    hchain'.names_ne_nil (hfree hchain) (hfree hchain') (Except.ok.inj hpath)
  obtain ⟨r, hr, hroot, hmodule⟩ := hchain.outermost
  obtain ⟨s, hs, hroot', hmodule'⟩ := hchain'.outermost
  refine ⟨a, b, r, s, hwithin, hwithin', hr, hs, hroot, hroot', hmodule, hmodule', ?_, ?_⟩
  · rintro rfl
    rw [hfollow] at hfollow'
    exact hne (Option.some.inj (Except.ok.inj hfollow'))
  · obtain ⟨_, hr', hfirst⟩ := hchain.head_names
    obtain ⟨_, hs', hfirst'⟩ := hchain'.head_names
    cases hr.symm.trans hr'
    cases hs.symm.trans hs'
    exact Option.some.inj (hfirst.symm.trans hfirst')

/-- Whatever was requested, paths are faithful. -/
theorem path_run (rs : List Request) : (empty.run rs).FaithfulPaths := by
  have ht : (empty.run rs).Registered := registered_of_run registered_empty rs
  generalize empty.run rs = t at ht
  refine ⟨fun id d hd => ?_, fun hdot root x y hroot hx hy hxt hyt hne hpath => ?_,
    fun hdot x y => ht.path_clash hdot⟩
  · obtain ⟨root, chain, names, hchain, -, hnames, hfollow⟩ := ht.exists_chain hd
    refine ⟨root, chain, names, hchain, ?_, hfollow⟩
    rw [path_eq (lt_of_get? hd), pathText, hnames]
  · obtain ⟨a, b, r, s, ha, hb, hr, hs, hroota, hrootb, -, -, hab, -⟩ :=
      ht.path_clash hdot hxt hyt hne hpath
    have hparenta := (parent_of_get? hr).trans hroota
    have hparentb := (parent_of_get? hs).trans hrootb
    have hroots : a = root := ha.root_unique hx hparenta hroot
    have hroots' : b = root := hb.root_unique hy hparentb hroot
    exact hab (hroots.trans hroots'.symm)

/-- A module that lists itself is met again inward, and no path goes that way. -/
example :
    let t := empty.run [.createModule "SYSTEM" none, .insert ⟨0⟩ ⟨0⟩,
      .createType "INTEGER" (some ⟨0⟩) "i64"]
    t.path ⟨1⟩ = .ok "SYSTEM.INTEGER" ∧ t.follow ⟨0⟩ ["INTEGER"] = .ok (some ⟨1⟩) ∧
      t.follow ⟨0⟩ ["SYSTEM", "SYSTEM", "INTEGER"] = .ok (some ⟨1⟩) := by
  decide +kernel

end Table

end ModuleCompiler
