/-
  What growth leaves as it was. A declaration keeps its name, parent and kind, and with them
  all that is derived from these, such as its linkage name (`Keeps`). A name that is looked up
  may come to stand for something else, but only by capture: a nearer scope has come to list
  it (`CapturedBy`). For a new declaration this is so below its parent, up to the first scope
  that has the name (`Captures`).
-/
import ModuleCompiler.Proofs.Decl.Resolution

namespace ModuleCompiler.Table

variable {t t' : Table} {s c : DeclId} {n : String} {d o : Decl}

/-- The declaration is in `t'` what it was in `t`, and it is called the same. -/
structure Keeps (t : Table) (id : DeclId) (t' : Table) : Prop where
  decl : ∃ d d', t.get? id = some d ∧ t'.get? id = some d' ∧
    d'.name = d.name ∧ d'.parent = d.parent ∧ d'.kind.bare = d.kind.bare
  mangle : ∀ suffix, t'.mangle id suffix = t.mangle id suffix
  linkageName : t'.linkageName id = t.linkageName id
  path : t'.path id = t.path id
  representation : t'.representation (some id) = t.representation (some id)

/-- The name is listed in `t'`, and was not in `t`, by a scope around `s`, and in `t'` by no
nearer one. -/
def CapturedBy (t t' : Table) (s : DeclId) (n : String) (c : DeclId) : Prop :=
  ∃ p, t.Within s p ∧ t.listing p n = none ∧ t'.listing p n = some c ∧
    ∀ q, t.Within s q → t.Inside q p → t'.listing q n = none

/-- The declaration `d` would be found from `s`: its parent is `s` or encloses it, and below the
parent no scope around `s` lists the name. -/
def Captures (t : Table) (d : Decl) (s : DeclId) : Prop :=
  ∃ p, d.parent = some p ∧ t.Within s p ∧
    ∀ q, t.Within s q → t.Inside q p → t.listing q d.name = none

/-- The declarations of `t` are in `t'` what they were, and what is found from them is the same
unless it is captured. -/
structure Preserves (t t' : Table) : Prop where
  keeps : ∀ id : DeclId, id.index < t.size → t.Keeps id t'
  captured : ∀ s o n c, t.get? s = some o → o.Encloses → t.CapturedBy t' s n c →
    t'.lookup s n = .ok (some c)
  otherwise : ∀ s o n, t.get? s = some o → o.Encloses → (∀ c, ¬t.CapturedBy t' s n c) →
    t'.lookup s n = t.lookup s n

/-! ## Declarations -/

theorem GrowsTo.get? (h : t.GrowsTo t') {id : DeclId} (hd : t.get? id = some d) :
    ∃ d', t'.get? id = some d' ∧ d'.bare = d.bare := by
  have hbare : t.bare? id = some d.bare := bare?_eq_some_iff.2 ⟨d, hd, rfl⟩
  exact bare?_eq_some_iff.1 ((h.bare?_eq id (lt_of_get? hd)).trans hbare)

theorem GrowsTo.keeps (h : t.GrowsTo t') {id : DeclId} (hid : id.index < t.size) :
    t.Keeps id t' where
  decl := by
    have hd : t.get? id = some _ := get?_eq_some_iff.2 ⟨hid, rfl⟩
    obtain ⟨d', hd', hbare⟩ := h.get? hd
    exact ⟨_, d', hd, hd', Decl.bare_eq_bare_iff.1 hbare⟩
  mangle := h.mangle hid
  linkageName := h.linkageName hid
  path := h.path hid
  representation := h.representation (by rintro x ⟨⟩; exact hid)

/-! ## Looking up -/

theorem Extends.listing_none (h : t.Extends t') {id : DeclId}
    (hnone : t'.listing id n = none) : t.listing id n = none := by
  cases hc : t.listing id n with
  | none => rfl
  | some c =>
    rw [h.listing hc] at hnone
    cases hnone

/-- In the grown table a name is searched along the same walk. -/
theorem Extends.lookup_eq (h : t.Extends t') (ht' : t'.Registered) (hs : t.get? s = some o)
    (henc : o.Encloses) (n : String) :
    t'.lookup s n = .ok ((t.ancestry s).findSome? (t'.listing · n)) := by
  obtain ⟨o', hs', hbare⟩ := h.toGrowsTo.get? hs
  rw [ht'.lookup_eq hs' (Decl.encloses_of_bare hbare henc), h.toGrowsTo.ancestry (lt_of_get? hs)]

theorem findSome?_of_capturedBy (h : t.CapturedBy t' s n c) :
    (t.ancestry s).findSome? (t'.listing · n) = some c := by
  obtain ⟨p, hwithin, -, hfound, hbelow⟩ := h
  exact findSome?_ancestry_eq_some_iff.2 ⟨p, hwithin, hfound, hbelow⟩

/-- What is found in the grown table and is no capture was listed where it is found. -/
theorem Extends.findSome?_of_not_capturedBy (h : t.Extends t')
    (hnot : ∀ c, ¬t.CapturedBy t' s n c) :
    (t.ancestry s).findSome? (t'.listing · n) = (t.ancestry s).findSome? (t.listing · n) := by
  cases hfound : (t.ancestry s).findSome? (t'.listing · n) with
  | none =>
    have hnone := findSome?_ancestry_eq_none_iff.1 hfound
    exact (findSome?_ancestry_eq_none_iff.2 fun a ha => h.listing_none (hnone a ha)).symm
  | some c =>
    obtain ⟨p, hwithin, hp, hbelow⟩ := findSome?_ancestry_eq_some_iff.1 hfound
    have hold : t.listing p n = some c := by
      cases hpn : t.listing p n with
      | none => exact absurd ⟨p, hwithin, hpn, hp, hbelow⟩ (hnot c)
      | some c' => rw [← h.listing hpn, hp]
    refine (findSome?_ancestry_eq_some_iff.2 ⟨p, hwithin, hold, fun q hq hlies => ?_⟩).symm
    exact h.listing_none (hbelow q hq hlies)

theorem Extends.preserves (h : t.Extends t') (ht : t.Registered) (ht' : t'.Registered) :
    t.Preserves t' where
  keeps _ hid := h.toGrowsTo.keeps hid
  captured s o n c hs henc hc := by
    rw [h.lookup_eq ht' hs henc, findSome?_of_capturedBy hc]
  otherwise s o n hs henc hnot := by
    rw [h.lookup_eq ht' hs henc, h.findSome?_of_not_capturedBy hnot, ht.lookup_eq hs henc]

theorem Registered.preserves_run (ht : t.Registered) (rs : List Request) :
    t.Preserves (t.run rs) :=
  (t.extends_run rs).preserves ht (registered_of_run ht rs)

/-! ## One new declaration -/

/-- A new declaration captures its own name and no other, from where it would be found. -/
theorem capturedBy_of_create {c : Created} (hc : t.create d = .ok c) {x : DeclId} :
    t.CapturedBy c.table s n x ↔ n = d.name ∧ x = c.id ∧ t.Captures d s := by
  obtain ⟨hfree, hlisting⟩ := listing_of_create hc
  obtain ⟨hid, -⟩ := creates_of_create hc
  constructor
  · intro h
    obtain ⟨p, hwithin, hnone, hfound, hbelow⟩ := h
    rw [hlisting, hnone] at hfound
    split at hfound
    · next hnew =>
      obtain ⟨hparent, rfl⟩ := hnew
      refine ⟨rfl, by rw [hid, ← Option.some.inj hfound], p, hparent, hwithin, fun q hq hlies => ?_⟩
      have hq := hbelow q hq hlies
      rw [hlisting] at hq
      split at hq
      · cases hq
      · exact hq
    · cases hfound
  · intro h
    obtain ⟨rfl, rfl, p, hparent, hwithin, hbelow⟩ := h
    refine ⟨p, hwithin, hfree p hparent, ?_, fun q hq hlies => ?_⟩
    · rw [hlisting, if_pos ⟨hparent, rfl⟩, hid]
    · rw [hlisting, if_neg, hbelow q hq hlies]
      rintro ⟨hqparent, -⟩
      cases hparent.symm.trans hqparent
      exact Nat.lt_irrefl _ hlies.lt

/-- A creation leaves every declaration as it was. From a scope its name is found to stand for
the new declaration if that captures it, and any other name stands for what it stood for; and
so on through every run. A table holds no more declarations than there were requests, so with fewer
than `2 ^ 32` of them none is refused for want of an id of 32 bits. -/
theorem create_preserves {rs : List Request} {c : Created}
    (hc : (empty.run rs).create d = .ok c) :
    (∀ id : DeclId, id.index < (empty.run rs).size → (empty.run rs).Keeps id c.table) ∧
    (∀ s o n, (empty.run rs).get? s = some o → o.Encloses →
      (n = d.name ∧ (empty.run rs).Captures d s → c.table.lookup s n = .ok (some c.id)) ∧
      (¬(n = d.name ∧ (empty.run rs).Captures d s) →
        c.table.lookup s n = (empty.run rs).lookup s n)) ∧
    ∀ later, (empty.run rs).Preserves ((empty.run rs).run later) ∧
      c.table.Preserves (c.table.run later) := by
  have ht : (empty.run rs).Registered := registered_of_run registered_empty rs
  have hchange := change_of_create hc
  have htable : c.table.Registered := ht.change hchange
  have hpreserves := hchange.extends.preserves ht htable
  refine ⟨hpreserves.keeps, fun s o n hs henc => ⟨fun h => ?_, fun h => ?_⟩, fun later => ?_⟩
  · exact hpreserves.captured s o n c.id hs henc ((capturedBy_of_create hc).2 ⟨h.1, rfl, h.2⟩)
  · refine hpreserves.otherwise s o n hs henc fun x hx => h ?_
    obtain ⟨hn, -, hcaptures⟩ := (capturedBy_of_create hc).1 hx
    exact ⟨hn, hcaptures⟩
  · exact ⟨ht.preserves_run later, htable.preserves_run later⟩

/-- A second `INTEGER`, in the module `M`, captures the name from within the procedure `P` of
that module. -/
theorem create_preserves_integer :
    let rs : List Request := [.createModule "SYSTEM" none,
      .createType "INTEGER" (some ⟨0⟩) "i32", .createModule "M" (some ⟨0⟩),
      .createProcedure "P" (some ⟨2⟩) true none]
    let d : Decl := ⟨"INTEGER", some ⟨2⟩, .type "i64"⟩
    ∃ c, (empty.run rs).create d = .ok c ∧
      (empty.run rs).lookup ⟨3⟩ "INTEGER" = .ok (some ⟨1⟩) ∧
      c.table.lookup ⟨3⟩ "INTEGER" = .ok (some c.id) ∧ (empty.run rs).Keeps ⟨3⟩ c.table := by
  intro rs d
  have hok : ((empty.run rs).create d).isOk = true := by decide +kernel
  cases hc : (empty.run rs).create d with
  | error fault =>
    rw [hc] at hok
    cases hok
  | ok c =>
    obtain ⟨hkeeps, hlookup, -⟩ := create_preserves hc
    have hs : (empty.run rs).get? ⟨3⟩ = some ⟨"P", some ⟨2⟩, .procedure .empty true none⟩ := by
      decide +kernel
    have hparent : (empty.run rs).parent ⟨3⟩ = some ⟨2⟩ := by decide +kernel
    have hcaptures : (empty.run rs).Captures d ⟨3⟩ := by
      refine ⟨⟨2⟩, rfl, .single hparent, fun q hq hlies => ?_⟩
      obtain rfl | hq := (within_iff_of_parent hparent).1 hq
      · decide +kernel
      · exact absurd hlies (not_inside_of_within hq)
    refine ⟨c, rfl, by decide +kernel, ?_, hkeeps ⟨3⟩ (by decide +kernel)⟩
    exact (hlookup ⟨3⟩ _ "INTEGER" hs (.inr ⟨_, _, _, rfl⟩)).1 ⟨rfl, hcaptures⟩

end ModuleCompiler.Table
