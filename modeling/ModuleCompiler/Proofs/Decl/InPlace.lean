/-
  Requests carried out in place. The operations of a table make a new one; here each write is
  done to the one table at hand, and what is written stays written when a later step fails. A
  creation makes the declaration before it lists it, so nothing here is undone.

  * `createInPlace_eq`, `insertInPlace`: the table is left as the operation has it, new on
    success and old on a fault.
  * `Creates`, `ListsItself`: all that an accepted request changes.
-/
import ModuleCompiler.Proofs.Decl.Registration

namespace ModuleCompiler

/-- The declaration with exactly one more entry in its scope, under a name that was free. -/
structure Decl.GainsEntry (d : Decl) (name : String) (id : DeclId) (d' : Decl) : Prop where
  bare : d'.bare = d.bare
  entries : ∃ scope scope', d.scope? = some scope ∧ d'.scope? = some scope' ∧
    scope.find? name = none ∧ scope'.entries.Perm ((name, id) :: scope.entries) ∧
    ∀ n, scope'.find? n = if n = name then some id else scope.find? n

theorem Decl.gainsEntry_register {d : Decl} {scope : Scope} {name : String}
    (hscope : d.scope? = some scope) (hfree : scope.find? name = none) (id : DeclId) :
    d.GainsEntry name id (d.register name id) where
  bare := d.bare_register name id
  entries := by
    have hscope' : (d.register name id).scope? = some (scope.insert name id) := by
      rw [d.scope?_register, hscope]
      rfl
    exact ⟨scope, _, hscope, hscope', hfree, Scope.place_perm name id scope.entries,
      Scope.find?_insert hfree⟩

namespace Table

variable {t : Table}

/-! ## What is changed -/

/-- The table `t'` has one more declaration, which its parent lists, and is otherwise `t`. -/
structure Creates (t : Table) (d : Decl) (t' : Table) : Prop where
  size : t'.size = t.size + 1
  new : t'.get? t.next = some d
  parent : ∀ p, d.parent = some p →
    ∃ o o', t.get? p = some o ∧ t'.get? p = some o' ∧ o.GainsEntry d.name t.next o'
  other : ∀ id, id ≠ t.next → d.parent ≠ some id → t'.get? id = t.get? id

/-- In the table `t'` the declaration lists itself, and it is otherwise `t`. -/
structure ListsItself (t : Table) (id : DeclId) (t' : Table) : Prop where
  size : t'.size = t.size
  self : ∃ d d', t.get? id = some d ∧ t'.get? id = some d' ∧ d.GainsEntry d.name id d'
  other : ∀ x, x ≠ id → t'.get? x = t.get? x

theorem creates_push (t : Table) (name : String) :
    t.Creates ⟨name, none, .module .empty⟩
      (t.push ⟨name, none, .module .empty⟩ (t.parent_lt_of_root name)) where
  size := t.size_push _ _
  new := (t.get?_push _ _ _).trans (if_pos rfl)
  parent p hp := by cases hp
  other id hid _ := (t.get?_push _ _ _).trans (if_neg hid)

theorem creates_grow {name : String} {owner : DeclId} {o : Decl} {scope : Scope} (kind : DeclKind)
    (ho : t.get? owner = some o) (hscope : o.scope? = some scope)
    (hfree : scope.find? name = none) :
    t.Creates ⟨name, some owner, kind⟩ (t.grow name owner kind (lt_of_get? ho)) := by
  have hlt := lt_of_get? ho
  have hne := ne_next hlt
  refine ⟨t.size_grow _ _ _ hlt, ?_, ?_, ?_⟩
  · rw [grow, get?_register, if_neg hne, get?_push, if_pos rfl]
  · intro p hp
    cases hp
    refine ⟨o, o.register name t.next, ho, ?_, Decl.gainsEntry_register hscope hfree t.next⟩
    rw [grow, get?_register, if_pos rfl, get?_push_of_lt hlt, ho]
    rfl
  · intro id hid hparent
    rw [grow, get?_register, if_neg fun heq => hparent (congrArg some heq), get?_push, if_neg hid]

theorem creates_of_create {d : Decl} {c : Created} (h : t.create d = .ok c) :
    c.id = t.next ∧ t.Creates d.bare c.table := by
  obtain ⟨hbare, rfl⟩ | ⟨owner, hparent, hatt⟩ := create_eq_ok h
  · rw [hbare]
    exact ⟨rfl, t.creates_push d.name⟩
  · obtain ⟨o, scope, ho, hscope, hfree, rfl⟩ := attach_eq_ok_iff.1 hatt
    have hbare : d.bare = ⟨d.name, some owner, d.kind.bare⟩ := by rw [Decl.bare, hparent]
    rw [hbare]
    exact ⟨rfl, creates_grow d.kind.bare ho hscope hfree⟩

/-- A declaration that is in the tree already is listed in its parent, so what can be listed is
listed in itself. -/
theorem Registered.insert_self (ht : t.Registered) {owner child : DeclId}
    {r : Table × List Event} (h : t.insert owner child = .ok r) :
    owner = child ∧ t.ListsItself owner r.1 := by
  obtain ⟨d, o, scope, hd, hmay, ho, hscope, hfree, rfl⟩ := insert_eq_ok_iff.1 h
  have hself : owner = child := by
    obtain hself | hparent := hmay
    · exact hself
    · have hlisted := ht.listing_parent hd hparent
      rw [listing_of_get? ho hscope, hfree] at hlisted
      cases hlisted
  subst hself
  cases ho.symm.trans hd
  refine ⟨rfl, t.size_register _ _ _, ⟨d, d.register d.name owner, hd, ?_, ?_⟩, ?_⟩
  · rw [get?_register, if_pos rfl, hd]
    rfl
  · exact Decl.gainsEntry_register hscope hfree owner
  · intro x hx
    rw [get?_register, if_neg (Ne.symm hx)]

/-! ## In place -/

/-- How an operation ends, and the table behind it: the new one, or the old one after a fault. -/
def leaving (t : Table) : Except Fault Created → Except Fault DeclId × Table
  | .ok c => (.ok c.id, c.table)
  | .error fault => (.error fault, t)

/-- A listing has one write, behind all its checks. -/
def insertInPlace (t : Table) (owner child : DeclId) : Except Fault Unit × Table :=
  match t.insert owner child with
  | .ok (listed, _) => (.ok (), listed)
  | .error fault => (.error fault, t)

/-- A creation inside another declaration: the new declaration is made first and then listed.
If that failed, it would be left in the table without being listed. -/
def attachInPlace (t : Table) (name : String) (owner : DeclId) (kind : DeclKind) :
    Except Fault DeclId × Table :=
  match h : t.insertable owner name with
  | .error fault => (.error fault, t)
  | .ok _ =>
    let made := t.push ⟨name, some owner, kind⟩ (parent_lt_of_insertable h)
    match made.insertInPlace owner t.next with
    | (.ok (), listed) => (.ok t.next, listed)
    | (.error fault, left) => (.error fault, left)

/-- A creation by the operation for the kind of the declaration. -/
def createInPlace (t : Table) (d : Decl) : Except Fault DeclId × Table :=
  match d.parent, d.kind with
  | none, .module _ => (.ok t.next, t.push ⟨d.name, none, .module .empty⟩ nofun)
  | none, kind => (.error (.diagnostic (.noParent kind.keyword d.name)), t)
  | some _, .procedure _ false _ => (.error (.diagnostic (.unsupportedUnexported d.name)), t)
  | some owner, kind => t.attachInPlace d.name owner kind.bare

theorem attachInPlace_eq (t : Table) (name : String) (owner : DeclId) (kind : DeclKind) :
    t.attachInPlace name owner kind = t.leaving (t.attach name owner kind) := by
  unfold attachInPlace
  split
  · next fault hfault =>
    rw [attach_of_error hfault]
    rfl
  · next o hok =>
    -- the listing behind the check goes through, so its fault is never met
    have hlt := parent_lt_of_insertable hok owner rfl
    rw [attach_eq hok hlt]
    simp only [insertInPlace, insert_push kind hok hlt]
    rfl

/-- Writing in place comes to the same as making a new table. -/
theorem createInPlace_eq (t : Table) (d : Decl) :
    t.createInPlace d = t.leaving (t.create d) := by
  obtain ⟨name, parent, kind⟩ := d
  cases parent with
  | none => cases kind <;> rfl
  | some owner =>
    cases kind with
    | procedure scope exported returns =>
      cases exported with
      | false => rfl
      | true => exact t.attachInPlace_eq name owner _
    | _ => exact t.attachInPlace_eq name owner _

theorem after_of_creates (t : Table) {r : Request} {d : Decl} (h : r.creates = some d) :
    t.after r = (t.createInPlace d).2 := by
  rw [createInPlace_eq, after, answer_of_creates t h]
  cases t.create d <;> rfl

theorem after_insert (t : Table) (owner child : DeclId) :
    t.after (.insert owner child) = (t.insertInPlace owner child).2 := by
  simp only [after, answer, insertInPlace]
  cases t.insert owner child <;> rfl

/-! ## All or nothing -/

/-- A creation is refused and nothing is changed, or the declaration is made under the next id. -/
inductive Creation (t : Table) (d : Decl) : Except Fault DeclId × Table → Prop where
  | refused (fault : Fault) : Creation t d (.error fault, t)
  | made {t' : Table} : t.Creates d.bare t' → Creation t d (.ok t.next, t')

/-- A listing is refused and nothing is changed, or a declaration is listed in itself. -/
inductive Listing (t : Table) (owner child : DeclId) : Except Fault Unit × Table → Prop where
  | refused (fault : Fault) : Listing t owner child (.error fault, t)
  | self {t' : Table} :
      owner = child → t.ListsItself owner t' → Listing t owner child (.ok (), t')

/-- Every request to the table is carried out as a whole or not at all. -/
structure AllOrNothing (t : Table) : Prop where
  create : ∀ d, t.Creation d (t.createInPlace d)
  insert : ∀ owner child, t.Listing owner child (t.insertInPlace owner child)
  /-- Done write by write or done at once, a creation is the same. -/
  at_once : ∀ d, t.createInPlace d = t.leaving (t.create d)
  /-- So the tables of a run are those that its requests leave in place. -/
  after_creation : ∀ r d, r.creates = some d → t.after r = (t.createInPlace d).2
  after_listing : ∀ owner child, t.after (.insert owner child) = (t.insertInPlace owner child).2
  /-- Behind its check, the listing of a declaration that was just made is never refused, and so
  the creation is not. -/
  listed : ∀ name owner kind o, t.insertable owner name = .ok o →
    (∀ h, ∃ t', (t.push ⟨name, some owner, kind⟩ h).insertInPlace owner t.next = (.ok (), t')) ∧
      ∃ t', t.attachInPlace name owner kind = (.ok t.next, t')

theorem Registered.listing_insertInPlace (ht : t.Registered) (owner child : DeclId) :
    t.Listing owner child (t.insertInPlace owner child) := by
  unfold insertInPlace
  cases h : t.insert owner child with
  | error fault => exact .refused fault
  | ok r =>
    obtain ⟨hself, hlists⟩ := ht.insert_self h
    exact .self hself hlists

theorem creation_createInPlace (t : Table) (d : Decl) : t.Creation d (t.createInPlace d) := by
  rw [createInPlace_eq]
  cases h : t.create d with
  | error fault => exact .refused fault
  | ok c =>
    obtain ⟨hid, hcreates⟩ := creates_of_create h
    rw [leaving, hid]
    exact .made hcreates

theorem Registered.allOrNothing (ht : t.Registered) : t.AllOrNothing where
  create := t.creation_createInPlace
  insert := ht.listing_insertInPlace
  at_once := t.createInPlace_eq
  after_creation _ _ := t.after_of_creates
  after_listing := t.after_insert
  listed name owner kind o ho := by
    have hlt := parent_lt_of_insertable ho owner rfl
    refine ⟨fun h => ⟨t.grow name owner kind hlt, ?_⟩, t.grow name owner kind hlt, ?_⟩
    · simp only [insertInPlace, insert_push kind ho hlt]
    · rw [attachInPlace_eq, attach_eq ho hlt]
      rfl

/-! ## Counting declarations -/

theorem Change.size_le {t' : Table} (h : Change t t') : t'.size ≤ t.size + 1 := by
  cases h with
  | root name => exact Nat.le_of_eq (t.size_push _ _)
  | child ho hscope hfree hnew => exact Nat.le_of_eq (t.size_grow _ _ _ _)
  | @listing owner child d o scope hd hmay ho hscope hfree =>
    have hsize := t.size_register owner d.name child
    omega

theorem size_after_le (t : Table) (r : Request) : (t.after r).size ≤ t.size + 1 := by
  unfold after
  split
  · next t' h => exact (change_of_answer h).size_le
  · omega

theorem size_run_le (t : Table) (rs : List Request) : (t.run rs).size ≤ t.size + rs.length := by
  induction rs generalizing t with
  | nil => exact Nat.le_refl _
  | cons r rs ih =>
    have hrun : (t.run (r :: rs)).size ≤ (t.after r).size + rs.length := ih (t.after r)
    have hafter := t.size_after_le r
    rw [List.length_cons]
    omega

/-- Whatever was requested before, the next request is carried out as a whole or not at all. There
are never more declarations than requests, so a run of fewer than `2 ^ 32` requests needs no id
beyond 32 bits. -/
theorem allOrNothing_run (rs : List Request) :
    (empty.run rs).AllOrNothing ∧ (empty.run rs).size ≤ rs.length := by
  refine ⟨(registered_of_run registered_empty rs).allOrNothing, ?_⟩
  have hsize := size_run_le empty rs
  have hempty : empty.size = 0 := rfl
  omega

end Table

end ModuleCompiler
