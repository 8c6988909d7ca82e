/-
  Requests to a table and runs of them. Each operation that grows a table is a request; one
  that ends in a fault leaves the table as it was.

  * `insert_eq_ok_iff`, `attach_eq`: when a listing or a creation inside another declaration
    is accepted, and the table that it makes. A creation is stopped before anything is
    declared or not at all: listing the new declaration cannot fail (`insert_push`).
  * `create_eq_ok`: the four creations are one, of a root module or inside another declaration.
  * `change_of_answer`: an accepted request is one of three changes of the table.
-/
import ModuleCompiler.Decl.Create
import ModuleCompiler.Proofs.Outcome

namespace ModuleCompiler

/-! ## Declarations with nothing in their scope -/

namespace DeclKind

/-- The kind with nothing listed in its scope. -/
def bare : DeclKind → DeclKind
  | module _ => module .empty
  | procedure _ exported returns => procedure .empty exported returns
  | kind => kind

theorem bare_register (name : String) (id : DeclId) (k : DeclKind) :
    (k.register name id).bare = k.bare := by
  cases k <;> rfl

theorem bare_bare (k : DeclKind) : k.bare.bare = k.bare := by
  cases k <;> rfl

theorem scope?_bare {k : DeclKind} {s : Scope} (h : k.bare.scope? = some s) : s = .empty := by
  cases k <;> simp_all [bare, scope?]

end DeclKind

namespace Decl

/-- The declaration with nothing listed in its scope. -/
def bare (d : Decl) : Decl := { d with kind := d.kind.bare }

theorem bare_register (d : Decl) (name : String) (id : DeclId) :
    (d.register name id).bare = d.bare := by
  simp only [bare, register, DeclKind.bare_register]

theorem bare_eq_bare_iff {d d' : Decl} : d'.bare = d.bare ↔
    d'.name = d.name ∧ d'.parent = d.parent ∧ d'.kind.bare = d.kind.bare := by
  simp only [bare, mk.injEq]

end Decl

namespace Table

/-- A call of one of the operations that grow a table. -/
inductive Request where
  | createModule (name : String) (parent : Option DeclId)
  | createType (name : String) (parent : Option DeclId) (representation : String)
  | createVariable (name : String) (parent type : Option DeclId) (exported mutable : Bool)
  | createProcedure (name : String) (parent : Option DeclId) (exported : Bool)
      (returns : Option DeclId)
  | insert (owner child : DeclId)

/-- The table that a request makes, or the fault that it ends in. -/
def answer (t : Table) : Request → Except Fault Table
  | .createModule name parent => (t.createModule name parent).map Created.table
  | .createType name parent representation =>
    (t.createType name parent representation).map Created.table
  | .createVariable name parent type exported mutable =>
    (t.createVariable name parent type exported mutable).map Created.table
  | .createProcedure name parent exported returns =>
    (t.createProcedure name parent exported returns).map Created.table
  | .insert owner child => (t.insert owner child).map Prod.fst

/-- The table after a request, whether it was accepted or not. -/
def after (t : Table) (r : Request) : Table :=
  match t.answer r with
  | .ok t' => t'
  | .error _ => t

/-- The table after requests in their order. -/
def run (t : Table) (rs : List Request) : Table :=
  rs.foldl after t

/-! ## What an operation does -/

theorem insert_eq_ok_iff {t : Table} {owner child : DeclId} {r : Table × List Event} :
    t.insert owner child = .ok r ↔
      ∃ d o scope, t.get? child = some d ∧ (owner = child ∨ d.parent = some owner) ∧
        t.get? owner = some o ∧ o.scope? = some scope ∧ scope.find? d.name = none ∧
        r = (t.register owner d.name child, [.inserted d.name o.name]) := by
  unfold insert
  constructor
  · intro h
    obtain ⟨d, hd, h⟩ := bind_eq_ok_iff.1 h
    split at h
    · obtain ⟨o, _, h⟩ := bind_eq_ok_iff.1 h
      cases h
    · next hmay =>
      obtain ⟨o, ho, h⟩ := bind_eq_ok_iff.1 h
      obtain ⟨ho, scope, hscope, hfree⟩ := insertable_eq_ok_iff.1 ho
      cases h
      refine ⟨d, o, scope, decl_eq_ok_iff.1 hd, ?_, ho, hscope, hfree, rfl⟩
      by_cases hself : owner = child
      · exact .inl hself
      · exact .inr (Decidable.of_not_not fun hp => hmay ⟨hself, hp⟩)
  · intro h
    obtain ⟨d, o, scope, hd, hmay, ho, hscope, hfree, rfl⟩ := h
    refine bind_eq_ok_iff.2 ⟨d, decl_eq_ok_iff.2 hd, ?_⟩
    rw [if_neg (by rintro ⟨hself, hp⟩; exact hmay.elim hself hp)]
    exact bind_eq_ok_iff.2 ⟨o, insertable_eq_ok_iff.2 ⟨ho, scope, hscope, hfree⟩, rfl⟩

/-- The table with one more declaration, which is listed in the scope of its parent. -/
def grow (t : Table) (name : String) (owner : DeclId) (kind : DeclKind)
    (h : owner.index < t.size) : Table :=
  (t.push ⟨name, some owner, kind⟩ (by rintro p ⟨⟩; exact h)).register owner name t.next

theorem size_grow (t : Table) (name : String) (owner : DeclId) (kind : DeclKind) (h) :
    (t.grow name owner kind h).size = t.size + 1 := by
  rw [grow, size_register, size_push]

theorem ne_next {t : Table} {id : DeclId} (h : id.index < t.size) : id ≠ t.next := by
  rintro rfl
  exact Nat.lt_irrefl _ h

theorem get?_push_of_lt {t : Table} {d : Decl} {h} {id : DeclId} (hid : id.index < t.size) :
    (t.push d h).get? id = t.get? id := by
  rw [get?_push, if_neg (ne_next hid)]

/-- A declaration that was just made can be listed in its parent, which had a scope and the
name free in it. -/
theorem insert_push {t : Table} {name : String} {owner : DeclId} {o : Decl} (kind : DeclKind)
    (h : t.insertable owner name = .ok o) (hlt : owner.index < t.size) :
    (t.push ⟨name, some owner, kind⟩ (by rintro p ⟨⟩; exact hlt)).insert owner t.next =
      .ok (t.grow name owner kind hlt, [.inserted name o.name]) := by
  obtain ⟨ho, scope, hscope, hfree⟩ := insertable_eq_ok_iff.1 h
  refine insert_eq_ok_iff.2
    ⟨⟨name, some owner, kind⟩, o, scope, ?_, .inr rfl, ?_, hscope, hfree, rfl⟩
  · rw [get?_push, if_pos rfl]
  · rw [get?_push_of_lt hlt, ho]

theorem parent_lt_of_insertable {t : Table} {name : String} {owner : DeclId} {o : Decl}
    (h : t.insertable owner name = .ok o) : ∀ p, some owner = some p → p.index < t.size := by
  intro p hp
  cases hp
  exact lt_of_get? (insertable_eq_ok_iff.1 h).1

/-- A creation inside a scope where the name is free is accepted. -/
theorem attach_eq {t : Table} {name : String} {owner : DeclId} {kind : DeclKind} {o : Decl}
    (h : t.insertable owner name = .ok o) (hlt : owner.index < t.size) :
    t.attach name owner kind = .ok ⟨t.next, t.grow name owner kind hlt,
      [.inserted name o.name,
        .created kind.keyword ((t.grow name owner kind hlt).pathText t.next)]⟩ := by
  unfold attach
  split
  · next fault hfault => rw [h] at hfault; cases hfault
  · simp only [insert_push kind h hlt]
    rfl

theorem attach_of_error {t : Table} {name : String} {owner : DeclId} {kind : DeclKind}
    {fault : Fault} (h : t.insertable owner name = .error fault) :
    t.attach name owner kind = .error fault := by
  unfold attach
  split
  · next hfault =>
    rw [h] at hfault
    cases hfault
    rfl
  · next hok =>
    rw [h] at hok
    cases hok

theorem attach_eq_ok_iff {t : Table} {name : String} {owner : DeclId} {kind : DeclKind}
    {c : Created} :
    t.attach name owner kind = .ok c ↔
      ∃ o scope, ∃ ho : t.get? owner = some o, o.scope? = some scope ∧ scope.find? name = none ∧
        c = ⟨t.next, t.grow name owner kind (lt_of_get? ho), [.inserted name o.name,
          .created kind.keyword ((t.grow name owner kind (lt_of_get? ho)).pathText t.next)]⟩ := by
  constructor
  · intro h
    cases hins : t.insertable owner name with
    | error fault =>
      rw [attach_of_error hins] at h
      cases h
    | ok o =>
      obtain ⟨ho, scope, hscope, hfree⟩ := insertable_eq_ok_iff.1 hins
      rw [attach_eq hins (lt_of_get? ho)] at h
      cases h
      exact ⟨o, scope, ho, hscope, hfree, rfl⟩
  · intro h
    obtain ⟨o, scope, ho, hscope, hfree, rfl⟩ := h
    exact attach_eq (insertable_eq_ok_iff.2 ⟨ho, scope, hscope, hfree⟩) (lt_of_get? ho)

theorem attachRequired_eq_ok {t : Table} {name : String} {parent : Option DeclId}
    {kind : DeclKind} {c : Created} (h : t.attachRequired name parent kind = .ok c) :
    ∃ owner, parent = some owner ∧ t.attach name owner kind = .ok c := by
  cases parent with
  | none => cases h
  | some owner => exact ⟨owner, rfl, h⟩

theorem createProcedure_eq_ok {t : Table} {name : String} {parent returns : Option DeclId}
    {exported : Bool} {c : Created}
    (h : t.createProcedure name parent exported returns = .ok c) :
    exported = true ∧ ∃ owner, parent = some owner ∧
      t.attach name owner (.procedure .empty exported returns) = .ok c := by
  unfold createProcedure at h
  split at h
  · cases h
  · next hexp =>
    obtain ⟨owner, rfl, hatt⟩ := attachRequired_eq_ok h
    refine ⟨?_, owner, rfl, hatt⟩
    simpa using hexp

/-- The creation of a declaration by the operation for its kind. What its scope lists plays no
part: every scope starts empty. -/
def create (t : Table) (d : Decl) : Except Fault Created :=
  match d.kind with
  | .module _ => t.createModule d.name d.parent
  | .procedure _ exported returns => t.createProcedure d.name d.parent exported returns
  | .type representation => t.createType d.name d.parent representation
  | .var type exported mutable => t.createVariable d.name d.parent type exported mutable

/-- A module without a parent fits into every table. -/
theorem parent_lt_of_root (t : Table) (name : String) (p : DeclId)
    (h : (Decl.mk name none (.module .empty)).parent = some p) : p.index < t.size := by
  cases h

theorem create_eq_ok {t : Table} {d : Decl} {c : Created} (h : t.create d = .ok c) :
    (d.bare = ⟨d.name, none, .module .empty⟩ ∧
      c = ⟨t.next, t.push ⟨d.name, none, .module .empty⟩ (t.parent_lt_of_root d.name),
        [.createdRoot d.name]⟩) ∨
    ∃ owner, d.parent = some owner ∧ t.attach d.name owner d.kind.bare = .ok c := by
  obtain ⟨name, parent, kind⟩ := d
  cases kind with
  | module scope =>
    cases parent with
    | none =>
      cases h
      exact .inl ⟨rfl, rfl⟩
    | some owner => exact .inr ⟨owner, rfl, h⟩
  | procedure scope exported returns =>
    obtain ⟨-, owner, rfl, hatt⟩ := createProcedure_eq_ok h
    exact .inr ⟨owner, rfl, hatt⟩
  | type representation => exact .inr (attachRequired_eq_ok h)
  | var type exported mutable => exact .inr (attachRequired_eq_ok h)

/-- The declaration that a request asks for, if it asks for one. -/
def Request.creates : Request → Option Decl
  | .createModule name parent => some ⟨name, parent, .module .empty⟩
  | .createType name parent representation => some ⟨name, parent, .type representation⟩
  | .createVariable name parent type exported mutable =>
    some ⟨name, parent, .var type exported mutable⟩
  | .createProcedure name parent exported returns =>
    some ⟨name, parent, .procedure .empty exported returns⟩
  | .insert .. => none

theorem Request.creates_or_inserts (r : Request) :
    (∃ d, r.creates = some d) ∨ ∃ owner child, r = .insert owner child := by
  cases r with
  | insert owner child => exact .inr ⟨owner, child, rfl⟩
  | _ => exact .inl ⟨_, rfl⟩

theorem answer_of_creates (t : Table) {r : Request} {d : Decl} (h : r.creates = some d) :
    t.answer r = (t.create d).map Created.table := by
  cases r <;> cases h <;> rfl

/-! ## The three changes -/

/-- What an accepted request makes of a table: a new root module, a new declaration inside
another one and listed there, or a listing alone. What is new has an empty scope or none. -/
inductive Change (t : Table) : Table → Prop where
  | root (name : String) : Change t (t.push ⟨name, none, .module .empty⟩ nofun)
  | child {name : String} {owner : DeclId} {kind : DeclKind} {o : Decl} {scope : Scope}
      (ho : t.get? owner = some o) :
      o.scope? = some scope → scope.find? name = none →
      (∀ s, kind.scope? = some s → s = .empty) →
      Change t (t.grow name owner kind (lt_of_get? ho))
  | listing {owner child : DeclId} {d o : Decl} {scope : Scope} :
      t.get? child = some d → owner = child ∨ d.parent = some owner →
      t.get? owner = some o → o.scope? = some scope → scope.find? d.name = none →
      Change t (t.register owner d.name child)

theorem change_of_create {t : Table} {d : Decl} {c : Created} (h : t.create d = .ok c) :
    Change t c.table := by
  obtain ⟨-, rfl⟩ | ⟨owner, -, hatt⟩ := create_eq_ok h
  · exact .root d.name
  · obtain ⟨o, scope, ho, hscope, hfree, rfl⟩ := attach_eq_ok_iff.1 hatt
    exact .child ho hscope hfree fun _ => DeclKind.scope?_bare

theorem change_of_insert {t : Table} {owner child : DeclId} {r : Table × List Event}
    (h : t.insert owner child = .ok r) : Change t r.1 := by
  obtain ⟨d, o, scope, hd, hmay, ho, hscope, hfree, rfl⟩ := insert_eq_ok_iff.1 h
  exact .listing hd hmay ho hscope hfree

theorem change_of_answer {t t' : Table} {r : Request} (h : t.answer r = .ok t') :
    Change t t' := by
  obtain ⟨d, hd⟩ | ⟨owner, child, rfl⟩ := r.creates_or_inserts
  · rw [answer_of_creates t hd] at h
    obtain ⟨c, hc, rfl⟩ := map_eq_ok_iff.1 h
    exact change_of_create hc
  · obtain ⟨listed, hlisted, rfl⟩ := map_eq_ok_iff.1 h
    exact change_of_insert hlisted

/-- What every change keeps is kept by every run. -/
theorem run_keeps {P : Table → Prop} (hchange : ∀ t t', Change t t' → P t → P t') {t : Table}
    (ht : P t) (rs : List Request) : P (t.run rs) := by
  induction rs generalizing t with
  | nil => exact ht
  | cons r rs ih =>
    refine ih ?_
    rw [after]
    split
    · next t' h => exact hchange t t' (change_of_answer h) ht
    · exact ht

end Table

end ModuleCompiler
