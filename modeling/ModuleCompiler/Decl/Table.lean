/-
  The declaration table: declarations in the order of their creation, which gives them
  their ids. Every declaration lies behind the one that encloses it, so the walk outward
  from a declaration ends; `ancestry` is that walk, and all that is read along enclosing
  declarations is read off it.
-/
import ModuleCompiler.Decl.Basic

namespace ModuleCompiler

/-- Declarations by id, each behind its parent. -/
structure Table where
  decls : Array Decl
  parent_lt : ∀ (i : Nat) (h : i < decls.size) (p : DeclId), decls[i].parent = some p → p.index < i

namespace Table

/-- The table with no declarations. -/
def empty : Table where
  decls := #[]
  parent_lt i h := absurd h (Nat.not_lt_zero i)

/-- The number of declarations. -/
def size (t : Table) : Nat := t.decls.size

/-- The id of the next declaration. -/
def next (t : Table) : DeclId := ⟨t.size⟩

/-- The declaration with the given id. -/
def get? (t : Table) (id : DeclId) : Option Decl := t.decls[id.index]?

/-- The declaration with the given id, which must be of this table. -/
def decl (t : Table) (id : DeclId) : Except Fault Decl :=
  match t.get? id with
  | some d => .ok d
  | none => .error (.foreignId id)

/-- The declaration that encloses the given one. -/
def parent (t : Table) (id : DeclId) : Option DeclId :=
  (t.get? id).bind Decl.parent

theorem get?_eq_some_iff {t : Table} {id : DeclId} {d : Decl} :
    t.get? id = some d ↔ ∃ h : id.index < t.size, t.decls[id.index] = d :=
  Array.getElem?_eq_some_iff

theorem lt_of_get? {t : Table} {id : DeclId} {d : Decl} (h : t.get? id = some d) :
    id.index < t.size :=
  (get?_eq_some_iff.1 h).1

theorem lt_of_parent {t : Table} {id p : DeclId} (h : t.parent id = some p) :
    p.index < id.index := by
  obtain ⟨d, hd, hp⟩ := Option.bind_eq_some_iff.1 h
  obtain ⟨hlt, rfl⟩ := get?_eq_some_iff.1 hd
  exact t.parent_lt id.index hlt p hp

theorem decl_eq_ok_iff {t : Table} {id : DeclId} {d : Decl} :
    t.decl id = .ok d ↔ t.get? id = some d := by
  unfold decl
  cases t.get? id <;> simp

/-! ## Growing -/

/-- The table with one more declaration, whose parent is already in it. -/
def push (t : Table) (d : Decl) (h : ∀ p, d.parent = some p → p.index < t.size) : Table where
  decls := t.decls.push d
  parent_lt i hi p hp := by
    rw [Array.getElem_push] at hp
    split at hp
    · next hlt => exact t.parent_lt i hlt p hp
    · next hge => exact Nat.lt_of_lt_of_le (h p hp) (Nat.le_of_not_lt hge)

/-- The table with a name added to the scope of one declaration. -/
def register (t : Table) (owner : DeclId) (name : String) (id : DeclId) : Table where
  decls := t.decls.modify owner.index (·.register name id)
  parent_lt i hi p hp := by
    have hlt : i < t.decls.size := by simpa using hi
    refine t.parent_lt i hlt p ?_
    rw [Array.getElem_modify] at hp
    split at hp <;> exact hp

theorem size_push (t : Table) (d : Decl) (h) : (t.push d h).size = t.size + 1 :=
  Array.size_push d

theorem size_register (t : Table) (owner : DeclId) (name : String) (id : DeclId) :
    (t.register owner name id).size = t.size := by
  simp [register, size]

theorem get?_push (t : Table) (d : Decl) (h) (id : DeclId) :
    (t.push d h).get? id = if id = t.next then some d else t.get? id := by
  simp only [push, get?, next, size, Array.getElem?_push, DeclId.ext_iff]

theorem get?_register (t : Table) (owner : DeclId) (name : String) (id x : DeclId) :
    (t.register owner name id).get? x =
      if owner = x then (t.get? x).map (·.register name id) else t.get? x := by
  simp only [register, get?, Array.getElem?_modify, DeclId.ext_iff]

/-! ## Walking outward -/

/-- The declaration itself, the one that encloses it, and so on outward. -/
def ancestry (t : Table) (id : DeclId) : List DeclId :=
  match _ : t.parent id with
  | some p => id :: t.ancestry p
  | none => [id]
termination_by id.index
decreasing_by exact lt_of_parent ‹_›

theorem ancestry_of_parent {t : Table} {id p : DeclId} (h : t.parent id = some p) :
    t.ancestry id = id :: t.ancestry p := by
  rw [ancestry]
  split
  · next q hq => rw [h] at hq; cases hq; rfl
  · next hn => simp [h] at hn

theorem ancestry_of_root {t : Table} {id : DeclId} (h : t.parent id = none) :
    t.ancestry id = [id] := by
  rw [ancestry]
  split
  · next hq => simp [h] at hq
  · rfl

end Table

end ModuleCompiler
