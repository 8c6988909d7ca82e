/-
  The walk outward as a relation. `t.Within x a` says that the declaration `x` is `a` or lies
  in it at any depth, and `t.Inside x a` that it lies in it. The walk that a table computes
  meets exactly what its start is within (`mem_ancestry`), and a search along it finds what
  the nearest declaration has (`findSome?_ancestry_eq_some_iff`).
-/
import ModuleCompiler.Proofs.Decl.View
import Mathlib.Logic.Relation

namespace ModuleCompiler.Table

variable {t t' : Table} {x a : DeclId}

/-- The first declaration is the second one, or lies in it at any depth. -/
def Within (t : Table) : DeclId → DeclId → Prop :=
  Relation.ReflTransGen fun x y => t.parent x = some y

/-- The first declaration lies in the second one, at any depth. -/
def Inside (t : Table) : DeclId → DeclId → Prop :=
  Relation.TransGen fun x y => t.parent x = some y

theorem parent_eq (t : Table) (id : DeclId) : t.parent id = (t.bare? id).bind Decl.parent := by
  unfold parent bare?
  cases t.get? id <;> rfl

theorem Within.le (h : t.Within x a) : a.index ≤ x.index := by
  induction h with
  | refl => exact Nat.le_refl _
  | tail _ hstep ih =>
    have hlt := lt_of_parent hstep
    omega

theorem Inside.lt (h : t.Inside x a) : a.index < x.index := by
  obtain ⟨y, hwithin, hstep⟩ := Relation.TransGen.tail'_iff.1 h
  have hle : y.index ≤ x.index := Within.le hwithin
  have hlt := lt_of_parent hstep
  omega

theorem not_inside_of_within (h : t.Within a x) : ¬t.Inside x a := by
  intro hinside
  have hlt := hinside.lt
  have hle := h.le
  omega

/-- What lies within a declaration that has a parent is that declaration or within the parent. -/
theorem within_iff_of_parent {p : DeclId} (h : t.parent x = some p) :
    t.Within x a ↔ x = a ∨ t.Within p a := by
  constructor
  · intro hwithin
    obtain heq | ⟨y, hy, hrest⟩ := hwithin.cases_head
    · exact .inl heq
    · cases h.symm.trans hy
      exact .inr hrest
  · intro hor
    obtain rfl | hrest := hor
    · exact .refl
    · exact .head h hrest

theorem within_iff_of_root (h : t.parent x = none) : t.Within x a ↔ x = a := by
  constructor
  · intro hwithin
    obtain heq | ⟨y, hy, -⟩ := hwithin.cases_head
    · exact heq
    · cases h.symm.trans hy
  · rintro rfl
    exact .refl

/-- The walk meets what encloses its start, and nothing else. -/
theorem mem_ancestry : a ∈ t.ancestry x ↔ t.Within x a := by
  -- each step outward leads to a smaller id
  induction hn : x.index using Nat.strongRecOn generalizing x with
  | ind n ih =>
    cases hp : t.parent x with
    | none => rw [ancestry_of_root hp, List.mem_singleton, within_iff_of_root hp, eq_comm]
    | some p =>
      rw [ancestry_of_parent hp, List.mem_cons, within_iff_of_parent hp, eq_comm,
        ih p.index (hn ▸ lt_of_parent hp) rfl]

theorem le_of_mem_ancestry (h : a ∈ t.ancestry x) : a.index ≤ x.index :=
  (mem_ancestry.1 h).le

/-- The walk is the same where the parents are. -/
theorem ancestry_congr {n : Nat} (h : ∀ x : DeclId, x.index < n → t'.parent x = t.parent x)
    (hx : x.index < n) : t'.ancestry x = t.ancestry x := by
  induction hi : x.index using Nat.strongRecOn generalizing x with
  | ind i ih =>
    have hsame := h x hx
    cases hp : t.parent x with
    | none => rw [ancestry_of_root hp, ancestry_of_root (hsame.trans hp)]
    | some p =>
      have hlt := lt_of_parent hp
      rw [ancestry_of_parent hp, ancestry_of_parent (hsame.trans hp),
        ih p.index (hi ▸ hlt) (Nat.lt_trans hlt hx) rfl]

theorem head_ancestry (t : Table) (x : DeclId) : ∃ outer, t.ancestry x = x :: outer := by
  cases hp : t.parent x with
  | none => exact ⟨[], ancestry_of_root hp⟩
  | some p => exact ⟨t.ancestry p, ancestry_of_parent hp⟩

/-! ## Searching outward -/

variable {β : Type} {f : DeclId → Option β}

/-- What a search outward finds is what the nearest declaration has. -/
theorem nearest_of_findSome? {b : β} (h : (t.ancestry x).findSome? f = some b) :
    ∃ a, t.Within x a ∧ f a = some b ∧ ∀ y, t.Within x y → t.Inside y a → f y = none := by
  induction hn : x.index using Nat.strongRecOn generalizing x with
  | ind n ih =>
    cases hfx : f x with
    | some c =>
      obtain ⟨outer, houter⟩ := t.head_ancestry x
      rw [houter, List.findSome?_cons, hfx] at h
      cases h
      exact ⟨x, .refl, hfx, fun y hy hlies => absurd hlies (not_inside_of_within hy)⟩
    | none =>
      cases hp : t.parent x with
      | none =>
        rw [ancestry_of_root hp, List.findSome?_cons, hfx] at h
        cases h
      | some p =>
        rw [ancestry_of_parent hp, List.findSome?_cons, hfx] at h
        obtain ⟨a, hwithin, hfa, hnone⟩ := ih p.index (hn ▸ lt_of_parent hp) h rfl
        refine ⟨a, .head hp hwithin, hfa, fun y hy hlies => ?_⟩
        obtain rfl | hy := (within_iff_of_parent hp).1 hy
        · exact hfx
        · exact hnone y hy hlies

/-- A search outward finds what the nearest declaration has that has something. -/
theorem findSome?_ancestry_eq_some_iff {b : β} : (t.ancestry x).findSome? f = some b ↔
    ∃ a, t.Within x a ∧ f a = some b ∧ ∀ y, t.Within x y → t.Inside y a → f y = none := by
  refine ⟨nearest_of_findSome?, fun h => ?_⟩
  obtain ⟨a, hwithin, hfa, hnone⟩ := h
  induction hwithin using Relation.ReflTransGen.head_induction_on with
  | refl =>
    obtain ⟨outer, houter⟩ := t.head_ancestry a
    rw [houter, List.findSome?_cons, hfa]
  | @head x p hstep hrest ih =>
    have hfx : f x = none := hnone x .refl (.head' hstep hrest)
    rw [ancestry_of_parent hstep, List.findSome?_cons, hfx]
    exact ih fun y hy => hnone y (.head hstep hy)

theorem findSome?_ancestry_eq_none_iff :
    (t.ancestry x).findSome? f = none ↔ ∀ a, t.Within x a → f a = none := by
  simp only [List.findSome?_eq_none_iff, mem_ancestry]

end ModuleCompiler.Table
