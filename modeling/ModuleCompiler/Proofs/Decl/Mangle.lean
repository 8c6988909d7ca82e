/-
  Names inside a declaration. The names are put before the suffix one by one on the walk outward,
  and the first module ends the walk: what comes out are the names from the nearest module down,
  with the suffix behind them (`InModule.mangle`). So mangling follows the recursive rule, it
  continues the linkage name, and what lies around the nearest module plays no part
  (`InModule.congr`). All of this is `Mangles`, which holds of every declaration of every table
  that requests can make (`mangle_run`).
-/
import ModuleCompiler.Proofs.Decl.Linkage

namespace ModuleCompiler.Table

variable {t t' : Table} {id m : DeclId} {d : Decl} {names : List String}

theorem InModule.lt_size (h : t.InModule id m names) : id.index < t.size := by
  cases h with
  | module hd _ => exact lt_of_get? hd
  | inside hd _ _ _ => exact lt_of_get? hd

/-- The names from the nearest module down, and then the suffix. -/
theorem InModule.mangle (h : t.InModule id m names) (suffix : String) :
    t.mangle id suffix = .ok ("_".intercalate (names ++ [suffix])) := by
  rw [mangle_eq h.lt_size, h.mangleAlong]

/-! ## The recursive rule -/

theorem mangle_of_isModule (hd : t.get? id = some d) (hmodule : d.isModule = true)
    (suffix : String) : t.mangle id suffix = .ok (d.name ++ "_" ++ suffix) := by
  have hin : t.InModule id id [d.name] := .module hd hmodule
  rw [hin.mangle, List.singleton_append, String.intercalate_cons_of_ne_nil (by simp),
    String.intercalate_singleton]

theorem mangle_of_parent {p : DeclId} (hd : t.get? id = some d) (hmodule : d.isModule = false)
    (hp : d.parent = some p) (suffix : String) :
    t.mangle id suffix = t.mangle p (d.name ++ "_" ++ suffix) := by
  have hstep : t.parent id = some p := (parent_of_get? hd).trans hp
  have hid := lt_of_get? hd
  have hlt := lt_of_parent hstep
  rw [mangle_eq hid, mangle_eq (by omega), ancestry_of_parent hstep, Table.mangleAlong, hd]
  simp only [hmodule]
  rfl

/-! ## Around the nearest module -/

theorem InModule.within (h : t.InModule id m names) : t.Within id m := by
  induction h with
  | module _ _ => exact .refl
  | inside hd _ hp _ ih => exact .head ((parent_of_get? hd).trans hp) ih

/-- The other table has the declarations from `id` outward to `m` under the same ids, with the
same names, modules for modules, and inside of modules with the same parents. -/
def SameUpTo (t : Table) (id m : DeclId) (t' : Table) : Prop :=
  ∀ a d, t.Within id a → t.Within a m → t.get? a = some d →
    ∃ d', t'.get? a = some d' ∧ d'.name = d.name ∧ d'.isModule = d.isModule ∧
      (d.isModule = false → d'.parent = d.parent)

theorem InModule.congr (h : t.InModule id m names) (hsame : t.SameUpTo id m t') :
    t'.InModule id m names := by
  induction h with
  | @module m d hd hmodule =>
    obtain ⟨d', hd', hname, hmodule', -⟩ := hsame m d .refl .refl hd
    rw [← hname]
    exact .module hd' (hmodule'.trans hmodule)
  | @inside id p m d names hd hmodule hp hin ih =>
    have hstep : t.parent id = some p := (parent_of_get? hd).trans hp
    obtain ⟨d', hd', hname, hmodule', hparent⟩ := hsame id d .refl (.head hstep hin.within) hd
    have hrest : t'.InModule p m names := ih fun a e hwithin => hsame a e (.head hstep hwithin)
    rw [← hname]
    exact .inside hd' (hmodule'.trans hmodule) ((hparent hmodule).trans hp) hrest

/-! ## Every table -/

/-- What a suffix becomes inside a declaration. -/
structure Mangles (t : Table) (id : DeclId) (d : Decl) (suffix : String) : Prop where
  /-- There is a nearest module, and the names from there down to the declaration come first. -/
  chain : ∃ m names, t.InModule id m names ∧
    t.mangle id suffix = .ok ("_".intercalate (names ++ [suffix]))
  module : d.isModule = true → t.mangle id suffix = .ok (d.name ++ "_" ++ suffix)
  inside : d.isModule = false →
    ∃ p, d.parent = some p ∧ t.mangle id suffix = t.mangle p (d.name ++ "_" ++ suffix)
  linkage : ∃ linkage, t.linkageName id = .ok linkage ∧
    t.mangle id suffix = .ok (linkage ++ "_" ++ suffix)
  /-- A table that is the same up to the nearest module mangles the same. -/
  nearest : ∀ m names t', t.InModule id m names → t.SameUpTo id m t' →
    t'.mangle id suffix = t.mangle id suffix

/-- Whatever was requested, mangling has a result, and it follows from the names between the
nearest module and the declaration. -/
theorem mangle_run {rs : List Request} (hd : (empty.run rs).get? id = some d)
    (suffix : String) : Mangles (empty.run rs) id d suffix := by
  have ht : (empty.run rs).Registered := registered_of_run registered_empty rs
  obtain ⟨m, names, hin⟩ := ht.exists_inModule hd
  refine ⟨⟨m, names, hin, hin.mangle suffix⟩, fun hmodule => mangle_of_isModule hd hmodule suffix,
    fun hmodule => ?_, ⟨_, hin.linkageName, ?_⟩, fun n names' t' hin' hsame => ?_⟩
  · cases hp : d.parent with
    | none =>
      rw [ht.isModule_of_root hd hp] at hmodule
      cases hmodule
    | some p => exact ⟨p, rfl, mangle_of_parent hd hmodule hp suffix⟩
  · rw [hin.mangle, String.intercalate_append_of_ne_nil hin.names_ne_nil (by simp),
      String.intercalate_singleton]
  · rw [hin'.mangle, (hin'.congr hsame).mangle]

/-- A variable of a procedure in a module that lies in another one: the outer module is not
named. -/
theorem mangle_run_variable :
    let rs : List Request := [.createModule "SYSTEM" none, .createModule "T" (some ⟨0⟩),
      .createProcedure "P" (some ⟨1⟩) true none, .createVariable "x" (some ⟨2⟩) none false true]
    let d : Decl := ⟨"x", some ⟨2⟩, .var none false true⟩
    (empty.run rs).get? ⟨3⟩ = some d ∧ (empty.run rs).mangle ⟨3⟩ "s" = .ok "T_P_x_s" ∧
      Mangles (empty.run rs) ⟨3⟩ d "s" := by
  intro rs d
  have hd : (empty.run rs).get? ⟨3⟩ = some d := by decide +kernel
  exact ⟨hd, by decide +kernel, mangle_run hd "s"⟩

end ModuleCompiler.Table
