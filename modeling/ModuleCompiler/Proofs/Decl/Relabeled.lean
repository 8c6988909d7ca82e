/-
  Tables that are the same but for their ids. `t.Relabeled σ τ t'` says that what has the id `x`
  in `t` has the id `σ x` in `t'`: parents and the entries of scopes go by `σ`, and the types that
  declarations store go by `τ`. Whatever is asked of the two tables, the answers are the same up to
  `σ` (`Relabeled.sameAnswers`); the stored types play no part in them.
-/
import ModuleCompiler.Proofs.Decl.Answer

namespace ModuleCompiler

variable {σ τ : DeclId → DeclId}

/-! ## Outcomes -/

/-- The fault under other ids. -/
def Fault.relabel (σ : DeclId → DeclId) : Fault → Fault
  | .diagnostic d => .diagnostic d
  | .foreignId x => .foreignId (σ x)

/-- The outcome under other ids, where a result becomes another one by `f`. -/
def relabelOutcome {α β : Type} (σ : DeclId → DeclId) (f : α → β) :
    Except Fault α → Except Fault β
  | .ok a => .ok (f a)
  | .error fault => .error (fault.relabel σ)

theorem relabelOutcome_bind {α α' β β' : Type} {f : α → α'} {g : β → β'} {x : Except Fault α}
    {k : α → Except Fault β} {k' : α' → Except Fault β'}
    (h : ∀ a, k' (f a) = relabelOutcome σ g (k a)) :
    relabelOutcome σ f x >>= k' = relabelOutcome σ g (x >>= k) := by
  cases x with
  | error fault => rfl
  | ok a => exact h a

/-! ## Declarations -/

/-- The scope under other ids. -/
def Scope.relabel (σ : DeclId → DeclId) (s : Scope) : Scope :=
  ⟨s.entries.map fun e => (e.1, σ e.2)⟩

theorem Scope.find?_relabel (σ : DeclId → DeclId) (s : Scope) (n : String) :
    (s.relabel σ).find? n = (s.find? n).map σ := by
  obtain ⟨es⟩ := s
  unfold relabel find?
  dsimp only
  induction es with
  | nil => rfl
  | cons e es ih =>
    rw [List.map_cons, lookup_cons, ih, lookup_cons]
    split <;> rfl

/-- The kind under other ids. -/
def DeclKind.relabel (σ τ : DeclId → DeclId) : DeclKind → DeclKind
  | .module s => .module (s.relabel σ)
  | .procedure s exported returns => .procedure (s.relabel σ) exported (returns.map τ)
  | .type representation => .type representation
  | .var stored exported mutable => .var (stored.map τ) exported mutable

namespace Decl

/-- The declaration under other ids. -/
def relabel (σ τ : DeclId → DeclId) (d : Decl) : Decl :=
  ⟨d.name, d.parent.map σ, d.kind.relabel σ τ⟩

/-- The type that a variable or a procedure stores. -/
def storedType? (d : Decl) : Option DeclId :=
  match d.kind with
  | .procedure _ _ returns => returns
  | .var type _ _ => type
  | _ => none

theorem isModule_relabel (d : Decl) : (d.relabel σ τ).isModule = d.isModule := by
  obtain ⟨_, _, _ | _ | _ | _⟩ := d <;> rfl

theorem scope?_relabel (d : Decl) : (d.relabel σ τ).scope? = d.scope?.map (Scope.relabel σ) := by
  obtain ⟨_, _, _ | _ | _ | _⟩ := d <;> rfl

theorem representation?_relabel (d : Decl) :
    (d.relabel σ τ).representation? = d.representation? := by
  obtain ⟨_, _, _ | _ | _ | _⟩ := d <;> rfl

/-- Only the type that is stored is changed by what is done to types. -/
theorem relabel_congr {τ' : DeclId → DeclId} {d : Decl}
    (h : ∀ y, d.storedType? = some y → τ' y = τ y) : d.relabel σ τ' = d.relabel σ τ := by
  obtain ⟨n, p, k⟩ := d
  cases k with
  | module s => rfl
  | type representation => rfl
  | procedure s exported returns =>
    have hreturns : returns.map τ' = returns.map τ := Option.map_congr fun y hy => h y hy
    simp only [relabel, DeclKind.relabel, hreturns]
  | var type exported mutable =>
    have htype : type.map τ' = type.map τ := Option.map_congr fun y hy => h y hy
    simp only [relabel, DeclKind.relabel, htype]

end Decl

namespace Table

variable {t t' : Table}

/-- The tables are the same but for the ids: these go by `σ`, and in stored types by `τ`. -/
structure Relabeled (t : Table) (σ τ : DeclId → DeclId) (t' : Table) : Prop where
  size : t'.size = t.size
  get? : ∀ x, t'.get? (σ x) = (t.get? x).map (Decl.relabel σ τ)

theorem Relabeled.of_storedTypes (h : t.Relabeled σ τ t') {τ' : DeclId → DeclId}
    (hsame : ∀ x d y, t.get? x = some d → d.storedType? = some y → τ' y = τ y) :
    t.Relabeled σ τ' t' where
  size := h.size
  get? x := by
    rw [h.get?]
    exact Option.map_congr fun d hd => (Decl.relabel_congr fun y => hsame x d y hd).symm

theorem Relabeled.decl (h : t.Relabeled σ τ t') (x : DeclId) :
    t'.decl (σ x) = relabelOutcome σ (Decl.relabel σ τ) (t.decl x) := by
  unfold Table.decl
  rw [h.get?]
  cases t.get? x <;> rfl

theorem Relabeled.parent (h : t.Relabeled σ τ t') (x : DeclId) :
    t'.parent (σ x) = (t.parent x).map σ := by
  unfold Table.parent
  rw [h.get?]
  cases t.get? x <;> rfl

theorem Relabeled.ancestry (h : t.Relabeled σ τ t') (x : DeclId) :
    t'.ancestry (σ x) = (t.ancestry x).map σ := by
  -- the walk from a declaration follows the walk from its parent
  induction hn : x.index using Nat.strongRecOn generalizing x with
  | ind n ih =>
    have hparent := h.parent x
    cases hp : t.parent x with
    | none =>
      rw [hp] at hparent
      rw [ancestry_of_root hp, ancestry_of_root hparent]
      rfl
    | some p =>
      rw [hp] at hparent
      rw [ancestry_of_parent hp, ancestry_of_parent hparent, List.map_cons,
        ih p.index (hn ▸ lt_of_parent hp) p rfl]

/-! ## Names -/

theorem Relabeled.namesAlong (h : t.Relabeled σ τ t') (walk : List DeclId) :
    t'.namesAlong (walk.map σ) = t.namesAlong walk := by
  unfold Table.namesAlong
  rw [← List.map_reverse, List.filterMap_map]
  congr 1
  funext x
  rw [Function.comp_apply, h.get?, Option.map_map]
  rfl

theorem Relabeled.path (h : t.Relabeled σ τ t') (x : DeclId) :
    t'.path (σ x) = relabelOutcome σ id (t.path x) := by
  have htext : t'.pathText (σ x) = t.pathText x := by
    unfold pathText
    rw [h.ancestry, h.namesAlong]
  unfold Table.path
  rw [h.decl, htext]
  exact relabelOutcome_bind fun _ => rfl

theorem Relabeled.mangleAlong (h : t.Relabeled σ τ t') (walk : List DeclId) (suffix : String) :
    t'.mangleAlong (walk.map σ) suffix = t.mangleAlong walk suffix := by
  induction walk generalizing suffix with
  | nil => rfl
  | cons x outer ih =>
    rw [List.map_cons, Table.mangleAlong, Table.mangleAlong, h.get?]
    cases t.get? x with
    | none => rfl
    | some d =>
      rw [Option.map_some]
      dsimp only
      rw [d.isModule_relabel, ih]
      rfl

theorem Relabeled.mangle (h : t.Relabeled σ τ t') (x : DeclId) (suffix : String) :
    t'.mangle (σ x) suffix = relabelOutcome σ id (t.mangle x suffix) := by
  unfold Table.mangle
  rw [h.decl, h.ancestry, h.mangleAlong]
  exact relabelOutcome_bind fun _ => rfl

theorem Relabeled.linkageName (h : t.Relabeled σ τ t') (x : DeclId) :
    t'.linkageName (σ x) = relabelOutcome σ id (t.linkageName x) := by
  unfold Table.linkageName
  rw [h.decl, h.parent]
  refine relabelOutcome_bind fun d => ?_
  rw [d.isModule_relabel]
  split
  · rfl
  · cases t.parent x with
    | none => rfl
    | some p => exact h.mangle p d.name

theorem Relabeled.representation (h : t.Relabeled σ τ t') (type : Option DeclId) :
    t'.representation (type.map σ) = t.representation type := by
  unfold Table.representation
  cases type with
  | none => rfl
  | some x =>
    rw [Option.map_some, Option.bind_some, Option.bind_some, h.get?]
    cases t.get? x with
    | none => rfl
    | some d => exact congrArg (Option.getD · voidRepresentation) d.representation?_relabel

/-! ## Looking up -/

theorem Relabeled.scope? (h : t.Relabeled σ τ t') (x : DeclId) :
    (t'.get? (σ x)).bind Decl.scope? = ((t.get? x).bind Decl.scope?).map (Scope.relabel σ) := by
  rw [h.get?]
  cases t.get? x with
  | none => rfl
  | some d => exact d.scope?_relabel

theorem Relabeled.scopeFor (h : t.Relabeled σ τ t') (x : DeclId) (n : String) :
    t'.scopeFor (σ x) n = relabelOutcome σ (Scope.relabel σ) (t.scopeFor x n) := by
  unfold Table.scopeFor
  rw [h.decl]
  refine relabelOutcome_bind fun d => ?_
  rw [d.scope?_relabel]
  cases d.scope? <;> rfl

theorem Relabeled.lookupLocal (h : t.Relabeled σ τ t') (x : DeclId) (n : String) :
    t'.lookupLocal (σ x) n = relabelOutcome σ (Option.map σ) (t.lookupLocal x n) := by
  unfold Table.lookupLocal
  rw [h.scopeFor]
  refine relabelOutcome_bind fun s => ?_
  rw [s.find?_relabel]
  rfl

theorem Relabeled.lookupAlong (h : t.Relabeled σ τ t') (n : String) (walk : List DeclId) :
    t'.lookupAlong n (walk.map σ) = (t.lookupAlong n walk).map σ := by
  induction walk with
  | nil => rfl
  | cons x outer ih =>
    rw [List.map_cons, Table.lookupAlong, Table.lookupAlong, h.scope?]
    cases (t.get? x).bind Decl.scope? with
    | none => rfl
    | some s =>
      rw [Option.map_some]
      dsimp only
      rw [s.find?_relabel, ih]
      cases s.find? n <;> rfl

theorem Relabeled.lookup (h : t.Relabeled σ τ t') (x : DeclId) (n : String) :
    t'.lookup (σ x) n = relabelOutcome σ (Option.map σ) (t.lookup x n) := by
  unfold Table.lookup
  rw [h.scopeFor, h.ancestry, h.lookupAlong]
  exact relabelOutcome_bind fun _ => rfl

/-- Whatever the two tables are asked, they answer the same up to the ids. -/
structure SameAnswers (t : Table) (σ : DeclId → DeclId) (t' : Table) : Prop where
  /-- Every scope lists the same names in the same order, and none is a scope in one table only. -/
  scope? : ∀ x,
    (t'.get? (σ x)).bind Decl.scope? = ((t.get? x).bind Decl.scope?).map (Scope.relabel σ)
  path : ∀ x, t'.path (σ x) = relabelOutcome σ id (t.path x)
  mangle : ∀ x suffix, t'.mangle (σ x) suffix = relabelOutcome σ id (t.mangle x suffix)
  linkageName : ∀ x, t'.linkageName (σ x) = relabelOutcome σ id (t.linkageName x)
  representation : ∀ type, t'.representation (type.map σ) = t.representation type
  lookup : ∀ x n, t'.lookup (σ x) n = relabelOutcome σ (Option.map σ) (t.lookup x n)
  lookupLocal : ∀ x n,
    t'.lookupLocal (σ x) n = relabelOutcome σ (Option.map σ) (t.lookupLocal x n)

theorem Relabeled.sameAnswers (h : t.Relabeled σ τ t') : t.SameAnswers σ t' where
  scope? := h.scope?
  path := h.path
  mangle := h.mangle
  linkageName := h.linkageName
  representation := h.representation
  lookup := h.lookup
  lookupLocal := h.lookupLocal

end Table

end ModuleCompiler
