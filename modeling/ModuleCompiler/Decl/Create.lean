/-
  The operations that grow a table. Each either returns the grown table with the events
  to tell, or the fault that stopped it, and then there is no new table: what is not
  returned has not happened. Main statement: a name can be inserted exactly into a scope of
  the table where it is free.
-/
import ModuleCompiler.Decl.Name
import ModuleCompiler.Event

namespace ModuleCompiler

/-- A successful creation: the new declaration's id, the table with it, and what to tell. -/
structure Created where
  id : DeclId
  table : Table
  events : List Event

namespace Table

/-- The declaration in whose scope `name` can be inserted: it has a scope and the name is
free there. -/
def insertable (t : Table) (owner : DeclId) (name : String) : Except Fault Decl := do
  let d ← t.decl owner
  match d.scope? with
  | none => throw (.diagnostic (.cannotInsert name d.name))
  | some scope =>
    if scope.contains name then throw (.diagnostic (.duplicateName name d.name))
    else return d

theorem insertable_eq_ok_iff {t : Table} {owner : DeclId} {name : String} {d : Decl} :
    t.insertable owner name = .ok d ↔
      t.get? owner = some d ∧ ∃ scope, d.scope? = some scope ∧ scope.find? name = none := by
  unfold insertable decl
  cases t.get? owner with
  | none => simp [bind, Except.bind]
  | some e =>
    cases hs : e.scope? with
    | none =>
      simp only [bind, Except.bind, hs, Option.some.injEq]
      constructor
      · intro h; cases h
      · rintro ⟨rfl, scope, h, _⟩; simp [hs] at h
    | some scope =>
      simp only [bind, Except.bind, hs, Option.some.injEq]
      by_cases hc : scope.contains name
      · rw [if_pos hc]
        constructor
        · intro h; cases h
        · rintro ⟨rfl, scope', h, hn⟩
          rw [hs] at h
          cases h
          simp [Scope.contains, hn] at hc
      · rw [if_neg hc]
        constructor
        · intro h
          cases h
          exact ⟨rfl, scope, hs, by simpa [Scope.contains] using hc⟩
        · rintro ⟨rfl, _⟩; rfl

/-- Lists a declaration in the scope of its parent, or in its own scope. -/
def insert (t : Table) (owner child : DeclId) : Except Fault (Table × List Event) := do
  let d ← t.decl child
  if owner ≠ child ∧ d.parent ≠ some owner then
    throw (.diagnostic (.cannotInsert d.name (← t.decl owner).name))
  else
    let scopeOwner ← t.insertable owner d.name
    return (t.register owner d.name child, [.inserted d.name scopeOwner.name])

/-- Creates a declaration inside `owner` and lists it there. -/
def attach (t : Table) (name : String) (owner : DeclId) (kind : DeclKind) :
    Except Fault Created :=
  match h : t.insertable owner name with
  | .error fault => .error fault
  | .ok _ => do
    have inside : ∀ p, some owner = some p → p.index < t.size := by
      rintro p ⟨⟩
      exact lt_of_get? (insertable_eq_ok_iff.1 h).1
    let (listed, events) ← (t.push ⟨name, some owner, kind⟩ inside).insert owner t.next
    return ⟨t.next, listed, events ++ [.created kind.keyword (listed.pathText t.next)]⟩

/-- Creates a module, inside another declaration or as a root. -/
def createModule (t : Table) (name : String) (parent : Option DeclId) : Except Fault Created :=
  match parent with
  | some owner => t.attach name owner (.module .empty)
  | none => .ok ⟨t.next, t.push ⟨name, none, .module .empty⟩ nofun, [.createdRoot name]⟩

/-- Creates a declaration of a kind that has to be inside another one. -/
def attachRequired (t : Table) (name : String) (parent : Option DeclId) (kind : DeclKind) :
    Except Fault Created :=
  match parent with
  | some owner => t.attach name owner kind
  | none => .error (.diagnostic (.noParent kind.keyword name))

/-- Creates a type with the given representation. -/
def createType (t : Table) (name : String) (parent : Option DeclId) (representation : String) :
    Except Fault Created :=
  t.attachRequired name parent (.type representation)

/-- Creates a variable. -/
def createVariable (t : Table) (name : String) (parent type : Option DeclId)
    (exported mutable : Bool) : Except Fault Created :=
  t.attachRequired name parent (.var type exported mutable)

/-- Creates a procedure, which has to be exported. -/
def createProcedure (t : Table) (name : String) (parent : Option DeclId) (exported : Bool)
    (returns : Option DeclId) : Except Fault Created :=
  if parent.isSome ∧ ¬exported then
    .error (.diagnostic (.unsupportedUnexported name))
  else
    t.attachRequired name parent (.procedure .empty exported returns)

end Table

end ModuleCompiler
