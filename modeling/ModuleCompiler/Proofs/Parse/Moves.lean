/-
  What parsing does to the state, from any state and with any outcome. Every step is a row of
  moves: it reads, it makes a module, it makes a procedure together with its header, or it
  writes the line that ends a function (`Move`). What all moves keep is kept by every step.

  * `openProcedure_ok`: a procedure that is created has its header at once.
  * `body_closes`: a body that is accepted writes one line, which returns what the header says,
    and one that is rejected writes nothing.
-/
import ModuleCompiler.Proofs.Decl.Growth
import ModuleCompiler.Proofs.Parse.Procedure
import ModuleCompiler.Proofs.Parse.Reading
import Mathlib.Logic.Relation

namespace ModuleCompiler

/-- The type is left out, or it is a declaration of the table. -/
def Table.Knows (t : Table) (type : Option DeclId) : Prop :=
  ∀ id, type = some id → id.index < t.size

theorem Table.knows_none (t : Table) : t.Knows none := by
  intro id h
  cases h

namespace ParserState

/-- The state with a procedure that was just created, and with its header. -/
def withHeader (s : ParserState) (c : Created) (returns : Option DeclId) (linkage : String) :
    ParserState :=
  let representation := c.table.representation returns
  { s with
    table := c.table
    ir := s.ir ++ [.header representation linkage]
    events := s.events ++ c.events ++ [.emittedPrologue linkage representation] }

/-- One move of parsing. -/
inductive Move (s : ParserState) : ParserState → Prop where
  | read {s' : ParserState} : s.Reads s' → Move s s'
  | module {name : String} {parent : Option DeclId} {c : Created} :
      s.table.createModule name parent = .ok c →
      Move s { s with table := c.table, events := s.events ++ c.events }
  | header {name : String} {parent returns : Option DeclId} {exported : Bool} {c : Created}
      {linkage : String} :
      s.table.Knows returns → s.table.createProcedure name parent exported returns = .ok c →
      c.table.linkageName c.id = .ok linkage → Move s (s.withHeader c returns linkage)
  | ending (value : Option Int32) : Move s { s with ir := s.ir ++ [Parse.ending value] }

/-- Moves one after the other. -/
def Moves : ParserState → ParserState → Prop :=
  Relation.ReflTransGen Move

end ParserState

namespace Parse

variable {α β : Type} {f : Parse α} {next : α → Parse β} {s s' : ParserState}

/-! ## Opening a procedure -/

theorem runFrom_openProcedure {name : String} {parent returns : Option DeclId} {exported : Bool}
    {c : Created} (hc : s.table.createProcedure name parent exported returns = .ok c) :
    ∃ linkage, c.table.linkageName c.id = .ok linkage ∧
      (openProcedure name parent exported returns).runFrom s =
        (.ok ⟨c.id, name, returns⟩, s.withHeader c returns linkage) := by
  obtain ⟨hid, hgains⟩ := Table.gains_of_createProcedure hc
  have hnew := hgains.bare? c.id
  rw [if_pos hid] at hnew
  refine ⟨_, Table.linkageName_eq hnew, ?_⟩
  rw [openProcedure, runFrom_bind, runFrom_create, hc]
  simp only [runFrom_bind, runFrom_ask, Table.linkageName_eq hnew]
  rfl

theorem runFrom_openProcedure_error {name : String} {parent returns : Option DeclId}
    {exported : Bool} {fault : Fault}
    (hc : s.table.createProcedure name parent exported returns = .error fault) :
    (openProcedure name parent exported returns).runFrom s = (.error fault, s) := by
  rw [openProcedure, runFrom_bind, runFrom_create, hc]

theorem openProcedure_ok {name : String} {parent returns : Option DeclId} {exported : Bool}
    {p : OpenProcedure} (h : (openProcedure name parent exported returns).runFrom s = (.ok p, s')) :
    ∃ c linkage, s.table.createProcedure name parent exported returns = .ok c ∧
      c.table.linkageName c.id = .ok linkage ∧ p = ⟨c.id, name, returns⟩ ∧
      s' = s.withHeader c returns linkage := by
  cases hc : s.table.createProcedure name parent exported returns with
  | error fault =>
    rw [runFrom_openProcedure_error hc] at h
    cases h
  | ok c =>
    obtain ⟨linkage, hlinkage, hrun⟩ := runFrom_openProcedure hc
    rw [hrun] at h
    cases h
    exact ⟨c, linkage, rfl, hlinkage, rfl, rfl⟩

/-! ## Bodies -/

/-- What a body comes to: one line is written, whose value is as the procedure's return type
asks for, or the body is rejected and nothing is written. -/
def Closes (p : OpenProcedure) (s : ParserState) : Except Fault DeclId × ParserState → Prop
  | (.ok id, s') => id = p.id ∧ ∃ t value, s.Reads t ∧
      s' = { t with ir := s.ir ++ [ending value] } ∧ value.isSome = p.returns.isSome ∧
      s.table.representation p.returns = returnRepresentation value.isSome
  | (.error _, s') => s.Reads s'

theorem Closes.behind {p : OpenProcedure} {o : Except Fault DeclId × ParserState}
    (h : s.Reads s') (hcloses : Closes p s' o) : Closes p s o := by
  obtain ⟨_ | id, t⟩ := o
  · exact h.trans hcloses
  · obtain ⟨hid, u, value, hreads, heq, htyped, hrep⟩ := hcloses
    refine ⟨hid, u, value, h.trans hreads, ?_, htyped, ?_⟩
    · rw [heq, h.ir]
    · rw [← h.table, hrep]

theorem returnNothing_closes (p : OpenProcedure) (s : ParserState) :
    Closes p s ((returnNothing p).runFrom s) := by
  unfold returnNothing
  cases hreturns : p.returns with
  | some type =>
    simp only [runFrom_bind, runFrom_ask]
    cases s.table.decl type <;> exact .refl s
  | none => exact ⟨rfl, s, none, .refl s, rfl, by rw [hreturns]; rfl, by rw [hreturns]; rfl⟩

theorem returnValue_closes (p : OpenProcedure) (value : Int32) (s : ParserState) :
    Closes p s ((returnValue p value).runFrom s) := by
  unfold returnValue
  rw [runFrom_bind, runFrom_get]
  dsimp only
  by_cases hrep : s.table.representation p.returns = Predeclared.integerRepresentation
  · rw [if_pos hrep]
    have htyped : p.returns.isSome := by
      rw [Option.isSome_iff_ne_none]
      intro hnone
      rw [hnone] at hrep
      have hvoid : Table.voidRepresentation = Predeclared.integerRepresentation := hrep
      exact absurd hvoid (by decide)
    exact ⟨rfl, _, some value, .advance s, rfl, htyped.symm, hrep⟩
  · rw [if_neg hrep]
    exact .refl s

theorem body_closes (p : OpenProcedure) (s : ParserState) :
    Closes p s ((body p).runFrom s) := by
  have hskip : ∀ (kind : TokenKind) (t : ParserState), ∃ present u,
      (skipIf kind).runFrom t = (.ok present, u) ∧ t.Reads u := by
    intro kind t
    have hreads := reading_skipIf kind t
    rw [runFrom_skipIf] at hreads ⊢
    split at hreads
    · exact ⟨true, _, if_pos ‹_›, hreads⟩
    · exact ⟨false, _, if_neg ‹_›, hreads⟩
  obtain ⟨begins, t, hbegin, ht⟩ := hskip (.keyword .beginWord) s
  obtain ⟨returns, u, hreturn, hu⟩ := hskip (.keyword .returnWord) t
  refine .behind (ht.trans hu) ?_
  rw [body, runFrom_bind, hbegin]
  dsimp only
  rw [runFrom_bind, hreturn]
  dsimp only
  cases returns with
  | false => exact returnNothing_closes p u
  | true =>
    rw [if_pos rfl, runFrom_bind, runFrom_cursor]
    dsimp only
    cases u.cursor.current.value with
    | none => exact returnNothing_closes p u
    | some value => exact returnValue_closes p value u

/-! ## Steps as moves -/

theorem moves_bind (hf : s.Moves (f.runFrom s).2)
    (hnext : ∀ a s', f.runFrom s = (.ok a, s') → s'.Moves ((next a).runFrom s').2) :
    s.Moves ((f >>= next).runFrom s).2 :=
  runFrom_bind_rel .trans hf hnext

theorem moves_of_reading (h : Reading f) (s : ParserState) : s.Moves (f.runFrom s).2 :=
  .single (.read (h s))

theorem openProcedure_moves {returns : Option DeclId} (hreturns : s.table.Knows returns)
    (name : String) (parent : Option DeclId) (exported : Bool) :
    s.Moves ((openProcedure name parent exported returns).runFrom s).2 := by
  cases hc : s.table.createProcedure name parent exported returns with
  | error fault =>
    rw [runFrom_openProcedure_error hc]
    exact .refl
  | ok c =>
    obtain ⟨linkage, hlinkage, hrun⟩ := runFrom_openProcedure hc
    rw [hrun]
    exact .single (.header hreturns hc hlinkage)

theorem body_moves (p : OpenProcedure) (s : ParserState) : s.Moves ((body p).runFrom s).2 := by
  have hcloses := body_closes p s
  generalize (body p).runFrom s = r at hcloses
  obtain ⟨_ | id, t⟩ := r
  · exact .single (.read hcloses)
  · obtain ⟨-, u, value, hreads, rfl, -, -⟩ := hcloses
    rw [← hreads.ir]
    exact .tail (.single (.read hreads)) (.ending value)

theorem heading_moves (parent : DeclId) (s : ParserState) :
    s.Moves ((heading parent).runFrom s).2 := by
  unfold heading
  refine moves_bind (moves_of_reading (reading_consume _) s) fun _ s _ => ?_
  refine moves_bind (moves_of_reading reading_expectIdent s) fun name s _ => ?_
  refine moves_bind (moves_of_reading (reading_skipIf _) s) fun exported s _ => ?_
  refine moves_bind (moves_of_reading reading_parameters s) fun _ s _ => ?_
  refine moves_bind (moves_of_reading (reading_returnType parent) s) fun returns s' hreturns => ?_
  have hknown : s'.table.Knows returns := by
    intro id hid
    obtain ⟨d, -, hd, -⟩ := returnType_ok hreturns id hid
    rw [((reading_returnType parent).of_ok hreturns).table]
    exact Table.lt_of_get? hd
  exact moves_bind (openProcedure_moves hknown name _ exported) fun _ s _ =>
    moves_of_reading (reading_pure _) s

theorem behindHeading_moves (name : String) (opened : OpenProcedure) (s : ParserState) :
    s.Moves ((behindHeading name opened).runFrom s).2 := by
  unfold behindHeading
  refine moves_bind (moves_of_reading (reading_consume _) s) fun _ s _ => ?_
  refine moves_bind (body_moves opened s) fun id s _ => ?_
  refine moves_of_reading ((reading_consume _).bind fun _ => ?_) s
  exact (reading_closingName _ _).bind fun _ => (reading_consume _).bind fun _ => reading_pure id

theorem procedure_moves (parent : DeclId) (s : ParserState) :
    s.Moves ((procedure parent).runFrom s).2 := by
  rw [procedure_eq]
  exact moves_bind (heading_moves parent s) fun r s _ => behindHeading_moves r.1 r.2 s

theorem procedures_moves (module : DeclId) (bound : Nat) (s : ParserState) :
    s.Moves ((procedures module bound).runFrom s).2 := by
  induction bound generalizing s with
  | zero => exact .refl
  | succ bound ih =>
    unfold procedures
    refine moves_bind (moves_of_reading (reading_isAt _) s) fun more s _ => ?_
    cases more with
    | false => exact moves_of_reading (reading_pure _) s
    | true => exact moves_bind (procedure_moves module s) fun _ s _ => ih s

theorem initializer_moves (module : DeclId) (s : ParserState) :
    s.Moves ((initializer module).runFrom s).2 := by
  unfold initializer
  refine moves_bind (openProcedure_moves s.table.knows_none initName _ true) fun p s _ => ?_
  exact body_moves p s

theorem create_module_moves (name : String) (parent : Option DeclId) (s : ParserState) :
    s.Moves ((create (·.createModule name parent)).runFrom s).2 := by
  rw [runFrom_create]
  cases hc : s.table.createModule name parent with
  | error fault => exact .refl
  | ok c => exact .single (.module hc)

theorem module_moves (parent : Option DeclId) (s : ParserState) :
    s.Moves ((module parent).runFrom s).2 := by
  unfold module
  refine moves_bind (moves_of_reading (reading_consume _) s) fun _ s _ => ?_
  refine moves_bind (moves_of_reading reading_expectIdent s) fun name s _ => ?_
  refine moves_bind (moves_of_reading (reading_consume _) s) fun _ s _ => ?_
  refine moves_bind (create_module_moves name parent s) fun id s _ => ?_
  refine moves_bind (moves_of_reading reading_cursor s) fun c s _ => ?_
  refine moves_bind (procedures_moves id c.remaining s) fun _ s _ => ?_
  refine moves_bind (initializer_moves id s) fun _ s _ => ?_
  refine moves_of_reading ((reading_consume _).bind fun _ => ?_) s
  refine (reading_closingName _ _).bind fun _ => (reading_consume _).bind fun _ => ?_
  exact quiet_get.reading.bind fun _ => (reading_tell _).bind fun _ => reading_pure id

end Parse

end ModuleCompiler
