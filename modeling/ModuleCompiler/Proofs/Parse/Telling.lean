/-
  What parsing tells. From any state and with any outcome, the events that a step adds tell of
  every change that it makes to the table and of every header that it writes, in order, and of no
  other (`Telling`). A step that tells of none of these leaves the table as it is and writes no
  header. So the events, the table and the output of a unit go together (`unit_telling`).
-/
import ModuleCompiler.Compile
import ModuleCompiler.Proofs.Decl.History
import ModuleCompiler.Proofs.Parse.Moves

namespace ModuleCompiler

/-- The event tells of a header. -/
def Event.isPrologue (e : Event) : Bool := e matches emittedPrologue ..

theorem Event.isPrologue_of_isChange {e : Event} (h : e.isChange = true) :
    e.isPrologue = false := by
  cases e <;> first | rfl | cases h

theorem Table.Operates.filter_isPrologue {t t' : Table} {events : List Event}
    (h : t.Operates events t') : events.filter Event.isPrologue = [] :=
  List.filter_eq_nil_iff.2 fun e he => by simp [Event.isPrologue_of_isChange (h.isChange e he)]

/-- The event that tells of the piece, if it is a header. -/
def IR.Piece.prologue? : IR.Piece → Option Event
  | header representation name => some (.emittedPrologue name representation)
  | _ => none

namespace ParserState

variable {s s' s'' : ParserState}

/-- The events between the states tell of the changes of the table and of the headers. -/
def Tells (s s' : ParserState) : Prop :=
  ∃ told pieces, s'.events = s.events ++ told ∧ s'.ir = s.ir ++ pieces ∧
    s.table.LeadsTo (told.filter Event.isChange) s'.table ∧
    told.filter Event.isPrologue = pieces.filterMap IR.Piece.prologue?

theorem Tells.refl (s : ParserState) : s.Tells s :=
  ⟨[], [], (List.append_nil _).symm, (List.append_nil _).symm, .refl, rfl⟩

theorem Tells.trans (h : s.Tells s') (h' : s'.Tells s'') : s.Tells s'' := by
  obtain ⟨told, pieces, hevents, hir, htable, hheaders⟩ := h
  obtain ⟨told', pieces', hevents', hir', htable', hheaders'⟩ := h'
  refine ⟨told ++ told', pieces ++ pieces', ?_, ?_, ?_, ?_⟩
  · rw [hevents', hevents, List.append_assoc]
  · rw [hir', hir, List.append_assoc]
  · rw [List.filter_append]
    exact htable.trans htable'
  · rw [List.filter_append, List.filterMap_append, hheaders, hheaders']

/-- Events that tell of no change and no header, where there is none. -/
theorem Tells.of_reads (h : s.Reads s') {told : List Event} (hevents : s'.events = s.events ++ told)
    (htold : ∀ e ∈ told, e.isChange = false ∧ e.isPrologue = false) : s.Tells s' := by
  have hchanges : told.filter Event.isChange = [] :=
    List.filter_eq_nil_iff.2 fun e he => by simp [(htold e he).1]
  have hheaders : told.filter Event.isPrologue = [] :=
    List.filter_eq_nil_iff.2 fun e he => by simp [(htold e he).2]
  refine ⟨told, [], hevents, h.ir.trans (List.append_nil _).symm, ?_, hheaders⟩
  rw [hchanges, h.table]
  exact .refl

theorem Tells.of_quiet (h : s.ReadsQuietly s') : s.Tells s' := by
  obtain ⟨told, hevents, hsearches⟩ := h.searches
  refine .of_reads h.toReads hevents fun e he => ?_
  have hsearch := hsearches e he
  cases e with
  | lookedUp => exact ⟨rfl, rfl⟩
  | _ => cases hsearch

end ParserState

namespace Parse

variable {α β : Type} {f : Parse α} {next : α → Parse β}

/-- The step tells of the changes that it makes and of the headers that it writes. -/
def Telling (f : Parse α) : Prop :=
  ∀ s : ParserState, s.Tells (f.runFrom s).2

theorem Telling.bind (hf : Telling f) (hnext : ∀ a, Telling (next a)) : Telling (f >>= next) :=
  fun s => runFrom_bind_rel .trans (hf s) fun a t _ => hnext a t

theorem Quiet.telling (h : Quiet f) : Telling f := fun s => .of_quiet (h s)

theorem telling_tell {told : List Event}
    (htold : ∀ e ∈ told, e.isChange = false ∧ e.isPrologue = false) : Telling (tell told) :=
  fun s => .of_reads (reading_tell told s) rfl htold

/-! ## Changes and headers -/

theorem telling_createModule (name : String) (parent : Option DeclId) :
    Telling (create (·.createModule name parent)) := by
  intro s
  rw [runFrom_create]
  cases hc : s.table.createModule name parent with
  | error fault => exact .refl s
  | ok c =>
    have hstep : s.table.Operates c.events c.table :=
      .create (d := ⟨name, parent, .module .empty⟩) hc
    refine ⟨c.events, [], rfl, (List.append_nil _).symm, ?_, hstep.filter_isPrologue⟩
    rw [hstep.filter_isChange]
    exact .single hstep

/-- A procedure is created and its header is written, and both are told. -/
theorem telling_openProcedure (name : String) (parent : Option DeclId) (exported : Bool)
    (returns : Option DeclId) : Telling (openProcedure name parent exported returns) := by
  intro s
  cases hc : s.table.createProcedure name parent exported returns with
  | error fault =>
    rw [runFrom_openProcedure_error hc]
    exact .refl s
  | ok c =>
    have hstep : s.table.Operates c.events c.table :=
      .create (d := ⟨name, parent, .procedure .empty exported returns⟩) hc
    obtain ⟨linkage, -, hrun⟩ := runFrom_openProcedure hc
    rw [hrun]
    have hevents : (s.withHeader c returns linkage).events =
        s.events ++ (c.events ++ [.emittedPrologue linkage (c.table.representation returns)]) :=
      List.append_assoc ..
    refine ⟨_, [_], hevents, rfl, ?_, ?_⟩
    · rw [List.filter_append, hstep.filter_isChange]
      exact (Table.LeadsTo.single hstep).trans .refl
    · rw [List.filter_append, hstep.filter_isPrologue]
      rfl

/-- The line that ends a function is not told of. -/
theorem telling_emit_ending (value : Option Int32) : Telling (emit (ending value)) := by
  intro s
  refine ⟨[], [ending value], (List.append_nil _).symm, rfl, .refl, ?_⟩
  cases value <;> rfl

/-! ## Parsing -/

theorem telling_returnNothing (p : OpenProcedure) : Telling (returnNothing p) := by
  unfold returnNothing
  cases p.returns with
  | some type => exact ((quiet_ask _).bind fun d => quiet_fail _).telling
  | none => exact (telling_emit_ending none).bind fun _ => (quiet_pure _).telling

theorem telling_returnValue (p : OpenProcedure) (value : Int32) :
    Telling (returnValue p value) := by
  unfold returnValue
  refine quiet_get.telling.bind fun s => ?_
  split
  · exact (telling_emit_ending (some value)).bind fun _ =>
      (quiet_advance.bind fun _ => quiet_pure _).telling
  · exact (quiet_fail _).telling

theorem telling_body (p : OpenProcedure) : Telling (body p) := by
  unfold body
  refine (quiet_skipIf _).telling.bind fun _ => (quiet_skipIf _).telling.bind fun returns => ?_
  split
  · refine quiet_cursor.telling.bind fun c => ?_
    split
    · exact telling_returnValue p _
    · exact telling_returnNothing p
  · exact telling_returnNothing p

theorem telling_procedure (parent : DeclId) : Telling (procedure parent) := by
  unfold procedure
  refine (quiet_consume _).telling.bind fun _ => quiet_expectIdent.telling.bind fun name => ?_
  refine (quiet_skipIf _).telling.bind fun exported => quiet_parameters.telling.bind fun _ => ?_
  refine (quiet_returnType parent).telling.bind fun returns => ?_
  refine (telling_openProcedure name _ exported returns).bind fun opened => ?_
  refine (quiet_consume _).telling.bind fun _ => (telling_body opened).bind fun id => ?_
  refine ((quiet_consume _).bind fun _ => (quiet_closingName _ _).bind fun _ => ?_).telling
  exact (quiet_consume _).bind fun _ => quiet_pure id

theorem telling_procedures (module : DeclId) (bound : Nat) :
    Telling (procedures module bound) := by
  induction bound with
  | zero => exact (quiet_pure _).telling
  | succ bound ih =>
    unfold procedures
    refine (quiet_isAt _).telling.bind fun more => ?_
    split
    · exact (telling_procedure module).bind fun _ => ih
    · exact (quiet_pure _).telling

theorem telling_initializer (module : DeclId) : Telling (initializer module) :=
  (telling_openProcedure _ _ _ _).bind fun opened => telling_body opened

theorem telling_module (parent : Option DeclId) : Telling (module parent) := by
  unfold module
  refine (quiet_consume _).telling.bind fun _ => quiet_expectIdent.telling.bind fun name => ?_
  refine (quiet_consume _).telling.bind fun _ => (telling_createModule name parent).bind fun id => ?_
  refine quiet_cursor.telling.bind fun c => (telling_procedures id _).bind fun _ => ?_
  refine (telling_initializer id).bind fun _ => (quiet_consume _).telling.bind fun _ => ?_
  refine (quiet_closingName _ _).telling.bind fun _ => (quiet_consume _).telling.bind fun _ => ?_
  refine quiet_get.telling.bind fun s => (telling_tell fun e he => ?_).bind fun _ => ?_
  · cases List.mem_singleton.1 he
    exact ⟨rfl, rfl⟩
  · exact (quiet_pure id).telling

end Parse

theorem unit_telling (env : Predeclared) : Parse.Telling (Compilation.unit env) := by
  unfold Compilation.unit
  refine (Parse.telling_module _).bind fun module => Parse.quiet_cursor.telling.bind fun c => ?_
  split
  · refine (Parse.quiet_ask _).telling.bind fun d => ?_
    refine (Parse.telling_tell fun e he => ?_).bind fun _ => ?_
    · cases List.mem_singleton.1 he
      exact ⟨rfl, rfl⟩
    · exact (Parse.quiet_pure module).telling
  · exact (Parse.quiet_fail _).telling

end ModuleCompiler
