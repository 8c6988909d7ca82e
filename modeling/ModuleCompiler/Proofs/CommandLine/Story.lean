/-
  The log, the table and the output of a run tell the same story. The log shows the events of a
  compilation, which are those of the predeclared environment and those of the parse. Together they
  lead from the empty table to the one at the end, so they are the events of its history
  (`Table.History.recorded`), and the parse has told of the header of every function in the output
  (`unit_telling`). `Compilation.Story` says both, and `story_of_compileTelling` puts them together.
-/
import ModuleCompiler.Proofs.CommandLine.Line
import ModuleCompiler.Proofs.CommandLine.Output
import ModuleCompiler.Proofs.Parse.Accepted
import ModuleCompiler.Proofs.Parse.Telling

namespace ModuleCompiler

open Parse Predeclared

/-- What is filtered out anyway can be filtered out before. -/
theorem filter_filter_of_imp {α : Type} {p q : α → Bool} (h : ∀ a, p a = true → q a = true)
    (as : List α) : (as.filter q).filter p = as.filter p := by
  rw [List.filter_filter]
  refine List.filter_congr fun a _ => ?_
  cases hp : p a with
  | false => rfl
  | true => rw [h a hp]; rfl

namespace Event

theorem isChange_of_isCreation (e : Event) (h : e.isCreation = true) : e.isChange = true := by
  rw [isChange, h, Bool.true_or]

theorem isChange_of_isInsertion (e : Event) (h : e.isInsertion = true) : e.isChange = true := by
  rw [isChange, h, Bool.or_true]

end Event

/-! ## From the empty table on -/

theorem Predeclared.leadsTo_of_build {env : Predeclared} (h : build = .ok env) :
    Table.empty.LeadsTo (env.events.filter Event.isChange) env.table := by
  obtain ⟨system, hsystem, h⟩ := bind_eq_ok_iff.1 h
  obtain ⟨⟨listed, listing⟩, hlisted, h⟩ := bind_eq_ok_iff.1 h
  obtain ⟨integer, hinteger, h⟩ := bind_eq_ok_iff.1 h
  cases h
  have hfirst : Table.empty.Operates system.events system.table :=
    .create (d := ⟨systemName, none, .module .empty⟩) hsystem
  have hsecond : system.table.Operates listing listed := .insert hlisted
  have hthird : listed.Operates integer.events integer.table :=
    .create (d := ⟨integerName, some system.id, .type integerRepresentation⟩) hinteger
  have hevents : (system.events ++ listing ++ integer.events ++
      [Event.builtPredeclared integer.table.size]).filter Event.isChange =
        system.events ++ listing ++ integer.events := by
    rw [List.filter_append, List.filter_append, List.filter_append, hfirst.filter_isChange,
      hsecond.filter_isChange, hthird.filter_isChange]
    exact List.append_nil _
  rw [hevents]
  exact ((Table.LeadsTo.single hfirst).step hsecond).step hthird

theorem compileTelling_ok {env : Predeclared} {target source : String} {c : Compilation}
    {told : List Event} (h : compileTelling env target source = (.ok c, told)) :
    ∃ tokens final, (Compilation.unit env).runFrom (Compilation.start env target tokens) =
        (.ok c.module, final) ∧ c.table = final.table ∧ c.ir = final.ir ∧ told = final.events := by
  unfold compileTelling at h
  cases hlex : Token.lex source with
  | error d =>
    rw [hlex] at h
    cases h
  | ok tokens =>
    rw [hlex] at h
    dsimp only at h
    generalize hrun : Compilation.parse env target tokens = r at h
    obtain ⟨_ | m, final⟩ := r
    · cases h
    · cases h
      exact ⟨tokens, final, hrun, rfl, rfl, rfl⟩

theorem unit_makes {env : Predeclared} {m : DeclId} {s s' : ParserState}
    (h : (Compilation.unit env).runFrom s = (.ok m, s')) :
    ∃ name ps, Makes s (some env.system) name (ps ++ [initRoutine]) s' := by
  obtain ⟨_, t, hmodule, h⟩ := runFrom_bind_eq_ok_iff.1 h
  obtain ⟨name, ps, hmakes⟩ := module_makes hmodule
  obtain ⟨_, u, hcursor, h⟩ := runFrom_bind_eq_ok_iff.1 h
  cases hcursor
  refine ⟨name, ps, hmakes.reads ?_⟩
  split at h
  · obtain ⟨d, v, hask, h⟩ := runFrom_bind_eq_ok_iff.1 h
    obtain ⟨_, w, htell, h⟩ := runFrom_bind_eq_ok_iff.1 h
    cases h
    exact ((reading_ask _).of_ok hask).trans ((reading_tell _).of_ok htell)
  · cases h

/-! ## Names and headers -/

/-- The names of all declarations, in the order of their ids. -/
def Table.names (t : Table) : List String := t.decls.toList.map Decl.name

theorem Table.getElem?_names (t : Table) (i : Nat) :
    t.names[i]? = (t.get? ⟨i⟩).map Decl.name := by
  rw [names, List.getElem?_map, Array.getElem?_toList]
  rfl

theorem Table.length_names (t : Table) : t.names.length = t.size := by
  rw [names, List.length_map, Array.length_toList, size]

theorem Table.WithModule.names {t t' : Table} {parent : Option DeclId} {name : String}
    {rs : List Routine} (h : t.WithModule parent name rs t') :
    t'.names = t.names ++ name :: rs.map Routine.name := by
  refine List.ext_getElem? fun i => ?_
  rw [List.getElem?_append, length_names]
  split
  · next hi =>
    rw [getElem?_names, getElem?_names, h.old ⟨i⟩ hi]
    split
    · rw [Option.map_map]
      rfl
    · rfl
  · next hi =>
    obtain ⟨k, rfl⟩ := Nat.exists_eq_add_of_le (Nat.le_of_not_lt hi)
    rw [Nat.add_sub_cancel_left, getElem?_names]
    cases k with
    | zero =>
      obtain ⟨scope, hmodule, -⟩ := h.module
      have hid : (⟨t.size + 0⟩ : DeclId) = t.next := rfl
      rw [hid, hmodule]
      rfl
    | succ k =>
      have hid : (⟨t.size + (k + 1)⟩ : DeclId) = t.routineId k := by
        refine DeclId.ext ?_
        show t.size + (k + 1) = t.size + 1 + k
        omega
      rw [List.getElem?_cons_succ, List.getElem?_map, hid]
      cases hr : rs[k]? with
      | some r =>
        rw [h.routine k r hr]
        rfl
      | none =>
        have hk := List.getElem?_eq_none_iff.1 hr
        have hsize := h.size
        have hout : t'.get? (t.routineId k) = none := by
          refine Array.getElem?_eq_none ?_
          show t'.size ≤ t.size + 1 + k
          omega
        rw [hout]
        rfl

theorem filterMap_routinePieces (name : String) (rs : List Routine) :
    (routinePieces name rs).filterMap IR.Piece.prologue? = rs.map fun r =>
      .emittedPrologue (name ++ "_" ++ r.name) (returnRepresentation r.value.isSome) := by
  induction rs with
  | nil => rfl
  | cons r rs ih =>
    have hone : (functionPieces (name ++ "_" ++ r.name) r.value).filterMap IR.Piece.prologue? =
        [.emittedPrologue (name ++ "_" ++ r.name) (returnRepresentation r.value.isSome)] := by
      cases r.value <;> rfl
    rw [routinePieces, List.flatMap_cons, List.filterMap_append, hone, List.map_cons, ← ih]
    rfl

/-! ## The story -/

/-- The events tell how the table was made and what was written. -/
structure Compilation.Story (target : String) (c : Compilation) (events : List Event) : Prop where
  /-- The creations are told once for each declaration of the table, in the order of the ids, each
  with the kind and the path of the declaration unless it is a root. -/
  creations : events.filter Event.isCreation = c.table.creations
  /-- The insertions are told once for each entry of a scope, in the order in which the entries
  were made, each with its name and the name of the declaration that has it. -/
  insertions : ∃ entries, c.table.History (events.filter Event.isChange) entries ∧
    (events.filter Event.isInsertion).map some = entries.map c.table.insertion? ∧
    entries.Nodup ∧ ∀ e, e ∈ entries ↔ c.table.Lists e
  /-- The declarations are the predeclared ones, the module, its procedures, and its body as the
  last one of them. The output has the target and one function for each of these procedures, and
  the headers are told as they stand there, with name and representation. -/
  functions : ∃ name ps,
    c.table.names = [systemName, integerName, name] ++ (ps ++ [initRoutine]).map Routine.name ∧
    c.ir.text = (IR.Piece.target target).text ++ String.join ((ps ++ [initRoutine]).map fun r =>
      UnitText.function (name ++ "_" ++ r.name) r.value) ∧
    events.filter Event.isPrologue = (ps ++ [initRoutine]).map fun r =>
      .emittedPrologue (name ++ "_" ++ r.name) (returnRepresentation r.value.isSome)

theorem story_of_compileTelling {target source : String} {c : Compilation} {told : List Event}
    (h : compileTelling standard target source = (.ok c, told)) :
    c.Story target (standard.events ++ told) := by
  obtain ⟨tokens, final, hrun, htable, hir, rfl⟩ := compileTelling_ok h
  have htells := unit_telling standard (Compilation.start standard target tokens)
  rw [hrun] at htells
  obtain ⟨told, pieces, hevents, hpieces, hleads, hheaders⟩ := htells
  obtain ⟨name, ps, hmakes⟩ := unit_makes hrun
  have hevents : final.events = told := hevents
  have hpieces : final.ir = [.target target] ++ pieces := hpieces
  have hmade : final.ir = [.target target] ++ routinePieces name (ps ++ [initRoutine]) := hmakes.ir
  obtain rfl : pieces = routinePieces name (ps ++ [initRoutine]) :=
    List.append_cancel_left (hpieces.symm.trans hmade)
  have hleads : Table.empty.LeadsTo ((standard.events ++ told).filter Event.isChange) c.table := by
    rw [List.filter_append, htable]
    exact (leadsTo_of_build build_eq_standard).trans hleads
  obtain ⟨entries, hhistory⟩ := Table.History.empty.leadsTo hleads
  rw [List.nil_append] at hhistory
  have hrecorded := hhistory.recorded
  rw [hevents]
  refine ⟨?_, ⟨entries, hhistory, ?_, hrecorded.nodup, hrecorded.mem_iff⟩, name, ps, ?_, ?_, ?_⟩
  · rw [← hrecorded.creations, filter_filter_of_imp Event.isChange_of_isCreation]
  · rw [← hrecorded.insertions, filter_filter_of_imp Event.isChange_of_isInsertion]
  · rw [htable, hmakes.table.names]
    rfl
  · rw [hir, hmade, IR.text_append, text_routinePieces]
    rfl
  · rw [List.filter_append, hheaders, filterMap_routinePieces]
    rfl

theorem Compilation.Story.congr {target : String} {c : Compilation} {events events' : List Event}
    (h : c.Story target events)
    (hchanges : events'.filter Event.isChange = events.filter Event.isChange)
    (hprologues : events'.filter Event.isPrologue = events.filter Event.isPrologue) :
    c.Story target events' where
  creations := by
    rw [← filter_filter_of_imp Event.isChange_of_isCreation, hchanges,
      filter_filter_of_imp Event.isChange_of_isCreation, h.creations]
  insertions := by
    rw [← filter_filter_of_imp Event.isChange_of_isInsertion, hchanges,
      filter_filter_of_imp Event.isChange_of_isInsertion]
    exact h.insertions
  functions := by
    rw [hprologues]
    exact h.functions

/-! ## The log -/

variable {t : Tools} {o : Options} {s : Surroundings}

/-- The events that a log shows at the level that the options ask for. -/
def Options.shown (o : Options) (events : List Event) : List Event :=
  events.filter fun e => o.level.shows e.level

/-- The lines of events at their times. -/
def Tools.lines (t : Tools) (o : Options) (shown : List (Event × Nat)) : List Message :=
  shown.map fun x => t.lineOf o x.1 x.2

end ModuleCompiler
