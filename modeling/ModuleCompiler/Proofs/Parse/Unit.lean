/-
  Reading a whole unit. What is read is a valid unit, whose functions are then written, or a
  fault stops it (`unit_yields`).
-/
import ModuleCompiler.Compile
import ModuleCompiler.Proofs.Parse.Procedure

namespace ModuleCompiler.Parse

open Predeclared

variable {m : String} {earlier : List String} {v : View}

/-! ## Runs of procedures -/

/-- Procedures are read, declared and written one behind the other. -/
structure ProceduresRead (m : String) (earlier : List String) (v : View) (ps : List ProcedureText)
    (w : View) : Prop where
  valid : ProcedureText.AllValidAfter earlier ps
  names : ∀ p ∈ ps, p.name ≠ initName
  scene : Scene m (earlier ++ ps.map fun p => p.name) w.table
  ir : w.ir = v.ir ++ ps.flatMap fun p => functionPieces (m ++ "_" ++ p.name) p.body.value

theorem ProceduresRead.nil (hs : Scene m earlier v.table) : ProceduresRead m earlier v [] v where
  valid := trivial
  names := by simp
  scene := by rw [List.map_nil, List.append_nil]; exact hs
  ir := (List.append_nil _).symm

theorem ProceduresRead.cons {p : ProcedureText} {ps : List ProcedureText} {w x : View}
    (hp : ProcedureRead m earlier v p w) (hps : ProceduresRead m (earlier ++ [p.name]) w ps x) :
    ProceduresRead m earlier v (p :: ps) x where
  valid := ⟨hp.valid, hps.valid⟩
  names := List.forall_mem_cons.2 ⟨hp.name, hps.names⟩
  scene := by
    rw [List.map_cons, ← List.singleton_append, ← List.append_assoc]
    exact hps.scene
  ir := by rw [hps.ir, hp.ir, List.append_assoc, List.flatMap_cons]

/-- As many procedures are read as there are, since each of them takes a token. -/
theorem procedures_yields {bound : Nat} (hs : Scene m earlier v.table)
    (hbound : v.rest.length ≤ bound + 1) :
    (procedures unitId bound).Yields v
      (fun _ read w => ∃ ps, read = ps.flatMap ProcedureText.terminals ∧
        ProceduresRead m earlier v ps w ∧ nextKind w.rest ≠ .keyword .procedureWord)
      (fun d read rest => ∃ (ps : List ProcedureText) (after : List Terminal),
        read = ps.flatMap ProcedureText.terminals ++ after ∧
        Stopped (ProcedureFault m (earlier ++ ps.map fun p => p.name)) ProcedureStuck d
          after rest) := by
  induction bound generalizing v earlier with
  | zero =>
    -- the one token that is left is the end of the input
    refine .of_lexed fun hlexed => .pure ⟨[], rfl, .nil hs, ?_⟩
    cases hrest : v.rest with
    | nil => exact nofun
    | cons t ts =>
      rw [hrest] at hlexed hbound
      cases hlexed with
      | last place => exact nofun
      | cons _ hts =>
        have hpos := List.length_pos_iff.2 hts.ne_nil
        rw [List.length_cons] at hbound
        omega
  | succ bound ih =>
    unfold procedures
    refine .bind_isAt ?_
    by_cases hnext : nextKind v.rest = .keyword .procedureWord
    · rw [if_pos (decide_eq_true hnext)]
      refine (procedure_yields hs hnext).whole.bind ?_ ?_
      · intro _ _ w hread
        obtain ⟨⟨p, rfl, hp⟩, ts, hts, hread⟩ := hread
        have hshort : w.rest.length ≤ bound + 1 := by
          have hpos : 0 < p.terminals.length := by simp [ProcedureText.terminals]
          rw [hts, List.length_append] at hbound
          rw [hread, List.length_map] at hpos
          omega
        refine (ih hp.scene hshort).mono ?_ ?_
        · intro _ _ x hread
          obtain ⟨ps, rfl, hps, hend⟩ := hread
          exact ⟨p :: ps, rfl, .cons hp hps, hend⟩
        · intro d _ rest hstop
          obtain ⟨ps, after, rfl, hstop⟩ := hstop
          refine ⟨p :: ps, after, ?_, ?_⟩
          · rw [List.flatMap_cons, List.append_assoc]
          · rw [List.map_cons, ← List.singleton_append, ← List.append_assoc]
            exact hstop
      · intro d read rest hstop
        refine ⟨[], read, rfl, ?_⟩
        rw [List.map_nil, List.append_nil]
        exact hstop
    · rw [if_neg (by simp [hnext])]
      exact .pure ⟨[], rfl, .nil hs, hnext⟩

/-! ## Units -/

theorem initializer_yields (hs : Scene m earlier v.table) (hinit : initName ∉ earlier) :
    (initializer unitId).Yields v
      (fun _ read w => ∃ b : BodyText, read = b.terminals ∧ b.value = none ∧
        b.EndsBefore (nextKind w.rest) ∧ Scene m (earlier ++ [initName]) w.table ∧
        w.ir = v.ir ++ functionPieces (m ++ "_" ++ initName) none)
      (BodyFault initName false) := by
  unfold initializer
  refine (openProcedure_yields hs initName true false).bind ?_ ?_
  · intro p _ w hread
    obtain ⟨rfl, -, -, hname, hreturns, hrest, hscene, hir⟩ := hread
    rw [← hname]
    refine (body_yields hscene hreturns).mono ?_ (fun _ _ _ h => h)
    intro _ _ x hread
    obtain ⟨b, rfl, hvalue, hends, ts, rfl⟩ := hread
    have hnone : b.value = none := by
      rw [← Option.isNone_iff_eq_none, ← Option.not_isSome, hvalue]
      rfl
    refine ⟨b, rfl, hnone, hends, hname ▸ hscene, ?_⟩
    show w.ir ++ [ending b.value] = _
    rw [hir, hnone, hname, functionPieces]
    simp
  · intro d _ rest hstop
    obtain ⟨rfl, rfl, ⟨h, -⟩ | ⟨h, -⟩⟩ := hstop
    · cases h
    · exact absurd h hinit

/-- What is written for a unit. -/
def unitPieces (u : UnitText) : IR :=
  (u.procedures.flatMap fun p => functionPieces (u.name ++ "_" ++ p.name) p.body.value) ++
    functionPieces (u.name ++ "_" ++ initName) none

/-- A unit behind its procedures, up to its period. -/
def behindProcedures (m : String) : Parse DeclId := do
  let _ ← initializer unitId
  consume (.keyword .endWord)
  closingName "module" m
  consume .period
  tell [.parsedModule m (← get).table.size]
  return unitId

theorem behindProcedures_yields (hs : Scene m earlier v.table) (hinit : initName ∉ earlier)
    (hnext : nextKind v.rest ≠ .keyword .procedureWord) (ps : List ProcedureText) :
    (behindProcedures m).Yields v
      (fun id read w => id = unitId ∧ Scene m (earlier ++ [initName]) w.table ∧
        w.ir = v.ir ++ functionPieces (m ++ "_" ++ initName) none ∧
        ∃ b : BodyText, b.value = none ∧
          read = b.terminals ++ [.keyword .endWord, .ident m, .mark .period])
      (fun d read rest =>
        UnitFault d (UnitText.opening m ++ (ps.flatMap ProcedureText.terminals ++ read)) rest) := by
  unfold behindProcedures
  refine (initializer_yields hs hinit).whole.bind ?_ (fun _ _ _ h => .body h)
  intro _ _ w hread
  obtain ⟨⟨b, rfl, hvalue, hends, hscene, hir⟩, read, hrest, hread⟩ := hread
  refine .bind_consume rfl ?_ ?_
  case refine_2 =>
    intro t ts ht hk
    rw [ht] at hends
    rw [List.append_nil]
    -- where nothing of the body was read, the procedures have stopped here before
    have hprocedure : b.terminals = [] → t.kind ≠ .keyword .procedureWord := by
      intro hempty
      rw [hread, List.map_eq_nil_iff] at hempty
      rw [hrest, hempty, ht] at hnext
      exact hnext
    refine .unexpected (.body ?_ (Token.kind_terminal_ne hk) ?_)
    · rw [t.kind_terminal]
      exact hends
    · rw [t.kind_terminal]
      exact hprocedure
  intro t ts _ _
  refine (closingName_yields "module" m).bind ?_ ?_
  case refine_2 =>
    intro d _ rest hstop
    obtain ⟨rfl, next, more, found, rfl, hterm, hne, rfl⟩ | ⟨next, more, rfl, rfl, rfl, hk⟩ := hstop
    · exact .closing hterm hne
    · exact .unexpected (.closing hk)
  intro _ _ _ hread
  obtain ⟨rfl, more, rfl⟩ := hread
  refine .bind_consume rfl ?_ ?_
  case refine_2 =>
    intro t ts _ hk
    exact .unexpected (.period (Token.kind_terminal_ne hk))
  intro t ts _ _
  exact .bind_get fun s _ => .bind_tell (.pure ⟨rfl, hscene, hir, b, hvalue, rfl⟩)

theorem module_yields (hv : v.table = standard.table) :
    (module (some standard.system)).Yields v
      (fun id read w => ∃ u : UnitText, read = u.terminals ∧ u.Valid ∧
        w.ir = v.ir ++ unitPieces u ∧ ∃ scope, id = unitId ∧ Scene u.name scope w.table)
      UnitFault := by
  unfold module
  refine .bind_consume rfl ?_ ?_
  case refine_2 =>
    intro t ts _ hk
    exact .unexpected (.module (Token.kind_terminal_ne hk))
  intro t ts _ _
  refine .bind_expectIdent ?_ ?_
  case refine_2 =>
    intro t ts _ hk
    exact .unexpected (.name (Token.kind_terminal_ne hk))
  intro t ts _ hk hproper
  generalize t.lexeme = m
  refine .bind_consume rfl ?_ ?_
  case refine_2 =>
    intro t ts _ hk
    exact .unexpected (.semicolon (Token.kind_terminal_ne hk))
  intro t ts _ _
  by_cases hreserved : m = systemName ∨ m = integerName
  · exact .create_error (hv ▸ start_taken hreserved) (.reserved hreserved)
  obtain ⟨hsystem, hinteger⟩ := not_or.1 hreserved
  obtain ⟨c, hc, hid, hs⟩ := Scene.start hsystem hinteger
  refine .bind_create (hv ▸ hc) (.bind_cursor fun s hshows => ?_)
  rw [hid]
  have hbound := hshows.remaining
  refine (procedures_yields (v := ⟨ts, c.table, v.ir⟩) hs (Nat.le_of_eq hbound.symm)).bind ?_ ?_
  case refine_2 =>
    intro d _ rest hstop
    obtain ⟨ps, after, rfl, hfault | ⟨next, more, rfl, rfl, hstuck⟩⟩ := hstop
    · exact .procedure hfault
    · exact .unexpected (.procedure hstuck)
  intro _ _ w hread
  obtain ⟨ps, rfl, hps, hend⟩ := hread
  have hinit : initName ∉ ps.map fun p => p.name := by
    intro hmem
    obtain ⟨p, hp, hname⟩ := List.mem_map.1 hmem
    exact hps.names p hp hname
  refine (behindProcedures_yields hps.scene hinit hend ps).mono ?_ (fun _ _ _ h => h)
  intro _ _ x hread
  obtain ⟨rfl, hscene, hir, b, hvalue, rfl⟩ := hread
  refine ⟨⟨m, ps, b, m⟩, rfl, ⟨⟨hsystem, hinteger⟩, rfl, hps.valid, hvalue⟩, ?_, _, rfl, hscene⟩
  rw [hir, hps.ir, unitPieces, List.append_assoc]

/-! ## Compilations -/

/-- The tokens of the scanner are not closed once more. -/
theorem closed_of_lexed {tokens : List Token} (h : Token.Lexed tokens) :
    Cursor.closed tokens = tokens := by
  have hlast : tokens.getLast?.map Token.kind = some .endOfInput := by
    induction h with
    | last place => rfl
    | cons _ hts ih =>
      obtain ⟨t, ts, hcons⟩ := List.exists_cons_of_ne_nil hts.ne_nil
      rw [hcons] at ih ⊢
      rw [List.getLast?_cons_cons]
      exact ih
  rw [Cursor.closed, if_pos hlast]

theorem start_shows {tokens : List Token} (h : Token.Lexed tokens) (target : String) :
    (Compilation.start standard target tokens).Shows
      ⟨tokens, standard.table, [.target target]⟩ where
  rest := closed_of_lexed h
  lexed := h
  table := rfl
  ir := rfl

theorem unit_yields (hv : v.table = standard.table) :
    (Compilation.unit standard).Yields v
      (fun _ read w => ∃ u : UnitText, read = u.terminals ∧ u.Valid ∧
        w.ir = v.ir ++ unitPieces u ∧ nextKind w.rest = .endOfInput) UnitFault := by
  unfold Compilation.unit
  refine (module_yields hv).bind ?_ (fun _ _ _ h => h)
  intro _ _ w hread
  obtain ⟨u, rfl, hvalid, hir, scope, rfl, hs⟩ := hread
  refine .bind_cursor fun s hshows => ?_
  obtain ⟨ts, hrest, -⟩ := hshows.split
  rw [Cursor.atEnd, hshows.isAt]
  by_cases hend : nextKind w.rest = .endOfInput
  · obtain ⟨d, hd, -⟩ := Table.decl_of_bare? hs.module
    rw [if_pos (decide_eq_true hend)]
    exact .bind_ask hd (.bind_tell (.pure ⟨u, List.append_nil _, hvalid, hir, hend⟩))
  · rw [if_neg (by simp [hend])]
    refine .fail ?_
    rw [hrest] at hend ⊢
    rw [List.append_nil]
    exact .unexpected (.behind (Token.kind_terminal_ne hend))

end ModuleCompiler.Parse
