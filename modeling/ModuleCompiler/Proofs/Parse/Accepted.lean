/-
  What an accepted module leaves, from any state: the table has the module and its procedures
  behind what it had, and the output has their functions behind what it had, in the same order,
  which is the one of the source (`module_ok`). A function returns the value of the token behind
  the RETURN of its body (`Cursor.Body`), and a procedure is accepted only if its return type is a
  type of the table that is written as integers are.
-/
import ModuleCompiler.Proofs.Decl.Enclosure
import ModuleCompiler.Proofs.Parse.Moves
import ModuleCompiler.Proofs.Unit.Acceptance

namespace ModuleCompiler

open Predeclared

namespace Cursor

/-- The cursor behind a token of the kind if it is on one, and the same cursor otherwise. -/
def skip (c : Cursor) (kind : TokenKind) : Cursor :=
  if c.isAt kind then c.advance else c

/-- From the one cursor to the other there is a body, `[BEGIN] [RETURN [integer]]`, and it has the
value of the token behind RETURN. -/
inductive Body (c : Cursor) : Option Int32 → Cursor → Prop where
  | bare : ¬(c.skip (.keyword .beginWord)).isAt (.keyword .returnWord) →
      Body c none (c.skip (.keyword .beginWord))
  | noValue {d : Cursor} : (c.skip (.keyword .beginWord)).isAt (.keyword .returnWord) →
      (c.skip (.keyword .beginWord)).advance = d → d.current.value = none → Body c none d
  | value {d : Cursor} {value : Int32} :
      (c.skip (.keyword .beginWord)).isAt (.keyword .returnWord) →
      (c.skip (.keyword .beginWord)).advance = d → d.current.value = some value →
      Body c (some value) d.advance

/-- The cursor is on `END name` and a token of the given kind. -/
structure Closes (c : Cursor) (name : String) (last : TokenKind) : Prop where
  word : c.isAt (.keyword .endWord)
  ident : c.advance.isAt .ident
  name : c.advance.current.lexeme = name
  last : c.advance.advance.isAt last

/-- From the one cursor to the other there are procedures of the given names and values, each from
its `PROCEDURE name` to its `END name ;` and directly behind the one before. A body stands between
the heading's semicolon and the END. -/
inductive Procedures : Cursor → List (String × Option Int32) → Cursor → Prop where
  | nil (c : Cursor) : Procedures c [] c
  | cons {c h d e : Cursor} {name : String} {value : Option Int32}
      {more : List (String × Option Int32)} :
      c.isAt (.keyword .procedureWord) → c.advance.isAt .ident → c.advance.current.lexeme = name →
      c.advance.advance.Before h → h.isAt .semicolon → h.advance.Body value d →
      d.Closes name .semicolon → Procedures d.advance.advance.advance more e →
      Procedures c ((name, value) :: more) e

end Cursor

namespace Parse

variable {s s' : ParserState}

/-! ## Single steps -/

theorem create_ok {creation : Table → Except Fault Created} {id : DeclId}
    (h : (create creation).runFrom s = (.ok id, s')) :
    ∃ c, creation s.table = .ok c ∧ c.id = id ∧
      s' = { s with table := c.table, events := s.events ++ c.events } := by
  rw [runFrom_create] at h
  cases hc : creation s.table with
  | error fault =>
    rw [hc] at h
    cases h
  | ok c =>
    rw [hc] at h
    cases h
    exact ⟨c, rfl, rfl, rfl⟩

/-! ## Bodies -/

theorem returnNothing_ok {p : OpenProcedure} {id : DeclId}
    (h : (returnNothing p).runFrom s = (.ok id, s')) :
    s' = { s with ir := s.ir ++ [ending none] } := by
  unfold returnNothing at h
  cases hreturns : p.returns with
  | some type =>
    simp only [hreturns, runFrom_bind, runFrom_ask] at h
    cases hdecl : s.table.decl type <;> rw [hdecl] at h <;> cases h
  | none =>
    rw [hreturns] at h
    cases h
    rfl

theorem returnValue_ok {p : OpenProcedure} {value : Int32} {id : DeclId}
    (h : (returnValue p value).runFrom s = (.ok id, s')) :
    s' = { s with cursor := s.cursor.advance, ir := s.ir ++ [ending (some value)] } := by
  rw [returnValue, runFrom_bind, runFrom_get] at h
  dsimp only at h
  split at h
  · cases h
    rfl
  · cases h

theorem runFrom_skipIf_skip (kind : TokenKind) (s : ParserState) :
    (skipIf kind).runFrom s =
      (.ok (s.cursor.isAt kind), { s with cursor := s.cursor.skip kind }) := by
  rw [runFrom_skipIf, Cursor.skip]
  cases s.cursor.isAt kind <;> rfl

/-- A body that is accepted is read as one, and the value that it has is returned. -/
theorem body_ok {p : OpenProcedure} {id : DeclId} (h : (body p).runFrom s = (.ok id, s')) :
    ∃ value, s.cursor.Body value s'.cursor ∧ s'.ir = s.ir ++ [ending value] := by
  rw [body, runFrom_bind, runFrom_skipIf_skip] at h
  dsimp only at h
  rw [runFrom_bind, runFrom_skipIf_skip] at h
  dsimp only at h
  by_cases hreturn : (s.cursor.skip (.keyword .beginWord)).isAt (.keyword .returnWord)
  · have hskip : (s.cursor.skip (.keyword .beginWord)).skip (.keyword .returnWord) =
        (s.cursor.skip (.keyword .beginWord)).advance := if_pos hreturn
    rw [hskip, if_pos hreturn, runFrom_bind, runFrom_cursor] at h
    dsimp only at h
    split at h
    · next value hvalue =>
      rw [returnValue_ok h]
      exact ⟨some value, .value hreturn rfl hvalue, rfl⟩
    · next hvalue =>
      rw [returnNothing_ok h]
      exact ⟨none, .noValue hreturn rfl hvalue, rfl⟩
  · have hskip : (s.cursor.skip (.keyword .beginWord)).skip (.keyword .returnWord) =
        s.cursor.skip (.keyword .beginWord) := if_neg hreturn
    rw [hskip, if_neg hreturn] at h
    rw [returnNothing_ok h]
    exact ⟨none, .bare hreturn, rfl⟩

theorem ending_inj {value value' : Option Int32} (h : ending value = ending value') :
    value = value' := by
  cases value <;> cases value' <;> cases h <;> rfl

/-! ## One routine -/

/-- The routine returns a value exactly if it has a return type, which is a type of the table
that is written as integers are. -/
structure Typed (t : Table) (r : Routine) : Prop where
  value : r.value.isSome = r.returns.isSome
  type : ∀ id, r.returns = some id →
    ∃ d, t.get? id = some d ∧ d.representation? = some integerRepresentation

/-- What is written for routines of a module. -/
def routinePieces (name : String) (rs : List Routine) : IR :=
  rs.flatMap fun r => functionPieces (name ++ "_" ++ r.name) r.value

/-- From the one state to the other a module with the given routines was declared and written. -/
structure Makes (s : ParserState) (parent : Option DeclId) (name : String) (rs : List Routine)
    (s' : ParserState) : Prop where
  table : s.table.WithModule parent name rs s'.table
  typed : ∀ r ∈ rs, Typed s.table r
  ir : s'.ir = s.ir ++ routinePieces name rs

variable {parent : Option DeclId} {name : String} {rs : List Routine} {start : ParserState}

theorem Makes.reads (h : Makes start parent name rs s) (hreads : s.Reads s') :
    Makes start parent name rs s' where
  table := by rw [hreads.table]; exact h.table
  typed := h.typed
  ir := hreads.ir.trans h.ir

/-- A type that a value is returned for, in a table that has grown since, is written as integers
are. -/
theorem eq_integerRepresentation {t t' : Table} {id : DeclId} {d : Decl}
    {representation : String} (hgrows : t.GrowsTo t') (hd : t.get? id = some d)
    (hrepd : d.representation? = some representation)
    (hrep : t'.representation (some id) = returnRepresentation true) :
    representation = integerRepresentation := by
  have hsame : t'.representation (some id) = t.representation (some id) := by
    refine hgrows.representation fun i hi => ?_
    cases hi
    exact Table.lt_of_get? hd
  rw [hsame, Table.representation, Option.bind_some, hd, Option.bind_some, hrepd] at hrep
  exact hrep

/-- A procedure that is opened in the module and closed by its body is one more routine. -/
theorem Makes.extend (h : Makes start parent name rs s) {routine : String} {exported : Bool}
    {returns : Option DeclId} {p : OpenProcedure} {t u : ParserState} {id : DeclId}
    (hreturns : ∀ id, returns = some id →
      ∃ d representation, s.table.get? id = some d ∧ d.representation? = some representation)
    (hopen : (openProcedure routine (some start.table.next) exported returns).runFrom s =
      (.ok p, t))
    (hreads : t.Reads u) (hbody : (body p).runFrom u = (.ok id, s')) :
    ∃ value, Makes start parent name (rs ++ [⟨routine, returns, value⟩]) s' ∧
      u.cursor.Body value s'.cursor := by
  obtain ⟨c, linkage, hc, hlinkage, rfl, rfl⟩ := openProcedure_ok hopen
  obtain ⟨read, hread, hir⟩ := body_ok hbody
  have hcloses := body_closes ⟨c.id, routine, returns⟩ u
  rw [hbody] at hcloses
  obtain ⟨-, v, value, hv, rfl, hvalue, hrep⟩ := hcloses
  have hwritten : [ending value] = [ending read] := List.append_inj_right hir rfl
  obtain rfl := ending_inj (List.singleton_inj.1 hwritten)
  have hvalue : value.isSome = returns.isSome := hvalue
  have hrep : u.table.representation returns = returnRepresentation value.isSome := hrep
  obtain ⟨htable, hname⟩ := h.table.extend (r := ⟨routine, returns, value⟩) hc
  cases hlinkage.symm.trans hname
  have hutable : u.table = c.table := hreads.table
  have huir : u.ir = s.ir ++ [.header (c.table.representation returns) (name ++ "_" ++ routine)] :=
    hreads.ir
  refine ⟨value, ⟨?_, ?_, ?_⟩, hread⟩
  · show start.table.WithModule parent name _ v.table
    rw [hv.table, hutable]
    exact htable
  · intro r hr
    obtain hr | hr := List.mem_append.1 hr
    · exact h.typed r hr
    · rw [List.mem_singleton.1 hr]
      refine ⟨hvalue, fun type htype => ?_⟩
      have htype : returns = some type := htype
      obtain ⟨d, representation, hd, hrepd⟩ := hreturns type htype
      obtain ⟨o, ho, hrepo⟩ := h.table.type hd hrepd
      have hgrows := (Table.gains_of_createProcedure hc).2.growsTo
      rw [hutable, hvalue, htype] at hrep
      rw [eq_integerRepresentation hgrows hd hrepd hrep] at hrepo
      exact ⟨o, ho, hrepo⟩
  · show u.ir ++ [ending value] = _
    rw [huir, ← hutable, hrep, h.ir]
    simp [routinePieces, functionPieces]

/-! ## Procedures -/

theorem Makes.procedure (h : Makes start parent name rs s) {id : DeclId}
    (hrun : (procedure start.table.next).runFrom s = (.ok id, s')) :
    ∃ r : Routine, Makes start parent name (rs ++ [r]) s' ∧
      ∀ more e, s'.cursor.Procedures more e →
        s.cursor.Procedures ((r.name, r.value) :: more) e := by
  obtain ⟨_, t, hstep, hrun⟩ := runFrom_bind_eq_ok_iff.1 hrun
  obtain ⟨hprocedure, rfl⟩ := consume_ok hstep
  obtain ⟨routine, t, hstep, hrun⟩ := runFrom_bind_eq_ok_iff.1 hrun
  obtain ⟨hident, hname, rfl⟩ := expectIdent_ok hstep
  obtain ⟨exported, t, hexported, hrun⟩ := runFrom_bind_eq_ok_iff.1 hrun
  obtain ⟨_, u, hparameters, hrun⟩ := runFrom_bind_eq_ok_iff.1 hrun
  obtain ⟨returns, v, hreturns, hrun⟩ := runFrom_bind_eq_ok_iff.1 hrun
  have hheading := ((reading_skipIf _).of_ok hexported).trans <|
    (reading_parameters.of_ok hparameters).trans ((reading_returnType _).of_ok hreturns)
  have hreturns : ∀ id, returns = some id → ∃ d representation,
      v.table.get? id = some d ∧ d.representation? = some representation := by
    rw [((reading_returnType _).of_ok hreturns).table]
    exact returnType_ok hreturns
  obtain ⟨opened, t, hopen, hrun⟩ := runFrom_bind_eq_ok_iff.1 hrun
  obtain ⟨_, u, hstep, hrun⟩ := runFrom_bind_eq_ok_iff.1 hrun
  have hbehind := (reading_consume _).of_ok hstep
  obtain ⟨hsemicolon, hu⟩ := consume_ok hstep
  obtain ⟨_, w, hbody, hrun⟩ := runFrom_bind_eq_ok_iff.1 hrun
  have hmakes := (h.reads (.trans (.advance s) (.advance _))).reads hheading
  obtain ⟨value, hmakes, hvalue⟩ := hmakes.extend hreturns hopen hbehind hbody
  have hcursor : t.cursor = v.cursor := by
    obtain ⟨c, linkage, -, -, -, rfl⟩ := openProcedure_ok hopen
    rfl
  rw [hu] at hvalue
  dsimp only at hvalue
  rw [hcursor] at hsemicolon hvalue
  obtain ⟨_, t, hstep, hrun⟩ := runFrom_bind_eq_ok_iff.1 hrun
  obtain ⟨hend, rfl⟩ := consume_ok hstep
  obtain ⟨_, t, hstep, hrun⟩ := runFrom_bind_eq_ok_iff.1 hrun
  obtain ⟨hclosing, hsame, rfl⟩ := closingName_ok hstep
  obtain ⟨_, t, hstep, hrun⟩ := runFrom_bind_eq_ok_iff.1 hrun
  obtain ⟨hlast, rfl⟩ := consume_ok hstep
  cases hrun
  refine ⟨⟨routine, returns, value⟩, ?_, ?_⟩
  · exact ((hmakes.reads (.advance _)).reads (.advance _)).reads (.advance _)
  · intro more e hmore
    exact .cons hprocedure hident hname hheading.before hsemicolon hvalue
      ⟨hend, hclosing, hsame, hlast⟩ hmore

theorem Makes.procedures (h : Makes start parent name rs s) {bound : Nat}
    (hrun : (procedures start.table.next bound).runFrom s = (.ok (), s')) :
    ∃ ps : List Routine, Makes start parent name (rs ++ ps) s' ∧
      s.cursor.Procedures (ps.map fun r => (r.name, r.value)) s'.cursor := by
  induction bound generalizing s rs with
  | zero =>
    cases hrun
    exact ⟨[], by rw [List.append_nil]; exact h, .nil _⟩
  | succ bound ih =>
    obtain ⟨more, t, hmore, hrun⟩ := runFrom_bind_eq_ok_iff.1 hrun
    cases hmore
    split at hrun
    · obtain ⟨_, t, hprocedure, hrun⟩ := runFrom_bind_eq_ok_iff.1 hrun
      obtain ⟨r, hmakes, hcons⟩ := h.procedure hprocedure
      obtain ⟨ps, hmakes, hps⟩ := ih hmakes hrun
      refine ⟨r :: ps, ?_, hcons _ _ hps⟩
      rw [← List.append_cons] at hmakes
      exact hmakes
    · cases hrun
      exact ⟨[], by rw [List.append_nil]; exact h, .nil _⟩

/-! ## Modules -/

/-- The routine of a module's body. -/
def initRoutine : Routine := ⟨initName, none, none⟩

/-- Where a procedure begins there is no body that END stands behind. -/
theorem not_procedure_of_body {c d : Cursor} {value : Option Int32} (h : c.Body value d)
    (hend : d.isAt (.keyword .endWord)) : ¬c.isAt (.keyword .procedureWord) := by
  intro hprocedure
  have hkind : c.current.kind = .keyword .procedureWord := of_decide_eq_true hprocedure
  have hother : ∀ k, k ≠ .procedureWord → ¬c.isAt (.keyword k) := by
    intro k hk hat
    have hat : c.current.kind = .keyword k := of_decide_eq_true hat
    rw [hkind] at hat
    cases hat
    exact hk rfl
  have hskip : c.skip (.keyword .beginWord) = c := if_neg (hother _ (by decide))
  have hno : ¬c.isAt (.keyword .returnWord) := hother _ (by decide)
  cases h with
  | bare =>
    rw [hskip] at hend
    exact hother _ (by decide) hend
  | noValue hreturn | value hreturn =>
    rw [hskip] at hreturn
    exact hno hreturn

theorem Makes.initializer (h : Makes start parent name rs s) {id : DeclId}
    (hrun : (initializer start.table.next).runFrom s = (.ok id, s')) :
    Makes start parent name (rs ++ [initRoutine]) s' ∧ s.cursor.Body none s'.cursor := by
  obtain ⟨opened, t, hopen, hrun⟩ := runFrom_bind_eq_ok_iff.1 hrun
  obtain ⟨value, hmakes, hread⟩ := h.extend (fun _ hid => by cases hid) hopen (.refl t) hrun
  have hcursor : t.cursor = s.cursor := by
    obtain ⟨c, linkage, -, -, -, rfl⟩ := openProcedure_ok hopen
    rfl
  rw [hcursor] at hread
  have hvalue : value.isSome = false :=
    (hmakes.typed ⟨initName, none, value⟩ (List.mem_append_right rs (.head _))).value
  cases value with
  | none => exact ⟨hmakes, hread⟩
  | some value => cases hvalue

/-- An accepted module is made with its procedures and its body, whatever it is inside. -/
theorem module_makes {m : DeclId} (h : (module parent).runFrom s = (.ok m, s')) :
    ∃ name ps, Makes s parent name (ps ++ [initRoutine]) s' := by
  obtain ⟨_, t, hstep, h⟩ := runFrom_bind_eq_ok_iff.1 h
  have hreads := (reading_consume _).of_ok hstep
  obtain ⟨name, t, hstep, h⟩ := runFrom_bind_eq_ok_iff.1 h
  have hreads := hreads.trans (reading_expectIdent.of_ok hstep)
  obtain ⟨_, t, hstep, h⟩ := runFrom_bind_eq_ok_iff.1 h
  have hreads := hreads.trans ((reading_consume _).of_ok hstep)
  obtain ⟨id, u, hstep, h⟩ := runFrom_bind_eq_ok_iff.1 h
  obtain ⟨c, hc, rfl, rfl⟩ := create_ok hstep
  rw [hreads.table] at hc
  obtain ⟨hid, htable⟩ := Table.WithModule.start hc
  rw [hid] at h
  have hmakes : Makes s parent name [] { t with table := c.table, events := t.events ++ c.events } :=
    ⟨htable, by simp, hreads.ir.trans (List.append_nil _).symm⟩
  obtain ⟨_, t, hstep, h⟩ := runFrom_bind_eq_ok_iff.1 h
  cases hstep
  obtain ⟨_, t, hprocedures, h⟩ := runFrom_bind_eq_ok_iff.1 h
  obtain ⟨ps, hmakes, -⟩ := hmakes.procedures hprocedures
  obtain ⟨_, t, hinit, h⟩ := runFrom_bind_eq_ok_iff.1 h
  obtain ⟨hmakes, -⟩ := hmakes.initializer hinit
  obtain ⟨_, v, hend, h⟩ := runFrom_bind_eq_ok_iff.1 h
  obtain ⟨_, w, hclosing, h⟩ := runFrom_bind_eq_ok_iff.1 h
  obtain ⟨_, x, hperiod, h⟩ := runFrom_bind_eq_ok_iff.1 h
  cases h
  have hrest : t.Reads x := ((reading_consume _).of_ok hend).trans <|
    ((reading_closingName _ _).of_ok hclosing).trans ((reading_consume _).of_ok hperiod)
  exact ⟨name, ps, hmakes.reads (hrest.trans ⟨rfl, Nat.le_refl _, rfl, rfl⟩)⟩

/-- The text of functions is a block for each of them. -/
theorem text_routinePieces (name : String) (rs : List Routine) :
    IR.text (routinePieces name rs) =
      String.join (rs.map fun r => UnitText.function (name ++ "_" ++ r.name) r.value) := by
  induction rs with
  | nil => rfl
  | cons r rs ih =>
    rw [routinePieces, List.flatMap_cons, IR.text_append, text_functionPieces, List.map_cons,
      String.join_cons, ← ih]
    rfl

/-- What an accepted module of the given name and procedures leaves behind. -/
structure AcceptedModule (s : ParserState) (parent : Option DeclId) (name : String)
    (ps : List Routine) (s' : ParserState) : Prop where
  /-- The tokens are those of a module with procedures of these names and values, in this order,
  and with a body behind them that has no value. -/
  opening : s.cursor.isAt (.keyword .moduleWord) ∧ s.cursor.advance.isAt .ident ∧
    s.cursor.advance.current.lexeme = name ∧ s.cursor.advance.advance.isAt .semicolon
  procedures : ∃ c d,
    s.cursor.advance.advance.advance.Procedures (ps.map fun r => (r.name, r.value)) c ∧
    ¬c.isAt (.keyword .procedureWord) ∧ c.Body none d ∧ d.Closes name .period ∧
    s'.cursor = d.advance.advance.advance
  /-- The table has the module, the procedures, and the body as the last one of them. -/
  table : s.table.WithModule parent name (ps ++ [initRoutine]) s'.table
  typed : ∀ r ∈ ps ++ [initRoutine], Typed s.table r
  /-- The output has a function for each of them. -/
  text : s'.ir.text = s.ir.text ++ String.join ((ps ++ [initRoutine]).map fun r =>
    UnitText.function (name ++ "_" ++ r.name) r.value)

/-- An accepted module is declared and written completely, and nothing else happens. All its ids
are of 32 bits if the table has fewer than `2 ^ 32` declarations together with the new ones, of which
there are two more than procedures in the source. -/
theorem module_ok {m : DeclId} (h : (module parent).runFrom s = (.ok m, s')) :
    m = s.table.next ∧ ∃ name ps, AcceptedModule s parent name ps s' := by
  obtain ⟨_, t, hstep, h⟩ := runFrom_bind_eq_ok_iff.1 h
  obtain ⟨hmodule, rfl⟩ := consume_ok hstep
  obtain ⟨name, t, hstep, h⟩ := runFrom_bind_eq_ok_iff.1 h
  obtain ⟨hident, hname, rfl⟩ := expectIdent_ok hstep
  obtain ⟨_, t, hstep, h⟩ := runFrom_bind_eq_ok_iff.1 h
  obtain ⟨hsemicolon, rfl⟩ := consume_ok hstep
  obtain ⟨id, t, hstep, h⟩ := runFrom_bind_eq_ok_iff.1 h
  obtain ⟨c, hc, rfl, rfl⟩ := create_ok hstep
  obtain ⟨hid, htable⟩ := Table.WithModule.start hc
  rw [hid] at h
  have hstart : Makes s parent name []
      ⟨s.cursor.advance.advance.advance, c.table, s.ir, s.events ++ c.events⟩ :=
    ⟨htable, by simp, (List.append_nil _).symm⟩
  obtain ⟨_, t, hstep, h⟩ := runFrom_bind_eq_ok_iff.1 h
  cases hstep
  obtain ⟨_, t, hprocedures, h⟩ := runFrom_bind_eq_ok_iff.1 h
  obtain ⟨ps, hmakes, hps⟩ := hstart.procedures hprocedures
  obtain ⟨_, u, hinit, h⟩ := runFrom_bind_eq_ok_iff.1 h
  obtain ⟨hmakes, hbody⟩ := hmakes.initializer hinit
  obtain ⟨_, v, hstep, h⟩ := runFrom_bind_eq_ok_iff.1 h
  obtain ⟨hend, rfl⟩ := consume_ok hstep
  obtain ⟨_, w, hstep, h⟩ := runFrom_bind_eq_ok_iff.1 h
  obtain ⟨hclosing, hsame, rfl⟩ := closingName_ok hstep
  obtain ⟨_, x, hstep, h⟩ := runFrom_bind_eq_ok_iff.1 h
  obtain ⟨hlast, rfl⟩ := consume_ok hstep
  cases h
  have hreads : u.Reads { u with cursor := u.cursor.advance.advance.advance } :=
    (ParserState.Reads.advance u).trans <| (ParserState.Reads.advance _).trans (.advance _)
  have hmakes := hmakes.reads (hreads.trans ⟨rfl, Nat.le_refl _, rfl, rfl⟩)
  refine ⟨rfl, name, ps, ⟨hmodule, hident, hname, hsemicolon⟩,
    ⟨_, u.cursor, hps, not_procedure_of_body hbody hend, hbody, ⟨hend, hclosing, hsame, hlast⟩, rfl⟩,
    hmakes.table, hmakes.typed, ?_⟩
  rw [hmakes.ir, IR.text_append, text_routinePieces]
  rfl

/-- A module inside a procedure, whose own procedure has a type from outside. -/
theorem module_ok_inside :
    let token (kind : TokenKind) (lexeme : String) : Token := ⟨kind, lexeme, none, ⟨0, 0⟩⟩
    let tokens := [token (.keyword .moduleWord) "MODULE", token .ident "M", token .semicolon ";",
      token (.keyword .procedureWord) "PROCEDURE", token .ident "P", token .asterisk "*",
      token .colon ":", token .ident "T", token .semicolon ";",
      token (.keyword .returnWord) "RETURN", ⟨.integer, "5", some 5, ⟨0, 0⟩⟩,
      token (.keyword .endWord) "END", token .ident "P", token .semicolon ";",
      token (.keyword .endWord) "END", token .ident "M", token .period "."]
    let table := Table.empty.run [.createModule "Lib" none, .createType "T" (some ⟨0⟩) "i32",
      .createProcedure "Q" (some ⟨0⟩) true none]
    let start : ParserState := ⟨.ofTokens tokens, table, [], []⟩
    ∃ m s', (module (some ⟨2⟩)).runFrom start = (.ok m, s') ∧
      s'.ir = [.header "i32" "M_P", .ret "i32" 5, .header "void" "M__init", .retVoid] ∧
      m = start.table.next ∧ ∃ name ps, AcceptedModule start (some ⟨2⟩) name ps s' := by
  intro token tokens table start
  have hok : ((module (some ⟨2⟩)).runFrom start).1 = .ok ⟨3⟩ := by decide +kernel
  have hir : ((module (some ⟨2⟩)).runFrom start).2.ir =
      [.header "i32" "M_P", .ret "i32" 5, .header "void" "M__init", .retVoid] := by decide +kernel
  generalize hrun : (module (some ⟨2⟩)).runFrom start = r at hok hir
  obtain ⟨outcome, s'⟩ := r
  cases hok
  exact ⟨_, s', rfl, hir, module_ok hrun⟩

end Parse

end ModuleCompiler
