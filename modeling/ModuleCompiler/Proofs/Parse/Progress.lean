/-
  Parsing goes forward and stays on the tokens. No step goes back, whatever its outcome
  (`Forward`), and a step that succeeds takes at least so many tokens (`Takes`). The cursor stays
  on the last token silently, but that is the end of the input, and no step that asks for a token
  asks for it; so what was asked for was left behind.

  * `takes_procedure`: a procedure takes seven tokens. One without an asterisk could do with six,
    but it is not accepted.
  * `rounds_procedures`: procedures are read as they are by a loop without a bound (`Rounds`),
    which begins no more of them than one for every seven tokens ahead.
  * `steady_run`: whatever is done with a parser and its cursor, in any order.
-/
import ModuleCompiler.Proofs.Parse.Qualified
import ModuleCompiler.Proofs.Parse.Session

namespace ModuleCompiler

/-! ## Cursors -/

namespace Cursor

variable {c d : Cursor} {kind : TokenKind}

theorem Ended.of_before (h : c.Ended) (hbefore : c.Before d) : d.Ended := by
  obtain ⟨tokens, htokens⟩ := h
  exact ⟨tokens, hbefore.1.trans htokens⟩

/-- A token that is not the end of the input has one behind it. -/
theorem Ended.remaining_pos (h : c.Ended) (hat : c.isAt kind) (hkind : kind ≠ .endOfInput) :
    0 < c.remaining := by
  have hlt := c.advance.position_lt
  rw [h.position_advance hat hkind, c.tokens_advance] at hlt
  unfold remaining
  omega

/-- Tokens that were stepped over are not ahead any more. -/
theorem Before.remaining_le (h : c.Before d) {n : Nat} (hn : c.position + n ≤ d.position) :
    d.remaining + n ≤ c.remaining := by
  have hlt := d.position_lt
  unfold remaining
  rw [h.1] at hlt ⊢
  omega

/-- A cursor on tokens is on one of them, and not behind the last one, the end of the input. -/
theorem exists_last {tokens : List Token} (h : c.tokens = (closed tokens).toArray) :
    ∃ front last, closed tokens = front ++ [last] ∧ last.kind = .endOfInput ∧
      c.position ≤ front.length ∧ (front ++ [last])[c.position]? = some c.current := by
  have hne := closed_ne_nil tokens
  have hkind := getLast?_closed tokens
  rw [List.getLast?_eq_some_getLast hne] at hkind
  have hsplit := (List.dropLast_concat_getLast hne).symm
  have hlt := c.position_lt
  have hcurrent := c.getElem?_position
  simp only [h, List.size_toArray, List.getElem?_toArray] at hlt hcurrent
  refine ⟨_, _, hsplit, Option.some.inj hkind, ?_, hsplit ▸ hcurrent⟩
  rw [List.length_dropLast]
  omega

end Cursor

theorem ParserState.Moves.before {s s' : ParserState} (h : s.Moves s') :
    s.cursor.Before s'.cursor := by
  induction h with
  | refl => exact s.cursor.before_refl
  | @tail t u _ hmove ih =>
    have hstep : t.cursor.Before u.cursor := by
      cases hmove with
      | read hreads => exact hreads.before
      | module _ => exact t.cursor.before_refl
      | header _ _ _ => exact t.cursor.before_refl
      | ending _ => exact t.cursor.before_refl
    exact ih.trans hstep

namespace Parse

variable {α β : Type} {f : Parse α} {next : α → Parse β} {s s' : ParserState} {n : Nat}
  {kind : TokenKind}

/-! ## Steps that do not go back -/

/-- The step does not go back, whether it succeeds or not. -/
def Forward (f : Parse α) : Prop :=
  ∀ s : ParserState, s.cursor.Before (f.runFrom s).2.cursor

theorem Reading.forward (h : Reading f) : Forward f := fun s => (h s).before

theorem forward_body (p : OpenProcedure) : Forward (body p) := fun s => (body_moves p s).before

/-- A procedure is opened where the cursor is, whatever type it is given. -/
theorem forward_openProcedure (name : String) (parent : Option DeclId) (exported : Bool)
    (returns : Option DeclId) : Forward (openProcedure name parent exported returns) := by
  intro s
  cases hc : s.table.createProcedure name parent exported returns with
  | error fault =>
    rw [runFrom_openProcedure_error hc]
    exact s.cursor.before_refl
  | ok c =>
    obtain ⟨linkage, -, hrun⟩ := runFrom_openProcedure hc
    rw [hrun]
    exact s.cursor.before_refl

/-! ## Steps that take tokens -/

/-- Where the step succeeds, it has stepped over at least so many tokens. -/
def Takes (f : Parse α) (n : Nat) : Prop :=
  ∀ s a s', s.cursor.Ended → f.runFrom s = (.ok a, s') →
    s.cursor.Before s'.cursor ∧ s.cursor.position + n ≤ s'.cursor.position

theorem Takes.bind {m : Nat} (hf : Takes f m) (hnext : ∀ a, Takes (next a) n) :
    Takes (f >>= next) (n + m) := by
  intro s b s' hended hrun
  obtain ⟨a, t, hfirst, hthen⟩ := runFrom_bind_eq_ok_iff.1 hrun
  obtain ⟨hbefore, hle⟩ := hf s a t hended hfirst
  obtain ⟨hbefore', hle'⟩ := hnext a t b s' (hended.of_before hbefore) hthen
  exact ⟨hbefore.trans hbefore', by omega⟩

theorem Forward.takes (h : Forward f) : Takes f 0 := by
  intro s a s' _ hrun
  have hbefore := h s
  rw [hrun] at hbefore
  exact ⟨hbefore, hbefore.2⟩

theorem Forward.bind_takes (hf : Forward f) (hnext : ∀ a, Takes (next a) n) :
    Takes (f >>= next) n :=
  hf.takes.bind hnext

/-- A step that asks for a token takes it, unless it asks for the end of the input. -/
theorem takes_one (kind : TokenKind) (hkind : kind ≠ .endOfInput)
    (hok : ∀ s a s', f.runFrom s = (.ok a, s') →
      s.cursor.isAt kind ∧ s' = { s with cursor := s.cursor.advance }) : Takes f 1 := by
  intro s a s' hended hrun
  obtain ⟨hat, rfl⟩ := hok s a s' hrun
  exact ⟨s.cursor.before_advance, Nat.le_of_eq (hended.position_advance hat hkind).symm⟩

theorem takes_consume (hkind : kind ≠ .endOfInput) : Takes (consume kind) 1 :=
  takes_one kind hkind fun _ _ _ hrun => consume_ok hrun

theorem takes_expectIdent : Takes expectIdent 1 := by
  refine takes_one .ident nofun fun s name s' hrun => ?_
  obtain ⟨hat, -, hs'⟩ := expectIdent_ok hrun
  exact ⟨hat, hs'⟩

theorem takes_closingName (what expected : String) : Takes (closingName what expected) 1 := by
  refine takes_one .ident nofun fun s _ s' hrun => ?_
  obtain ⟨hat, -, hs'⟩ := closingName_ok hrun
  exact ⟨hat, hs'⟩

/-- A token that may be left out is taken, or the steps behind it make up for it. -/
theorem Takes.bind_skipIf {next : Bool → Parse β} (hkind : kind ≠ .endOfInput)
    (hpresent : Takes (next true) n) (habsent : Takes (next false) (n + 1)) :
    Takes (skipIf kind >>= next) (n + 1) := by
  intro s b s' hended hrun
  rw [runFrom_bind, runFrom_skipIf] at hrun
  by_cases hat : s.cursor.isAt kind
  · rw [if_pos hat] at hrun
    have hadvance := s.cursor.before_advance
    obtain ⟨hbefore, hle⟩ := hpresent _ b s' (hended.of_before hadvance) hrun
    have hposition := hended.position_advance hat hkind
    refine ⟨hadvance.trans hbefore, ?_⟩
    dsimp only at hle
    omega
  · rw [if_neg hat] at hrun
    exact habsent s b s' hended hrun

/-! ## Procedures -/

/-- A procedure of a module that is not exported is not accepted. -/
theorem takes_unexported (name : String) (parent : DeclId) (returns : Option DeclId) (n : Nat) :
    Takes (openProcedure name (some parent) false returns) n := by
  intro s p s' _ hrun
  obtain ⟨c, linkage, hc, -⟩ := openProcedure_ok hrun
  rw [Table.createProcedure, if_pos ⟨rfl, nofun⟩] at hc
  cases hc

/-- `PROCEDURE name *`. -/
theorem takes_heading (parent : DeclId) : Takes (heading parent) 3 := by
  unfold heading
  refine (takes_consume (by decide)).bind fun _ => takes_expectIdent.bind fun name => ?_
  refine Takes.bind_skipIf (by decide) ?exported ?unexported
  case exported =>
    refine reading_parameters.forward.bind_takes fun _ => ?_
    refine (reading_returnType parent).forward.bind_takes fun returns => ?_
    refine (forward_openProcedure name _ true returns).bind_takes fun _ => ?_
    exact (reading_pure _).forward.takes
  case unexported =>
    refine reading_parameters.forward.bind_takes fun _ => ?_
    refine (reading_returnType parent).forward.bind_takes fun returns => ?_
    refine (takes_unexported name parent returns 1).bind fun _ => ?_
    exact (reading_pure _).forward.takes

/-- `; END name ;`. -/
theorem takes_behindHeading (name : String) (opened : OpenProcedure) :
    Takes (behindHeading name opened) 4 := by
  unfold behindHeading
  refine (takes_consume (by decide)).bind fun _ => ?_
  refine (forward_body opened).bind_takes fun id => ?_
  refine (takes_consume (by decide)).bind fun _ => (takes_closingName _ name).bind fun _ => ?_
  exact (takes_consume (by decide)).bind fun _ => (reading_pure id).forward.takes

theorem takes_procedure (parent : DeclId) : Takes (procedure parent) 7 := by
  rw [procedure_eq]
  exact (takes_heading parent).bind fun r => takes_behindHeading r.1 r.2

/-- Seven tokens are enough for a procedure: `PROCEDURE P * ; END P ;`. -/
example :
    let tokens : List Token := [⟨.keyword .procedureWord, "PROCEDURE", none, ⟨0, 9⟩⟩,
      ⟨.ident, "P", none, ⟨10, 11⟩⟩, ⟨.asterisk, "*", none, ⟨11, 12⟩⟩,
      ⟨.semicolon, ";", none, ⟨12, 13⟩⟩, ⟨.keyword .endWord, "END", none, ⟨14, 17⟩⟩,
      ⟨.ident, "P", none, ⟨18, 19⟩⟩, ⟨.semicolon, ";", none, ⟨19, 20⟩⟩]
    let s : ParserState := ⟨.ofTokens tokens, Predeclared.standard.table, [], []⟩
    let (outcome, s') := (procedure ⟨0⟩).runFrom s
    outcome = .ok ⟨2⟩ ∧ s'.cursor.position = 7 ∧ s'.cursor.atEnd := by
  decide +kernel

/-! ## The loop that reads procedures -/

/-- From the state, reading procedures as long as there are any begins so many of them and has the
outcome. There is no bound on them. -/
inductive Rounds (module : DeclId) :
    ParserState → Nat → Except Fault Unit × ParserState → Prop where
  | done {s : ParserState} : ¬ s.cursor.isAt (.keyword .procedureWord) →
      Rounds module s 0 (.ok (), s)
  | rejected {s t : ParserState} {fault : Fault} : s.cursor.isAt (.keyword .procedureWord) →
      (procedure module).runFrom s = (.error fault, t) → Rounds module s 1 (.error fault, t)
  | next {s t : ParserState} {id : DeclId} {n : Nat} {o : Except Fault Unit × ParserState} :
      s.cursor.isAt (.keyword .procedureWord) → (procedure module).runFrom s = (.ok id, t) →
      Rounds module t n o → Rounds module s (n + 1) o

variable {module : DeclId} {o o' : Except Fault Unit × ParserState}

/-- The loop has one outcome. -/
theorem Rounds.unique {m : Nat} (h : Rounds module s n o) (h' : Rounds module s m o') :
    m = n ∧ o' = o := by
  induction h generalizing m with
  | done hnot =>
    cases h' with
    | done _ => exact ⟨rfl, rfl⟩
    | rejected hat _ => exact absurd hat hnot
    | next hat _ _ => exact absurd hat hnot
  | rejected hat hrun =>
    cases h' with
    | done hnot => exact absurd hat hnot
    | rejected _ hrun' =>
      cases hrun.symm.trans hrun'
      exact ⟨rfl, rfl⟩
    | next _ hrun' _ => cases hrun.symm.trans hrun'
  | next hat hrun _ ih =>
    cases h' with
    | done hnot => exact absurd hat hnot
    | rejected _ hrun' => cases hrun.symm.trans hrun'
    | next _ hrun' hrounds =>
      cases hrun.symm.trans hrun'
      obtain ⟨rfl, rfl⟩ := ih hrounds
      exact ⟨rfl, rfl⟩

/-- Every procedure that is accepted takes seven of the tokens ahead, and one that is begun and
rejected has at least one token ahead. -/
theorem Rounds.bounded (h : Rounds module s n o) (hended : s.cursor.Ended) :
    7 * n < s.cursor.remaining + 7 ∧ (o.1 = .ok () → 7 * n ≤ s.cursor.remaining) := by
  induction h with
  | done _ => omega
  | rejected hat _ =>
    have hpos := hended.remaining_pos hat (by decide)
    refine ⟨by omega, ?_⟩
    intro hok
    cases hok
  | next hat hrun _ ih =>
    obtain ⟨hbefore, hseven⟩ := takes_procedure module _ _ _ hended hrun
    obtain ⟨hbegun, haccepted⟩ := ih (hended.of_before hbefore)
    have hleft := hbefore.remaining_le hseven
    refine ⟨by omega, fun hok => ?_⟩
    have hle := haccepted hok
    omega

/-- A bound of one procedure for every seven tokens ahead is never what ends the loop. -/
theorem rounds_procedures (module : DeclId) (bound : Nat) (hended : s.cursor.Ended)
    (hbound : s.cursor.remaining ≤ 7 * bound) :
    ∃ n, Rounds module s n ((procedures module bound).runFrom s) := by
  induction bound generalizing s with
  | zero =>
    refine ⟨0, .done fun hat => ?_⟩
    have hpos := hended.remaining_pos hat (by decide)
    omega
  | succ bound ih =>
    rw [procedures, runFrom_bind, runFrom_isAt]
    dsimp only
    by_cases hat : s.cursor.isAt (.keyword .procedureWord)
    · rw [if_pos hat, runFrom_bind]
      cases hrun : (procedure module).runFrom s with
      | mk outcome t =>
        cases outcome with
        | error fault => exact ⟨1, .rejected hat hrun⟩
        | ok id =>
          obtain ⟨hbefore, hseven⟩ := takes_procedure module _ _ _ hended hrun
          have hleft := hbefore.remaining_le hseven
          obtain ⟨n, hrounds⟩ := ih (hended.of_before hbefore) (by omega)
          exact ⟨n + 1, .next hat hrun hrounds⟩
    · rw [if_neg hat]
      exact ⟨0, .done hat⟩

theorem rounds_iff (module : DeclId) (hended : s.cursor.Ended) :
    ∃ n, ∀ m o, Rounds module s m o ↔
      m = n ∧ o = (procedures module s.cursor.remaining).runFrom s := by
  obtain ⟨n, hrounds⟩ := rounds_procedures module s.cursor.remaining hended (by omega)
  refine ⟨n, fun m o => ⟨hrounds.unique, ?_⟩⟩
  intro h
  obtain ⟨rfl, rfl⟩ := h
  exact hrounds

/-- The bound makes no difference where it is not less than the number of tokens ahead. -/
theorem runFrom_procedures_bound {bound bound' : Nat} (hended : s.cursor.Ended)
    (h : s.cursor.remaining ≤ bound) (h' : s.cursor.remaining ≤ bound') :
    (procedures module bound).runFrom s = (procedures module bound').runFrom s := by
  obtain ⟨n, hrounds⟩ := rounds_procedures module bound hended (by omega)
  obtain ⟨m, hrounds'⟩ := rounds_procedures module bound' hended (by omega)
  exact (hrounds'.unique hrounds).2

end Parse

/-! ## Sessions -/

namespace Cursor

/-- What can be done with a cursor: to look at its token, to step on, and to ask for a token. -/
inductive Operation where
  | isAt (kind : TokenKind)
  | advance
  | expect (kind : TokenKind)
  | consume (kind : TokenKind)
  | expectIdent

namespace Operation

/-- The operation on a cursor by itself: the cursor behind it, if it does not fail. -/
def outcome (c : Cursor) : Operation → Except Diagnostic Cursor
  | isAt _ => .ok c
  | advance => .ok c.advance
  | expect kind => (c.expect kind).map fun _ => c
  | consume kind => c.consume kind
  | expectIdent => c.expectIdent.map Prod.snd

/-- The operation as a step, on the cursor of a parser. -/
def step : Operation → Parse Unit
  | isAt kind => do let _ ← Parse.isAt kind
  | advance => Parse.advance
  | expect kind => Parse.expect kind
  | consume kind => Parse.consume kind
  | expectIdent => do let _ ← Parse.expectIdent

end Operation

end Cursor

namespace ParserState

/-- The outcome of an operation that does nothing but set the cursor, and not even that where it
fails. -/
def moved (s : ParserState) : Except Diagnostic Cursor → Except Fault Unit × ParserState
  | .ok c => (.ok (), { s with cursor := c })
  | .error d => (.error (.diagnostic d), s)

end ParserState

theorem Cursor.Operation.runFrom_step (op : Operation) (s : ParserState) :
    op.step.runFrom s = s.moved (op.outcome s.cursor) := by
  cases op with
  | isAt kind => rfl
  | advance => rfl
  | expect kind =>
    rw [step, Parse.runFrom_expect, outcome, Cursor.expect]
    by_cases h : s.cursor.isAt kind <;> simp only [h] <;> rfl
  | consume kind =>
    rw [step, Parse.runFrom_consume, outcome, Cursor.consume, Cursor.expect]
    by_cases h : s.cursor.isAt kind <;> simp only [h] <;> rfl
  | expectIdent =>
    rw [step, Parse.runFrom_bind, Parse.runFrom_expectIdent, outcome, Cursor.expectIdent,
      Cursor.expect]
    by_cases h : s.cursor.isAt .ident <;> simp only [h] <;> rfl

namespace Cursor.Operation

theorem reading_step (op : Operation) : Parse.Reading op.step := by
  cases op with
  | isAt kind => exact (Parse.reading_isAt kind).bind fun _ => Parse.reading_pure ()
  | advance => exact Parse.quiet_advance.reading
  | expect kind => exact (Parse.quiet_expect kind).reading
  | consume kind => exact Parse.reading_consume kind
  | expectIdent => exact Parse.reading_expectIdent.bind fun _ => Parse.reading_pure ()

end Cursor.Operation

namespace Session

/-- What is done with a parser: an operation of its cursor, or any call. -/
inductive Act where
  | operate (op : Cursor.Operation)
  | call (c : Call)

/-- The session after an act, whatever its outcome. -/
def act (s : Session) : Act → Session
  | .operate op => s.did op.step
  | .call c => s.after c

/-- The session after acts, one after the other. -/
def run (s : Session) (acts : List Act) : Session :=
  acts.foldl act s

theorem before_act (s : Session) (a : Act) : s.parser.cursor.Before (s.act a).parser.cursor := by
  have hreading : ∀ {α : Type} {f : Parse α}, Parse.Reading f →
      s.parser.cursor.Before (s.did f).parser.cursor := fun h => h.forward s.parser
  cases a with
  | operate op => exact hreading op.reading_step
  | call c =>
    cases c with
    | qualifiedName scope => exact hreading (Parse.reading_qualifiedName scope)
    | typeName scope => exact hreading (Parse.reading_typeName scope)
    | module parent => exact (Parse.module_moves parent s.parser).before
    | procedure parent => exact (Parse.procedure_moves parent s.parser).before
    | initializer module => exact (Parse.initializer_moves module s.parser).before
    | openProcedure name parent exported returns =>
      exact Parse.forward_openProcedure name parent exported returns s.parser
    | body p => exact Parse.forward_body p s.parser
    | request r => exact s.parser.cursor.before_refl

theorem before_run (s : Session) (acts : List Act) :
    s.parser.cursor.Before (s.run acts).parser.cursor := by
  induction acts generalizing s with
  | nil => exact s.parser.cursor.before_refl
  | cons a acts ih => exact (s.before_act a).trans (ih (s.act a))

/-- The parser makes progress on the tokens and stays on them. -/
structure Steady (tokens : List Token) (s : Session) : Prop where
  /-- The current token is one of the tokens up to the end of the input behind them. -/
  inside : ∃ front last, Cursor.closed tokens = front ++ [last] ∧ last.kind = .endOfInput ∧
    s.parser.cursor.position ≤ front.length ∧
      (front ++ [last])[s.parser.cursor.position]? = some s.parser.cursor.current
  /-- Whatever is done next, the cursor does not go back. -/
  forward : ∀ acts, s.parser.cursor.position ≤ (s.run acts).parser.cursor.position
  /-- An operation of the cursor does what it does to the cursor by itself, and nothing at all
  where it fails. -/
  operates : ∀ op : Cursor.Operation,
    op.step.runFrom s.parser = s.parser.moved (op.outcome s.parser.cursor)
  /-- A procedure that is accepted takes seven tokens, wherever on the tokens it is read. -/
  procedure : ∀ parent u id u', u.cursor.tokens = s.parser.cursor.tokens →
    (Parse.procedure parent).runFrom u = (.ok id, u') →
      u.cursor.position + 7 ≤ u'.cursor.position
  /-- The procedures of a module are read as by a loop without a bound, and that ends: it begins at
  most one of them for every seven tokens ahead, fewer at the end counted as seven, and at most
  one for every full seven if none is rejected. -/
  rounds : ∀ module u, u.cursor.tokens = s.parser.cursor.tokens → ∃ n,
    (∀ m o, Parse.Rounds module u m o ↔
      m = n ∧ o = (Parse.procedures module u.cursor.remaining).runFrom u) ∧
    7 * n < u.cursor.remaining + 7 ∧
    (((Parse.procedures module u.cursor.remaining).runFrom u).1 = .ok () →
      7 * n ≤ u.cursor.remaining)

/-- Whatever is done with a parser and its cursor, on whatever tokens. -/
theorem steady_run (tokens : List Token) (table : Table) (ir : IR) (events : List Event)
    (opened : List OpenProcedure) (acts : List Act) :
    ((Session.mk ⟨.ofTokens tokens, table, ir, events⟩ opened).run acts).Steady tokens := by
  obtain ⟨htokens, -⟩ := before_run ⟨⟨.ofTokens tokens, table, ir, events⟩, opened⟩ acts
  generalize (Session.mk ⟨.ofTokens tokens, table, ir, events⟩ opened).run acts = s at htokens
  have htokens : s.parser.cursor.tokens = (Cursor.closed tokens).toArray := htokens
  have hended : ∀ u : ParserState, u.cursor.tokens = s.parser.cursor.tokens → u.cursor.Ended :=
    fun u hu => ⟨tokens, hu.trans htokens⟩
  refine ⟨Cursor.exists_last htokens, fun acts => (s.before_run acts).2,
    fun op => op.runFrom_step s.parser, ?procedure, ?rounds⟩
  case procedure =>
    intro parent u id u' hu hrun
    exact (Parse.takes_procedure parent u id u' (hended u hu) hrun).2
  case rounds =>
    intro module u hu
    obtain ⟨n, hiff⟩ := Parse.rounds_iff module (hended u hu)
    exact ⟨n, hiff, ((hiff n _).2 ⟨rfl, rfl⟩).bounded (hended u hu)⟩

end Session

end ModuleCompiler
