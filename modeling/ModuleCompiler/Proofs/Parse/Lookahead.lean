/-
  No step of parsing looks beyond the cursor. Two runs over tokens that say the same up to the
  token where the first one ends go through the same states (`Causal`), so what stands behind the
  token that a parse is stopped at does not matter.

  * `Agree.advance`: the one place where more than the current token is looked at, since the
    cursor stays on the last token; but the last token is the one that says it is.
  * `causal_allProcedures`: the bound on the number of procedures differs between the runs, and
    makes no difference.
-/
import ModuleCompiler.Proofs.Parse.Progress
import ModuleCompiler.Proofs.Unit.Rejection

namespace ModuleCompiler

/-- What parsing may read of a token: all but its place. -/
def Token.content (t : Token) : TokenKind × String × Option Int32 :=
  (t.kind, t.lexeme, t.value)

/-! ## Cursors -/

namespace Cursor

/-- The end of the input is the last token, and no other token is one. -/
def Closed (c : Cursor) : Prop :=
  ∀ (i : Nat) (h : i < c.tokens.size), c.tokens[i].kind = .endOfInput ↔ i + 1 = c.tokens.size

variable {c d : Cursor}

theorem Closed.of_tokens (h : c.Closed) (htokens : d.tokens = c.tokens) : d.Closed := by
  unfold Closed at h ⊢
  rw [htokens]
  exact h

theorem Closed.last_iff (h : c.Closed) :
    c.current.kind = .endOfInput ↔ c.position + 1 = c.tokens.size :=
  h c.position c.position_lt

theorem Closed.ended (h : c.Closed) : c.Ended := by
  have hlt := c.position_lt
  have hlast : c.tokens.toList.getLast?.map Token.kind = some .endOfInput := by
    rw [List.getLast?_eq_getElem?, Array.length_toList, Array.getElem?_toList,
      Array.getElem?_eq_getElem (by omega), Option.map_some, (h _ (by omega)).2 (by omega)]
  refine ⟨c.tokens.toList, ?_⟩
  rw [closed, if_pos hlast, Array.toArray_toList]

theorem isAt_congr (h : d.current.content = c.current.content) (kind : TokenKind) :
    d.isAt kind = c.isAt kind := by
  unfold isAt
  rw [show d.current.kind = c.current.kind from congrArg Prod.fst h]

theorem lexeme_congr (h : d.current.content = c.current.content) :
    d.current.lexeme = c.current.lexeme :=
  congrArg (fun content => content.2.1) h

theorem value_congr (h : d.current.content = c.current.content) :
    d.current.value = c.current.value :=
  congrArg (fun content => content.2.2) h

theorem describe_congr (h : d.current.content = c.current.content) :
    d.current.describe = c.current.describe := by
  unfold Token.describe
  rw [show d.current.kind = c.current.kind from congrArg Prod.fst h, lexeme_congr h]

theorem unexpected_congr (h : d.current.content = c.current.content) :
    d.unexpected = c.unexpected := by
  unfold unexpected
  rw [describe_congr h]

theorem expect_congr (h : d.current.content = c.current.content) (kind : TokenKind) :
    d.expect kind = c.expect kind := by
  unfold expect
  rw [isAt_congr h, unexpected_congr h]

end Cursor

/-- The states are the same but for the tokens, and these say the same up to the position `k`. -/
structure Agree (k : Nat) (s s' : ParserState) : Prop where
  closed : s.cursor.Closed
  closed' : s'.cursor.Closed
  content : ∀ i ≤ k, s'.cursor.tokens[i]?.map Token.content = s.cursor.tokens[i]?.map Token.content
  position : s'.cursor.position = s.cursor.position
  table : s'.table = s.table
  ir : s'.ir = s.ir
  events : s'.events = s.events

namespace Agree

variable {k : Nat} {s s' : ParserState}

theorem current (h : Agree k s s') (hk : s.cursor.position ≤ k) :
    s'.cursor.current.content = s.cursor.current.content := by
  have hsame := h.content _ hk
  rw [← h.position, Cursor.getElem?_position, h.position, Cursor.getElem?_position] at hsame
  exact Option.some.inj hsame

theorem advance (h : Agree k s s') (hk : s.cursor.advance.position ≤ k) :
    Agree k { s with cursor := s.cursor.advance } { s' with cursor := s'.cursor.advance } := by
  have hkind : s'.cursor.current.kind = s.cursor.current.kind :=
    congrArg Prod.fst (h.current (Nat.le_trans s.cursor.position_le_advance hk))
  have hlast : s'.cursor.position + 1 = s'.cursor.tokens.size ↔
      s.cursor.position + 1 = s.cursor.tokens.size := by
    rw [← h.closed'.last_iff, ← h.closed.last_iff, hkind]
  refine ⟨h.closed.of_tokens (Cursor.tokens_advance _),
    h.closed'.of_tokens (Cursor.tokens_advance _), ?_, ?_, h.table, h.ir, h.events⟩
  · show ∀ i ≤ k, s'.cursor.advance.tokens[i]?.map _ = s.cursor.advance.tokens[i]?.map _
    rw [Cursor.tokens_advance, Cursor.tokens_advance]
    exact h.content
  · show s'.cursor.advance.position = s.cursor.advance.position
    have hlt := s.cursor.position_lt
    have hlt' := s'.cursor.position_lt
    have hposition := h.position
    rw [Cursor.position_advance, Cursor.position_advance]
    split <;> split <;> omega

end Agree

namespace Parse

variable {α β : Type} {f : Parse α} {next : α → Parse β}

/-! ## Steps that look no further -/

/-- The step goes forward, and it does the same to any two states that agree up to where it
ends. -/
structure Causal (f : Parse α) : Prop where
  forward : ∀ s : ParserState, s.cursor.Before (f.runFrom s).2.cursor
  agrees : ∀ k s s', Agree k s s' → (f.runFrom s).2.cursor.position ≤ k →
    (f.runFrom s').1 = (f.runFrom s).1 ∧ Agree k (f.runFrom s).2 (f.runFrom s').2

theorem Causal.bind (hf : Causal f) (hnext : ∀ a, Causal (next a)) : Causal (f >>= next) where
  forward s := by
    have hbefore := hf.forward s
    rw [runFrom_bind]
    generalize f.runFrom s = r at hbefore
    obtain ⟨_ | a, t⟩ := r
    · exact hbefore
    · exact hbefore.trans ((hnext a).forward t)
  agrees k s s' h hk := by
    have hagrees := hf.agrees k s s' h
    rw [runFrom_bind] at hk
    rw [runFrom_bind, runFrom_bind]
    generalize f.runFrom s = r at hagrees hk
    generalize f.runFrom s' = r' at hagrees
    obtain ⟨outcome, t⟩ := r
    obtain ⟨outcome', t'⟩ := r'
    cases outcome with
    | error fault =>
      obtain ⟨rfl, ht⟩ := hagrees hk
      exact ⟨rfl, ht⟩
    | ok a =>
      obtain ⟨rfl, ht⟩ := hagrees (Nat.le_trans ((hnext a).forward t).2 hk)
      exact (hnext a).agrees k t t' ht hk

/-- A step that does not look at the cursor. -/
theorem Causal.of_blind (h : ∀ s c, f.runFrom { s with cursor := c } =
    ((f.runFrom s).1, { (f.runFrom s).2 with cursor := c })) : Causal f where
  forward s := by
    rw [show (f.runFrom s).2.cursor = s.cursor from congrArg (fun r => r.2.cursor) (h s s.cursor)]
    exact s.cursor.before_refl
  agrees k s s' hs hk := by
    have heq : s' = { s with cursor := s'.cursor } := by
      obtain ⟨c, t, ir, events⟩ := s'
      obtain ⟨-, -, -, -, rfl, rfl, rfl⟩ := hs
      rfl
    have hcursor := congrArg (fun r => r.2.cursor) (h s s.cursor)
    have hrun := h s s'.cursor
    rw [← heq] at hrun
    rw [hrun]
    have hcursor : (f.runFrom s).2.cursor = s.cursor := hcursor
    refine ⟨rfl, ?_, hs.closed', ?_, ?_, rfl, rfl, rfl⟩
    · rw [hcursor]
      exact hs.closed
    · rw [hcursor]
      exact hs.content
    · rw [hcursor]
      exact hs.position

theorem causal_pure (a : α) : Causal (pure a : Parse α) := .of_blind fun _ _ => rfl

theorem causal_fail (d : Diagnostic) : Causal (fail d : Parse α) := .of_blind fun _ _ => rfl

theorem causal_tell (events : List Event) : Causal (tell events) := .of_blind fun _ _ => rfl

theorem causal_emit (piece : IR.Piece) : Causal (emit piece) := .of_blind fun _ _ => rfl

theorem causal_ask (question : Table → Except Fault α) : Causal (ask question) := by
  refine .of_blind fun s c => ?_
  rw [runFrom_ask, runFrom_ask]

theorem causal_create (creation : Table → Except Fault Created) : Causal (create creation) := by
  refine .of_blind fun s c => ?_
  rw [runFrom_create, runFrom_create]
  cases creation s.table <;> rfl

theorem causal_lookup (scope : DeclId) (name : String) : Causal (lookup scope name) := by
  refine .of_blind fun s c => ?_
  rw [runFrom_lookup, runFrom_lookup]
  cases s.table.lookup scope name <;> rfl

/-- A step that goes on by the table. -/
theorem causal_bind_get {next : ParserState → Parse β} (hnext : ∀ s, Causal (next s))
    (hsame : ∀ s s' : ParserState, s'.table = s.table → next s' = next s) :
    Causal ((MonadState.get : Parse ParserState) >>= next) where
  forward s := (hnext s).forward s
  agrees k s s' h hk := by
    rw [runFrom_bind, runFrom_get]
    show ((next s').runFrom s').1 = _ ∧ Agree k _ ((next s').runFrom s').2
    rw [hsame s s' h.table]
    exact (hnext s).agrees k s s' h hk

/-- A step that goes on by what the current token says. -/
theorem causal_bind_cursor {next : Cursor → Parse β} (hnext : ∀ c, Causal (next c))
    (hsame : ∀ c d : Cursor, d.current.content = c.current.content → next d = next c) :
    Causal (cursor >>= next) where
  forward s := (hnext s.cursor).forward s
  agrees k s s' h hk := by
    rw [runFrom_bind, runFrom_cursor]
    show ((next s'.cursor).runFrom s').1 = _ ∧ Agree k _ ((next s'.cursor).runFrom s').2
    have hposition := ((hnext s.cursor).forward s).2
    rw [hsame s.cursor s'.cursor (h.current (Nat.le_trans hposition hk))]
    exact (hnext s.cursor).agrees k s s' h hk

theorem causal_isAt (kind : TokenKind) : Causal (isAt kind) :=
  causal_bind_cursor (fun _ => causal_pure _) fun c d h => by
    rw [Cursor.isAt_congr h]

theorem causal_advance : Causal advance where
  forward s := s.cursor.before_advance
  agrees _ _ _ h hk := ⟨rfl, h.advance hk⟩

theorem causal_skipIf (kind : TokenKind) : Causal (skipIf kind) := by
  refine (causal_isAt kind).bind fun present => ?_
  cases present with
  | false => exact causal_pure _
  | true => exact causal_advance.bind fun _ => causal_pure _

theorem causal_expect (kind : TokenKind) : Causal (expect kind) := by
  refine causal_bind_cursor (fun c => ?_) fun c d h => ?_
  · cases c.expect kind with
    | error d => exact causal_fail d
    | ok _ => exact causal_pure _
  · rw [Cursor.expect_congr h]

theorem causal_consume (kind : TokenKind) : Causal (consume kind) :=
  (causal_expect kind).bind fun _ => causal_advance

theorem causal_expectIdent : Causal expectIdent := by
  refine (causal_expect .ident).bind fun _ => causal_bind_cursor (fun c => ?_) fun c d h => ?_
  · exact causal_advance.bind fun _ => causal_pure _
  · dsimp only
    rw [Cursor.lexeme_congr h]

/-! ## Names -/

theorem causal_member (module : DeclId) (name : String) : Causal (member module name) := by
  refine causal_advance.bind fun _ => causal_expectIdent.bind fun n => ?_
  refine (causal_ask _).bind fun found => ?_
  cases found with
  | none => exact causal_fail _
  | some c => exact causal_pure _

theorem causal_qualifiedName (scope : Option DeclId) : Causal (qualifiedName scope) := by
  cases scope with
  | none =>
    refine causal_bind_cursor (fun c => causal_fail _) fun c d h => ?_
    rw [Cursor.describe_congr h]
  | some scope =>
    refine causal_expectIdent.bind fun name => (causal_lookup scope name).bind fun found => ?_
    cases found with
    | none => exact causal_fail _
    | some c =>
      refine (causal_ask _).bind fun d => (causal_isAt _).bind fun period => ?_
      split
      · exact causal_member c name
      · exact causal_pure _

theorem causal_typeName (scope : Option DeclId) : Causal (typeName scope) := by
  refine (causal_qualifiedName scope).bind fun r => (causal_ask _).bind fun d => ?_
  split
  · exact causal_pure _
  · exact causal_fail _

/-! ## Procedures -/

theorem causal_openProcedure (name : String) (parent : Option DeclId) (exported : Bool)
    (returns : Option DeclId) : Causal (openProcedure name parent exported returns) := by
  refine (causal_create _).bind fun id => (causal_ask _).bind fun linkage => ?_
  refine causal_bind_get (fun s => ?_) fun s s' h => ?_
  · exact (causal_emit _).bind fun _ => (causal_tell _).bind fun _ => causal_pure _
  · rw [h]

theorem causal_returnNothing (p : OpenProcedure) : Causal (returnNothing p) := by
  unfold returnNothing
  split
  · exact (causal_ask _).bind fun d => causal_fail _
  · exact (causal_emit _).bind fun _ => causal_pure _

theorem causal_returnValue (p : OpenProcedure) (value : Int32) : Causal (returnValue p value) := by
  refine causal_bind_get (fun s => ?_) fun s s' h => ?_
  · split
    · exact (causal_emit _).bind fun _ => causal_advance.bind fun _ => causal_pure _
    · exact causal_fail _
  · rw [h]

theorem causal_body (p : OpenProcedure) : Causal (body p) := by
  refine (causal_skipIf _).bind fun _ => (causal_skipIf _).bind fun returns => ?_
  cases returns with
  | false => exact causal_returnNothing p
  | true =>
    refine causal_bind_cursor (fun c => ?_) fun c d h => ?_
    · split
      · exact causal_returnValue p _
      · exact causal_returnNothing p
    · rw [Cursor.value_congr h]

theorem causal_closingName (kind expected : String) : Causal (closingName kind expected) := by
  refine (causal_expect _).bind fun _ => causal_bind_cursor (fun c => ?_) fun c d h => ?_
  · dsimp only
    split
    · exact causal_advance
    · exact causal_fail _
  · dsimp only
    rw [Cursor.lexeme_congr h]

theorem causal_parameters : Causal parameters := by
  refine (causal_skipIf _).bind fun present => ?_
  cases present with
  | false => exact causal_pure _
  | true => exact causal_consume _

theorem causal_returnType (scope : DeclId) : Causal (returnType scope) := by
  refine (causal_skipIf _).bind fun present => ?_
  cases present with
  | false => exact causal_pure _
  | true => exact (causal_typeName _).bind fun _ => causal_pure _

theorem causal_procedure (parent : DeclId) : Causal (procedure parent) := by
  refine (causal_consume _).bind fun _ => causal_expectIdent.bind fun name => ?_
  refine (causal_skipIf _).bind fun exported => causal_parameters.bind fun _ => ?_
  refine (causal_returnType parent).bind fun returns => ?_
  refine (causal_openProcedure name _ exported returns).bind fun opened => ?_
  refine (causal_consume _).bind fun _ => (causal_body opened).bind fun id => ?_
  refine (causal_consume _).bind fun _ => (causal_closingName _ name).bind fun _ => ?_
  exact (causal_consume _).bind fun _ => causal_pure id

theorem causal_procedures (module : DeclId) (bound : Nat) : Causal (procedures module bound) := by
  induction bound with
  | zero => exact causal_pure ()
  | succ bound ih =>
    refine (causal_isAt _).bind fun more => ?_
    cases more with
    | false => exact causal_pure ()
    | true => exact (causal_procedure module).bind fun _ => ih

theorem causal_allProcedures (module : DeclId) :
    Causal (cursor >>= fun c => procedures module c.remaining) where
  forward s := (causal_procedures module _).forward s
  agrees k s s' h hk := by
    have hbound : ∀ u : ParserState, u.cursor.Closed → ∀ b, u.cursor.remaining ≤ b →
        (cursor >>= fun c => procedures module c.remaining).runFrom u =
          (procedures module b).runFrom u :=
      fun u hu b hb => runFrom_procedures_bound hu.ended (Nat.le_refl _) hb
    rw [hbound s h.closed _ (Nat.le_max_left _ s'.cursor.remaining)] at hk ⊢
    rw [hbound s' h.closed' _ (Nat.le_max_right s.cursor.remaining _)]
    exact (causal_procedures module _).agrees k s s' h hk

/-! ## Units -/

theorem causal_initializer (module : DeclId) : Causal (initializer module) :=
  (causal_openProcedure _ _ _ _).bind causal_body

theorem causal_module (parent : Option DeclId) : Causal (module parent) := by
  refine (causal_consume _).bind fun _ => causal_expectIdent.bind fun name => ?_
  refine (causal_consume _).bind fun _ => (causal_create _).bind fun id => ?_
  rw [← bind_assoc cursor fun c => procedures id c.remaining]
  refine (causal_allProcedures id).bind fun _ => (causal_initializer id).bind fun _ => ?_
  refine (causal_consume _).bind fun _ => (causal_closingName _ name).bind fun _ => ?_
  refine (causal_consume _).bind fun _ => causal_bind_get (fun s => ?_) fun s s' h => ?_
  · exact (causal_tell _).bind fun _ => causal_pure id
  · rw [h]

theorem causal_unit (env : Predeclared) : Causal (Compilation.unit env) := by
  refine (causal_module _).bind fun id => causal_bind_cursor (fun c => ?_) fun c d h => ?_
  · split
    · exact (causal_ask _).bind fun d => (causal_tell _).bind fun _ => causal_pure id
    · exact causal_fail _
  · rw [Cursor.atEnd, Cursor.atEnd, Cursor.isAt_congr h, Cursor.unexpected_congr h]

end Parse

/-! ## Compilations -/

theorem Token.Lexed.closed {tokens : List Token} (h : Token.Lexed tokens) {i : Nat} {t : Token}
    (ht : tokens[i]? = some t) : t.kind = .endOfInput ↔ i + 1 = tokens.length := by
  induction h generalizing i with
  | last place =>
    rw [List.getElem?_singleton] at ht
    split at ht
    · next hi =>
      cases ht
      rw [hi]
      exact ⟨fun _ => rfl, fun _ => rfl⟩
    · cases ht
  | @cons u us hproper hlexed ih =>
    cases i with
    | zero =>
      cases ht
      have hpos := List.length_pos_iff.2 hlexed.ne_nil
      rw [List.length_cons]
      exact ⟨fun hkind => absurd hkind hproper.kind_ne_endOfInput, fun hlast => by omega⟩
    | succ i =>
      rw [ih ht, List.length_cons]
      omega

theorem agree_start {tokens tokens' : List Token} (h : Token.Lexed tokens)
    (h' : Token.Lexed tokens') {k : Nat}
    (hcontent : ∀ i ≤ k, tokens'[i]?.map Token.content = tokens[i]?.map Token.content)
    (env : Predeclared) (target : String) :
    Agree k (Compilation.start env target tokens) (Compilation.start env target tokens') := by
  have hclosed : ∀ {ts : List Token}, Token.Lexed ts → (Cursor.ofTokens ts).Closed := by
    intro ts hts i hi
    have htokens : (Cursor.ofTokens ts).tokens = ts.toArray :=
      congrArg List.toArray (Parse.closed_of_lexed hts)
    simp only [htokens] at hi ⊢
    exact hts.closed (List.getElem?_eq_getElem hi)
  refine ⟨hclosed h, hclosed h', ?_, rfl, rfl, rfl, rfl⟩
  intro i hi
  show (Cursor.closed tokens').toArray[i]?.map _ = (Cursor.closed tokens).toArray[i]?.map _
  rw [Parse.closed_of_lexed h, Parse.closed_of_lexed h', List.getElem?_toArray,
    List.getElem?_toArray]
  exact hcontent i hi

/-- A rejection is final: whatever stands behind the token that the compiler stops at, it stops
there with the same fault, and has declared and written the same. -/
theorem compile_stops {env : Predeclared} {target source source' : String}
    {tokens tokens' : List Token} {fault : Fault} (hlex : Token.lex source = .ok tokens)
    (hlex' : Token.lex source' = .ok tokens') (hfault : compile env target source = .error fault)
    (hcontent : ∀ i ≤ (Compilation.parse env target tokens).2.cursor.position,
      tokens'[i]?.map Token.content = tokens[i]?.map Token.content) :
    compile env target source' = .error fault ∧
      let final := (Compilation.parse env target tokens).2
      let final' := (Compilation.parse env target tokens').2
      final'.cursor.position = final.cursor.position ∧ final'.table = final.table ∧
        final'.ir = final.ir ∧ final'.events = final.events := by
  have hlexed := Token.lexed_of_lex hlex
  have hstart := agree_start hlexed (Token.lexed_of_lex hlex') hcontent env target
  obtain ⟨houtcome, hfinal⟩ := (Parse.causal_unit env).agrees _ _ _ hstart (Nat.le_refl _)
  rw [compile_of_lex hlex] at hfault
  rw [compile_of_lex hlex']
  refine ⟨?_, hfinal.position, hfinal.table, hfinal.ir, hfinal.events⟩
  rw [show (Compilation.parse env target tokens').1 = (Compilation.parse env target tokens).1 from
    houtcome]
  cases hrun : (Compilation.parse env target tokens).1 with
  | error fault' =>
    rw [hrun] at hfault
    exact hfault
  | ok id =>
    rw [hrun] at hfault
    cases hfault

/-- Two sources that differ in where their tokens stand and in all that stands behind the second
name of the procedure. -/
theorem compile_stops_mismatch :
    ∃ tokens tokens', Token.lex "MODULE M; PROCEDURE P*; END Q; END M." = .ok tokens ∧
      Token.lex "MODULE M ; PROCEDURE P* ; END Q 7 (" = .ok tokens' ∧
      compile Predeclared.standard "t" "MODULE M; PROCEDURE P*; END Q; END M." =
        .error (.diagnostic (.nameMismatch "procedure" "P" "Q")) ∧
      (∀ i ≤ (Compilation.parse Predeclared.standard "t" tokens).2.cursor.position,
        tokens'[i]?.map Token.content = tokens[i]?.map Token.content) ∧
      (compile Predeclared.standard "t" "MODULE M ; PROCEDURE P* ; END Q 7 (" =
          .error (.diagnostic (.nameMismatch "procedure" "P" "Q")) ∧
        let final := (Compilation.parse Predeclared.standard "t" tokens).2
        let final' := (Compilation.parse Predeclared.standard "t" tokens').2
        final'.cursor.position = final.cursor.position ∧ final'.table = final.table ∧
          final'.ir = final.ir ∧ final'.events = final.events) := by
  have hlex : Token.lex "MODULE M; PROCEDURE P*; END Q; END M." =
      .ok [⟨.keyword .moduleWord, "MODULE", none, ⟨0, 6⟩⟩, ⟨.ident, "M", none, ⟨7, 8⟩⟩,
        ⟨.semicolon, ";", none, ⟨8, 9⟩⟩, ⟨.keyword .procedureWord, "PROCEDURE", none, ⟨10, 19⟩⟩,
        ⟨.ident, "P", none, ⟨20, 21⟩⟩, ⟨.asterisk, "*", none, ⟨21, 22⟩⟩,
        ⟨.semicolon, ";", none, ⟨22, 23⟩⟩, ⟨.keyword .endWord, "END", none, ⟨24, 27⟩⟩,
        ⟨.ident, "Q", none, ⟨28, 29⟩⟩, ⟨.semicolon, ";", none, ⟨29, 30⟩⟩,
        ⟨.keyword .endWord, "END", none, ⟨31, 34⟩⟩, ⟨.ident, "M", none, ⟨35, 36⟩⟩,
        ⟨.period, ".", none, ⟨36, 37⟩⟩, .endOfInput 37] := by
    cbv
  have hlex' : Token.lex "MODULE M ; PROCEDURE P* ; END Q 7 (" =
      .ok [⟨.keyword .moduleWord, "MODULE", none, ⟨0, 6⟩⟩, ⟨.ident, "M", none, ⟨7, 8⟩⟩,
        ⟨.semicolon, ";", none, ⟨9, 10⟩⟩, ⟨.keyword .procedureWord, "PROCEDURE", none, ⟨11, 20⟩⟩,
        ⟨.ident, "P", none, ⟨21, 22⟩⟩, ⟨.asterisk, "*", none, ⟨22, 23⟩⟩,
        ⟨.semicolon, ";", none, ⟨24, 25⟩⟩, ⟨.keyword .endWord, "END", none, ⟨26, 29⟩⟩,
        ⟨.ident, "Q", none, ⟨30, 31⟩⟩, ⟨.integer, "7", some 7, ⟨32, 33⟩⟩,
        ⟨.leftParen, "(", none, ⟨34, 35⟩⟩, .endOfInput 35] := by
    cbv
  have hfault : compile Predeclared.standard "t" "MODULE M; PROCEDURE P*; END Q; END M." =
      .error (.diagnostic (.nameMismatch "procedure" "P" "Q")) := by
    cbv
  refine ⟨_, _, hlex, hlex', hfault, ?content, compile_stops hlex hlex' hfault ?content⟩
  decide +kernel

end ModuleCompiler
