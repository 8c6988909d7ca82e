/-
  The spelling of identifiers does not matter. Two parses over tokens that are the same but for
  renamed identifiers go through states that are the same but for renamed names (`Twin`): each
  step does the same to either state, or ends both parses with the same fault, renamed (`Twins`).
  What is compiled is thus renamed as a whole (`compile_renamed`).
-/
import ModuleCompiler.Proofs.Decl.Renamed
import ModuleCompiler.Proofs.Parse.Moves
import ModuleCompiler.Proofs.Unit.Rejection

namespace ModuleCompiler

open Predeclared

/-- The states are the same but for the names. If there is a unit in hand, it is a module with an
identifier for its name. -/
structure Twin (r : Renaming) (unit : Option DeclId) (s s' : ParserState) : Prop where
  position : s'.cursor.position = s.cursor.position
  tokens : List.Forall₂ r.Renames s.cursor.tokens.toList s'.cursor.tokens.toList
  scanned : ∀ t ∈ s.cursor.tokens.toList, t.Scanned
  table : s.table.Renamed r s'.table
  ir : s'.ir = s.ir.map r.piece
  unit : ∀ id, unit = some id →
    ∃ b, s.table.bare? id = some b ∧ b.isModule ∧ IsIdentifier b.name

namespace Twin

variable {r : Renaming} {unit : Option DeclId} {s s' : ParserState}

theorem forget (h : Twin r unit s s') : Twin r none s s' :=
  ⟨h.position, h.tokens, h.scanned, h.table, h.ir, nofun⟩

theorem size (h : Twin r unit s s') : s'.cursor.tokens.size = s.cursor.tokens.size :=
  h.tokens.length_eq.symm

theorem current (h : Twin r unit s s') : r.Renames s.cursor.current s'.cursor.current := by
  have hlt : s.cursor.position < s'.cursor.tokens.toList.length := by
    rw [← h.position]
    exact s'.cursor.position_lt
  have hrenames := h.tokens.get s.cursor.position_lt hlt
  have hget : s'.cursor.tokens.toList.get ⟨s.cursor.position, hlt⟩ = s'.cursor.current := by
    simp only [List.get_eq_getElem, ← h.position]
    rfl
  rw [hget] at hrenames
  exact hrenames

theorem scanned_current (h : Twin r unit s s') : s.cursor.current.Scanned :=
  h.scanned _ (Array.getElem_mem_toList _)

theorem isAt (h : Twin r unit s s') (kind : TokenKind) :
    s'.cursor.isAt kind = s.cursor.isAt kind := by
  unfold Cursor.isAt
  rw [h.current.kind]

theorem unexpected (h : Twin r unit s s') :
    s'.cursor.unexpected = r.diagnostic s.cursor.unexpected := by
  unfold Cursor.unexpected
  rw [h.current.describe h.scanned_current]
  rfl

theorem remaining (h : Twin r unit s s') : s'.cursor.remaining = s.cursor.remaining := by
  unfold Cursor.remaining
  rw [h.size, h.position]

theorem advance (h : Twin r unit s s') :
    Twin r unit { s with cursor := s.cursor.advance } { s' with cursor := s'.cursor.advance } := by
  refine ⟨?_, ?_, ?_, h.table, h.ir, h.unit⟩
  · show s'.cursor.advance.position = s.cursor.advance.position
    rw [Cursor.position_advance, Cursor.position_advance, h.size, h.position]
  · show List.Forall₂ _ s.cursor.advance.tokens.toList s'.cursor.advance.tokens.toList
    rw [Cursor.tokens_advance, Cursor.tokens_advance]
    exact h.tokens
  · show ∀ t ∈ s.cursor.advance.tokens.toList, _
    rw [Cursor.tokens_advance]
    exact h.scanned

end Twin

/-! ## Steps -/

/-- The uses stand for the same, and are spelt the same but for the names. -/
structure Resolved.Renamed (u : Resolved) (r : Renaming) (u' : Resolved) : Prop where
  decl : u'.decl = u.decl
  spelling : u'.spelling = r.spelling u.spelling

/-- The procedures are open at the same place, and are the same but for the names. -/
structure OpenProcedure.Renamed (p : OpenProcedure) (r : Renaming) (p' : OpenProcedure) : Prop where
  id : p'.id = p.id
  name : p'.name = r.name p.name
  returns : p'.returns = p.returns

namespace Parse

variable {r : Renaming} {unit : Option DeclId} {α β : Type} {Q : α → α → Prop} {R : β → β → Prop}

/-- Both runs have succeeded, with related results and states that are the same but for the
names, or both are stopped by the same fault, renamed. -/
inductive Alike (r : Renaming) (unit : Option DeclId) (Q : α → α → Prop) :
    Except Fault α × ParserState → Except Fault α × ParserState → Prop where
  | ok {a a' : α} {s s' : ParserState} : Q a a' → Twin r unit s s' →
      Alike r unit Q (.ok a, s) (.ok a', s')
  | error (fault : Fault) {s s' : ParserState} :
      Alike r unit Q (.error fault, s) (.error (r.fault fault), s')

/-- The steps do the same to states that are the same but for the names. -/
def Twins (r : Renaming) (unit : Option DeclId) (Q : α → α → Prop) (f f' : Parse α) : Prop :=
  ∀ s s', Twin r unit s s' → Alike r unit Q (f.runFrom s) (f'.runFrom s')

/-! ## Rules -/

theorem Twins.bind {f f' : Parse α} {next next' : α → Parse β} (hf : Twins r unit Q f f')
    (hnext : ∀ a a', Q a a' → Twins r unit R (next a) (next' a')) :
    Twins r unit R (f >>= next) (f' >>= next') := by
  intro s s' h
  have halike := hf s s' h
  rw [runFrom_bind, runFrom_bind]
  generalize f.runFrom s = o at halike
  generalize f'.runFrom s' = o' at halike
  cases halike with
  | ok hq ht => exact hnext _ _ hq _ _ ht
  | error fault => exact .error fault

theorem twins_pure {a a' : α} (h : Q a a') : Twins r unit Q (pure a) (pure a') :=
  fun _ _ hs => .ok h hs

theorem twins_fail (d : Diagnostic) : Twins r unit Q (fail d) (fail (r.diagnostic d)) :=
  fun _ _ _ => .error (.diagnostic d)

theorem twins_tell (events events' : List Event) : Twins r unit Eq (tell events) (tell events') :=
  fun _ _ h => .ok rfl ⟨h.position, h.tokens, h.scanned, h.table, h.ir, h.unit⟩

theorem twins_emit (piece : IR.Piece) : Twins r unit Eq (emit piece) (emit (r.piece piece)) := by
  intro s s' h
  refine .ok rfl ⟨h.position, h.tokens, h.scanned, h.table, ?_, h.unit⟩
  rw [List.map_append, ← h.ir]
  rfl

theorem twins_ask {question question' : Table → Except Fault α}
    (h : ∀ t t', t.Renamed r t' → r.Both Q (question t) (question' t')) :
    Twins r unit Q (ask question) (ask question') := by
  intro s s' hs
  have hboth := h _ _ hs.table
  rw [runFrom_ask, runFrom_ask]
  generalize question s.table = x at hboth
  generalize question' s'.table = x' at hboth
  cases hboth with
  | ok hq => exact .ok hq hs
  | error fault => exact .error fault

theorem twins_lookup (scope : DeclId) (name : String) :
    Twins r unit Eq (lookup scope name) (lookup scope (r.name name)) := by
  refine (twins_ask fun t t' ht => ht.lookup scope name).bind fun found found' hfound => ?_
  intro s s' hs
  exact (twins_tell _ _).bind (fun _ _ _ => twins_pure hfound) s s' hs

theorem twins_get {next next' : ParserState → Parse β}
    (h : ∀ s s', Twin r unit s s' → Twins r unit R (next s) (next' s')) :
    Twins r unit R ((MonadState.get : Parse ParserState) >>= next) (MonadState.get >>= next') :=
  fun s s' hs => h s s' hs s s' hs

theorem twins_cursor {next next' : Cursor → Parse β}
    (h : ∀ s s', Twin r unit s s' → Twins r unit R (next s.cursor) (next' s'.cursor)) :
    Twins r unit R (cursor >>= next) (cursor >>= next') :=
  fun s s' hs => h s s' hs s s' hs

theorem twins_isAt (kind : TokenKind) : Twins r unit Eq (isAt kind) (isAt kind) :=
  fun _ _ h => .ok (h.isAt kind).symm h

theorem twins_advance : Twins r unit Eq advance advance :=
  fun _ _ h => .ok rfl h.advance

theorem twins_skipIf (kind : TokenKind) : Twins r unit Eq (skipIf kind) (skipIf kind) := by
  refine (twins_isAt kind).bind fun present _ hpresent => ?_
  subst hpresent
  cases present with
  | false => exact twins_pure rfl
  | true => exact twins_advance.bind fun _ _ _ => twins_pure rfl

theorem twins_expect (kind : TokenKind) : Twins r unit Eq (expect kind) (expect kind) := by
  intro s s' h
  rw [runFrom_expect, runFrom_expect, h.isAt, h.unexpected]
  split
  · exact .ok rfl h
  · exact .error (.diagnostic s.cursor.unexpected)

theorem twins_consume (kind : TokenKind) : Twins r unit Eq (consume kind) (consume kind) :=
  (twins_expect kind).bind fun _ _ _ => twins_advance

theorem twins_expectIdent : Twins r unit (fun n n' => IsIdentifier n ∧ n' = r.name n) expectIdent
    expectIdent := by
  intro s s' h
  rw [runFrom_expectIdent, runFrom_expectIdent, h.isAt, h.unexpected]
  split
  · next hident =>
    have hkind : s.cursor.current.kind = .ident := of_decide_eq_true hident
    exact .ok ⟨h.scanned_current.isIdentifier hkind, h.current.lexeme_ident hkind⟩ h.advance
  · exact .error (.diagnostic s.cursor.unexpected)

/-! ## Names -/

theorem twins_member (module : DeclId) {name : String} (hname : IsIdentifier name) :
    Twins r unit (Resolved.Renamed · r ·) (member module name) (member module (r.name name)) := by
  refine twins_advance.bind fun _ _ _ => twins_expectIdent.bind fun n n' hn => ?_
  obtain ⟨hident, rfl⟩ := hn
  refine (twins_ask fun t t' ht => ht.lookupLocal module n).bind fun found found' hfound => ?_
  subst hfound
  cases found with
  | none => exact twins_fail (.notFoundInModule n name)
  | some c => exact twins_pure ⟨rfl, (r.spelling_member hname hident).symm⟩

theorem twins_qualifiedName (scope : DeclId) :
    Twins r unit (Resolved.Renamed · r ·) (qualifiedName (some scope))
      (qualifiedName (some scope)) := by
  refine twins_expectIdent.bind fun name name' hname => ?_
  obtain ⟨hident, rfl⟩ := hname
  refine (twins_lookup scope name).bind fun found found' hfound => ?_
  subst hfound
  cases found with
  | none => exact twins_fail (.notFound name)
  | some c =>
    refine (twins_ask fun t t' ht => ht.decl c).bind fun d d' hd => ?_
    refine (twins_isAt .period).bind fun period _ hperiod => ?_
    subst hperiod
    rw [hd.isModule]
    split
    · exact twins_member c hident
    · exact twins_pure ⟨rfl, (r.spelling_name hident).symm⟩

theorem twins_typeName (scope : DeclId) :
    Twins r unit Eq (typeName (some scope)) (typeName (some scope)) := by
  refine (twins_qualifiedName scope).bind fun u u' hu => ?_
  obtain ⟨hdecl, hspelling⟩ := hu
  rw [hdecl, hspelling]
  refine (twins_ask fun t t' ht => ht.decl u.decl).bind fun d d' hd => ?_
  rw [hd.representation?]
  cases d.representation? with
  | none => exact twins_fail (.notAType u.spelling)
  | some representation => exact twins_pure rfl

/-! ## Procedures -/

/-- The symbol of a procedure of the unit is made of the unit's name and its own. -/
theorem linkageName_unit {t : Table} {c : Created} {unit : DeclId} {name : String}
    {exported : Bool} {returns : Option DeclId} {b : Decl}
    (hc : t.createProcedure name (some unit) exported returns = .ok c)
    (hb : t.bare? unit = some b) (hmodule : b.isModule) :
    c.table.bare? unit = some b ∧ c.table.linkageName c.id = .ok (b.name ++ "_" ++ name) := by
  obtain ⟨hid, hgains⟩ := Table.gains_of_createProcedure hc
  obtain ⟨d, hd, -⟩ := Table.bare?_eq_some_iff.1 hb
  have hold : c.table.bare? unit = some b := by
    rw [hgains.growsTo.bare?_eq unit (Table.lt_of_get? hd), hb]
  have hnew := hgains.bare? c.id
  rw [if_pos hid] at hnew
  exact ⟨hold, Table.linkageName_of_bare? hnew rfl rfl hold hmodule⟩

/-- A procedure that is made in either state has the same symbol, renamed. -/
theorem linkageName_renamed {unit : DeclId} {s s' : ParserState} (h : Twin r (some unit) s s')
    {name : String} {exported : Bool} {returns : Option DeclId} {c c' : Created}
    (hc : s.table.createProcedure name (some unit) exported returns = .ok c)
    (hc' : s'.table.createProcedure (r.name name) (some unit) exported returns = .ok c') :
    ∃ b symbol, (c.table.bare? unit = some b ∧ b.isModule ∧ IsIdentifier b.name) ∧
      c.table.linkageName c.id = .ok symbol ∧
      c'.table.linkageName c'.id = .ok (r.symbol symbol) := by
  obtain ⟨b, hb, hmodule, hident⟩ := h.unit unit rfl
  obtain ⟨d, hd, rfl⟩ := Table.bare?_eq_some_iff.1 hb
  obtain ⟨d', hd', hrenamed⟩ := h.table.get? unit d hd
  have hb' := Table.bare?_eq_some_iff.2 ⟨d', hd', rfl⟩
  have hmodule' : d'.bare.isModule := by
    rw [d'.isModule_bare, hrenamed.isModule, ← d.isModule_bare]
    exact hmodule
  obtain ⟨hold, hsymbol⟩ := linkageName_unit hc hb hmodule
  obtain ⟨-, hsymbol'⟩ := linkageName_unit hc' hb' hmodule'
  refine ⟨d.bare, _, ⟨hold, hmodule, hident⟩, hsymbol, ?_⟩
  rw [hsymbol', r.symbol_member hident]
  show Except.ok (d'.name ++ "_" ++ r.name name) = .ok (r.name d.name ++ "_" ++ r.name name)
  rw [hrenamed.name]

theorem twins_openProcedure (unit : DeclId) (name : String) (exported : Bool)
    (returns : Option DeclId) :
    Twins r (some unit) (OpenProcedure.Renamed · r ·)
      (openProcedure name (some unit) exported returns)
      (openProcedure (r.name name) (some unit) exported returns) := by
  intro s s' h
  have hboth := h.table.createProcedure name unit exported returns
  cases hc : s.table.createProcedure name (some unit) exported returns with
  | error fault =>
    rw [hc] at hboth
    rw [runFrom_openProcedure_error hc, runFrom_openProcedure_error hboth.of_error]
    exact .error fault
  | ok c =>
    rw [hc] at hboth
    obtain ⟨c', hc', hcreated⟩ := hboth.of_ok
    obtain ⟨b, symbol, hunit, hsymbol, hsymbol'⟩ := linkageName_renamed h hc hc'
    obtain ⟨linkage, hlinkage, hrun⟩ := runFrom_openProcedure hc
    obtain ⟨linkage', hlinkage', hrun'⟩ := runFrom_openProcedure hc'
    cases hlinkage.symm.trans hsymbol
    cases hlinkage'.symm.trans hsymbol'
    rw [hrun, hrun']
    refine .ok ⟨hcreated.id, rfl, rfl⟩
      ⟨h.position, h.tokens, h.scanned, hcreated.table, ?_, ?_⟩
    · show s'.ir ++ [_] = (s.ir ++ [_]).map r.piece
      rw [List.map_append, ← h.ir, hcreated.table.representation]
      rfl
    · intro id hid
      cases hid
      exact ⟨b, hunit⟩

theorem twins_returnNothing {p p' : OpenProcedure} (h : p.Renamed r p') :
    Twins r unit Eq (returnNothing p) (returnNothing p') := by
  unfold returnNothing
  rw [h.returns, h.name, h.id]
  cases p.returns with
  | some type =>
    refine (twins_ask fun t t' ht => ht.decl type).bind fun d d' hd => ?_
    rw [hd.name]
    exact twins_fail (.missingReturnValue p.name d.name)
  | none => exact (twins_emit .retVoid).bind fun _ _ _ => twins_pure rfl

theorem twins_returnValue {p p' : OpenProcedure} (h : p.Renamed r p')
    (value : Int32) : Twins r unit Eq (returnValue p value) (returnValue p' value) := by
  refine twins_get fun s s' hs => ?_
  rw [h.returns, h.name, h.id, hs.table.representation]
  split
  · refine (twins_emit (.ret integerRepresentation value)).bind fun _ _ _ => ?_
    exact twins_advance.bind fun _ _ _ => twins_pure rfl
  · exact twins_fail (.wrongReturnType p.name)

theorem twins_body {p p' : OpenProcedure} (h : p.Renamed r p') :
    Twins r unit Eq (body p) (body p') := by
  refine (twins_skipIf _).bind fun _ _ _ => (twins_skipIf _).bind fun returns _ hreturns => ?_
  subst hreturns
  cases returns with
  | false => exact twins_returnNothing h
  | true =>
    refine twins_cursor fun s s' hs => ?_
    rw [hs.current.value]
    cases s.cursor.current.value with
    | none => exact twins_returnNothing h
    | some value => exact twins_returnValue h value

theorem twins_closingName (kind expected : String) :
    Twins r unit Eq (closingName kind expected) (closingName kind (r.name expected)) := by
  intro s s' h
  rw [closingName, closingName, runFrom_bind, runFrom_bind, runFrom_expect, runFrom_expect, h.isAt,
    h.unexpected]
  by_cases hident : s.cursor.isAt .ident
  · rw [if_pos hident, if_pos hident]
    dsimp only
    rw [runFrom_bind, runFrom_bind, runFrom_cursor, runFrom_cursor]
    dsimp only
    rw [h.current.lexeme_ident (of_decide_eq_true hident)]
    simp only [r.name_inj]
    split
    · exact .ok rfl h.advance
    · exact .error (.diagnostic (.nameMismatch kind expected s.cursor.current.lexeme))
  · rw [if_neg hident, if_neg hident]
    exact .error (.diagnostic s.cursor.unexpected)

theorem twins_parameters : Twins r unit Eq parameters parameters := by
  refine (twins_skipIf _).bind fun present _ hpresent => ?_
  subst hpresent
  cases present with
  | false => exact twins_pure rfl
  | true => exact twins_consume _

theorem twins_returnType (scope : DeclId) :
    Twins r unit Eq (returnType scope) (returnType scope) := by
  refine (twins_skipIf _).bind fun present _ hpresent => ?_
  subst hpresent
  cases present with
  | false => exact twins_pure rfl
  | true => exact (twins_typeName scope).bind fun _ _ htype => twins_pure (congrArg some htype)

theorem twins_procedure (unit : DeclId) :
    Twins r (some unit) Eq (procedure unit) (procedure unit) := by
  refine (twins_consume _).bind fun _ _ _ => twins_expectIdent.bind fun name name' hname => ?_
  obtain ⟨-, rfl⟩ := hname
  refine (twins_skipIf _).bind fun exported _ hexported => ?_
  subst hexported
  refine twins_parameters.bind fun _ _ _ => ?_
  refine (twins_returnType unit).bind fun returns _ hreturns => ?_
  subst hreturns
  refine (twins_openProcedure unit name exported returns).bind fun p p' hp => ?_
  refine (twins_consume _).bind fun _ _ _ => (twins_body hp).bind fun id _ hid => ?_
  subst hid
  refine (twins_consume _).bind fun _ _ _ => (twins_closingName _ name).bind fun _ _ _ => ?_
  exact (twins_consume _).bind fun _ _ _ => twins_pure rfl

theorem twins_procedures (unit : DeclId) (bound : Nat) :
    Twins r (some unit) Eq (procedures unit bound) (procedures unit bound) := by
  induction bound with
  | zero => exact twins_pure rfl
  | succ bound ih =>
    refine (twins_isAt _).bind fun more _ hmore => ?_
    subst hmore
    cases more with
    | false => exact twins_pure rfl
    | true => exact (twins_procedure unit).bind fun _ _ _ => ih

/-! ## Units -/

theorem twins_initializer (unit : DeclId) :
    Twins r (some unit) Eq (initializer unit) (initializer unit) := by
  have hopen := twins_openProcedure (r := r) unit initName true none
  rw [r.name_init] at hopen
  exact hopen.bind fun p p' hp => twins_body hp

theorem Alike.forget {o o' : Except Fault α × ParserState} (h : Alike r unit Q o o') :
    Alike r none Q o o' := by
  cases h with
  | ok hq hs => exact .ok hq hs.forget
  | error fault => exact .error fault

/-- The module that is made is the unit of the steps behind it. -/
theorem twins_createModule (owner : DeclId) {name : String} (hident : IsIdentifier name)
    {next next' : DeclId → Parse β} (hnext : ∀ id, Twins r (some id) R (next id) (next' id)) :
    Twins r none R (create (·.createModule name (some owner)) >>= next)
      (create (·.createModule (r.name name) (some owner)) >>= next') := by
  intro s s' h
  have hboth := h.table.createModule name owner
  rw [runFrom_bind, runFrom_bind, runFrom_create, runFrom_create]
  cases hc : s.table.createModule name (some owner) with
  | error fault =>
    rw [hc] at hboth
    rw [hboth.of_error]
    exact .error fault
  | ok c =>
    rw [hc] at hboth
    obtain ⟨c', hc', hcreated⟩ := hboth.of_ok
    rw [hc']
    dsimp only
    rw [hcreated.id]
    refine Alike.forget (hnext c.id _ _ ?_)
    refine ⟨h.position, h.tokens, h.scanned, hcreated.table, h.ir, ?_⟩
    intro id hid
    cases hid
    obtain ⟨hnew, hgains⟩ := Table.gains_of_createModule hc
    refine ⟨⟨name, some owner, .module .empty⟩, ?_, rfl, hident⟩
    exact (hgains.bare? c.id).trans (if_pos hnew)

theorem twins_module (owner : DeclId) :
    Twins r none Eq (module (some owner)) (module (some owner)) := by
  refine (twins_consume _).bind fun _ _ _ => twins_expectIdent.bind fun name name' hname => ?_
  obtain ⟨hident, rfl⟩ := hname
  refine (twins_consume _).bind fun _ _ _ => twins_createModule owner hident fun unit => ?_
  refine twins_cursor fun s s' hs => ?_
  rw [hs.remaining]
  refine (twins_procedures unit _).bind fun _ _ _ => (twins_initializer unit).bind fun _ _ _ => ?_
  refine (twins_consume _).bind fun _ _ _ => (twins_closingName _ name).bind fun _ _ _ => ?_
  refine (twins_consume _).bind fun _ _ _ => twins_get fun s s' hs => ?_
  exact (twins_tell _ _).bind fun _ _ _ => twins_pure rfl

theorem twins_unit : Twins r none Eq (Compilation.unit standard) (Compilation.unit standard) := by
  refine (twins_module _).bind fun id _ hid => twins_cursor fun s s' hs => ?_
  subst hid
  rw [Cursor.atEnd, Cursor.atEnd, hs.isAt, hs.unexpected]
  split
  · refine (twins_ask fun t t' ht => ht.decl id).bind fun d d' _ => ?_
    exact (twins_tell _ _).bind fun _ _ _ => twins_pure rfl
  · exact twins_fail _

end Parse

/-! ## Compilations -/

theorem twin_start {r : Renaming} {tokens tokens' : List Token} (h : Token.Lexed tokens)
    (h' : Token.Lexed tokens') (hrenames : List.Forall₂ r.Renames tokens tokens')
    (target : String) : Twin r none (Compilation.start standard target tokens)
      (Compilation.start standard target tokens') where
  position := rfl
  tokens := by
    show List.Forall₂ r.Renames (Cursor.closed tokens) (Cursor.closed tokens')
    rw [Parse.closed_of_lexed h, Parse.closed_of_lexed h']
    exact hrenames
  scanned := by
    show ∀ t ∈ Cursor.closed tokens, t.Scanned
    rw [Parse.closed_of_lexed h]
    exact h.scanned
  table := Table.renamed_standard r
  ir := rfl
  unit := nofun

/-- The compiled units are the same but for the names: the module has the same id, the tables
have the same declarations, and the output has the same lines, but for the symbols. -/
structure Compilation.Renamed (c : Compilation) (r : Renaming) (c' : Compilation) : Prop where
  module : c'.module = c.module
  table : c.table.Renamed r c'.table
  ir : c'.ir = c.ir.map r.piece

/-- A source with renamed identifiers compiles to the same, renamed, or is rejected with the same
fault, renamed. -/
theorem compile_renamed {r : Renaming} {source source' : String} {tokens tokens' : List Token}
    (hlex : Token.lex source = .ok tokens) (hlex' : Token.lex source' = .ok tokens')
    (hrenames : List.Forall₂ r.Renames tokens tokens') (target : String) :
    r.Both (Compilation.Renamed · r ·) (compile standard target source)
      (compile standard target source') := by
  have hlexed := Token.lexed_of_lex hlex
  have hstart := twin_start hlexed (Token.lexed_of_lex hlex') hrenames target
  have halike := Parse.twins_unit _ _ hstart
  rw [compile_of_lex hlex, compile_of_lex hlex']
  unfold Compilation.parse
  generalize (Compilation.unit standard).runFrom _ = o at halike ⊢
  generalize (Compilation.unit standard).runFrom _ = o' at halike ⊢
  cases halike with
  | ok hid hs => exact .ok ⟨hid.symm, hs.table, hs.ir⟩
  | error fault => exact .error fault

/-- The renaming that swaps the names `P` and `Z9`. -/
def Renaming.swapped : Renaming where
  perm := Equiv.swap ⟨"P", by decide⟩ ⟨"Z9", by decide⟩
  system := Equiv.swap_apply_of_ne_of_ne (by decide) (by decide)
  integer := Equiv.swap_apply_of_ne_of_ne (by decide) (by decide)

/-- Two procedures that change places in the order of their names. -/
theorem compile_renamed_swapped :
    ∃ tokens tokens', Token.lex "MODULE M; PROCEDURE P*; END P; PROCEDURE Q*; END Q; END M." =
        .ok tokens ∧
      Token.lex "MODULE M; PROCEDURE Z9*; END Z9; PROCEDURE Q*; END Q; END M." = .ok tokens' ∧
      List.Forall₂ Renaming.swapped.Renames tokens tokens' ∧
      Renaming.swapped.Both (Compilation.Renamed · Renaming.swapped ·)
        (compile standard "t" "MODULE M; PROCEDURE P*; END P; PROCEDURE Q*; END Q; END M.")
        (compile standard "t" "MODULE M; PROCEDURE Z9*; END Z9; PROCEDURE Q*; END Q; END M.") := by
  have hlex : Token.lex "MODULE M; PROCEDURE P*; END P; PROCEDURE Q*; END Q; END M." =
      .ok [⟨.keyword .moduleWord, "MODULE", none, ⟨0, 6⟩⟩, ⟨.ident, "M", none, ⟨7, 8⟩⟩,
        ⟨.semicolon, ";", none, ⟨8, 9⟩⟩, ⟨.keyword .procedureWord, "PROCEDURE", none, ⟨10, 19⟩⟩,
        ⟨.ident, "P", none, ⟨20, 21⟩⟩, ⟨.asterisk, "*", none, ⟨21, 22⟩⟩,
        ⟨.semicolon, ";", none, ⟨22, 23⟩⟩, ⟨.keyword .endWord, "END", none, ⟨24, 27⟩⟩,
        ⟨.ident, "P", none, ⟨28, 29⟩⟩, ⟨.semicolon, ";", none, ⟨29, 30⟩⟩,
        ⟨.keyword .procedureWord, "PROCEDURE", none, ⟨31, 40⟩⟩, ⟨.ident, "Q", none, ⟨41, 42⟩⟩,
        ⟨.asterisk, "*", none, ⟨42, 43⟩⟩, ⟨.semicolon, ";", none, ⟨43, 44⟩⟩,
        ⟨.keyword .endWord, "END", none, ⟨45, 48⟩⟩, ⟨.ident, "Q", none, ⟨49, 50⟩⟩,
        ⟨.semicolon, ";", none, ⟨50, 51⟩⟩, ⟨.keyword .endWord, "END", none, ⟨52, 55⟩⟩,
        ⟨.ident, "M", none, ⟨56, 57⟩⟩, ⟨.period, ".", none, ⟨57, 58⟩⟩, .endOfInput 58] := by
    cbv
  have hlex' : Token.lex "MODULE M; PROCEDURE Z9*; END Z9; PROCEDURE Q*; END Q; END M." =
      .ok [⟨.keyword .moduleWord, "MODULE", none, ⟨0, 6⟩⟩, ⟨.ident, "M", none, ⟨7, 8⟩⟩,
        ⟨.semicolon, ";", none, ⟨8, 9⟩⟩, ⟨.keyword .procedureWord, "PROCEDURE", none, ⟨10, 19⟩⟩,
        ⟨.ident, "Z9", none, ⟨20, 22⟩⟩, ⟨.asterisk, "*", none, ⟨22, 23⟩⟩,
        ⟨.semicolon, ";", none, ⟨23, 24⟩⟩, ⟨.keyword .endWord, "END", none, ⟨25, 28⟩⟩,
        ⟨.ident, "Z9", none, ⟨29, 31⟩⟩, ⟨.semicolon, ";", none, ⟨31, 32⟩⟩,
        ⟨.keyword .procedureWord, "PROCEDURE", none, ⟨33, 42⟩⟩, ⟨.ident, "Q", none, ⟨43, 44⟩⟩,
        ⟨.asterisk, "*", none, ⟨44, 45⟩⟩, ⟨.semicolon, ";", none, ⟨45, 46⟩⟩,
        ⟨.keyword .endWord, "END", none, ⟨47, 50⟩⟩, ⟨.ident, "Q", none, ⟨51, 52⟩⟩,
        ⟨.semicolon, ";", none, ⟨52, 53⟩⟩, ⟨.keyword .endWord, "END", none, ⟨54, 57⟩⟩,
        ⟨.ident, "M", none, ⟨58, 59⟩⟩, ⟨.period, ".", none, ⟨59, 60⟩⟩, .endOfInput 60] := by
    cbv
  refine ⟨_, _, hlex, hlex', ?renames, compile_renamed hlex hlex' ?renames "t"⟩
  decide +kernel

end ModuleCompiler
