/-
  Reading a procedure in the module of a unit. What is read is a valid procedure, which is
  then declared and written, or a fault stops it (`procedure_yields`).
-/
import ModuleCompiler.Proofs.Parse.Type

namespace ModuleCompiler.Parse

open Predeclared

variable {m : String} {earlier : List String} {v : View}

/-! ## Headings -/

theorem parameters_yields :
    parameters.Yields v
      (fun _ read w => ∃ present ts, read = Heading.parameterTerminals present ∧
        w = { v with rest := ts } ∧
        (present = false → ts = v.rest ∧ nextKind ts ≠ .leftParen))
      (Stopped (fun _ _ _ => False)
        (fun read next => read = [.mark .leftParen] ∧ next.kind ≠ .rightParen)) := by
  unfold parameters
  refine (skipIf_yields rfl (E := fun _ _ _ => False)).bind ?_ (fun _ _ _ h => h.elim)
  intro present _ _ hread
  obtain ⟨rfl, ts, rfl, hno⟩ := hread
  cases present with
  | false => exact .pure ⟨false, ts, rfl, rfl, hno⟩
  | true =>
    refine .of_bind_pure (.bind_consume rfl ?_ ?_)
    · intro t more _ _
      exact .pure ⟨true, more, rfl, rfl, nofun⟩
    · intro t more _ hk
      exact .stuck ⟨rfl, Token.kind_terminal_ne hk⟩

/-- The declaration of a return type that is INTEGER or left out. -/
def returnId (typed : Bool) : Option DeclId :=
  if typed then some integerId else none

theorem returnType_yields (hs : Scene m earlier v.table) :
    (returnType unitId).Yields v
      (fun id read w => ∃ returns ts, read = Heading.returnTerminals returns ∧
        id = returnId returns.isSome ∧ w = { v with rest := ts } ∧
        (∀ type, returns = some type → type.IsInteger earlier) ∧
        (returns = none → ts = v.rest ∧ nextKind ts ≠ .colon))
      (fun d read rest => ∃ after, read = .mark .colon :: after ∧
        TypeStopped m earlier d after rest) := by
  unfold returnType
  refine (skipIf_yields rfl (E := fun _ _ _ => False)).bind ?_ (fun _ _ _ h => h.elim)
  intro present _ _ hread
  obtain ⟨rfl, ts, rfl, hno⟩ := hread
  cases present with
  | false => exact .pure ⟨none, ts, rfl, rfl, rfl, nofun, fun _ => hno rfl⟩
  | true =>
    rw [if_pos rfl]
    refine (typeName_yields (v := { v with rest := ts }) hs).bind ?_ ?_
    · intro _ _ _ hread
      obtain ⟨type, more, rfl, hinteger, rfl, rfl⟩ := hread
      refine .pure ⟨some type, more, ?_, rfl, rfl, ?_, nofun⟩
      · rw [List.append_nil]
        rfl
      · rintro _ ⟨⟩
        exact hinteger
    · intro d after rest h
      exact ⟨after, rfl, h⟩

/-- How a value of a return type that is INTEGER or left out is written. -/
def returnRepresentation (typed : Bool) : String :=
  if typed then integerRepresentation else Table.voidRepresentation

theorem representation_returnId {t : Table} (hs : Scene m earlier t) (typed : Bool) :
    t.representation (returnId typed) = returnRepresentation typed := by
  cases typed with
  | false => rfl
  | true => exact hs.representation_integer

theorem openProcedure_yields (hs : Scene m earlier v.table) (name : String)
    (exported typed : Bool) :
    (openProcedure name (some unitId) exported (returnId typed)).Yields v
      (fun p read w => read = [] ∧ exported = true ∧ name ∉ earlier ∧ p.name = name ∧
        p.returns = returnId typed ∧ w.rest = v.rest ∧ Scene m (earlier ++ [name]) w.table ∧
        w.ir = v.ir ++ [.header (returnRepresentation typed) (m ++ "_" ++ name)])
      (fun d read rest => read = [] ∧ rest = v.rest ∧
        ((exported = false ∧ d = .unsupportedUnexported name) ∨
          (name ∈ earlier ∧ d = .duplicateName name m))) := by
  unfold openProcedure
  cases exported with
  | false => exact .create_error rfl ⟨rfl, rfl, .inl ⟨rfl, rfl⟩⟩
  | true =>
    by_cases hname : name ∈ earlier
    · exact .create_error (hs.duplicate hname _) ⟨rfl, rfl, .inr ⟨hname, rfl⟩⟩
    · obtain ⟨c, hc, hscene, hlinkage⟩ := hs.addProcedure hname (returnId typed)
      refine .bind_create hc (.bind_ask hlinkage (.bind_get fun s hshows => ?_))
      have hrep : s.table.representation (returnId typed) = returnRepresentation typed := by
        rw [hshows.table]
        exact representation_returnId hscene typed
      rw [hrep]
      exact .bind_emit (.bind_tell (.pure ⟨rfl, rfl, hname, rfl, rfl, rfl, hscene, rfl⟩))

/-! ## Bodies -/

/-- The line that ends a function. -/
def ending : Option Int32 → IR.Piece
  | some value => .ret integerRepresentation value
  | none => .retVoid

theorem returnNothing_yields (hs : Scene m earlier v.table) {p : OpenProcedure} {typed : Bool}
    (hp : p.returns = returnId typed) :
    (returnNothing p).Yields v
      (fun _ read w => read = [] ∧ typed = false ∧ w = { v with ir := v.ir ++ [ending none] })
      (fun d read rest => read = [] ∧ rest = v.rest ∧ typed = true ∧
        d = .missingReturnValue p.name integerName) := by
  unfold returnNothing
  rw [hp]
  cases typed with
  | false => exact .bind_emit (.pure ⟨rfl, rfl, rfl⟩)
  | true =>
    obtain ⟨d, hd, hname, -, -⟩ := Table.decl_of_bare? hs.integer
    refine .bind_ask hd (.fail ⟨rfl, rfl, rfl, ?_⟩)
    rw [hname]

theorem returnValue_yields (hs : Scene m earlier v.table) {p : OpenProcedure} {typed : Bool}
    (hp : p.returns = returnId typed) {t : Token} {ts : List Token} {value : Int32}
    (hrest : v.rest = t :: ts) (ht : t.terminal = .integer value) :
    (returnValue p value).Yields v
      (fun _ read w => read = [.integer value] ∧ typed = true ∧
        w = { v with rest := ts, ir := v.ir ++ [ending (some value)] })
      (fun d read rest => read = [] ∧ rest = v.rest ∧ typed = false ∧
        d = .wrongReturnType p.name) := by
  unfold returnValue
  refine .bind_get fun s hshows => ?_
  rw [hshows.table, hp, representation_returnId hs]
  cases typed with
  | false => exact .fail ⟨rfl, rfl, rfl, rfl⟩
  | true =>
    have hk : t.kind = .integer := by
      rw [← t.kind_terminal, ht]
      rfl
    refine .bind_emit (.bind_advance hrest (by rw [hk]; decide) ?_)
    exact .pure ⟨congrArg (· :: []) ht, rfl, rfl⟩

/-- A body without a value ends the function, or lacks one. -/
theorem noValue_yields (hs : Scene m earlier v.table) {p : OpenProcedure} {typed : Bool}
    (hp : p.returns = returnId typed) {b : BodyText} (hb : b.value = none)
    (hends : b.EndsBefore (nextKind v.rest)) :
    (returnNothing p).Yields v
      (fun _ read w => read = [] ∧ b.value.isSome = typed ∧
        w = { v with ir := v.ir ++ [ending b.value] })
      (fun d read rest => read = [] ∧ BodyFault p.name typed d b.terminals rest) := by
  refine (returnNothing_yields hs hp).mono ?_ ?_
  · intro _ _ _ hread
    obtain ⟨rfl, rfl, rfl⟩ := hread
    rw [hb]
    exact ⟨rfl, rfl, rfl⟩
  · intro _ _ _ hstop
    obtain ⟨rfl, rfl, rfl, rfl⟩ := hstop
    exact ⟨rfl, .noValue rfl hb hends⟩

theorem body_yields (hs : Scene m earlier v.table) {p : OpenProcedure} {typed : Bool}
    (hp : p.returns = returnId typed) :
    (body p).Yields v
      (fun _ read w => ∃ b : BodyText, read = b.terminals ∧ b.value.isSome = typed ∧
        b.EndsBefore (nextKind w.rest) ∧
        ∃ ts, w = { v with rest := ts, ir := v.ir ++ [ending b.value] })
      (BodyFault p.name typed) := by
  unfold body
  refine (skipIf_yields rfl (E := fun _ _ _ => False)).bind ?_ (fun _ _ _ h => h.elim)
  intro begins _ _ hread
  obtain ⟨rfl, ts, rfl, hbegins⟩ := hread
  refine (skipIf_yields rfl (E := fun _ _ _ => False)).bind ?_ (fun _ _ _ h => h.elim)
  intro returns _ _ hread
  obtain ⟨rfl, ts', rfl, hreturns⟩ := hread
  cases returns with
  | false =>
    obtain ⟨hsame, hk⟩ := hreturns rfl
    have hends : BodyText.EndsBefore (nextKind ts') ⟨begins, none⟩ := by
      refine ⟨hk, fun hb => ?_⟩
      rw [hsame]
      exact (hbegins hb).2
    refine (noValue_yields (v := { v with rest := ts' }) hs hp rfl hends).mono ?_ ?_
    · intro _ _ _ hread
      obtain ⟨rfl, hvalue, rfl⟩ := hread
      exact ⟨⟨begins, none⟩, rfl, hvalue, hends, ts', rfl⟩
    · intro _ _ _ hstop
      obtain ⟨rfl, hfault⟩ := hstop
      exact hfault
  | true =>
    refine .bind_cursor fun s hshows => ?_
    obtain ⟨more, hrest, -⟩ := hshows.split
    change ts' = s.cursor.current :: more at hrest
    have hlexed := hshows.lexed
    rw [hrest] at hlexed
    cases hvalue : s.cursor.current.value with
    | none =>
      have hends : BodyText.EndsBefore (nextKind ts') ⟨begins, some none⟩ := by
        rw [hrest]
        exact hlexed.kind_ne_integer hvalue
      refine (noValue_yields (v := { v with rest := ts' }) hs hp rfl hends).mono ?_ ?_
      · intro _ _ _ hread
        obtain ⟨rfl, hvalue, rfl⟩ := hread
        exact ⟨⟨begins, some none⟩, rfl, hvalue, hends, ts', rfl⟩
      · intro _ _ _ hstop
        obtain ⟨rfl, hfault⟩ := hstop
        exact hfault
    | some value =>
      have ht := hlexed.terminal_of_value hvalue
      refine (returnValue_yields (v := { v with rest := ts' }) hs hp hrest ht).mono ?_ ?_
      · intro _ _ _ hread
        obtain ⟨rfl, rfl, rfl⟩ := hread
        exact ⟨⟨begins, some (some value)⟩, rfl, rfl, trivial, more, rfl⟩
      · intro _ _ _ hstop
        obtain ⟨rfl, hsame, rfl, rfl⟩ := hstop
        rw [hsame.trans hrest]
        exact .value rfl ht

theorem closingName_yields (kind expected : String) :
    (closingName kind expected).Yields v
      (fun _ read w => read = [.ident expected] ∧ ∃ ts, w = { v with rest := ts })
      (Stopped
        (fun d read rest => read = [] ∧ ∃ next more found, rest = next :: more ∧
          next.terminal = .ident found ∧ found ≠ expected ∧ d = .nameMismatch kind expected found)
        (fun read next => read = [] ∧ next.kind ≠ .ident)) := by
  unfold closingName
  refine .bind_expect ?_ ?_
  · intro t ts hrest hk
    refine .bind_cursor fun s hshows => ?_
    obtain ⟨more, hsplit, -⟩ := hshows.split
    obtain ⟨rfl, -⟩ := List.cons.inj (hrest.symm.trans hsplit)
    have hterm := Token.terminal_of_ident hk
    dsimp only
    split
    · next heq =>
      rw [heq] at hterm
      refine .of_bind_pure (.bind_advance hrest (by rw [hk]; decide) (.pure ⟨?_, ts, rfl⟩))
      rw [hterm]
    · next hne => exact .fail (.inl ⟨rfl, _, ts, _, hrest, hterm, hne, rfl⟩)
  · intro t ts _ hk
    exact .stuck ⟨rfl, Token.kind_terminal_ne hk⟩

/-! ## Procedures -/

/-- What is written for a function. -/
def functionPieces (symbol : String) (value : Option Int32) : IR :=
  [.header (returnRepresentation value.isSome) symbol, ending value]

/-- A heading is read, and its procedure is declared and has a header. -/
structure HeadingRead (m : String) (earlier : List String) (v : View) (h : Heading)
    (opened : OpenProcedure) (w : View) : Prop where
  exported : h.exported = true
  fresh : h.name ∉ earlier
  ne_init : h.name ≠ initName
  types : ∀ type, h.returns = some type → type.IsInteger earlier
  ends : h.EndsBefore (nextKind w.rest)
  name : opened.name = h.name
  returns : opened.returns = returnId h.returns.isSome
  scene : Scene m (earlier ++ [h.name]) w.table
  ir : w.ir = v.ir ++ [.header (returnRepresentation h.returns.isSome) (m ++ "_" ++ h.name)]

/-- A procedure is read, declared and written. -/
structure ProcedureRead (m : String) (earlier : List String) (v : View) (p : ProcedureText)
    (w : View) : Prop where
  valid : p.ValidAfter earlier
  name : p.name ≠ initName
  scene : Scene m (earlier ++ [p.name]) w.table
  ir : w.ir = v.ir ++ functionPieces (m ++ "_" ++ p.name) p.body.value

/-- A procedure up to where it is open. -/
def heading (parent : DeclId) : Parse (String × OpenProcedure) := do
  consume (.keyword .procedureWord)
  let name ← expectIdent
  let exported ← skipIf .asterisk
  parameters
  let returns ← returnType parent
  let opened ← openProcedure name (some parent) exported returns
  return (name, opened)

/-- A procedure from where it is open. -/
def behindHeading (name : String) (opened : OpenProcedure) : Parse DeclId := do
  consume .semicolon
  let id ← body opened
  consume (.keyword .endWord)
  closingName "procedure" name
  consume .semicolon
  return id

theorem procedure_eq (parent : DeclId) :
    procedure parent = heading parent >>= fun r => behindHeading r.1 r.2 := by
  simp only [procedure, heading, behindHeading, bind_assoc, pure_bind]

theorem heading_yields (hs : Scene m earlier v.table)
    (hnext : nextKind v.rest = .keyword .procedureWord) :
    (heading unitId).Yields v
      (fun r read w => ∃ h : Heading, read = h.terminals ∧ r.1 = h.name ∧
        HeadingRead m earlier v h r.2 w)
      (Stopped (ProcedureFault m earlier) ProcedureStuck) := by
  unfold heading
  refine .bind_consume rfl ?_ ?_
  case refine_2 =>
    intro t ts hrest hk
    rw [hrest] at hnext
    exact absurd hnext hk
  intro t ts _ _
  refine .bind_expectIdent ?_ ?_
  case refine_2 =>
    intro t ts _ hk
    exact .stuck (.name (Token.kind_terminal_ne hk))
  intro t ts _ hk hproper
  have hinit := hproper.lexeme_ne_initName hk
  generalize t.lexeme = name at hinit
  refine (skipIf_yields rfl (E := fun _ _ _ => False)).bind ?_ (fun _ _ _ h => h.elim)
  intro exported _ _ hread
  obtain ⟨rfl, ts, rfl, hasterisk⟩ := hread
  refine parameters_yields.bind ?_ ?_
  case refine_2 =>
    intro d _ rest hstop
    obtain h | ⟨next, more, rfl, rfl, rfl, hk⟩ := hstop
    · exact h.elim
    · exact .stuck (.parameters hk)
  intro _ _ _ hread
  obtain ⟨present, ts', rfl, rfl, hparen⟩ := hread
  refine (returnType_yields (v := { v with rest := ts' }) hs).bind ?_ ?_
  case refine_2 =>
    intro d _ rest hstop
    obtain ⟨after, rfl, ⟨type, rfl, hfault⟩ | ⟨next, more, rfl, rfl, hk, hread⟩⟩ := hstop
    · exact .inl (.type (h := ⟨name, exported, present, some type⟩) rfl hfault)
    · exact .stuck (.type hread hk)
  intro _ _ _ hread
  obtain ⟨returns, ts'', rfl, rfl, rfl, htypes, hcolon⟩ := hread
  -- each part that was left out was looked for at the token ahead now
  have hends : Heading.EndsBefore (nextKind ts'') ⟨name, exported, present, returns⟩ := by
    intro hnone
    obtain ⟨rfl, hnoType⟩ := hcolon hnone
    refine ⟨hnoType, fun hpresent => ?_⟩
    obtain ⟨rfl, hnoParen⟩ := hparen hpresent
    exact ⟨hnoParen, fun hexported => (hasterisk hexported).2⟩
  refine (openProcedure_yields (v := { v with rest := ts'' }) hs name exported
    returns.isSome).bind ?_ ?_
  case refine_2 =>
    intro d _ rest hstop
    obtain ⟨rfl, rfl, ⟨hexported, rfl⟩ | ⟨hname, rfl⟩⟩ := hstop
    · rw [List.append_nil]
      exact .inl (.unexported (h := ⟨name, exported, present, returns⟩) hexported hends)
    · rw [List.append_nil]
      exact .inl (.duplicate (h := ⟨name, exported, present, returns⟩) hname)
  intro opened _ w hread
  obtain ⟨rfl, hexported, hfresh, hname, hreturns, hrest, hscene, hir⟩ := hread
  refine .pure ⟨⟨name, exported, present, returns⟩, ?_, rfl,
    ⟨hexported, hfresh, hinit, htypes, ?_, hname, hreturns, hscene, hir⟩⟩
  · simp only [List.append_nil, Heading.terminals]
    rfl
  · rw [hrest]
    exact hends

/-- No heading goes on with the token, or the token makes INTEGER a module. -/
theorem heading_stopped {h : Heading} {t : Token} {ts : List Token} (hexported : h.exported = true)
    (htypes : ∀ type, h.returns = some type → type.IsInteger earlier) (hk : t.kind ≠ .semicolon)
    (hends : h.EndsBefore t.kind) :
    Stopped (ProcedureFault m earlier) ProcedureStuck (.unexpectedToken t.describe) h.terminals
      (t :: ts) := by
  rw [← t.kind_terminal] at hk hends
  by_cases hperiod : h.returns = some (.plain integerName) ∧ t.kind = .period
  · exact .inl (.noModule hperiod.1 (htypes _ hperiod.1).2 hperiod.2)
  · refine .stuck (.heading hexported hk hends ?_)
    intro n hn
    obtain ⟨rfl, -⟩ := htypes _ hn
    rw [t.kind_terminal]
    exact fun h => hperiod ⟨hn, h⟩

theorem behindHeading_yields {u : View} {h : Heading} {opened : OpenProcedure}
    (hread : HeadingRead m earlier u h opened v) :
    (behindHeading h.name opened).Yields v
      (fun _ read w => ∃ b : BodyText,
        h.terminals ++ read = ProcedureText.terminals ⟨h, b, h.name⟩ ∧
        b.value.isSome = h.returns.isSome ∧
        ∃ ts, w = { v with rest := ts, ir := v.ir ++ [ending b.value] })
      (fun d read rest =>
        Stopped (ProcedureFault m earlier) ProcedureStuck d (h.terminals ++ read) rest) := by
  unfold behindHeading
  refine .bind_consume rfl ?_ ?_
  case refine_2 =>
    intro t ts ht hk
    have hends := hread.ends
    rw [ht] at hends
    exact .of_eq (List.append_nil _) (heading_stopped hread.exported hread.types hk hends)
  intro t ts _ _
  refine (body_yields (v := { v with rest := ts }) hread.scene hread.returns).bind ?_ ?_
  case refine_2 =>
    intro d read rest hfault
    rw [hread.name] at hfault
    exact .inl (.body hread.types hfault)
  intro _ _ w hbody
  obtain ⟨b, rfl, hvalue, hends, more, rfl⟩ := hbody
  refine .bind_consume rfl ?_ ?_
  case refine_2 =>
    intro t ts ht hk
    rw [ht] at hends
    rw [List.append_nil]
    refine .stuck (.body ?_ (Token.kind_terminal_ne hk))
    rw [t.kind_terminal]
    exact hends
  intro t ts _ _
  refine (closingName_yields "procedure" h.name).bind ?_ ?_
  case refine_2 =>
    intro d _ rest hstop
    obtain ⟨rfl, next, more, found, rfl, hterm, hne, rfl⟩ | ⟨next, more, rfl, rfl, rfl, hk⟩ := hstop
    · exact .inl (.closing hterm hne)
    · exact .stuck (.closing hk)
  intro _ _ w hclosing
  obtain ⟨rfl, more, rfl⟩ := hclosing
  refine .bind_consume rfl ?_ ?_
  case refine_2 =>
    intro t ts _ hk
    exact .stuck (.last (p := ⟨h, b, h.name⟩) (Token.kind_terminal_ne hk))
  intro t ts _ _
  exact .pure ⟨b, rfl, hvalue, ts, rfl⟩

theorem procedure_yields (hs : Scene m earlier v.table)
    (hnext : nextKind v.rest = .keyword .procedureWord) :
    (procedure unitId).Yields v
      (fun _ read w => ∃ p, read = p.terminals ∧ ProcedureRead m earlier v p w)
      (Stopped (ProcedureFault m earlier) ProcedureStuck) := by
  rw [procedure_eq]
  refine (heading_yields hs hnext).bind ?_ (fun _ _ _ h => h)
  intro r _ w hread
  obtain ⟨h, rfl, hname, hread⟩ := hread
  rw [hname]
  refine (behindHeading_yields hread).mono ?_ (fun _ _ _ hstop => hstop)
  intro _ read x hbehind
  obtain ⟨b, hterminals, hvalue, ts, rfl⟩ := hbehind
  refine ⟨⟨h, b, h.name⟩, hterminals, ?_, hread.ne_init, hread.scene, ?_⟩
  · exact ⟨hread.exported, rfl, hread.fresh, hread.types, hvalue⟩
  · show w.ir ++ [ending b.value] = _
    rw [hread.ir, functionPieces, hvalue, List.append_assoc]
    rfl

end ModuleCompiler.Parse
