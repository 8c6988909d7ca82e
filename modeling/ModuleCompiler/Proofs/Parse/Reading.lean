/-
  Steps that only read. Such a step may move the cursor forward and tell events, but it leaves
  the table and the output alone, whether it succeeds or not (`Reading`). All that a use of a
  name, a return type or a closing name does is to read, and to tell of the scopes that were
  searched (`Quiet`); a type that is read is a type of the table (`typeName_ok_iff`).
-/
import ModuleCompiler.Parse.Module
import ModuleCompiler.Proofs.Outcome

namespace ModuleCompiler

namespace Cursor

theorem position_advance (c : Cursor) :
    c.advance.position = if c.position + 1 < c.tokens.size then c.position + 1 else c.position := by
  unfold advance
  split <;> rfl

theorem getElem?_position (c : Cursor) : c.tokens[c.position]? = some c.current :=
  Array.getElem?_eq_getElem c.position_lt

/-- The cursors are on the same tokens, and the first one is not behind the second one. -/
def Before (c d : Cursor) : Prop :=
  d.tokens = c.tokens ∧ c.position ≤ d.position

theorem Before.trans {c d e : Cursor} (h : c.Before d) (h' : d.Before e) : c.Before e :=
  ⟨h'.1.trans h.1, Nat.le_trans h.2 h'.2⟩

theorem before_refl (c : Cursor) : c.Before c := ⟨rfl, Nat.le_refl _⟩

theorem before_advance (c : Cursor) : c.Before c.advance :=
  ⟨c.tokens_advance, c.position_le_advance⟩

end Cursor

/-- The cursor has not gone back, and the table and the output are the same. -/
structure ParserState.Reads (s s' : ParserState) : Prop where
  tokens : s'.cursor.tokens = s.cursor.tokens
  position_le : s.cursor.position ≤ s'.cursor.position
  table : s'.table = s.table
  ir : s'.ir = s.ir

namespace ParserState.Reads

variable {s s' s'' : ParserState}

theorem refl (s : ParserState) : s.Reads s := ⟨rfl, Nat.le_refl _, rfl, rfl⟩

theorem trans (h : s.Reads s') (h' : s'.Reads s'') : s.Reads s'' where
  tokens := h'.tokens.trans h.tokens
  position_le := Nat.le_trans h.position_le h'.position_le
  table := h'.table.trans h.table
  ir := h'.ir.trans h.ir

theorem advance (s : ParserState) : s.Reads { s with cursor := s.cursor.advance } :=
  ⟨s.cursor.tokens_advance, s.cursor.position_le_advance, rfl, rfl⟩

theorem before (h : s.Reads s') : s.cursor.Before s'.cursor := ⟨h.tokens, h.position_le⟩

end ParserState.Reads

/-- The event tells of a scope that was searched. -/
def Event.isSearch (e : Event) : Bool := e matches lookedUp ..

/-- What only reads, and tells of nothing but the scopes that it searched. -/
structure ParserState.ReadsQuietly (s s' : ParserState) : Prop extends s.Reads s' where
  searches : ∃ told, s'.events = s.events ++ told ∧ ∀ e ∈ told, e.isSearch = true

namespace ParserState.ReadsQuietly

variable {s s' s'' : ParserState}

theorem of_silent (h : s.Reads s') (hevents : s'.events = s.events) : s.ReadsQuietly s' where
  toReads := h
  searches := ⟨[], by rw [hevents, List.append_nil], nofun⟩

theorem refl (s : ParserState) : s.ReadsQuietly s := .of_silent (.refl s) rfl

theorem trans (h : s.ReadsQuietly s') (h' : s'.ReadsQuietly s'') : s.ReadsQuietly s'' where
  toReads := h.toReads.trans h'.toReads
  searches := by
    obtain ⟨told, hevents, htold⟩ := h.searches
    obtain ⟨told', hevents', htold'⟩ := h'.searches
    refine ⟨told ++ told', by rw [hevents', hevents, List.append_assoc], fun e he => ?_⟩
    exact (List.mem_append.1 he).elim (htold e) (htold' e)

theorem advance (s : ParserState) : s.ReadsQuietly { s with cursor := s.cursor.advance } :=
  .of_silent (.advance s) rfl

end ParserState.ReadsQuietly

namespace Parse

variable {α β : Type} {f : Parse α} {next : α → Parse β} {s s' : ParserState}

/-- Two steps in a row succeed exactly if each of them does. -/
theorem runFrom_bind_eq_ok_iff {b : β} :
    (f >>= next).runFrom s = (.ok b, s') ↔
      ∃ a t, f.runFrom s = (.ok a, t) ∧ (next a).runFrom t = (.ok b, s') := by
  rw [runFrom_bind]
  constructor
  · intro h
    generalize f.runFrom s = r at h
    obtain ⟨_ | a, t⟩ := r
    · cases h
    · exact ⟨a, t, rfl, h⟩
  · intro h
    obtain ⟨a, t, hf, hnext⟩ := h
    rw [hf]
    exact hnext

/-- How two steps in a row leave the state is how each of them leaves it, for a transitive relation
of the states before and behind. -/
theorem runFrom_bind_rel {R : ParserState → ParserState → Prop}
    (htrans : ∀ {a b c : ParserState}, R a b → R b c → R a c) (hf : R s (f.runFrom s).2)
    (hnext : ∀ a t, f.runFrom s = (.ok a, t) → R t ((next a).runFrom t).2) :
    R s ((f >>= next).runFrom s).2 := by
  rw [runFrom_bind]
  generalize f.runFrom s = r at hf hnext
  obtain ⟨_ | a, t⟩ := r
  · exact hf
  · exact htrans hf (hnext a t rfl)

/-- The step only reads. -/
def Reading (f : Parse α) : Prop :=
  ∀ s : ParserState, s.Reads (f.runFrom s).2

/-- The step only reads, and it tells of searched scopes at most. -/
def Quiet (f : Parse α) : Prop :=
  ∀ s : ParserState, s.ReadsQuietly (f.runFrom s).2

theorem Quiet.reading (h : Quiet f) : Reading f := fun s => (h s).toReads

theorem Reading.of_ok {a : α} (h : Reading f) (hrun : f.runFrom s = (.ok a, s')) :
    s.Reads s' := by
  have hreads := h s
  rw [hrun] at hreads
  exact hreads

theorem Reading.bind (hf : Reading f) (hnext : ∀ a, Reading (next a)) :
    Reading (f >>= next) :=
  fun s => runFrom_bind_rel .trans (hf s) fun a t _ => hnext a t

theorem Quiet.bind (hf : Quiet f) (hnext : ∀ a, Quiet (next a)) : Quiet (f >>= next) :=
  fun s => runFrom_bind_rel .trans (hf s) fun a t _ => hnext a t

/-! ## Steps -/

theorem Quiet.of_unchanged (h : ∀ s, (f.runFrom s).2 = s) : Quiet f := by
  intro s
  rw [h]
  exact .refl s

theorem quiet_pure (a : α) : Quiet (pure a : Parse α) := .of_unchanged fun _ => rfl

theorem quiet_fail (d : Diagnostic) : Quiet (fail d : Parse α) := .of_unchanged fun _ => rfl

theorem quiet_get : Quiet (get : Parse ParserState) := .of_unchanged fun _ => rfl

theorem quiet_cursor : Quiet cursor := .of_unchanged fun _ => rfl

theorem quiet_isAt (kind : TokenKind) : Quiet (isAt kind) := .of_unchanged fun _ => rfl

theorem quiet_ask (question : Table → Except Fault α) : Quiet (ask question) := by
  refine .of_unchanged fun s => ?_
  rw [runFrom_ask]

theorem quiet_advance : Quiet advance := fun s => .advance s

theorem quiet_lookup (scope : DeclId) (name : String) : Quiet (lookup scope name) := by
  intro s
  rw [runFrom_lookup]
  cases s.table.lookup scope name with
  | error fault => exact .refl s
  | ok found =>
    refine ⟨⟨rfl, Nat.le_refl _, rfl, rfl⟩, _, rfl, fun e he => ?_⟩
    obtain ⟨searched, -, rfl⟩ := List.mem_map.1 he
    rfl

theorem quiet_skipIf (kind : TokenKind) : Quiet (skipIf kind) := by
  intro s
  rw [runFrom_skipIf]
  split
  · exact .advance s
  · exact .refl s

theorem quiet_expect (kind : TokenKind) : Quiet (expect kind) := by
  refine .of_unchanged fun s => ?_
  rw [runFrom_expect]
  split <;> rfl

theorem quiet_consume (kind : TokenKind) : Quiet (consume kind) :=
  (quiet_expect kind).bind fun _ => quiet_advance

theorem quiet_expectIdent : Quiet expectIdent :=
  (quiet_expect .ident).bind fun _ => quiet_cursor.bind fun _ =>
    quiet_advance.bind fun _ => quiet_pure _

/-! ## Names -/

theorem quiet_member (module : DeclId) (name : String) : Quiet (member module name) := by
  unfold member
  refine quiet_advance.bind fun _ => quiet_expectIdent.bind fun n => ?_
  refine (quiet_ask _).bind fun found => ?_
  cases found with
  | none => exact quiet_fail _
  | some c => exact quiet_pure _

theorem quiet_qualifiedName (scope : Option DeclId) : Quiet (qualifiedName scope) := by
  unfold qualifiedName
  cases scope with
  | none => exact quiet_cursor.bind fun _ => quiet_fail _
  | some scope =>
    refine quiet_expectIdent.bind fun name => (quiet_lookup scope name).bind fun found => ?_
    cases found with
    | none => exact quiet_fail _
    | some c =>
      refine (quiet_ask _).bind fun d => (quiet_isAt _).bind fun period => ?_
      split
      · exact quiet_member c name
      · exact quiet_pure _

theorem quiet_typeName (scope : Option DeclId) : Quiet (typeName scope) := by
  unfold typeName
  refine (quiet_qualifiedName scope).bind fun r => (quiet_ask _).bind fun d => ?_
  split
  · exact quiet_pure _
  · exact quiet_fail _

/-! ## Around a procedure -/

theorem quiet_parameters : Quiet parameters := by
  unfold parameters
  refine (quiet_skipIf _).bind fun present => ?_
  cases present with
  | false => exact quiet_pure _
  | true => exact quiet_consume _

theorem quiet_returnType (scope : DeclId) : Quiet (returnType scope) := by
  unfold returnType
  refine (quiet_skipIf _).bind fun present => ?_
  cases present with
  | false => exact quiet_pure _
  | true => exact (quiet_typeName _).bind fun _ => quiet_pure _

theorem quiet_closingName (kind expected : String) : Quiet (closingName kind expected) := by
  unfold closingName
  refine (quiet_expect _).bind fun _ => quiet_cursor.bind fun c => ?_
  dsimp only
  split
  · exact quiet_advance
  · exact quiet_fail _

/-! ## What is asked for -/

theorem consume_ok {kind : TokenKind} (h : (consume kind).runFrom s = (.ok (), s')) :
    s.cursor.isAt kind ∧ s' = { s with cursor := s.cursor.advance } := by
  rw [runFrom_consume] at h
  split at h
  · next hk =>
    cases h
    exact ⟨hk, rfl⟩
  · cases h

theorem expectIdent_ok {name : String} (h : expectIdent.runFrom s = (.ok name, s')) :
    s.cursor.isAt .ident ∧ s.cursor.current.lexeme = name ∧
      s' = { s with cursor := s.cursor.advance } := by
  rw [runFrom_expectIdent] at h
  split at h
  · next hk =>
    cases h
    exact ⟨hk, rfl, rfl⟩
  · cases h

theorem closingName_ok {kind expected : String}
    (h : (closingName kind expected).runFrom s = (.ok (), s')) :
    s.cursor.isAt .ident ∧ s.cursor.current.lexeme = expected ∧
      s' = { s with cursor := s.cursor.advance } := by
  rw [closingName, runFrom_bind, runFrom_expect] at h
  by_cases hk : s.cursor.isAt .ident
  · simp only [if_pos hk, runFrom_bind, runFrom_cursor] at h
    split at h
    · next hname =>
      cases h
      exact ⟨hk, hname, rfl⟩
    · cases h
  · simp only [if_neg hk] at h
    cases h

/-! ## What the steps read -/

theorem reading_tell (events : List Event) : Reading (tell events) := fun _ =>
  ⟨rfl, Nat.le_refl _, rfl, rfl⟩

theorem reading_pure (a : α) : Reading (pure a : Parse α) := (quiet_pure a).reading

theorem reading_cursor : Reading cursor := quiet_cursor.reading

theorem reading_isAt (kind : TokenKind) : Reading (isAt kind) := (quiet_isAt kind).reading

theorem reading_ask (question : Table → Except Fault α) : Reading (ask question) :=
  (quiet_ask question).reading

theorem reading_skipIf (kind : TokenKind) : Reading (skipIf kind) := (quiet_skipIf kind).reading

theorem reading_consume (kind : TokenKind) : Reading (consume kind) :=
  (quiet_consume kind).reading

theorem reading_expectIdent : Reading expectIdent := quiet_expectIdent.reading

theorem reading_qualifiedName (scope : Option DeclId) : Reading (qualifiedName scope) :=
  (quiet_qualifiedName scope).reading

theorem reading_typeName (scope : Option DeclId) : Reading (typeName scope) :=
  (quiet_typeName scope).reading

theorem reading_parameters : Reading parameters := quiet_parameters.reading

theorem reading_returnType (scope : DeclId) : Reading (returnType scope) :=
  (quiet_returnType scope).reading

theorem reading_closingName (kind expected : String) : Reading (closingName kind expected) :=
  (quiet_closingName kind expected).reading

/-! ## Types -/

/-- A type is a use that stands for one. -/
theorem typeName_ok_iff {scope : Option DeclId} {id : DeclId} :
    (typeName scope).runFrom s = (.ok id, s') ↔
      ∃ r d representation, (qualifiedName scope).runFrom s = (.ok r, s') ∧ r.decl = id ∧
        s.table.get? id = some d ∧ d.kind = .type representation := by
  have hreading := reading_qualifiedName scope
  simp only [typeName, runFrom_bind_eq_ok_iff, runFrom_ask, Prod.mk.injEq, Table.decl_eq_ok_iff]
  constructor
  · intro h
    obtain ⟨r, t, hname, d, u, ⟨hd, rfl⟩, h⟩ := h
    rw [(hreading.of_ok hname).table] at hd
    cases hrep : d.representation? with
    | none =>
      rw [hrep] at h
      cases h
    | some representation =>
      rw [hrep] at h
      cases h
      exact ⟨r, d, representation, hname, rfl, hd, Decl.representation?_eq_some_iff.1 hrep⟩
  · intro h
    obtain ⟨r, d, representation, hname, rfl, hd, hkind⟩ := h
    refine ⟨r, s', hname, d, s', ⟨?_, rfl⟩, ?_⟩
    · rw [(hreading.of_ok hname).table]
      exact hd
    · rw [Decl.representation?_eq_some_iff.2 hkind]
      rfl

theorem typeName_ok {scope : Option DeclId} {id : DeclId}
    (h : (typeName scope).runFrom s = (.ok id, s')) :
    ∃ d representation, s.table.get? id = some d ∧ d.representation? = some representation := by
  obtain ⟨r, d, representation, -, -, hd, hkind⟩ := typeName_ok_iff.1 h
  exact ⟨d, representation, hd, Decl.representation?_eq_some_iff.2 hkind⟩

/-- A return type is left out or a type of the table. -/
theorem returnType_ok {scope : DeclId} {returns : Option DeclId}
    (h : (returnType scope).runFrom s = (.ok returns, s')) (id : DeclId)
    (hid : returns = some id) :
    ∃ d representation, s.table.get? id = some d ∧ d.representation? = some representation := by
  obtain ⟨present, t, hskip, h⟩ := runFrom_bind_eq_ok_iff.1 h
  have htable := ((reading_skipIf _).of_ok hskip).table
  cases present with
  | false =>
    cases h
    cases hid
  | true =>
    obtain ⟨type, u, htype, h⟩ := runFrom_bind_eq_ok_iff.1 h
    cases h
    cases hid
    obtain ⟨d, representation, hd, hrep⟩ := typeName_ok htype
    exact ⟨d, representation, htable ▸ hd, hrep⟩

end Parse

end ModuleCompiler
