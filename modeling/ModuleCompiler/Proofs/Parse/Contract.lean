/-
  What a step of parsing does to the tokens ahead, the table and the output. A step `Yields`
  one condition where it succeeds and another one where it is stopped by a diagnostic; either
  is told what was read on the way. No step with a contract meets an id of another table.

  * `Yields.bind`: contracts of steps in a row; the further rules are about one step of each
    kind in front of others.
-/
import ModuleCompiler.Proofs.Token.Stream

namespace ModuleCompiler

/-- The kind of the first token. -/
def nextKind : List Token → TokenKind
  | [] => .endOfInput
  | t :: _ => t.kind

/-- The tokens ahead, the table and the output. -/
structure View where
  rest : List Token
  table : Table
  ir : IR

/-- The state has the view, and its tokens come from the scanner. -/
structure ParserState.Shows (s : ParserState) (v : View) : Prop where
  rest : s.cursor.tokens.toList.drop s.cursor.position = v.rest
  lexed : Token.Lexed v.rest
  table : s.table = v.table
  ir : s.ir = v.ir

/-! ## The cursor -/

namespace ParserState.Shows

variable {s : ParserState} {v : View}

theorem split (h : s.Shows v) : ∃ ts, v.rest = s.cursor.current :: ts ∧
    s.cursor.tokens.toList.drop (s.cursor.position + 1) = ts := by
  have hlt : s.cursor.position < s.cursor.tokens.toList.length := by
    rw [Array.length_toList]
    exact s.cursor.position_lt
  refine ⟨_, ?_, rfl⟩
  rw [← h.rest, List.drop_eq_getElem_cons hlt]
  rfl

theorem isAt (h : s.Shows v) (kind : TokenKind) :
    s.cursor.isAt kind = decide (nextKind v.rest = kind) := by
  obtain ⟨ts, hts, -⟩ := h.split
  rw [hts]
  rfl

theorem remaining (h : s.Shows v) : s.cursor.remaining + 1 = v.rest.length := by
  have hlt := s.cursor.position_lt
  rw [← h.rest, List.length_drop, Array.length_toList, Cursor.remaining]
  omega

theorem advance (h : s.Shows v) {t : Token} {ts : List Token} (hrest : v.rest = t :: ts)
    (hk : t.kind ≠ .endOfInput) :
    Shows { s with cursor := s.cursor.advance } { v with rest := ts } := by
  obtain ⟨ts', hts, hdrop⟩ := h.split
  obtain ⟨-, rfl⟩ := List.cons.inj (hrest.symm.trans hts)
  have hlexed := h.lexed
  rw [hrest] at hlexed
  have htail := (hlexed.tail hk).2
  have hlt : s.cursor.position + 1 < s.cursor.tokens.size := by
    have hpos := List.length_pos_iff.2 htail.ne_nil
    rw [← hdrop, List.length_drop, Array.length_toList] at hpos
    omega
  refine ⟨?_, htail, h.table, h.ir⟩
  rw [Cursor.advance, dif_pos hlt]
  exact hdrop

end ParserState.Shows

/-! ## Contracts -/

namespace Parse

/-- The outcome of a step with the given view before it meets one of two conditions. -/
inductive Meets {α : Type} (Q : α → List Terminal → View → Prop)
    (E : Diagnostic → List Terminal → List Token → Prop) (v : View) :
    Except Fault α × ParserState → Prop where
  | ok {a : α} {s : ParserState} {r : List Token} {w : View} :
      s.Shows w → v.rest = r ++ w.rest → Q a (r.map Token.terminal) w → Meets Q E v (.ok a, s)
  | error {d : Diagnostic} {s : ParserState} {r rest : List Token} :
      v.rest = r ++ rest → E d (r.map Token.terminal) rest →
      Meets Q E v (.error (.diagnostic d), s)

/-- From a state with the given view the step succeeds with the first condition, or a
diagnostic stops it with the second one. -/
def Yields {α : Type} (step : Parse α) (v : View) (Q : α → List Terminal → View → Prop)
    (E : Diagnostic → List Terminal → List Token → Prop) : Prop :=
  ∀ s : ParserState, s.Shows v → Meets Q E v (step.runFrom s)

variable {α β : Type} {f : Parse α} {next : α → Parse β} {v : View}
  {Q : β → List Terminal → View → Prop} {E : Diagnostic → List Terminal → List Token → Prop}

theorem Meets.behind {r : List Token} {w : View} {o : Except Fault β × ParserState}
    (hrest : v.rest = r ++ w.rest)
    (h : Meets (fun b read => Q b (r.map Token.terminal ++ read))
      (fun d read => E d (r.map Token.terminal ++ read)) w o) : Meets Q E v o := by
  cases h with
  | ok hshows hread hq =>
    refine .ok hshows (hrest.trans ?_) (by rw [List.map_append]; exact hq)
    rw [hread, List.append_assoc]
  | error hread he =>
    refine .error (hrest.trans ?_) (by rw [List.map_append]; exact he)
    rw [hread, List.append_assoc]

theorem Yields.bind {Q₁ : α → List Terminal → View → Prop}
    {E₁ : Diagnostic → List Terminal → List Token → Prop} (hf : f.Yields v Q₁ E₁)
    (hok : ∀ a ts v', Q₁ a ts v' →
      (next a).Yields v' (fun b read => Q b (ts ++ read)) (fun d read => E d (ts ++ read)))
    (herr : ∀ d ts rest, E₁ d ts rest → E d ts rest) : (f >>= next).Yields v Q E := by
  intro s hs
  have hmeets := hf s hs
  rw [runFrom_bind]
  generalize f.runFrom s = o at hmeets
  cases hmeets with
  | ok hshows hread hq => exact .behind hread (hok _ _ _ hq _ hshows)
  | error hread he => exact .error hread (herr _ _ _ he)

theorem Yields.mono {Q' : β → List Terminal → View → Prop}
    {E' : Diagnostic → List Terminal → List Token → Prop} {step : Parse β}
    (h : step.Yields v Q' E') (hq : ∀ b ts v', Q' b ts v' → Q b ts v')
    (he : ∀ d ts rest, E' d ts rest → E d ts rest) : step.Yields v Q E := by
  intro s hs
  have hmeets := h s hs
  generalize step.runFrom s = o at hmeets ⊢
  cases hmeets with
  | ok hshows hread h => exact .ok hshows hread (hq _ _ _ h)
  | error hread h => exact .error hread (he _ _ _ h)

theorem Yields.of_lexed {step : Parse β} (h : Token.Lexed v.rest → step.Yields v Q E) :
    step.Yields v Q E :=
  fun s hs => h hs.lexed s hs

theorem Yields.of_bind_pure {step : Parse β} (h : (step >>= Pure.pure).Yields v Q E) :
    step.Yields v Q E := by
  rw [bind_pure] at h
  exact h

/-- What is read and what is ahead behind it was ahead before. -/
theorem Yields.whole {step : Parse β} (h : step.Yields v Q E) :
    step.Yields v (fun b read w => Q b read w ∧
      ∃ ts, v.rest = ts ++ w.rest ∧ read = ts.map Token.terminal) E := by
  intro s hs
  have hmeets := h s hs
  generalize step.runFrom s = o at hmeets ⊢
  cases hmeets with
  | ok hshows hread hq => exact .ok hshows hread ⟨hq, _, hread, rfl⟩
  | error hread he => exact .error hread he

theorem Yields.pure {b : β} (h : Q b [] v) : (Pure.pure b : Parse β).Yields v Q E := by
  intro s hs
  exact .ok (r := []) hs rfl h

theorem Yields.fail {d : Diagnostic} (h : E d [] v.rest) :
    (Parse.fail d : Parse β).Yields v Q E := by
  intro s hs
  exact .error (r := []) rfl h

/-! ## Steps that read nothing -/

/-- A step that reads nothing and succeeds. -/
theorem Yields.bind_quiet {w : View} {P : α → Prop} (hrest : w.rest = v.rest)
    (hf : ∀ s : ParserState, s.Shows v →
      ∃ a s', f.runFrom s = (.ok a, s') ∧ s'.Shows w ∧ P a)
    (h : ∀ a, P a → (next a).Yields w Q E) : (f >>= next).Yields v Q E := by
  intro s hs
  obtain ⟨a, s', hrun, hs', ha⟩ := hf s hs
  rw [runFrom_bind, hrun]
  exact .behind (r := []) hrest.symm (h a ha s' hs')

theorem Yields.bind_get {next : ParserState → Parse β}
    (h : ∀ s : ParserState, s.Shows v → (next s).Yields v Q E) :
    ((MonadState.get : Parse ParserState) >>= next).Yields v Q E :=
  .bind_quiet rfl (fun s hs => ⟨s, s, runFrom_get s, hs, hs⟩) h

theorem Yields.bind_cursor {next : Cursor → Parse β}
    (h : ∀ s : ParserState, s.Shows v → (next s.cursor).Yields v Q E) :
    (cursor >>= next).Yields v Q E := by
  refine .bind_quiet (w := v) (P := fun c => ∃ s : ParserState, s.Shows v ∧ s.cursor = c) rfl ?_ ?_
  · intro s hs
    exact ⟨s.cursor, s, runFrom_cursor s, hs, s, hs, rfl⟩
  · intro _ hstate
    obtain ⟨s, hs, rfl⟩ := hstate
    exact h s hs

theorem Yields.bind_isAt {next : Bool → Parse β} {kind : TokenKind}
    (h : (next (decide (nextKind v.rest = kind))).Yields v Q E) :
    (Parse.isAt kind >>= next).Yields v Q E := by
  refine .bind_quiet (w := v) (P := (· = decide (nextKind v.rest = kind))) rfl ?_ ?_
  · intro s hs
    exact ⟨_, s, runFrom_isAt kind s, hs, hs.isAt kind⟩
  · rintro _ rfl
    exact h

theorem Yields.bind_ask {question : Table → Except Fault α} {a : α}
    (ha : question v.table = .ok a) (h : (next a).Yields v Q E) :
    (ask question >>= next).Yields v Q E := by
  refine .bind_quiet (w := v) (P := (· = a)) rfl ?_ ?_
  · intro s hs
    exact ⟨a, s, by rw [runFrom_ask, hs.table, ha], hs, rfl⟩
  · rintro _ rfl
    exact h

theorem Yields.bind_lookup {next : Option DeclId → Parse β} {scope : DeclId} {name : String}
    {found : Option DeclId} (hfound : v.table.lookup scope name = .ok found)
    (h : (next found).Yields v Q E) : (lookup scope name >>= next).Yields v Q E := by
  refine .bind_quiet (w := v) (P := (· = found)) rfl ?_ ?_
  · intro s hs
    refine ⟨found, { s with events := s.events ++ s.table.lookupEvents scope name }, ?_,
      ⟨hs.rest, hs.lexed, hs.table, hs.ir⟩, rfl⟩
    rw [← hs.table] at hfound
    rw [runFrom_lookup, hfound]
  · rintro _ rfl
    exact h

theorem Yields.bind_create {next : DeclId → Parse β} {creation : Table → Except Fault Created}
    {c : Created} (hc : creation v.table = .ok c)
    (h : (next c.id).Yields { v with table := c.table } Q E) :
    (create creation >>= next).Yields v Q E := by
  refine .bind_quiet (w := { v with table := c.table }) (P := (· = c.id)) rfl ?_ ?_
  · intro s hs
    refine ⟨c.id, { s with table := c.table, events := s.events ++ c.events }, ?_,
      ⟨hs.rest, hs.lexed, rfl, hs.ir⟩, rfl⟩
    rw [runFrom_create, hs.table, hc]
  · rintro _ rfl
    exact h

theorem Yields.create_error {next : DeclId → Parse β} {creation : Table → Except Fault Created}
    {d : Diagnostic} (hc : creation v.table = .error (.diagnostic d)) (h : E d [] v.rest) :
    (create creation >>= next).Yields v Q E := by
  intro s hs
  rw [runFrom_bind, runFrom_create, hs.table, hc]
  exact .error (r := []) rfl h

theorem Yields.bind_emit {next : Unit → Parse β} {piece : IR.Piece}
    (h : (next ()).Yields { v with ir := v.ir ++ [piece] } Q E) :
    (emit piece >>= next).Yields v Q E := by
  refine .bind_quiet (w := { v with ir := v.ir ++ [piece] }) (P := fun _ => True) rfl ?_ ?_
  · intro s hs
    refine ⟨(), { s with ir := s.ir ++ [piece] }, runFrom_emit piece s,
      ⟨hs.rest, hs.lexed, hs.table, ?_⟩, trivial⟩
    rw [← hs.ir]
  · intro _ _
    exact h

theorem Yields.bind_tell {next : Unit → Parse β} {events : List Event}
    (h : (next ()).Yields v Q E) : (tell events >>= next).Yields v Q E := by
  refine .bind_quiet (w := v) (P := fun _ => True) rfl ?_ ?_
  · intro s hs
    exact ⟨(), { s with events := s.events ++ events }, runFrom_tell events s,
      ⟨hs.rest, hs.lexed, hs.table, hs.ir⟩, trivial⟩
  · intro _ _
    exact h

/-! ## Steps that read a token -/

/-- A step that reads the next token. -/
theorem Yields.bind_read {t : Token} {ts : List Token} {a : α} (hrest : v.rest = t :: ts)
    (hk : t.kind ≠ .endOfInput)
    (hf : ∀ s : ParserState, s.Shows v →
      f.runFrom s = (.ok a, { s with cursor := s.cursor.advance }))
    (h : (next a).Yields { v with rest := ts } (fun b read => Q b (t.terminal :: read))
      (fun d read => E d (t.terminal :: read))) : (f >>= next).Yields v Q E := by
  intro s hs
  rw [runFrom_bind, hf s hs]
  exact .behind (r := [t]) (w := { v with rest := ts }) hrest (h _ (hs.advance hrest hk))

theorem Yields.bind_advance {next : Unit → Parse β} {t : Token} {ts : List Token}
    (hrest : v.rest = t :: ts) (hk : t.kind ≠ .endOfInput)
    (h : (next ()).Yields { v with rest := ts } (fun b read => Q b (t.terminal :: read))
      (fun d read => E d (t.terminal :: read))) : (advance >>= next).Yields v Q E :=
  .bind_read hrest hk (fun s _ => runFrom_advance s) h

/-- A step that reads a token of the kind, and rejects every other one. -/
theorem Yields.bind_kind {kind : TokenKind} (hkind : kind ≠ .endOfInput)
    (value : ParserState → α)
    (hf : ∀ s : ParserState, f.runFrom s =
      if s.cursor.isAt kind then (.ok (value s), { s with cursor := s.cursor.advance })
      else (.error (.diagnostic s.cursor.unexpected), s))
    (hok : ∀ (s : ParserState) t ts, s.Shows v → v.rest = t :: ts → t.kind = kind →
      (next (value s)).Yields { v with rest := ts } (fun b read => Q b (t.terminal :: read))
        (fun d read => E d (t.terminal :: read)))
    (herr : ∀ t ts, v.rest = t :: ts → t.kind ≠ kind →
      E (.unexpectedToken t.describe) [] (t :: ts)) : (f >>= next).Yields v Q E := by
  intro s hs
  obtain ⟨ts, hrest, -⟩ := hs.split
  rw [runFrom_bind, hf, hs.isAt, hrest]
  by_cases hk : s.cursor.current.kind = kind
  · rw [if_pos (by simp [nextKind, hk])]
    exact .behind (r := [s.cursor.current]) (w := { v with rest := ts }) hrest
      (hok s _ ts hs hrest hk _ (hs.advance hrest (hk ▸ hkind)))
  · rw [if_neg (by simp [nextKind, hk])]
    exact .error (r := []) hrest (herr _ ts hrest hk)

theorem Yields.bind_consume {next : Unit → Parse β} {kind : TokenKind} (hkind : kind.isFixed)
    (hok : ∀ t ts, v.rest = t :: ts → t.kind = kind →
      (next ()).Yields { v with rest := ts } (fun b read => Q b (.mark kind :: read))
        (fun d read => E d (.mark kind :: read)))
    (herr : ∀ t ts, v.rest = t :: ts → t.kind ≠ kind →
      E (.unexpectedToken t.describe) [] (t :: ts)) : (consume kind >>= next).Yields v Q E := by
  refine .bind_kind (by rintro rfl; cases hkind) (fun _ => ()) (runFrom_consume kind) ?_ herr
  rintro s t ts - hrest rfl
  rw [Token.terminal_of_isFixed hkind]
  exact hok t ts hrest rfl

theorem Yields.bind_expectIdent {next : String → Parse β}
    (hok : ∀ t ts, v.rest = t :: ts → t.kind = .ident → t.Proper →
      (next t.lexeme).Yields { v with rest := ts } (fun b read => Q b (.ident t.lexeme :: read))
        (fun d read => E d (.ident t.lexeme :: read)))
    (herr : ∀ t ts, v.rest = t :: ts → t.kind ≠ .ident →
      E (.unexpectedToken t.describe) [] (t :: ts)) : (expectIdent >>= next).Yields v Q E := by
  refine .bind_kind (by decide) (fun s => s.cursor.current.lexeme) runFrom_expectIdent ?_ herr
  intro s t ts hs hrest hk
  obtain ⟨ts', hsplit, -⟩ := hs.split
  obtain ⟨rfl, -⟩ := List.cons.inj (hrest.symm.trans hsplit)
  have hproper := (hrest ▸ hs.lexed : Token.Lexed (_ :: ts)).tail (by rw [hk]; decide)
  rw [Token.terminal_of_ident hk]
  exact hok _ ts hrest hk hproper.1

theorem Yields.bind_expect {next : Unit → Parse β} {kind : TokenKind}
    (hok : ∀ t ts, v.rest = t :: ts → t.kind = kind → (next ()).Yields v Q E)
    (herr : ∀ t ts, v.rest = t :: ts → t.kind ≠ kind →
      E (.unexpectedToken t.describe) [] (t :: ts)) : (expect kind >>= next).Yields v Q E := by
  intro s hs
  obtain ⟨ts, hrest, -⟩ := hs.split
  rw [runFrom_bind, runFrom_expect, hs.isAt, hrest]
  by_cases hk : s.cursor.current.kind = kind
  · rw [if_pos (by simp [nextKind, hk])]
    exact hok _ ts hrest hk s hs
  · rw [if_neg (by simp [nextKind, hk])]
    exact .error (r := []) hrest (herr _ ts hrest hk)

/-- An optional token is read, or another one is ahead and nothing happens. -/
theorem skipIf_yields {kind : TokenKind} (hkind : kind.isFixed)
    {E : Diagnostic → List Terminal → List Token → Prop} :
    (skipIf kind).Yields v
      (fun present read w => read = Terminal.optional kind present ∧
        ∃ ts, w = { v with rest := ts } ∧
          (present = false → ts = v.rest ∧ nextKind ts ≠ kind)) E := by
  intro s hs
  obtain ⟨ts, hrest, -⟩ := hs.split
  rw [runFrom_skipIf, hs.isAt]
  by_cases hk : nextKind v.rest = kind
  · rw [if_pos (by simp [hk])]
    have hcurrent : s.cursor.current.kind = kind := by
      rw [← hk, hrest]
      rfl
    have hfixed : s.cursor.current.kind.isFixed := hcurrent ▸ hkind
    refine .ok (r := [s.cursor.current])
      (hs.advance hrest (Token.kind_ne_endOfInput_of_isFixed hfixed)) hrest ⟨?_, ts, rfl, nofun⟩
    rw [List.map_singleton, Token.terminal_of_isFixed hfixed, hcurrent]
    rfl
  · rw [if_neg (by simp [hk])]
    exact .ok (r := []) hs rfl ⟨rfl, v.rest, rfl, fun _ => ⟨rfl, hk⟩⟩

end Parse

end ModuleCompiler
