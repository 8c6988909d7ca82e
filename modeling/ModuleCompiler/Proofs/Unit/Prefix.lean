/-
  How far a text may still become a unit. The grammar is also a list of items to read one
  after the other, where an optional or repeated item is chosen by one terminal; `follow`
  reads terminals off such a list.

  * `follow_unit`: every unit can be followed to its end.
  * `not_begins`: what cannot be followed begins no unit.
  * `ProcedureStuck`: a procedure is read as far as one can begin, and a token does not go on
    with it; the lemmas about it are one for each place where that happens.
-/
import ModuleCompiler.Proofs.Unit.Grammar

namespace ModuleCompiler

/-- The kind of the first terminal. -/
def headKind : List Terminal → TokenKind
  | [] => .endOfInput
  | x :: _ => x.kind

/-- No more of the body stands in front of a token of the kind. -/
def BodyText.EndsBefore (kind : TokenKind) (b : BodyText) : Prop :=
  match b.returns with
  | none => kind ≠ .keyword .returnWord ∧ (b.begins = false → kind ≠ .keyword .beginWord)
  | some none => kind ≠ .integer
  | some (some _) => True

/-- No more of the heading stands in front of a token of the kind. -/
def Heading.EndsBefore (kind : TokenKind) (h : Heading) : Prop :=
  h.returns = none → kind ≠ .colon ∧
    (h.parameters = false → kind ≠ .leftParen ∧ (h.exported = false → kind ≠ .asterisk))

theorem BodyText.headKind_append (b : BodyText) {xs : List Terminal}
    (h : b.terminals = [] → headKind xs ≠ .keyword .procedureWord) :
    headKind (b.terminals ++ xs) ≠ .keyword .procedureWord := by
  obtain ⟨begins, returns⟩ := b
  cases begins with
  | true => exact nofun
  | false =>
    rcases returns with _ | _ | value
    · exact h rfl
    · exact nofun
    · exact nofun

theorem BodyText.headKind_terminals (b : BodyText) (xs : List Terminal) :
    headKind (b.terminals ++ .keyword .endWord :: xs) ≠ .keyword .procedureWord :=
  b.headKind_append fun _ => nofun

/-- Some unit begins with the terminals. -/
def UnitText.Begins (ts : List Terminal) : Prop :=
  ∃ u : UnitText, ts <+: u.terminals ++ [.mark .endOfInput]

/-- What a rule of the grammar asks for: one terminal, or items that are there if the first
terminal of them is, once or any number of times. -/
inductive Item where
  | one (kind : TokenKind)
  | maybe (kind : TokenKind) (more : List Item)
  | many (kind : TokenKind) (more : List Item)

namespace Item

def body : List Item :=
  [.maybe (.keyword .beginWord) [], .maybe (.keyword .returnWord) [.maybe .integer []]]

/-- A procedure behind its first keyword. -/
def procedure : List Item :=
  .one .ident :: .maybe .asterisk [] :: .maybe .leftParen [.one .rightParen] ::
    .maybe .colon [.one .ident, .maybe .period [.one .ident]] :: .one .semicolon ::
    (body ++ [.one (.keyword .endWord), .one .ident, .one .semicolon])

/-- A unit behind its opening. -/
def content : List Item :=
  .many (.keyword .procedureWord) procedure ::
    (body ++ [.one (.keyword .endWord), .one .ident, .one .period, .one .endOfInput])

def unit : List Item :=
  .one (.keyword .moduleWord) :: .one .ident :: .one .semicolon :: content

/-- The items that are left when a terminal of the kind is read. -/
def next : List Item → TokenKind → Option (List Item)
  | [], _ => none
  | .one k :: items, kind => if kind = k then some items else none
  | .maybe k more :: items, kind => if kind = k then some (more ++ items) else next items kind
  | .many k more :: items, kind =>
    if kind = k then some (more ++ .many k more :: items) else next items kind

/-- The items that are left when the terminals are read. -/
def follow (items : List Item) : List Terminal → Option (List Item)
  | [] => some items
  | t :: ts => (next items t.kind).bind (follow · ts)

theorem follow_append (items : List Item) (ts us : List Terminal) :
    follow items (ts ++ us) = (follow items ts).bind (follow · us) := by
  induction ts generalizing items with
  | nil => rfl
  | cons t ts ih =>
    rw [List.cons_append, follow, follow]
    cases next items t.kind with
    | none => rfl
    | some left => exact ih left

/-! ## Trees can be followed -/

theorem follow_body (b : BodyText) (items : List Item) (ts : List Terminal) :
    follow (body ++ .one (.keyword .endWord) :: items)
        (b.terminals ++ .keyword .endWord :: ts) = follow items ts := by
  obtain ⟨begins, returns⟩ := b
  rcases begins with _ | _ <;> rcases returns with _ | _ | value <;> rfl

theorem follow_heading (h : Heading) (ts : List Terminal) :
    follow content (h.terminals ++ .mark .semicolon :: ts) =
      follow (body ++ .one (.keyword .endWord) :: .one .ident :: .one .semicolon :: content)
        ts := by
  obtain ⟨name, exported, parameters, returns⟩ := h
  rcases exported with _ | _ <;> rcases parameters with _ | _ <;>
    rcases returns with _ | _ | _ <;> rfl

theorem follow_procedure (p : ProcedureText) (ts : List Terminal) :
    follow content (p.terminals ++ ts) = follow content ts := by
  rw [ProcedureText.terminals, List.append_assoc, List.cons_append, List.append_assoc,
    follow_heading]
  exact follow_body p.body _ _

theorem follow_procedures (ps : List ProcedureText) (ts : List Terminal) :
    follow content (ps.flatMap ProcedureText.terminals ++ ts) = follow content ts := by
  induction ps with
  | nil => rfl
  | cons p ps ih => rw [List.flatMap_cons, List.append_assoc, follow_procedure, ih]

theorem follow_opening (m : String) (ts : List Terminal) :
    follow unit (UnitText.opening m ++ ts) = follow content ts := rfl

/-- Behind the procedures a terminal that starts none is for the body or the end. -/
theorem follow_content {ts : List Terminal} (hne : ts ≠ [])
    (h : headKind ts ≠ .keyword .procedureWord) :
    follow content ts = follow (body ++ .one (.keyword .endWord) ::
      [.one .ident, .one .period, .one .endOfInput]) ts := by
  cases ts with
  | nil => exact absurd rfl hne
  | cons t ts =>
    have hfirst : t.kind ≠ .keyword .procedureWord := h
    have hnext : next content t.kind = next (body ++ .one (.keyword .endWord) ::
        [.one .ident, .one .period, .one .endOfInput]) t.kind := if_neg hfirst
    rw [follow, follow, hnext]

theorem follow_content_body (b : BodyText) (ts : List Terminal) :
    follow content (b.terminals ++ .keyword .endWord :: ts) =
      follow [.one .ident, .one .period, .one .endOfInput] ts := by
  rw [follow_content (by simp) (b.headKind_terminals _)]
  exact follow_body b _ ts

theorem follow_unit (u : UnitText) :
    follow unit (u.terminals ++ [.mark .endOfInput]) = some [] := by
  rw [UnitText.terminals, List.append_assoc, List.append_assoc, List.append_assoc, follow_opening,
    follow_procedures]
  exact follow_content_body u.body _

theorem not_begins {ts : List Terminal} (h : follow unit ts = none) : ¬UnitText.Begins ts := by
  intro hbegins
  obtain ⟨u, more, hmore⟩ := hbegins
  have hend := follow_unit u
  rw [← hmore, follow_append, h] at hend
  cases hend

theorem follow_stuck {items left : List Item} {ts : List Terminal} {t : Terminal}
    (h : follow items ts = some left) (hnext : next left t.kind = none) :
    follow items (ts ++ [t]) = none := by
  rw [follow_append, h, Option.bind_some, follow, hnext]
  rfl

/-- A body is stuck at a terminal that is no more of it and not its END. -/
theorem follow_body_stuck {b : BodyText} {t : Terminal} (hends : b.EndsBefore t.kind)
    (hk : t.kind ≠ .keyword .endWord) (items : List Item) :
    follow (body ++ .one (.keyword .endWord) :: items) (b.terminals ++ [t]) = none := by
  obtain ⟨begins, _ | _ | value⟩ := b
  · obtain ⟨hreturn, hbegin⟩ := hends
    cases begins with
    | false =>
      have hbegin := hbegin rfl
      refine follow_stuck rfl ?_
      simp [next, body, hk, hreturn, hbegin]
    | true =>
      refine follow_stuck rfl ?_
      simp [next, hk, hreturn]
  · have hvalue : t.kind ≠ .integer := hends
    cases begins <;>
    · refine follow_stuck rfl ?_
      simp [next, hk, hvalue]
  · cases begins <;> exact follow_stuck rfl (if_neg hk)

end Item

open Item

/-! ## Where a procedure is stuck -/

/-- Some procedure begins so, but none of them goes on with the terminal. -/
structure ProcedureStuck (read : List Terminal) (next : Terminal) : Prop where
  begins : ∃ p : ProcedureText, read <+: p.terminals
  stuck : follow content (read ++ [next]) = none

namespace ProcedureStuck

variable {next : Terminal}

theorem name (hk : next.kind ≠ .ident) : ProcedureStuck [.keyword .procedureWord] next where
  begins := ⟨⟨⟨"", false, false, none⟩, ⟨false, none⟩, ""⟩, _, rfl⟩
  stuck := by
    have hread : follow content [.keyword .procedureWord] = some (procedure ++ content) := rfl
    exact follow_stuck hread (if_neg hk)

theorem parameters {n : String} {exported : Bool} (hk : next.kind ≠ .rightParen) :
    ProcedureStuck (.keyword .procedureWord :: .ident n ::
      (Terminal.optional .asterisk exported ++ [.mark .leftParen])) next where
  begins := by
    refine ⟨⟨⟨n, exported, true, none⟩, ⟨false, none⟩, ""⟩, ?_⟩
    cases exported <;> exact ⟨_, rfl⟩
  stuck := by
    cases exported <;> exact follow_stuck rfl (if_neg hk)

theorem type {n : String} {exported present : Bool} {read : List Terminal}
    (hread : read = [] ∨ ∃ q, read = [.ident q, .mark .period]) (hk : next.kind ≠ .ident) :
    ProcedureStuck (.keyword .procedureWord :: .ident n :: (Terminal.optional .asterisk exported ++
      (Heading.parameterTerminals present ++ .mark .colon :: read))) next where
  begins := by
    obtain rfl | ⟨q, rfl⟩ := hread
    · refine ⟨⟨⟨n, exported, present, some (.plain "")⟩, ⟨false, none⟩, ""⟩, ?_⟩
      cases exported <;> cases present <;> exact ⟨_, rfl⟩
    · refine ⟨⟨⟨n, exported, present, some (.member q "")⟩, ⟨false, none⟩, ""⟩, ?_⟩
      cases exported <;> cases present <;> exact ⟨_, rfl⟩
  stuck := by
    obtain rfl | ⟨q, rfl⟩ := hread <;> cases exported <;> cases present <;>
      exact follow_stuck rfl (if_neg hk)

theorem heading {h : Heading} (hexported : h.exported = true) (hk : next.kind ≠ .semicolon)
    (hends : h.EndsBefore next.kind)
    (hperiod : ∀ n, h.returns = some (.plain n) → next.kind ≠ .period) :
    ProcedureStuck h.terminals next where
  begins := ⟨⟨h, ⟨false, none⟩, ""⟩, _, rfl⟩
  stuck := by
    obtain ⟨n, exported, present, returns⟩ := h
    cases hexported
    rcases returns with _ | n | ⟨q, n⟩
    · obtain ⟨hcolon, hparen⟩ := hends rfl
      cases present
      · obtain ⟨hparen, -⟩ := hparen rfl
        refine follow_stuck rfl ?_
        simp [Item.next, hk, hcolon, hparen]
      · refine follow_stuck rfl ?_
        simp [Item.next, hk, hcolon]
    · have hperiod := hperiod n rfl
      cases present <;>
      · refine follow_stuck rfl ?_
        simp [Item.next, hk, hperiod]
    · cases present <;> exact follow_stuck rfl (if_neg hk)

theorem body {h : Heading} {b : BodyText} (hends : b.EndsBefore next.kind)
    (hk : next.kind ≠ .keyword .endWord) :
    ProcedureStuck (h.terminals ++ .mark .semicolon :: b.terminals) next where
  begins := ⟨⟨h, b, ""⟩, _, by rw [ProcedureText.terminals, List.append_assoc]; rfl⟩
  stuck := by
    rw [List.append_assoc, List.cons_append, follow_heading]
    exact follow_body_stuck hends hk _

theorem closing {h : Heading} {b : BodyText} (hk : next.kind ≠ .ident) :
    ProcedureStuck (h.terminals ++ .mark .semicolon :: (b.terminals ++ [.keyword .endWord]))
      next where
  begins := by
    refine ⟨⟨h, b, ""⟩, [.ident "", .mark .semicolon], ?_⟩
    simp [ProcedureText.terminals]
  stuck := by
    rw [List.append_assoc, List.cons_append, follow_heading, List.append_assoc]
    have hstuck : follow (.one .ident :: .one .semicolon :: content) ([] ++ [next]) = none :=
      follow_stuck rfl (if_neg hk)
    exact (follow_body b _ [next]).trans hstuck

theorem last {p : ProcedureText} (hk : next.kind ≠ .semicolon) :
    ProcedureStuck (p.toHeading.terminals ++ .mark .semicolon ::
      (p.body.terminals ++ [.keyword .endWord, .ident p.closing])) next where
  begins := by
    refine ⟨p, [.mark .semicolon], ?_⟩
    simp [ProcedureText.terminals]
  stuck := by
    rw [List.append_assoc, List.cons_append, follow_heading, List.append_assoc]
    have hstuck : follow (.one .ident :: .one .semicolon :: content)
        ([.ident p.closing] ++ [next]) = none := follow_stuck rfl (if_neg hk)
    exact (follow_body p.body _ [.ident p.closing, next]).trans hstuck

end ProcedureStuck

/-! ## Where a unit is stuck -/

/-- Some unit begins so, but none of them goes on with the terminal. -/
def UnitStuck (read : List Terminal) (next : Terminal) : Prop :=
  UnitText.Begins read ∧ ¬UnitText.Begins (read ++ [next])

namespace UnitStuck

variable {next : Terminal} {m : String} {ps : List ProcedureText} {b : BodyText}

theorem of_unit {read : List Terminal} {u : UnitText} (hu : read <+: u.terminals)
    (h : follow unit (read ++ [next]) = none) : UnitStuck read next :=
  ⟨⟨u, hu.trans (List.prefix_append _ _)⟩, not_begins h⟩

theorem of_content (qs : List ProcedureText) (c : BodyText) (closing : String)
    {read : List Terminal}
    (hread : read <+: qs.flatMap ProcedureText.terminals ++
      (c.terminals ++ [.keyword .endWord, .ident closing, .mark .period]))
    (h : follow content (read ++ [next]) = none) :
    UnitStuck (UnitText.opening m ++ (ps.flatMap ProcedureText.terminals ++ read)) next := by
  refine of_unit (u := ⟨m, ps ++ qs, c, closing⟩) ?_ ?_
  · rw [UnitText.terminals, List.flatMap_append, List.append_assoc]
    exact (List.prefix_append_right_inj _).2 ((List.prefix_append_right_inj _).2 hread)
  · rw [List.append_assoc, List.append_assoc, follow_opening, follow_procedures]
    exact h

theorem module (hk : next.kind ≠ .keyword .moduleWord) : UnitStuck [] next :=
  of_unit (u := ⟨"", [], ⟨false, none⟩, ""⟩) (List.nil_prefix) (follow_stuck rfl (if_neg hk))

theorem name (hk : next.kind ≠ .ident) : UnitStuck [.keyword .moduleWord] next :=
  of_unit (u := ⟨"", [], ⟨false, none⟩, ""⟩) ⟨_, rfl⟩ (follow_stuck rfl (if_neg hk))

theorem semicolon (hk : next.kind ≠ .semicolon) :
    UnitStuck [.keyword .moduleWord, .ident m] next :=
  of_unit (u := ⟨m, [], ⟨false, none⟩, ""⟩) ⟨_, rfl⟩ (follow_stuck rfl (if_neg hk))

theorem procedure {read : List Terminal} (h : ProcedureStuck read next) :
    UnitStuck (UnitText.opening m ++ (ps.flatMap ProcedureText.terminals ++ read)) next := by
  obtain ⟨⟨p, hp⟩, hstuck⟩ := h
  refine of_content [p] ⟨false, none⟩ "" ?_ hstuck
  rw [List.flatMap_cons, List.append_assoc]
  exact hp.trans (List.prefix_append _ _)

theorem body (hends : b.EndsBefore next.kind) (hk : next.kind ≠ .keyword .endWord)
    (hprocedure : b.terminals = [] → next.kind ≠ .keyword .procedureWord) :
    UnitStuck (UnitText.opening m ++ (ps.flatMap ProcedureText.terminals ++ b.terminals)) next := by
  refine of_content [] b "" (List.prefix_append _ _) ?_
  have hhead : headKind (b.terminals ++ [next]) ≠ .keyword .procedureWord :=
    b.headKind_append hprocedure
  rw [follow_content (by simp) hhead]
  exact follow_body_stuck hends hk _

theorem closing (hk : next.kind ≠ .ident) :
    UnitStuck (UnitText.opening m ++ (ps.flatMap ProcedureText.terminals ++
      (b.terminals ++ [.keyword .endWord]))) next := by
  refine of_content [] b "" ?_ ?_
  · exact (List.prefix_append_right_inj _).2 ⟨_, rfl⟩
  · rw [List.append_assoc]
    have hstuck : follow [.one .ident, .one .period, .one .endOfInput] ([] ++ [next]) = none :=
      follow_stuck rfl (if_neg hk)
    exact (follow_content_body b [next]).trans hstuck

theorem period {found : String} (hk : next.kind ≠ .period) :
    UnitStuck (UnitText.opening m ++ (ps.flatMap ProcedureText.terminals ++
      (b.terminals ++ [.keyword .endWord, .ident found]))) next := by
  refine of_content [] b found ?_ ?_
  · exact (List.prefix_append_right_inj _).2 ⟨_, rfl⟩
  · rw [List.append_assoc]
    have hstuck : follow [.one .ident, .one .period, .one .endOfInput] ([.ident found] ++ [next]) =
        none := follow_stuck rfl (if_neg hk)
    exact (follow_content_body b [.ident found, next]).trans hstuck

theorem behind {u : UnitText} (hk : next.kind ≠ .endOfInput) : UnitStuck u.terminals next := by
  refine of_content [] u.body u.closing (List.prefix_refl _) ?_
  rw [List.append_assoc]
  have hstuck : follow [.one .ident, .one .period, .one .endOfInput]
      ([.ident u.closing, .mark .period] ++ [next]) = none := follow_stuck rfl (if_neg hk)
  exact (follow_content_body u.body [.ident u.closing, .mark .period, next]).trans hstuck

end UnitStuck

end ModuleCompiler
