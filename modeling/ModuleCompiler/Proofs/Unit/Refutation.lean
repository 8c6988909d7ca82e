/-
  A fault excludes that the unit is valid: whatever is read on behind the place where a
  source is accused of something, it is no valid unit (`UnitFault.not_valid`).
-/
import ModuleCompiler.Proofs.Unit.Fault
import ModuleCompiler.Proofs.Unit.Unambiguous

namespace ModuleCompiler

open Predeclared

theorem nextKind_eq_headKind (rest : List Token) :
    nextKind rest = headKind (rest.map Token.terminal) := by
  cases rest with
  | nil => rfl
  | cons t ts => exact t.kind_terminal.symm

variable {m : String} {earlier : List String} {d : Diagnostic}

/-- A rejected use of a type does not stand for INTEGER, and no more of it does. -/
theorem TypeFault.not_isInteger {next : TokenKind} {type whole : TypeUse}
    (h : TypeFault m earlier next d type) (hm : m ≠ systemName ∧ m ≠ integerName)
    (hwhole : type = whole ∨
      ∃ q n, type = .plain q ∧ whole = .member q n ∧ next = .period) :
    ¬whole.IsInteger earlier := by
  have hnames : integerName ≠ systemName := by decide
  intro hinteger
  cases h with
  | unknown hsystem hint _ _ =>
    obtain rfl | ⟨_, _, ⟨⟩, rfl, _⟩ := hwhole
    · exact hint hinteger.1
    · exact hsystem hinteger.1
  | unknownMember _ hmember =>
    obtain rfl | ⟨_, _, ⟨⟩, _⟩ := hwhole
    obtain ⟨hq, hn, _⟩ := hinteger
    obtain ⟨_, _, hint, _⟩ | ⟨hqm, _⟩ := hmember
    · exact hint hn
    · exact hm.1 (hqm ▸ hq)
  | procedure hmem =>
    obtain rfl | ⟨_, _, ⟨⟩, rfl, _⟩ := hwhole
    · exact hinteger.2 (hinteger.1 ▸ hmem)
    · exact hinteger.2.2 (hinteger.1 ▸ hmem)
  | module _ hn hnext =>
    obtain rfl | ⟨_, _, ⟨⟩, _, hperiod⟩ := hwhole
    · obtain hn | hn := hn
      · exact hnames (hinteger.1 ▸ hn)
      · exact hm.2 (hn ▸ hinteger.1)
    · exact hnext hperiod
  | member _ hmember =>
    obtain rfl | ⟨_, _, ⟨⟩, _⟩ := hwhole
    obtain ⟨hq, hn, _⟩ := hinteger
    obtain ⟨_, hs | hnm⟩ | ⟨hqm, _⟩ := hmember
    · exact hnames (hn ▸ hs)
    · exact hm.2 (hnm ▸ hn)
    · exact hm.1 (hqm ▸ hq)

/-- A rejected body is none with a value exactly if there is a return type. -/
theorem BodyFault.value_ne {name : String} {typed : Bool} {read ys : List Terminal}
    {rest : List Token} {b : BodyText} (h : BodyFault name typed d read rest)
    (heq : read ++ rest.map Token.terminal = b.terminals ++ .keyword .endWord :: ys) :
    b.value.isSome ≠ typed := by
  cases h with
  | noValue htyped hvalue hends =>
    rw [nextKind_eq_headKind] at hends
    obtain ⟨rfl, -⟩ := BodyText.of_prefix heq hends
    rw [htyped, hvalue]
    exact Bool.false_ne_true
  | @value begins x next rest htyped hnext =>
    have hread : BodyText.terminals ⟨begins, some (some x)⟩ ++ rest.map Token.terminal =
        b.terminals ++ .keyword .endWord :: ys := by
      rw [← heq, List.map_cons, hnext]
      simp [BodyText.terminals, BodyText.returnTerminals]
    obtain ⟨rfl, -⟩ := BodyText.of_prefix hread trivial
    rw [htyped]
    exact Bool.false_ne_true.symm

theorem ProcedureFault.not_validAfter {read ys : List Terminal} {rest : List Token}
    {p : ProcedureText} (h : ProcedureFault m earlier d read rest)
    (hm : m ≠ systemName ∧ m ≠ integerName)
    (heq : read ++ rest.map Token.terminal = p.terminals ++ ys) : ¬p.ValidAfter earlier := by
  intro hvalid
  obtain ⟨hexported, hclosing, hfresh, htypes, hvalue⟩ := hvalid
  rw [ProcedureText.terminals, List.append_assoc, List.cons_append, List.append_assoc] at heq
  cases h with
  | @type h type d rest hreturns hfault =>
    have hends : h.EndsBefore (headKind (rest.map Token.terminal)) := by
      intro hnone
      rw [hreturns] at hnone
      cases hnone
    -- the whole use was read, or the name in front of its period
    obtain ⟨-, -, -, ⟨hsame, -⟩ | ⟨q, n, hplain, hmember, hperiod⟩⟩ := Heading.of_prefix heq hends
    · exact hfault.not_isInteger hm (.inl rfl) (htypes _ (hsame ▸ hreturns))
    · rw [hreturns] at hplain
      cases hplain
      rw [← nextKind_eq_headKind] at hperiod
      exact hfault.not_isInteger hm (.inr ⟨q, n, rfl, rfl, hperiod⟩) (htypes _ hmember)
  | unexported hno hends =>
    rw [nextKind_eq_headKind] at hends
    obtain ⟨-, hsame, -⟩ := Heading.of_prefix heq hends
    rw [hno, hexported] at hsame
    cases hsame
  | duplicate hmem =>
    have hname := (List.cons.inj (List.cons.inj heq).2).1
    rw [Terminal.ident.injEq] at hname
    exact hfresh (hname ▸ hmem)
  | @noModule h next rest hreturns _ hperiod =>
    have hends : h.EndsBefore (headKind ((next :: rest).map Token.terminal)) := by
      intro hnone
      rw [hreturns] at hnone
      cases hnone
    obtain ⟨-, -, -, ⟨-, hrest⟩ | ⟨q, n, hplain, hmember, -⟩⟩ := Heading.of_prefix heq hends
    · have hkind := congrArg headKind hrest
      rw [← nextKind_eq_headKind] at hkind
      cases hperiod.symm.trans hkind
    · rw [hreturns] at hplain
      cases hplain
      exact absurd (htypes _ hmember).1 (by decide)
  | body htypes' hfault =>
    rw [List.append_assoc, List.cons_append] at heq
    obtain ⟨rfl, hbody⟩ := Heading.of_semicolon heq
    exact hfault.value_ne hbody hvalue
  | closing hnext hne =>
    rw [List.append_assoc, List.cons_append, List.append_assoc] at heq
    obtain ⟨rfl, hbody⟩ := Heading.of_semicolon heq
    obtain ⟨rfl, hend⟩ := BodyText.of_end hbody
    have hfound := (List.cons.inj hend).1
    rw [hnext, Terminal.ident.injEq] at hfound
    exact hne (hfound.trans hclosing)

/-- Every procedure fault is found behind the keyword. -/
theorem ProcedureFault.headKind_read {read xs : List Terminal} {rest : List Token}
    (h : ProcedureFault m earlier d read rest) :
    headKind (read ++ xs) = .keyword .procedureWord := by
  cases h <;> rfl

/-- A fault of a body without a return type is found behind RETURN. -/
theorem BodyFault.headKind_read {name : String} {read xs : List Terminal} {rest : List Token}
    (h : BodyFault name false d read rest) : headKind (read ++ xs) ≠ .keyword .procedureWord := by
  cases h with
  | noValue htyped _ _ => cases htyped
  | @value begins _ _ _ _ _ => cases begins <;> exact nofun

theorem ProcedureText.AllValidAfter.middle {p : ProcedureText} {ps qs : List ProcedureText}
    (h : AllValidAfter earlier (ps ++ p :: qs)) :
    p.ValidAfter (earlier ++ ps.map fun p => p.name) := by
  induction ps generalizing earlier with
  | nil =>
    rw [List.map_nil, List.append_nil]
    exact h.1
  | cons q ps ih =>
    rw [List.map_cons, ← List.singleton_append, ← List.append_assoc]
    exact ih h.2

theorem UnitFault.not_valid {read : List Terminal} {rest : List Token} {u : UnitText}
    (h : UnitFault d read rest)
    (heq : read ++ rest.map Token.terminal = u.terminals ++ [.mark .endOfInput]) : ¬u.Valid := by
  intro hvalid
  obtain ⟨hm, hclosing, hvalid, hvalue⟩ := hvalid
  have hcontent : ∀ {n : String} {xs : List Terminal},
      UnitText.opening n ++ xs = u.terminals ++ [.mark .endOfInput] →
      n = u.name ∧ xs = u.procedures.flatMap ProcedureText.terminals ++ (u.body.terminals ++
        .keyword .endWord :: [.ident u.closing, .mark .period, .mark .endOfInput]) := by
    intro n xs hxs
    simp only [UnitText.terminals, UnitText.opening, List.append_assoc, List.cons_append,
      List.nil_append, List.cons.injEq, Terminal.ident.injEq, true_and] at hxs
    exact hxs
  have hbody := u.body.headKind_terminals [.ident u.closing, .mark .period, .mark .endOfInput]
  cases h with
  | reserved hreserved =>
    obtain ⟨rfl, -⟩ := hcontent heq
    exact hreserved.elim hm.1 hm.2
  | procedure hfault =>
    rw [List.append_assoc, List.append_assoc] at heq
    obtain ⟨rfl, hprocedures⟩ := hcontent heq
    obtain ⟨p, later, hps, hread⟩ :=
      ProcedureText.all_of_start hprocedures hfault.headKind_read hbody
    rw [hps] at hvalid
    refine hfault.not_validAfter hm hread ?_
    exact hvalid.middle
  | body hfault =>
    rw [List.append_assoc, List.append_assoc] at heq
    obtain ⟨rfl, hprocedures⟩ := hcontent heq
    obtain ⟨-, hread⟩ := ProcedureText.all_of_stop hprocedures hfault.headKind_read hbody
    have hsome := hfault.value_ne hread
    rw [hvalue] at hsome
    exact hsome rfl
  | @closing m found ps b next rest hnext hne =>
    rw [List.append_assoc, List.append_assoc, List.append_assoc] at heq
    obtain ⟨rfl, hprocedures⟩ := hcontent heq
    obtain ⟨-, hread⟩ :=
      ProcedureText.all_of_stop hprocedures (b.headKind_terminals _) hbody
    obtain ⟨-, hend⟩ := BodyText.of_end hread
    have hfound := (List.cons.inj hend).1
    rw [hnext, Terminal.ident.injEq] at hfound
    exact hne (hfound.trans hclosing)
  | @unexpected read next rest hstuck =>
    refine hstuck.2 ⟨u, rest.map Token.terminal, ?_⟩
    rw [List.append_assoc]
    exact heq

end ModuleCompiler
