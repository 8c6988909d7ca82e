/-
  A text is read as a unit in one way at most. What one part of the grammar is read to, as
  far as it goes, is what any part with the same beginning starts with.

  * `ProcedureText.of_prefix`: no procedure is the beginning of another one.
  * `ProcedureText.all_of_prefix`: procedures in a row are read one after the other.
  * `UnitText.of_prefix`: two units with the same terminals are the same.
-/
import ModuleCompiler.Proofs.Unit.Prefix

namespace ModuleCompiler

/-! ## Headings -/

/-- Terminals that are there or not are told from the kind that they start with. -/
theorem flag_split {f : Bool → List Terminal} {kind : TokenKind} {more : List Terminal}
    (hfalse : f false = []) (htrue : f true = .mark kind :: more) {b c : Bool}
    {xs ys : List Terminal} (h : f b ++ xs = f c ++ ys)
    (hx : b = false → headKind xs ≠ kind) (hy : headKind ys ≠ kind) : b = c ∧ xs = ys := by
  cases b <;> cases c
  · rw [hfalse] at h
    exact ⟨rfl, h⟩
  · rw [hfalse, htrue] at h
    exact absurd (congrArg headKind h) (hx rfl)
  · rw [hfalse, htrue] at h
    exact absurd (congrArg headKind h).symm hy
  · rw [htrue] at h
    exact ⟨rfl, List.append_cancel_left h⟩

/-- One type goes on where another one ends only by a period behind a plain name. -/
theorem returns_split {r s : Option TypeUse} {xs ys : List Terminal}
    (h : Heading.returnTerminals r ++ xs = Heading.returnTerminals s ++ .mark .semicolon :: ys)
    (hx : r = none → headKind xs ≠ .colon) :
    (r = s ∧ xs = .mark .semicolon :: ys) ∨
      ∃ q n, r = some (.plain q) ∧ s = some (.member q n) ∧ headKind xs = .period := by
  rcases r with _ | q | ⟨q, n⟩ <;> rcases s with _ | q' | ⟨q', n'⟩ <;>
    simp_all [Heading.returnTerminals, TypeUse.terminals, headKind, Terminal.kind]

theorem Heading.of_prefix {g h : Heading} {xs ys : List Terminal}
    (heq : g.terminals ++ xs = h.terminals ++ .mark .semicolon :: ys)
    (hends : g.EndsBefore (headKind xs)) :
    g.name = h.name ∧ g.exported = h.exported ∧ g.parameters = h.parameters ∧
      ((g.returns = h.returns ∧ xs = .mark .semicolon :: ys) ∨
        ∃ q n, g.returns = some (.plain q) ∧ h.returns = some (.member q n) ∧
          headKind xs = .period) := by
  obtain ⟨n, exported, present, returns⟩ := g
  obtain ⟨n', exported', present', returns'⟩ := h
  simp only [Heading.terminals, List.cons_append, List.append_assoc, List.cons.injEq,
    Terminal.ident.injEq, true_and] at heq
  obtain ⟨hname, heq⟩ := heq
  have hexported : exported = false →
      headKind (parameterTerminals present ++ (returnTerminals returns ++ xs)) ≠ .asterisk := by
    intro hno
    cases present
    · cases returns
      · exact ((hends rfl).2 rfl).2 hno
      · exact nofun
    · exact nofun
  have hpresent : present = false → headKind (returnTerminals returns ++ xs) ≠ .leftParen := by
    intro hno
    cases returns
    · exact ((hends rfl).2 hno).1
    · exact nofun
  have hreturns' : headKind (returnTerminals returns' ++ .mark .semicolon :: ys) ≠ .leftParen := by
    cases returns' <;> exact nofun
  have hpresent' : headKind (parameterTerminals present' ++
      (returnTerminals returns' ++ .mark .semicolon :: ys)) ≠ .asterisk := by
    cases present' <;> cases returns' <;> exact nofun
  obtain ⟨rfl, hrest⟩ :=
    flag_split (f := Terminal.optional .asterisk) rfl rfl heq hexported hpresent'
  obtain ⟨rfl, hlast⟩ := flag_split (f := parameterTerminals) rfl rfl hrest hpresent hreturns'
  exact ⟨hname, rfl, rfl, returns_split hlast fun hno => (hends hno).1⟩

theorem Heading.of_semicolon {g h : Heading} {xs ys : List Terminal}
    (heq : g.terminals ++ .mark .semicolon :: xs = h.terminals ++ .mark .semicolon :: ys) :
    g = h ∧ xs = ys := by
  have hends : g.EndsBefore .semicolon := fun _ => ⟨nofun, fun _ => ⟨nofun, fun _ => nofun⟩⟩
  obtain ⟨hname, hexported, hpresent, ⟨hreturns, hrest⟩ | ⟨_, _, _, _, hperiod⟩⟩ :=
    Heading.of_prefix heq hends
  · obtain ⟨n, exported, present, returns⟩ := g
    obtain ⟨n', exported', present', returns'⟩ := h
    dsimp only at hname hexported hpresent hreturns
    subst hname hexported hpresent hreturns
    exact ⟨rfl, (List.cons.inj hrest).2⟩
  · cases hperiod

/-! ## Bodies -/

theorem BodyText.of_prefix {b c : BodyText} {xs ys : List Terminal}
    (h : b.terminals ++ xs = c.terminals ++ .keyword .endWord :: ys)
    (hends : b.EndsBefore (headKind xs)) : b = c ∧ xs = .keyword .endWord :: ys := by
  obtain ⟨begins, returns⟩ := b
  obtain ⟨begins', returns'⟩ := c
  rcases begins with _ | _ <;> rcases begins' with _ | _ <;> rcases returns with _ | _ | v <;>
    rcases returns' with _ | _ | w <;>
    simp_all [BodyText.terminals, BodyText.returnTerminals, BodyText.EndsBefore, Terminal.optional,
      Terminal.keyword, headKind, Terminal.kind]

theorem BodyText.endsBefore_end (b : BodyText) : b.EndsBefore (.keyword .endWord) := by
  obtain ⟨begins, _ | _ | value⟩ := b
  · exact ⟨nofun, fun _ => nofun⟩
  · exact nofun
  · trivial

theorem BodyText.of_end {b c : BodyText} {xs ys : List Terminal}
    (h : b.terminals ++ .keyword .endWord :: xs = c.terminals ++ .keyword .endWord :: ys) :
    b = c ∧ xs = ys := by
  obtain ⟨hbc, hrest⟩ := BodyText.of_prefix h b.endsBefore_end
  exact ⟨hbc, (List.cons.inj hrest).2⟩

/-! ## Procedures -/

theorem ProcedureText.of_prefix {p q : ProcedureText} {xs ys : List Terminal}
    (h : p.terminals ++ xs = q.terminals ++ ys) : p = q ∧ xs = ys := by
  obtain ⟨g, b, closing⟩ := p
  obtain ⟨g', b', closing'⟩ := q
  simp only [ProcedureText.terminals, List.append_assoc, List.cons_append, List.nil_append] at h
  obtain ⟨rfl, hbody⟩ := Heading.of_semicolon h
  obtain ⟨rfl, hend⟩ := BodyText.of_end hbody
  cases hend
  exact ⟨rfl, rfl⟩

theorem ProcedureText.headKind_terminals (p : ProcedureText) (xs : List Terminal) :
    headKind (p.terminals ++ xs) = .keyword .procedureWord := rfl

theorem ProcedureText.all_of_prefix {ps qs : List ProcedureText} {xs ys : List Terminal}
    (h : ps.flatMap terminals ++ xs = qs.flatMap terminals ++ ys)
    (hy : headKind ys ≠ .keyword .procedureWord) :
    ∃ later, qs = ps ++ later ∧ xs = later.flatMap terminals ++ ys := by
  induction ps generalizing qs with
  | nil => exact ⟨qs, rfl, h⟩
  | cons p ps ih =>
    cases qs with
    | nil =>
      rw [List.flatMap_cons, List.append_assoc] at h
      have hkind := congrArg headKind h
      rw [p.headKind_terminals] at hkind
      exact absurd hkind.symm hy
    | cons q qs =>
      rw [List.flatMap_cons, List.append_assoc, List.flatMap_cons, List.append_assoc] at h
      obtain ⟨rfl, hrest⟩ := ProcedureText.of_prefix h
      obtain ⟨later, rfl, hx⟩ := ih hrest
      exact ⟨later, rfl, hx⟩

/-- Procedures are read up to a terminal that starts none. -/
theorem ProcedureText.all_of_stop {ps qs : List ProcedureText} {xs ys : List Terminal}
    (h : ps.flatMap terminals ++ xs = qs.flatMap terminals ++ ys)
    (hx : headKind xs ≠ .keyword .procedureWord) (hy : headKind ys ≠ .keyword .procedureWord) :
    ps = qs ∧ xs = ys := by
  obtain ⟨later, rfl, rfl⟩ := ProcedureText.all_of_prefix h hy
  cases later with
  | nil => exact ⟨(List.append_nil ps).symm, rfl⟩
  | cons p later => exact absurd (p.headKind_terminals _) (by simpa using hx)

/-- Procedures are read up to a terminal that starts one, and there are more of them. -/
theorem ProcedureText.all_of_start {ps qs : List ProcedureText} {xs ys : List Terminal}
    (h : ps.flatMap terminals ++ xs = qs.flatMap terminals ++ ys)
    (hx : headKind xs = .keyword .procedureWord) (hy : headKind ys ≠ .keyword .procedureWord) :
    ∃ p later, qs = ps ++ p :: later ∧ xs = p.terminals ++ (later.flatMap terminals ++ ys) := by
  obtain ⟨later, rfl, rfl⟩ := ProcedureText.all_of_prefix h hy
  cases later with
  | nil => exact absurd hx hy
  | cons p later => exact ⟨p, later, rfl, by rw [List.flatMap_cons, List.append_assoc]⟩

/-! ## Units -/

theorem UnitText.of_prefix {u v : UnitText} {xs ys : List Terminal}
    (h : u.terminals ++ xs = v.terminals ++ ys) : u = v ∧ xs = ys := by
  obtain ⟨m, ps, b, closing⟩ := u
  obtain ⟨m', ps', b', closing'⟩ := v
  simp only [UnitText.terminals, UnitText.opening, List.append_assoc, List.cons_append,
    List.nil_append, List.cons.injEq, Terminal.ident.injEq, true_and] at h
  obtain ⟨rfl, hcontent⟩ := h
  obtain ⟨rfl, hbody⟩ :=
    ProcedureText.all_of_stop hcontent (b.headKind_terminals _) (b'.headKind_terminals _)
  obtain ⟨rfl, hend⟩ := BodyText.of_end hbody
  cases hend
  exact ⟨rfl, rfl⟩

end ModuleCompiler
