/-
  A parser in use. Its steps and the operations of its table are called in any order, and each
  call may succeed or fail; what is written and what is declared stay together all the same:
  the headers are those of the procedures, in the order of their ids, and a body returns what
  the header of its procedure says (`inStep_of_reaches`).
-/
import ModuleCompiler.Proofs.Parse.Moves
import Mathlib.Data.List.Forall2

namespace ModuleCompiler

namespace IR.Piece

/-- The piece is a header. -/
def isHeader : IR.Piece → Bool
  | header .. => true
  | _ => false

/-- What a piece that ends a function returns: how values of its type are written. -/
def returned? : IR.Piece → Option String
  | ret representation _ => some representation
  | retVoid => some Table.voidRepresentation
  | _ => none

/-- The piece is a whole header, or the whole end of a function. -/
def IsFunctionPart (x : IR.Piece) : Prop :=
  x.isHeader ∨ x.returned?.isSome

theorem returned?_ending (value : Option Int32) :
    (Parse.ending value).returned? = some (Parse.returnRepresentation value.isSome) := by
  cases value <;> rfl

theorem isHeader_ending (value : Option Int32) : (Parse.ending value).isHeader = false := by
  cases value <;> rfl

end IR.Piece

/-- The piece is the header of the procedure with the given id: it has the representation of
the procedure's return type and the procedure's linkage name. -/
def Table.HeaderOf (t : Table) (id : DeclId) (x : IR.Piece) : Prop :=
  ∃ name parent exported returns linkage,
    t.bare? id = some ⟨name, parent, .procedure .empty exported returns⟩ ∧ t.Knows returns ∧
    t.linkageName id = .ok linkage ∧ x = .header (t.representation returns) linkage

/-! ## What is written for what is declared -/

namespace Table

variable {t t' : Table}

theorem Knows.grow {type : Option DeclId} (h : t.Knows type) (hgrow : t.GrowsTo t') :
    t'.Knows type :=
  fun id hid => Nat.lt_of_lt_of_le (h id hid) hgrow.size_le

/-- A header stays right: its return type and its linkage name were settled before. -/
theorem HeaderOf.grow {id : DeclId} {x : IR.Piece} (h : t.HeaderOf id x) (hgrow : t.GrowsTo t') :
    t'.HeaderOf id x := by
  obtain ⟨name, parent, exported, returns, linkage, hb, hknown, hlinkage, rfl⟩ := h
  obtain ⟨d, hd, -⟩ := bare?_eq_some_iff.1 hb
  have hlt := lt_of_get? hd
  refine ⟨name, parent, exported, returns, linkage, ?_, hknown.grow hgrow, ?_, ?_⟩
  · rw [hgrow.bare?_eq id hlt, hb]
  · rw [hgrow.linkageName hlt, hlinkage]
  · rw [hgrow.representation hknown]

/-- A request for anything but a procedure makes no procedure. -/
theorem proceduresFrom_after (t : Table) {r : Request}
    (hr : ∀ name parent exported returns, r ≠ .createProcedure name parent exported returns) :
    t.GrowsTo (t.after r) ∧ (t.after r).proceduresFrom t.size = [] := by
  unfold after
  cases hanswer : t.answer r with
  | error fault => exact ⟨.refl t, t.proceduresFrom_size⟩
  | ok t' =>
    obtain ⟨d, hd⟩ | ⟨owner, child, rfl⟩ := r.creates_or_inserts
    · rw [answer_of_creates t hd] at hanswer
      obtain ⟨c, hc, rfl⟩ := map_eq_ok_iff.1 hanswer
      obtain ⟨-, hgains⟩ := gains_of_create hc
      have hkind : d.bare.isProcedure = false := by
        cases r with
        | createProcedure name parent exported returns => exact absurd rfl (hr _ _ _ _)
        | _ => cases hd <;> rfl
      refine ⟨hgains.growsTo, ?_⟩
      rw [hgains.proceduresFrom, hkind]
      rfl
    · obtain ⟨c, hc, rfl⟩ := map_eq_ok_iff.1 hanswer
      obtain ⟨d, o, scope, -, -, -, -, -, rfl⟩ := insert_eq_ok_iff.1 hc
      have hsize := t.size_register owner d.name child
      refine ⟨⟨Nat.le_of_eq hsize.symm, fun id _ => bare?_register t owner d.name child id⟩, ?_⟩
      show (t.register owner d.name child).proceduresFrom t.size = []
      rw [← hsize, proceduresFrom_size]

end Table

namespace ParserState

variable {s s' s'' : ParserState}

/-- From the one state to the other the output grows by whole parts of functions, and by the
headers of the procedures that the table has gained. -/
structure Writes (s s' : ParserState) : Prop where
  growsTo : s.table.GrowsTo s'.table
  pieces : ∃ pieces, s'.ir = s.ir ++ pieces ∧ (∀ x ∈ pieces, x.IsFunctionPart) ∧
    List.Forall₂ s'.table.HeaderOf (s'.table.proceduresFrom s.table.size)
      (pieces.filter IR.Piece.isHeader)

theorem Writes.of_table (htable : s.table.GrowsTo s'.table)
    (hnone : s'.table.proceduresFrom s.table.size = []) (hir : s'.ir = s.ir) : s.Writes s' where
  growsTo := htable
  pieces := by
    refine ⟨[], ?_, by simp, ?_⟩
    · rw [hir, List.append_nil]
    · rw [hnone]
      exact .nil

theorem Writes.of_unchanged (htable : s'.table = s.table) (hir : s'.ir = s.ir) : s.Writes s' := by
  refine .of_table ?_ ?_ hir
  · rw [htable]
    exact .refl _
  · rw [htable, Table.proceduresFrom_size]

theorem Writes.trans (h : s.Writes s') (h' : s'.Writes s'') : s.Writes s'' where
  growsTo := h.growsTo.trans h'.growsTo
  pieces := by
    obtain ⟨xs, hir, hparts, hheaders⟩ := h.pieces
    obtain ⟨ys, hir', hparts', hheaders'⟩ := h'.pieces
    refine ⟨xs ++ ys, ?_, ?_, ?_⟩
    · rw [hir', hir, List.append_assoc]
    · intro x hx
      obtain hx | hx := List.mem_append.1 hx
      · exact hparts x hx
      · exact hparts' x hx
    · rw [h'.growsTo.proceduresFrom h.growsTo.size_le, List.filter_append]
      have hold := hheaders.imp fun _ _ hx => hx.grow h'.growsTo
      exact List.rel_append hold hheaders'

theorem Move.writes (h : s.Move s') : s.Writes s' := by
  cases h with
  | read hreads => exact .of_unchanged hreads.table hreads.ir
  | module hc =>
    obtain ⟨-, hgains⟩ := Table.gains_of_createModule hc
    exact .of_table hgains.growsTo hgains.proceduresFrom rfl
  | @header name parent returns exported c linkage hknown hc hlinkage =>
    obtain ⟨hid, hgains⟩ := Table.gains_of_createProcedure hc
    refine ⟨hgains.growsTo, [.header (c.table.representation returns) linkage], rfl, ?_, ?_⟩
    · intro x hx
      rw [List.mem_singleton.1 hx]
      exact .inl rfl
    · have hnew : c.table.bare? c.id = some ⟨name, parent, .procedure .empty exported returns⟩ := by
        rw [hgains.bare?, if_pos hid]
      show List.Forall₂ c.table.HeaderOf (c.table.proceduresFrom s.table.size) _
      rw [hgains.proceduresFrom, ← hid]
      exact .cons ⟨name, parent, exported, returns, linkage, hnew, hknown.grow hgains.growsTo,
        hlinkage, rfl⟩ .nil
  | ending value =>
    refine ⟨.refl _, [Parse.ending value], rfl, ?_, ?_⟩
    · intro x hx
      rw [List.mem_singleton.1 hx]
      right
      rw [IR.Piece.returned?_ending]
      rfl
    · rw [Table.proceduresFrom_size, List.filter_cons, IR.Piece.isHeader_ending]
      exact .nil

theorem Moves.writes (h : s.Moves s') : s.Writes s' := by
  induction h with
  | refl => exact .of_unchanged rfl rfl
  | tail _ hmove ih => exact ih.trans hmove.writes

end ParserState

/-! ## Sessions -/

/-- A parser in use, and the procedures that were opened and have not got their body. -/
structure Session where
  parser : ParserState
  opened : List OpenProcedure

namespace Session

/-- A call of a step of parsing, or of an operation of the parser's table. -/
inductive Call where
  | qualifiedName (scope : Option DeclId)
  | typeName (scope : Option DeclId)
  | module (parent : Option DeclId)
  | procedure (parent : DeclId)
  | initializer (module : DeclId)
  | openProcedure (name : String) (parent : Option DeclId) (exported : Bool)
      (returns : Option DeclId)
  | body (p : OpenProcedure)
  | request (r : Table.Request)

/-- A procedure is opened with a return type that is known or with none, a body is read for a
procedure that is open, and the table is not asked for procedures behind the parser's back. -/
def Allows (s : Session) : Call → Prop
  | .openProcedure _ _ _ returns => s.parser.table.Knows returns
  | .body p => p ∈ s.opened
  | .request r =>
    ∀ name parent exported returns, r ≠ .createProcedure name parent exported returns
  | _ => True

/-- The session after a step that opens nothing, whatever its outcome. -/
def did {α : Type} (s : Session) (step : Parse α) : Session :=
  { s with parser := (step.runFrom s.parser).2 }

/-- The session after a call, whatever its outcome. -/
def after (s : Session) : Call → Session
  | .qualifiedName scope => s.did (Parse.qualifiedName scope)
  | .typeName scope => s.did (Parse.typeName scope)
  | .module parent => s.did (Parse.module parent)
  | .procedure parent => s.did (Parse.procedure parent)
  | .initializer module => s.did (Parse.initializer module)
  | .openProcedure name parent exported returns =>
    let (outcome, parser) := (Parse.openProcedure name parent exported returns).runFrom s.parser
    ⟨parser, s.opened ++ outcome.toOption.toList⟩
  | .body p => { s.did (Parse.body p) with opened := s.opened.erase p }
  | .request r => { s with parser := { s.parser with table := s.parser.table.after r } }

/-- A session that calls lead to. -/
inductive Reaches (start : Session) : Session → Prop where
  | refl : Reaches start start
  | call {s : Session} {c : Call} : Reaches start s → s.Allows c → Reaches start (s.after c)

/-- The procedure was declared in the parser's table behind the first `n` declarations. -/
def Holds (n : Nat) (t : Table) (p : OpenProcedure) : Prop :=
  n ≤ p.id.index ∧ t.Knows p.returns ∧
    ∃ parent, t.bare? p.id = some ⟨p.name, parent, .procedure .empty true p.returns⟩

theorem Holds.grow {n : Nat} {t t' : Table} {p : OpenProcedure} (h : Holds n t p)
    (hgrow : t.GrowsTo t') : Holds n t' p := by
  obtain ⟨hn, hknown, parent, hb⟩ := h
  obtain ⟨d, hd, -⟩ := Table.bare?_eq_some_iff.1 hb
  exact ⟨hn, hknown.grow hgrow, parent, (hgrow.bare?_eq p.id (Table.lt_of_get? hd)).trans hb⟩

theorem Holds.header {n : Nat} {t : Table} {p : OpenProcedure} (h : Holds n t p) :
    p.id ∈ t.proceduresFrom n ∧
      ∃ linkage, t.HeaderOf p.id (.header (t.representation p.returns) linkage) := by
  obtain ⟨hn, hknown, parent, hb⟩ := h
  refine ⟨Table.mem_proceduresFrom.2 ⟨hn, _, hb, rfl⟩, ?_⟩
  have hlinkage := Table.linkageName_eq hb
  exact ⟨_, p.name, parent, true, p.returns, _, hb, hknown, hlinkage, rfl⟩

/-- An opened procedure was declared by the step that opened it. -/
theorem holds_of_openProcedure {s s' : ParserState} {name : String}
    {parent returns : Option DeclId} {exported : Bool} {p : OpenProcedure}
    (h : (Parse.openProcedure name parent exported returns).runFrom s = (.ok p, s'))
    (hknown : s.table.Knows returns) : Holds s.table.size s'.table p := by
  obtain ⟨c, linkage, hc, -, rfl, rfl⟩ := Parse.openProcedure_ok h
  obtain ⟨hid, hgains⟩ := Table.gains_of_createProcedure hc
  obtain ⟨rfl, -⟩ := Table.createProcedure_eq_ok hc
  refine ⟨?_, hknown.grow hgains.growsTo, parent, ?_⟩
  · rw [hid]
    exact Nat.le_refl _
  · show c.table.bare? c.id = _
    rw [hgains.bare?, if_pos hid]

/-- What a call does to the output and to the table. -/
theorem writes_after {s : Session} {c : Call} (h : s.Allows c) :
    s.parser.Writes (s.after c).parser := by
  cases c with
  | qualifiedName scope =>
    exact (Parse.moves_of_reading (Parse.reading_qualifiedName scope) _).writes
  | typeName scope => exact (Parse.moves_of_reading (Parse.reading_typeName scope) _).writes
  | module parent => exact (Parse.module_moves parent _).writes
  | procedure parent => exact (Parse.procedure_moves parent _).writes
  | initializer module => exact (Parse.initializer_moves module _).writes
  | openProcedure name parent exported returns =>
    exact (Parse.openProcedure_moves h name parent exported).writes
  | body p => exact (Parse.body_moves p _).writes
  | request r =>
    obtain ⟨hgrow, hnone⟩ := s.parser.table.proceduresFrom_after h
    exact .of_table hgrow hnone rfl

theorem eq_ok_of_mem {x : Except Fault OpenProcedure} {p : OpenProcedure}
    (h : p ∈ x.toOption.toList) : x = .ok p := by
  cases x with
  | error fault => cases h
  | ok q => rw [List.mem_singleton.1 h]

/-- What was open and is open now was declared behind the first `n` declarations. -/
theorem holds_after {n : Nat} {s : Session} {c : Call} (h : s.Allows c)
    (hn : n ≤ s.parser.table.size) (hopened : ∀ p ∈ s.opened, Holds n s.parser.table p) :
    ∀ p ∈ (s.after c).opened, Holds n (s.after c).parser.table p := by
  have hgrow := (writes_after h).growsTo
  cases c with
  | openProcedure name parent exported returns =>
    intro p hp
    obtain hp | hp := List.mem_append.1 hp
    · exact (hopened p hp).grow hgrow
    · obtain ⟨hid, hholds⟩ := holds_of_openProcedure (Prod.ext (eq_ok_of_mem hp) rfl) h
      exact ⟨Nat.le_trans hn hid, hholds⟩
  | body p => exact fun q hq => (hopened q (List.mem_of_mem_erase hq)).grow hgrow
  | _ => exact fun q hq => (hopened q hq).grow hgrow

theorem Reaches.writes {start : ParserState} {s : Session} (h : Reaches ⟨start, []⟩ s) :
    start.Writes s.parser ∧ ∀ p ∈ s.opened, Holds start.table.size s.parser.table p := by
  induction h with
  | refl => exact ⟨.of_unchanged rfl rfl, by simp⟩
  | call _ hallows ih =>
    obtain ⟨hwrites, hopened⟩ := ih
    exact ⟨hwrites.trans (writes_after hallows),
      holds_after hallows hwrites.growsTo.size_le hopened⟩

/-- What is written and what is declared agree. -/
structure InStep (start : ParserState) (s : Session) : Prop where
  /-- The output has grown by whole parts of functions, and their headers are those of the
  procedures that were declared. -/
  written : ∃ pieces, s.parser.ir = start.ir ++ pieces ∧ (∀ x ∈ pieces, x.IsFunctionPart) ∧
    List.Forall₂ s.parser.table.HeaderOf (s.parser.table.proceduresFrom start.table.size)
      (pieces.filter IR.Piece.isHeader)
  /-- Every call appends whole parts. -/
  appends : ∀ c, s.Allows c → ∃ pieces, (s.after c).parser.ir = s.parser.ir ++ pieces ∧
    ∀ x ∈ pieces, x.IsFunctionPart
  /-- A body of an open procedure writes one line, which returns what the header says, or it is
  rejected and writes nothing. -/
  closes : ∀ p ∈ s.opened, p.id ∈ s.parser.table.proceduresFrom start.table.size ∧
    ∃ representation linkage, s.parser.table.HeaderOf p.id (.header representation linkage) ∧
      match (Parse.body p).runFrom s.parser with
      | (.ok id, s') =>
        id = p.id ∧ ∃ x, s'.ir = s.parser.ir ++ [x] ∧ x.returned? = some representation
      | (.error _, s') => s'.ir = s.parser.ir

/-- Whatever is called, in any order and with any outcome, output and table stay in step. -/
theorem inStep_of_reaches {start : ParserState} {s : Session} (h : Reaches ⟨start, []⟩ s) :
    s.InStep start := by
  obtain ⟨hwrites, hopened⟩ := h.writes
  refine ⟨hwrites.pieces, ?_, ?_⟩
  · intro c hc
    obtain ⟨pieces, hir, hparts, -⟩ := (writes_after hc).pieces
    exact ⟨pieces, hir, hparts⟩
  · intro p hp
    obtain ⟨hmem, linkage, hheader⟩ := (hopened p hp).header
    refine ⟨hmem, _, linkage, hheader, ?_⟩
    have hcloses := Parse.body_closes p s.parser
    generalize (Parse.body p).runFrom s.parser = r at hcloses
    obtain ⟨_ | id, s'⟩ := r
    · exact hcloses.ir
    · obtain ⟨hid, t, value, -, rfl, -, hrep⟩ := hcloses
      refine ⟨hid, _, rfl, ?_⟩
      rw [hrep]
      exact IR.Piece.returned?_ending value

/-- Two procedures are open at once, and the first of them then gets its body. -/
theorem inStep_of_interleaved :
    let tokens : List Token := [⟨.keyword .returnWord, "RETURN", none, ⟨0, 6⟩⟩,
      ⟨.integer, "5", some 5, ⟨7, 8⟩⟩]
    let start : ParserState := ⟨.ofTokens tokens, Predeclared.standard.table, [], []⟩
    let p : OpenProcedure := ⟨⟨3⟩, "P", some ⟨1⟩⟩
    let opened : Session := ((Session.mk start []).after (.request (.createModule "M" (some ⟨0⟩)))
      |>.after (.openProcedure "P" (some ⟨2⟩) true (some ⟨1⟩))
      |>.after (.openProcedure "Q" (some ⟨2⟩) true none))
    let s : Session := opened.after (.body p)
    Reaches ⟨start, []⟩ s ∧ s.opened = [⟨⟨4⟩, "Q", none⟩] ∧
      s.parser.ir = [.header "i32" "M_P", .header "void" "M_Q", .ret "i32" 5] ∧
      s.InStep start := by
  intro tokens start p opened s
  have hopened : Reaches ⟨start, []⟩ opened := by
    refine .call (.call (.call .refl ?_) ?_) ?_
    · intro name parent exported returns h
      cases h
    · intro id h
      cases h
      decide +kernel
    · intro id h
      cases h
  have h : Reaches ⟨start, []⟩ s := .call hopened (by decide +kernel : p ∈ opened.opened)
  exact ⟨h, by decide +kernel, by decide +kernel, inStep_of_reaches h⟩

end Session

end ModuleCompiler
