/-
  The compiler accepts the valid units and writes what they stand for. What is accepted is a
  valid unit since reading it was never stopped; a valid unit is accepted since no fault can
  be found in one, and since its terminals are read in one way only (`compile_text_iff`).
-/
import ModuleCompiler.Proofs.Unit.Refutation
import ModuleCompiler.Proofs.Unit.Rejection

namespace ModuleCompiler

open Predeclared

/-! ## Texts -/

theorem text_singleton (piece : IR.Piece) : IR.text [piece] = piece.text := by
  simp [IR.text, String.join]

theorem text_functionPieces (symbol : String) (value : Option Int32) :
    IR.text (Parse.functionPieces symbol value) = UnitText.function symbol value := by
  have hpair : ∀ p q : IR.Piece, IR.text [p, q] = p.text ++ q.text := by
    intro p q
    rw [← text_singleton p, ← text_singleton q]
    exact IR.text_append [p] [q]
  rw [Parse.functionPieces, hpair]
  cases value with
  | none =>
    have hheader : "define " ++ Table.voidRepresentation ++ " @" = "define void @" := by decide
    have hentry : "() \x7b\nentry:\n" ++ "\tret void\n\x7d\n\n" =
        "() \x7b\nentry:\n\tret void\n\x7d\n\n" := by decide
    show "define " ++ Table.voidRepresentation ++ " @" ++ symbol ++ "() \x7b\nentry:\n" ++
      "\tret void\n\x7d\n\n" = _
    rw [hheader, String.append_assoc, hentry]
    rfl
  | some value =>
    have hheader : "define " ++ integerRepresentation ++ " @" = "define i32 @" := by decide
    have hentry : "() \x7b\nentry:\n" ++ ("\tret " ++ integerRepresentation ++ " ") =
        "() \x7b\nentry:\n\tret i32 " := by decide
    show "define " ++ integerRepresentation ++ " @" ++ symbol ++ "() \x7b\nentry:\n" ++
      ("\tret " ++ integerRepresentation ++ " " ++ toString value.toInt ++ "\n\x7d\n\n") = _
    have hregroup : ∀ a b c d e : String, a ++ b ++ (c ++ d ++ e) = a ++ (b ++ c) ++ d ++ e := by
      intro a b c d e
      simp only [String.append_assoc]
    rw [hheader, hregroup, hentry]
    rfl

theorem text_target_unitPieces (target : String) (u : UnitText) :
    IR.text ([.target target] ++ Parse.unitPieces u) = u.output target := by
  have hprocedures : ∀ ps : List ProcedureText,
      IR.text (ps.flatMap fun p => Parse.functionPieces (u.name ++ "_" ++ p.name) p.body.value) =
        String.join (ps.map fun p => UnitText.function (u.name ++ "_" ++ p.name) p.body.value) := by
    intro ps
    induction ps with
    | nil => rfl
    | cons p ps ih =>
      rw [List.flatMap_cons, IR.text_append, ih, text_functionPieces, List.map_cons,
        String.join_cons]
  have hinit : u.name ++ "_" ++ Parse.initName = u.name ++ "__init" := by
    rw [String.append_assoc]
    rfl
  rw [IR.text_append, Parse.unitPieces, IR.text_append, hprocedures, text_functionPieces, hinit,
    text_singleton, ← String.append_assoc]
  rfl

/-! ## Units -/

theorem rest_of_endOfInput {rest : List Token} (h : Token.Lexed rest)
    (hend : nextKind rest = .endOfInput) : rest.map Token.terminal = [.mark .endOfInput] := by
  cases h with
  | last place => rfl
  | cons ht _ => exact absurd hend ht.kind_ne_endOfInput

/-- A source is accepted exactly if its tokens are those of a valid unit, and the output is
the one of this unit. Besides two that are predeclared, the module and its body, a declaration takes
three tokens at least, so a source of fewer than `2 ^ 32` bytes needs no id beyond 32 bits. -/
theorem compile_text_iff (target source text : String) :
    (∃ c, compile standard target source = .ok c ∧ c.ir.text = text) ↔
      ∃ tokens, ∃ u : UnitText, Token.lex source = .ok tokens ∧
        tokens.map Token.terminal = u.terminals ++ [.mark .endOfInput] ∧ u.Valid ∧
        text = u.output target := by
  constructor
  · intro h
    obtain ⟨c, hc, rfl⟩ := h
    cases hlex : Token.lex source with
    | error d =>
      rw [compile, compileTelling, hlex] at hc
      cases hc
    | ok tokens =>
      have hmeets := parse_meets hlex target
      rw [compile_of_lex hlex] at hc
      generalize Compilation.parse standard target tokens = o at hmeets hc
      cases hmeets with
      | error _ _ => cases hc
      | ok hshows hread hunit =>
        obtain ⟨u, hu, hvalid, hir, hend⟩ := hunit
        cases hc
        refine ⟨tokens, u, rfl, ?_, hvalid, ?_⟩
        · rw [show tokens = _ from hread, List.map_append, hu, rest_of_endOfInput hshows.lexed hend]
        · rw [hshows.ir, hir, text_target_unitPieces]
  · intro h
    obtain ⟨tokens, u, hlex, hterminals, hvalid, rfl⟩ := h
    have hmeets := parse_meets hlex target
    rw [compile_of_lex hlex]
    generalize Compilation.parse standard target tokens = o at hmeets ⊢
    cases hmeets with
    | error hread hfault =>
      rw [show tokens = _ from hread, List.map_append] at hterminals
      exact absurd hvalid (hfault.not_valid hterminals)
    | ok hshows hread hunit =>
      obtain ⟨v, hv, -, hir, -⟩ := hunit
      rw [show tokens = _ from hread, List.map_append, hv] at hterminals
      obtain ⟨rfl, -⟩ := UnitText.of_prefix hterminals
      refine ⟨_, rfl, ?_⟩
      rw [hshows.ir, hir, text_target_unitPieces]

example : (compile standard "t" "MODULE M; PROCEDURE P*: INTEGER; RETURN 7 END P; END M.").map
    (·.ir) = .ok [.target "t", .header "i32" "M_P", .ret "i32" 7, .header "void" "M__init",
      .retVoid] := by
  cbv

end ModuleCompiler
