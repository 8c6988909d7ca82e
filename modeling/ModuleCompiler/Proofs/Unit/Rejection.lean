/-
  What a rejected source is accused of is true. Whatever the scanner hands on, the compiler
  accepts it or reports a diagnostic, and then the source has the fault that the diagnostic
  tells of (`compile_fault`).
-/
import ModuleCompiler.Proofs.Parse.Unit
import Mathlib

namespace ModuleCompiler

open Predeclared

theorem compile_of_lex {source : String} {tokens : List Token} (h : Token.lex source = .ok tokens)
    (env : Predeclared) (target : String) :
    compile env target source = (Compilation.parse env target tokens).1.map fun module =>
      ⟨(Compilation.parse env target tokens).2.table, module,
        (Compilation.parse env target tokens).2.ir⟩ := by
  rw [compile, compileTelling, h]

theorem parse_meets {source : String} {tokens : List Token} (h : Token.lex source = .ok tokens)
    (target : String) :
    Parse.Meets
      (fun _ read w => ∃ u : UnitText, read = u.terminals ∧ u.Valid ∧
        w.ir = [.target target] ++ Parse.unitPieces u ∧ nextKind w.rest = .endOfInput)
      UnitFault ⟨tokens, standard.table, [.target target]⟩
      (Compilation.parse standard target tokens) :=
  Parse.unit_yields rfl _ (Parse.start_shows (Token.lexed_of_lex h) target)

/-- A source that has tokens is accepted, or a diagnostic is reported behind some of them,
where the source has the fault that it is accused of. With fewer than `2 ^ 32` tokens it cannot fill
a table, since all but four of the declarations take three tokens at least. -/
theorem compile_fault {source : String} {tokens : List Token} (h : Token.lex source = .ok tokens)
    (target : String) :
    (∃ c, compile standard target source = .ok c) ∨
      ∃ d read rest, compile standard target source = .error (.diagnostic d) ∧
        tokens = read ++ rest ∧ UnitFault d (read.map Token.terminal) rest := by
  have hmeets := parse_meets h target
  rw [compile_of_lex h]
  generalize Compilation.parse standard target tokens = o at hmeets ⊢
  cases hmeets with
  | ok _ _ _ => exact .inl ⟨_, rfl⟩
  | error hread hfault => exact .inr ⟨_, _, _, rfl, hread, hfault⟩

/-- A second procedure of the same name, which stops the compiler in front of the end. -/
theorem lex_twice : Token.lex "MODULE M; PROCEDURE P*; END P; PROCEDURE P*" =
    .ok [⟨.keyword .moduleWord, "MODULE", none, ⟨0, 6⟩⟩, ⟨.ident, "M", none, ⟨7, 8⟩⟩,
      ⟨.semicolon, ";", none, ⟨8, 9⟩⟩, ⟨.keyword .procedureWord, "PROCEDURE", none, ⟨10, 19⟩⟩,
      ⟨.ident, "P", none, ⟨20, 21⟩⟩, ⟨.asterisk, "*", none, ⟨21, 22⟩⟩,
      ⟨.semicolon, ";", none, ⟨22, 23⟩⟩, ⟨.keyword .endWord, "END", none, ⟨24, 27⟩⟩,
      ⟨.ident, "P", none, ⟨28, 29⟩⟩, ⟨.semicolon, ";", none, ⟨29, 30⟩⟩,
      ⟨.keyword .procedureWord, "PROCEDURE", none, ⟨31, 40⟩⟩, ⟨.ident, "P", none, ⟨41, 42⟩⟩,
      ⟨.asterisk, "*", none, ⟨42, 43⟩⟩, .endOfInput 43] := by
  cbv

theorem compile_fault_twice :
    ∃ tokens, Token.lex "MODULE M; PROCEDURE P*; END P; PROCEDURE P*" = .ok tokens ∧
      ((∃ c, compile standard "t" "MODULE M; PROCEDURE P*; END P; PROCEDURE P*" = .ok c) ∨
        ∃ d read rest, compile standard "t" "MODULE M; PROCEDURE P*; END P; PROCEDURE P*" =
            .error (.diagnostic d) ∧
          tokens = read ++ rest ∧ UnitFault d (read.map Token.terminal) rest) :=
  ⟨_, lex_twice, compile_fault lex_twice "t"⟩

example : compile standard "t" "MODULE M; PROCEDURE P*; END P; PROCEDURE P*" =
    .error (.diagnostic (.duplicateName "P" "M")) := by
  cbv

end ModuleCompiler
