/-
  What each diagnostic of a unit accuses it of. A fault is said of what was read and of the
  tokens ahead; where procedures are named, they are the ones that were read to their end.
  `UnitFault` has no constructor for the diagnostics that no unit gets.
-/
import ModuleCompiler.Proofs.Parse.Contract
import ModuleCompiler.Proofs.Unit.Prefix

namespace ModuleCompiler

open Predeclared

/-- Why a use of a type in module `m`, behind procedures of the `earlier` names and in front
of a token of the `next` kind, is rejected. -/
inductive TypeFault (m : String) (earlier : List String) (next : TokenKind) :
    Diagnostic → TypeUse → Prop where
  | unknown {n : String} : n ≠ systemName → n ≠ integerName → n ≠ m → n ∉ earlier →
      TypeFault m earlier next (.notFound n) (.plain n)
  | unknownMember {q n : String} : q ∉ earlier →
      (q = systemName ∧ n ≠ systemName ∧ n ≠ integerName ∧ n ≠ m) ∨ (q = m ∧ n ∉ earlier) →
      TypeFault m earlier next (.notFoundInModule n q) (.member q n)
  | procedure {n : String} : n ∈ earlier → TypeFault m earlier next (.notAType n) (.plain n)
  | module {n : String} : n ∉ earlier → n = systemName ∨ n = m → next ≠ .period →
      TypeFault m earlier next (.notAType n) (.plain n)
  | member {q n : String} : q ∉ earlier →
      (q = systemName ∧ (n = systemName ∨ n = m)) ∨ (q = m ∧ n ∈ earlier) →
      TypeFault m earlier next (.notAType (q ++ "." ++ n)) (.member q n)

/-- Why the body of a procedure of the given name, with a return type or without, is
rejected when some of it is read. -/
inductive BodyFault (name : String) (typed : Bool) :
    Diagnostic → List Terminal → List Token → Prop where
  | noValue {b : BodyText} {rest : List Token} : typed = true → b.value = none →
      b.EndsBefore (nextKind rest) →
      BodyFault name typed (.missingReturnValue name integerName) b.terminals rest
  | value {begins : Bool} {value : Int32} {next : Token} {rest : List Token} : typed = false →
      next.terminal = .integer value →
      BodyFault name typed (.wrongReturnType name) (BodyText.terminals ⟨begins, some none⟩)
        (next :: rest)

/-- Why a procedure in module `m`, behind procedures of the `earlier` names, is rejected when
some of it is read. -/
inductive ProcedureFault (m : String) (earlier : List String) :
    Diagnostic → List Terminal → List Token → Prop where
  | type {h : Heading} {type : TypeUse} {d : Diagnostic} {rest : List Token} :
      h.returns = some type → TypeFault m earlier (nextKind rest) d type →
      ProcedureFault m earlier d h.terminals rest
  | unexported {h : Heading} {rest : List Token} : h.exported = false →
      h.EndsBefore (nextKind rest) →
      ProcedureFault m earlier (.unsupportedUnexported h.name) h.terminals rest
  | duplicate {h : Heading} {rest : List Token} : h.name ∈ earlier →
      ProcedureFault m earlier (.duplicateName h.name m) h.terminals rest
  -- the grammar has `INTEGER . name`, but INTEGER is no module
  | noModule {h : Heading} {next : Token} {rest : List Token} :
      h.returns = some (.plain integerName) → integerName ∉ earlier → next.kind = .period →
      ProcedureFault m earlier (.unexpectedToken next.describe) h.terminals (next :: rest)
  | body {h : Heading} {d : Diagnostic} {read : List Terminal} {rest : List Token} :
      (∀ type, h.returns = some type → type.IsInteger earlier) →
      BodyFault h.name h.returns.isSome d read rest →
      ProcedureFault m earlier d (h.terminals ++ .mark .semicolon :: read) rest
  | closing {h : Heading} {b : BodyText} {found : String} {next : Token} {rest : List Token} :
      next.terminal = .ident found → found ≠ h.name →
      ProcedureFault m earlier (.nameMismatch "procedure" h.name found)
        (h.terminals ++ .mark .semicolon :: (b.terminals ++ [.keyword .endWord])) (next :: rest)

/-- Why a unit is rejected when some of it is read. -/
inductive UnitFault : Diagnostic → List Terminal → List Token → Prop where
  | reserved {m : String} {rest : List Token} : m = systemName ∨ m = integerName →
      UnitFault (.duplicateName m systemName) (UnitText.opening m) rest
  | procedure {m : String} {ps : List ProcedureText} {d : Diagnostic} {read : List Terminal}
      {rest : List Token} :
      ProcedureFault m (ps.map fun p => p.name) d read rest →
      UnitFault d (UnitText.opening m ++ (ps.flatMap ProcedureText.terminals ++ read)) rest
  | body {m : String} {ps : List ProcedureText} {d : Diagnostic} {read : List Terminal}
      {rest : List Token} :
      BodyFault Parse.initName false d read rest →
      UnitFault d (UnitText.opening m ++ (ps.flatMap ProcedureText.terminals ++ read)) rest
  | closing {m found : String} {ps : List ProcedureText} {b : BodyText} {next : Token}
      {rest : List Token} :
      next.terminal = .ident found → found ≠ m →
      UnitFault (.nameMismatch "module" m found) (UnitText.opening m ++
        (ps.flatMap ProcedureText.terminals ++ (b.terminals ++ [.keyword .endWord]))) (next :: rest)
  | unexpected {read : List Terminal} {next : Token} {rest : List Token} :
      UnitStuck read next.terminal →
      UnitFault (.unexpectedToken next.describe) read (next :: rest)

end ModuleCompiler
