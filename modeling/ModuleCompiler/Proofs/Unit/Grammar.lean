/-
  The language of units. A unit is a tree, and `terminals` is what the grammar sees of its
  tokens: all but how a number is written and where a token stands. `UnitText.Valid` says
  which trees are accepted, and `UnitText.output` what is written for them.
-/
import ModuleCompiler.Predeclared
import ModuleCompiler.Token.Basic

namespace ModuleCompiler

/-- What the grammar sees of a token. -/
inductive Terminal where
  | ident (name : String)
  | integer (value : Int32)
  | mark (kind : TokenKind)
  deriving DecidableEq

namespace Terminal

def kind : Terminal → TokenKind
  | ident _ => .ident
  | integer _ => .integer
  | mark kind => kind

def keyword (k : Keyword) : Terminal := mark (.keyword k)

/-- A token that may be left out. -/
def optional (kind : TokenKind) (present : Bool) : List Terminal :=
  if present then [mark kind] else []

end Terminal

/-- What the grammar sees of the token. -/
def Token.terminal (t : Token) : Terminal :=
  match t.kind, t.value with
  | .ident, _ => .ident t.lexeme
  | .integer, some value => .integer value
  | kind, _ => .mark kind

/-! ## Types -/

/-- `Name` or `Module.Name`. -/
inductive TypeUse where
  | plain (name : String)
  | member (module name : String)

namespace TypeUse

def terminals : TypeUse → List Terminal
  | plain name => [.ident name]
  | member module name => [.ident module, .mark .period, .ident name]

def spelling : TypeUse → String
  | plain name => name
  | member module name => module ++ "." ++ name

/-- The use stands for INTEGER, which procedures of the given names may hide. -/
def IsInteger (earlier : List String) : TypeUse → Prop
  | plain name => name = Predeclared.integerName ∧ Predeclared.integerName ∉ earlier
  | member module name =>
    module = Predeclared.systemName ∧ name = Predeclared.integerName ∧
      Predeclared.systemName ∉ earlier

end TypeUse

/-! ## Bodies -/

/-- `[BEGIN] [RETURN [integer]]`. -/
structure BodyText where
  begins : Bool
  returns : Option (Option Int32)

namespace BodyText

/-- The value that is returned, if there is one. -/
def value (b : BodyText) : Option Int32 := b.returns.join

def returnTerminals : Option (Option Int32) → List Terminal
  | none => []
  | some none => [.keyword .returnWord]
  | some (some value) => [.keyword .returnWord, .integer value]

def terminals (b : BodyText) : List Terminal :=
  Terminal.optional (.keyword .beginWord) b.begins ++ returnTerminals b.returns

end BodyText

/-! ## Procedures -/

/-- `PROCEDURE name [*] [()] [: Type]`. -/
structure Heading where
  name : String
  exported : Bool
  parameters : Bool
  returns : Option TypeUse

namespace Heading

def parameterTerminals (present : Bool) : List Terminal :=
  if present then [.mark .leftParen, .mark .rightParen] else []

def returnTerminals : Option TypeUse → List Terminal
  | none => []
  | some type => .mark .colon :: type.terminals

def terminals (h : Heading) : List Terminal :=
  .keyword .procedureWord :: .ident h.name ::
    (Terminal.optional .asterisk h.exported ++
      (parameterTerminals h.parameters ++ returnTerminals h.returns))

end Heading

/-- `Heading ; Body END closing ;`. -/
structure ProcedureText extends Heading where
  body : BodyText
  closing : String

namespace ProcedureText

def terminals (p : ProcedureText) : List Terminal :=
  p.toHeading.terminals ++ .mark .semicolon ::
    (p.body.terminals ++ [.keyword .endWord, .ident p.closing, .mark .semicolon])

/-- The procedure may stand behind procedures of the given names. -/
structure ValidAfter (earlier : List String) (p : ProcedureText) : Prop where
  exported : p.exported = true
  closing : p.closing = p.name
  fresh : p.name ∉ earlier
  type : ∀ type, p.returns = some type → type.IsInteger earlier
  value : p.body.value.isSome = p.returns.isSome

/-- Each procedure may stand behind the ones before it and the given ones. -/
def AllValidAfter (earlier : List String) : List ProcedureText → Prop
  | [] => True
  | p :: ps => p.ValidAfter earlier ∧ AllValidAfter (earlier ++ [p.name]) ps

end ProcedureText

/-! ## Units -/

/-- `MODULE name ; procedures body END closing .`. -/
structure UnitText where
  name : String
  procedures : List ProcedureText
  body : BodyText
  closing : String

namespace UnitText

/-- The terminals of `MODULE name ;`. -/
def opening (name : String) : List Terminal :=
  [.keyword .moduleWord, .ident name, .mark .semicolon]

def terminals (u : UnitText) : List Terminal :=
  opening u.name ++ (u.procedures.flatMap ProcedureText.terminals ++
    (u.body.terminals ++ [.keyword .endWord, .ident u.closing, .mark .period]))

/-- The unit is accepted. -/
structure Valid (u : UnitText) : Prop where
  name : u.name ≠ Predeclared.systemName ∧ u.name ≠ Predeclared.integerName
  closing : u.closing = u.name
  procedures : ProcedureText.AllValidAfter [] u.procedures
  value : u.body.value = none

/-- The lines of a function that returns the value, or nothing. -/
def function (symbol : String) : Option Int32 → String
  | some value =>
    "define i32 @" ++ symbol ++ "() \x7b\nentry:\n\tret i32 " ++ toString value.toInt ++
      "\n\x7d\n\n"
  | none => "define void @" ++ symbol ++ "() \x7b\nentry:\n\tret void\n\x7d\n\n"

/-- The output for the unit: a function for each procedure, and one for its own body. -/
def output (target : String) (u : UnitText) : String :=
  "target triple = \"" ++ target ++ "\"\n\n" ++
    String.join (u.procedures.map fun p => function (u.name ++ "_" ++ p.name) p.body.value) ++
    function (u.name ++ "__init") none

end UnitText

end ModuleCompiler
