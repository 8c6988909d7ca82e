/-
  Reports of what ended a run: a message with a code, and possibly a cause and advice,
  laid out by one of two templates.
-/
import ModuleCompiler.Settings

namespace ModuleCompiler

/-- What a report says. -/
structure Report where
  message : String
  code : Option String
  cause : Option String
  help : Option String
  deriving DecidableEq, Repr

namespace Report

/-- Text of one or more lines behind marks for the first line and for the others; spaces at
the end of a line are dropped. -/
def marked (first others text : String) : String :=
  let trim (line : List Char) := String.ofList (line.reverse.dropWhile (· = ' ')).reverse
  match (text.toList.splitOn '\n').map trim with
  | [] => first
  | line :: rest => first ++ line ++ String.join (rest.map fun line => "\n" ++ others ++ line)

/-- A line for a part that is there. -/
def optional (part : Option String) (lines : String → String) : String :=
  match part with
  | some text => lines text ++ "\n"
  | none => ""

/-- The report with marks in front of its parts. -/
def pretty (r : Report) : String :=
  optional r.code (fun code => code ++ "\n") ++
  marked "  × " "  │ " r.message ++ "\n" ++
  optional r.cause (marked "  ╰─▶ " "      ") ++
  optional r.help (marked "  help: " "        ") ++ "\n"

/-- The report in words only. -/
def plain (r : Report) : String :=
  r.message ++ "\n    Diagnostic severity: error\n" ++
  optional r.cause ("    Caused by: " ++ ·) ++
  optional r.help ("diagnostic help: " ++ ·) ++
  optional r.code ("diagnostic code: " ++ ·) ++ "\n"

/-- The report laid out by a template. -/
def render : Template → Report → String
  | .pretty, r => r.pretty
  | .plain, r => r.plain

/-- The report of a fault in a unit. -/
def ofFault : Fault → Report
  | .diagnostic d => ⟨d.message, some d.code, none, d.help⟩
  | .foreignId id => ⟨"no declaration " ++ id.label, none, none, none⟩

end Report

end ModuleCompiler
