/-
  Settings: the target triple that is written and how diagnostics are laid out, as a
  configuration document gives them. Each has a default of its own, so a document that
  gives one leaves the other as it was.
-/
import ModuleCompiler.Compile
import ModuleCompiler.Toml.Document

namespace ModuleCompiler

/-- How a diagnostic is laid out. -/
inductive Template where
  | pretty
  | plain
  deriving DecidableEq, Repr

/-- The template with the given name. -/
def Template.ofName? : String → Option Template
  | "pretty" => some pretty
  | "plain" => some plain
  | _ => none

/-- What a configuration decides. -/
structure Settings where
  triple : String := Compilation.defaultTarget
  template : Template := .pretty
  deriving DecidableEq, Repr

namespace Settings

open Toml

/-- The value of a section's only setting: the section is a table, where other keys are
passed over, or a list that starts with the value. Any other value is no section, except
that a date is one without keys. -/
def only (key : String) : Value → Option (Option Value)
  | .table _ es => some (es.lookup key)
  | .array items => some items.head?
  | .tables items => some (items.head?.map (.table .header))
  | .dateTime _ => some none
  | _ => none

/-- The value at a section's only setting, if the document has it; none if the section is
malformed. -/
def setting (heading key : String) (document : Entries) : Option (Option Value) :=
  match document.lookup heading with
  | none => some none
  | some v => only key v

/-- A value that says no more than that it is there. -/
def isUnit : Value → Bool
  | .table _ es => es.isEmpty
  | .array items => items.isEmpty
  | _ => false

/-- The template that a value names, as a text or as the only key of a table. -/
def templateOf? : Value → Option Template
  | .string name => Template.ofName? name
  | .table _ [(name, v)] => if isUnit v then Template.ofName? name else none
  | _ => none

/-- The triple that a value gives. -/
def tripleOf? : Value → Option String
  | .string triple => some triple
  | _ => none

/-- The settings of a document; none if it has a wrong kind of value for one of them. -/
def ofEntries? (document : Entries) : Option Settings := do
  let triple ← match ← setting "target" "triple" document with
    | some v => tripleOf? v
    | none => some ({} : Settings).triple
  let template ← match ← setting "diagnostics" "template" document with
    | some v => templateOf? v
    | none => some ({} : Settings).template
  return { triple, template }

/-- The settings of a configuration text; none if it is malformed. -/
def parse? (text : String) : Option Settings := do
  ofEntries? (← Toml.parse text)

end Settings

end ModuleCompiler
