/-
  What libraries do for the program. How arguments are read, what text is a document, and how
  reports and lines of the log are laid out is left to them; `standard` is the choice the program is
  run with.
-/
import ModuleCompiler.CommandLine.Options
import ModuleCompiler.CommandLine.Report

namespace ModuleCompiler

/-- The reading of arguments and documents, and the layout of what a run has to say. -/
structure Tools where
  /-- The options that arguments give. -/
  options : List String → Except Stop Options
  /-- The document that a text is. -/
  document : String → Option Toml.Entries
  /-- What is said of a text that gives no settings. -/
  complaint : String → String
  /-- A report laid out by a template. -/
  layout : Template → Report → String
  /-- The line of an event at a time, which is in nanoseconds. -/
  line : LogFormat → Nat → Event → String

/-- The tools that the program is run with. -/
def Tools.standard : Tools where
  options := Options.ofArguments
  document := Toml.parse
  complaint _ := "invalid TOML or invalid value"
  layout := Report.render
  line := Event.line

end ModuleCompiler
