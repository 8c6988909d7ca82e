/-
  The predeclared environment: the module SYSTEM, listed in itself, with the type INTEGER
  in it. Every unit is compiled against a table that starts as this one. Main statement:
  the environment is what the operations of a table make.
-/
import ModuleCompiler.Decl.Create

namespace ModuleCompiler

/-- A table to start from, the module in it that encloses every unit, and the events of
its making. -/
structure Predeclared where
  table : Table
  system : DeclId
  events : List Event

namespace Predeclared

/-- The name of the predeclared module. -/
def systemName : String := "SYSTEM"

/-- The name of the predeclared type. -/
def integerName : String := "INTEGER"

/-- How integers are written in the output. -/
def integerRepresentation : String := "i32"

/-- The environment as the operations of a table make it. -/
def build : Except Fault Predeclared := do
  let system ← Table.empty.createModule systemName none
  let (listed, listing) ← system.table.insert system.id system.id
  let integer ← listed.createType integerName (some system.id) integerRepresentation
  let events := system.events ++ listing ++ integer.events
  return ⟨integer.table, system.id, events ++ [.builtPredeclared integer.table.size]⟩

/-- The environment. -/
def standard : Predeclared where
  table := {
    decls := #[
      ⟨systemName, none, .module ⟨[(integerName, ⟨1⟩), (systemName, ⟨0⟩)]⟩⟩,
      ⟨integerName, some ⟨0⟩, .type integerRepresentation⟩]
    parent_lt := by decide }
  system := ⟨0⟩
  events := [
    .createdRoot systemName,
    .inserted systemName systemName,
    .inserted integerName systemName,
    .created "TYPE" "SYSTEM.INTEGER",
    .builtPredeclared 2]

theorem build_eq_standard : build = .ok standard := by
  with_unfolding_all rfl

end Predeclared

end ModuleCompiler
