/-
  What can be wrong with a unit or with a request to the declaration table: one
  constructor per cause, with the message, the code and the help text of each.
-/
import ModuleCompiler.Text.Quoted

namespace ModuleCompiler

open Text

/-- A cause of rejection, with the names that its message quotes. -/
inductive Diagnostic where
  | noParent (kind name : String)
  | duplicateName (name scope : String)
  | notFound (name : String)
  | notFoundInModule (name module : String)
  | notAType (spelling : String)
  | cannotLookup (name decl : String)
  | cannotInsert (name decl : String)
  | noScope (name : String)
  | nameMismatch (kind expected found : String)
  | unsupportedUnexported (procedure : String)
  | missingReturnValue (procedure type : String)
  | wrongReturnType (procedure : String)
  | unexpectedToken (text : String)
  | numericOverflow (digits : String)
  | unknownCharacter (c : Char)
  | tableFull (name : String)
  deriving DecidableEq, Repr

namespace Diagnostic

/-- The one-line text of the diagnostic. -/
def message : Diagnostic → String
  | noParent kind name => "no parent for " ++ kind ++ " " ++ singleQuoted name
  | duplicateName name scope =>
    "element " ++ singleQuoted name ++ " inserted twice into " ++ singleQuoted scope
  | notFound name => singleQuoted name ++ " not found"
  | notFoundInModule name module => singleQuoted name ++ " not found in " ++ singleQuoted module
  | notAType spelling => singleQuoted spelling ++ " is not a TYPE"
  | cannotLookup name decl => "cannot look up " ++ singleQuoted name ++ " in " ++ singleQuoted decl
  | cannotInsert name decl => "cannot insert " ++ singleQuoted name ++ " into " ++ singleQuoted decl
  | noScope name => "no scope to resolve " ++ singleQuoted name
  | nameMismatch kind expected found =>
    kind ++ " name " ++ singleQuoted expected ++ " does not match END " ++ singleQuoted found
  | unsupportedUnexported procedure => "procedure " ++ singleQuoted procedure ++ " must be exported"
  | missingReturnValue procedure type =>
    "procedure " ++ singleQuoted procedure ++ " must return a value of type " ++ singleQuoted type
  | wrongReturnType procedure => "procedure " ++ singleQuoted procedure ++ " cannot return an INTEGER"
  | unexpectedToken text => "not expected " ++ singleQuoted text
  | numericOverflow digits => "INTEGER too big: " ++ singleQuoted digits
  | unknownCharacter c => "unknown char " ++ singleQuoted c.toString
  | tableFull name => "too many declarations to register " ++ singleQuoted name

/-- The stable code of the cause. -/
def code : Diagnostic → String
  | noParent .. => "ob::no_parent"
  | duplicateName .. => "ob::duplicate_name"
  | notFound .. => "ob::not_found"
  | notFoundInModule .. => "ob::not_found_in_module"
  | notAType .. => "ob::not_a_type"
  | cannotLookup .. => "ob::cannot_lookup"
  | cannotInsert .. => "ob::cannot_insert"
  | noScope .. => "ob::no_scope"
  | nameMismatch .. => "ob::name_mismatch"
  | unsupportedUnexported .. => "ob::unsupported_unexported"
  | missingReturnValue .. => "ob::missing_return_value"
  | wrongReturnType .. => "ob::wrong_return_type"
  | unexpectedToken .. => "ob::unexpected_token"
  | numericOverflow .. => "ob::numeric_overflow"
  | unknownCharacter .. => "ob::unknown_character"
  | tableFull .. => "ob::table_full"

/-- Advice, for the causes that have some. -/
def help : Diagnostic → Option String
  | duplicateName .. => some "names must be unique within one scope"
  | notFoundInModule .. => some "qualified names are only looked up in the named module"
  | unsupportedUnexported .. => some "mark the procedure with '*' after its name"
  | _ => none

end Diagnostic

end ModuleCompiler
