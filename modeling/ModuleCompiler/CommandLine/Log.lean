/-
  The lines of the log, one for an event, in one of two formats. Every line bears the time that has
  passed since the run began.
-/
import ModuleCompiler.Event
import ModuleCompiler.Text.Quoted

namespace ModuleCompiler

/-- How a log line is written. -/
inductive LogFormat where
  | pretty
  | json
  deriving DecidableEq, Repr

namespace Event

open Text

/-- A value in a line of the format. -/
def Value.text : LogFormat → Value → String
  | _, number n => toString n
  | .pretty, quoted text => doubleQuoted text
  | .pretty, bare text => text
  | .json, quoted text | .json, bare text => jsonString text

/-! ## Time -/

/-- The decimal digits of a number behind as many pads as fill the width. -/
def padded (pad : Char) (width n : Nat) : String :=
  String.ofList (List.replicate (width - (toString n).length) pad) ++ toString n

/-- How many nanoseconds are a second. -/
def second : Nat := 1000000000

/-- The stamp of a time in nanoseconds: seconds with nine decimals. -/
def stamp (time : Nat) : String :=
  padded ' ' 4 (time / second) ++ "." ++ padded '0' 9 (time % second) ++ "s"

/-! ## Lines -/

/-- The plain line: the time, the level in five columns, the message, and the fields. -/
def prettyLine (time : Nat) (e : Event) : String :=
  let pad := String.ofList (List.replicate (5 - e.level.label.length) ' ')
  let fields := e.fields.map fun f => " " ++ f.1 ++ "=" ++ f.2.text .pretty
  stamp time ++ " " ++ pad ++ e.level.label ++ " " ++ e.message ++ String.join fields

/-- Text between braces. -/
def braced (members : List String) : String :=
  "\x7b" ++ ",".intercalate members ++ "\x7d"

/-- A member of a JSON object. -/
def member (key text : String) : String :=
  jsonString key ++ ":" ++ text

/-- The JSON line: the time, the level, and the fields, of which the message is the first. -/
def jsonLine (time : Nat) (e : Event) : String :=
  let fields := ("message", .bare e.message) :: e.fields
  braced [member "timestamp" (jsonString (stamp time)), member "level" (jsonString e.level.label),
    member "fields" (braced (fields.map fun f => member f.1 (f.2.text .json)))]

/-- The line of an event in the given format. -/
def line : LogFormat → Nat → Event → String
  | .pretty, time, e => e.prettyLine time
  | .json, time, e => e.jsonLine time

end Event

end ModuleCompiler
