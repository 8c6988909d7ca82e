/-
  What a run has to tell while it works: one constructor per kind of event, with its
  level, its message and its named values. Events are data; how a line is written and
  which levels are shown is decided where the log is printed.
-/

namespace ModuleCompiler

/-- The levels of events, the gravest first. -/
inductive Level where
  | error
  | warn
  | info
  | debug
  | trace
  deriving DecidableEq, Repr

namespace Level

/-- The place of the level when the gravest is 0. -/
def rank : Level → Nat
  | error => 0
  | warn => 1
  | info => 2
  | debug => 3
  | trace => 4

/-- The upper-case name written in a log line. -/
def label : Level → String
  | error => "ERROR"
  | warn => "WARN"
  | info => "INFO"
  | debug => "DEBUG"
  | trace => "TRACE"

/-- A log that is cut at `limit` shows events of level `l`. -/
def shows (limit l : Level) : Bool :=
  l.rank ≤ limit.rank

end Level

/-- A step of the work that the log can show. -/
inductive Event where
  | compiling (bytes : Nat) (target : String)
  | createdRoot (module : String)
  | inserted (name scope : String)
  | created (kind path : String)
  | builtPredeclared (decls : Nat)
  | lookedUp (name scope : String)
  | emittedPrologue (procedure returns : String)
  | parsedModule (module : String) (decls : Nat)
  | compiledModule (module : String)
  | wroteIR (path : String)
  deriving DecidableEq, Repr

/-- A value of an event: a number, a text shown in quotes, or a text shown bare. -/
inductive Event.Value where
  | number (n : Nat)
  | quoted (text : String)
  | bare (text : String)
  deriving DecidableEq, Repr

namespace Event

/-- The level at which the event is told. -/
def level : Event → Level
  | lookedUp .. => .trace
  | compiledModule .. | wroteIR .. => .info
  | _ => .debug

/-- The fixed text of the event. -/
def message : Event → String
  | compiling .. => "compiling"
  | createdRoot .. => "created root module"
  | inserted .. => "inserted declaration"
  | created .. => "created declaration"
  | builtPredeclared .. => "built predeclared environment"
  | lookedUp .. => "lookup"
  | emittedPrologue .. => "emitted prologue"
  | parsedModule .. => "parsed module"
  | compiledModule .. => "compiled module"
  | wroteIR .. => "wrote IR"

/-- The named values of the event, in the order of a plain log line. -/
def fields : Event → List (String × Value)
  | compiling bytes target => [("bytes", .number bytes), ("target", .bare target)]
  | createdRoot module => [("module", .quoted module)]
  | inserted name scope => [("name", .bare name), ("scope", .bare scope)]
  | created kind path => [("kind", .quoted kind), ("path", .bare path)]
  | builtPredeclared decls => [("decls", .number decls)]
  | lookedUp name scope => [("name", .quoted name), ("scope", .bare scope)]
  | emittedPrologue procedure returns => [("procedure", .bare procedure), ("returns", .bare returns)]
  | parsedModule module decls => [("module", .bare module), ("decls", .number decls)]
  | compiledModule module => [("module", .bare module)]
  | wroteIR path => [("path", .bare path)]

end Event

end ModuleCompiler
