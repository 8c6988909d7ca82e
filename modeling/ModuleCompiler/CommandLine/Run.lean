/-
  A run of the compiler as a function from what it can see to what it leaves behind. Nothing is
  written before the whole unit is compiled, and how much of the log is shown has no part in what
  is written. The libraries that the program uses and the time at which it tells its events are
  parameters of a run.
-/
import ModuleCompiler.CommandLine.Files
import ModuleCompiler.CommandLine.Tools
import ModuleCompiler.Text.Blank

namespace ModuleCompiler

/-- What a run can see besides its arguments: standard input, files, the variable that names a
target, the directory of the user's configuration, and how many bytes standard output takes before
it refuses more, if it ever does. What is written to standard error is always taken. -/
structure Surroundings where
  input : Except FileError ByteArray
  files : Files := {}
  targetVariable : Option ByteArray := none
  configDirectory : Option String := none
  room : Option (Nat × FileError) := none

/-- The bytes that standard output takes, and why it takes no more. -/
def Surroundings.takes (s : Surroundings) (bytes : ByteArray) : ByteArray × Option FileError :=
  match s.room with
  | none => (bytes, none)
  | some (room, e) => if bytes.size ≤ room then (bytes, none) else (bytes.extract 0 room, some e)

/-! ## Settings -/

/-- Why there are no settings: the file that counts cannot be read, or its text gives none. -/
inductive ConfigurationError where
  | unreadable (path : String) (e : FileError)
  | malformed (path text : String)
  deriving DecidableEq, Repr

namespace ConfigurationError

/-- The file that counts. -/
def path : ConfigurationError → String
  | unreadable path _ | malformed path _ => path

/-- The text of the error, with what is said of a text that gives no settings. -/
def message (complaint : String → String) : ConfigurationError → String
  | unreadable path e => "Failed to read config file " ++ path ++ ": " ++ e.message
  | malformed path text => "Failed to parse config file " ++ path ++ ": " ++ complaint text

end ConfigurationError

namespace Settings

/-- The name of the configuration file in the working directory. -/
def localFile : String := "obc.toml"

/-- The configuration file that counts: the one asked for, or else the first that is there. -/
def source? (o : Options) (s : Surroundings) : Option String :=
  match o.config with
  | some path => some path
  | none =>
    let user := s.configDirectory.map (· ++ "/obc/config.toml")
    (localFile :: user.toList).find? s.files.isFile

/-- The settings of the configuration file, where `read` says what text is a document. -/
def loadBy (read : String → Option Toml.Entries) (o : Options) (s : Surroundings) :
    Except ConfigurationError Settings :=
  match source? o s with
  | none => .ok {}
  | some path =>
    match s.files.readText path with
    | .error e => .error (.unreadable path e)
    | .ok text =>
      match (read text).bind ofEntries? with
      | some settings => .ok settings
      | none => .error (.malformed path text)

/-- The target that the variable names, if it is text and not blank. -/
def variableTarget? (s : Surroundings) : Option String := do
  let text ← String.fromUTF8? (← s.targetVariable)
  let triple := Text.trimBlank text
  if triple = "" then none else some triple

/-- The target of a run: the option's, or else the variable's, or else the configuration's. -/
def target (settings : Settings) (o : Options) (s : Surroundings) : String :=
  o.target.getD ((variableTarget? s).getD settings.triple)

end Settings

/-! ## Outcomes -/

/-- Why a run fails. -/
inductive Failure where
  | configuration (e : ConfigurationError)
  | file (e : FileError)
  | unit (fault : Fault)
  deriving DecidableEq, Repr

/-- The report of a failure. -/
def Failure.report (complaint : String → String) : Failure → Report
  | configuration e =>
    ⟨"Configuration error: " ++ e.message complaint, some "obc::config", none,
      some "check obc.toml for correct syntax and values"⟩
  | file e => ⟨"IO error: " ++ e.message, some "obc::io", some e.message, none⟩
  | unit fault => .ofFault fault

/-- What there is to tell, in its order: an event, or the compiled text where an output path leads
to standard error. -/
inductive Telling where
  | event (e : Event)
  | delivered (text : String)
  deriving DecidableEq, Repr

/-- A piece of what a run writes to standard error: a line of the log, compiled text, or the report
of a failure. -/
inductive Message where
  | line (level : Level) (text : String)
  | delivered (text : String)
  | report (text : String)
  deriving DecidableEq, Repr

/-- The message as it is written. -/
def Message.text : Message → String
  | line _ text => text ++ "\n"
  | delivered text | report text => text

/-- A line of the log that the options ask for. -/
def Tools.lineOf (t : Tools) (o : Options) (e : Event) (time : Nat) : Message :=
  .line e.level (t.line o.format time e)

/-- The message of what is told at the given place of a run, at the time that the clock gives for
it; events below the level of the log have none. -/
def Tools.message? (t : Tools) (clock : Nat → Nat) (o : Options) : Telling × Nat → Option Message
  | (.event e, place) => if o.level.shows e.level then some (t.lineOf o e (clock place)) else none
  | (.delivered text, _) => some (.delivered text)

/-- What a run leaves behind. -/
structure Outcome where
  output : ByteArray
  files : Files
  told : List Telling
  failure : Option (Failure × Template)

namespace Outcome

/-- A run that failed after telling some events, and left everything as it was. -/
def failed (s : Surroundings) (events : List Event) (failure : Failure) (template : Template) :
    Outcome :=
  ⟨.empty, s.files, events.map .event, some (failure, template)⟩

/-- The status that the run ends with. -/
def exitCode (r : Outcome) : Nat :=
  if r.failure.isSome then 1 else 0

/-- The report of the failure, if there is one. -/
def report? (t : Tools) (r : Outcome) : Option Message :=
  r.failure.map fun f => .report (t.layout f.2 (f.1.report t.complaint))

/-- What the run writes to standard error: what it tells, and behind it the report of a failure. -/
def messages (t : Tools) (clock : Nat → Nat) (o : Options) (r : Outcome) : List Message :=
  r.told.zipIdx.filterMap (t.message? clock o) ++ (r.report? t).toList

end Outcome

/-! ## Running -/

/-- The text of the unit. -/
def readUnit (o : Options) (s : Surroundings) : Except FileError String :=
  match o.input with
  | some path => s.files.readText path
  | none => do decodeText (← s.input)

/-- Where the compiled text is written: to standard output unless a path says otherwise. -/
def Options.destination (o : Options) (s : Surroundings) : Except FileError Files.Destination :=
  match o.output with
  | some path => s.files.destination path
  | none => .ok (.device .output)

/-- The event of a delivery, which only one along a path has. -/
def deliveryEvents (o : Options) : List Event :=
  o.output.toList.map .wroteIR

/-- Writes the compiled text where the options say. -/
def deliver (o : Options) (s : Surroundings) (template : Template) (events : List Event)
    (text : String) : Outcome :=
  let told := (events ++ deliveryEvents o).map .event
  match o.destination s with
  | .error e => .failed s events (.file e) template
  | .ok (.file way) => ⟨.empty, s.files.put way text.toUTF8, told, none⟩
  | .ok (.device .output) =>
    match s.takes text.toUTF8 with
    | (taken, none) => ⟨taken, s.files, told, none⟩
    | (taken, some e) => { Outcome.failed s events (.file e) template with output := taken }
  | .ok (.device .messages) =>
    ⟨.empty, s.files,
      events.map .event ++ .delivered text :: (deliveryEvents o).map .event, none⟩
  | .ok (.device .nowhere) => ⟨.empty, s.files, told, none⟩

/-- Compiles the unit for the given target and delivers the text. -/
def compileUnit (o : Options) (s : Surroundings) (template : Template) (target source : String) :
    Outcome :=
  let env := Predeclared.standard
  let (result, told) := compileTelling env target source
  let events := .compiling source.utf8ByteSize target :: env.events ++ told
  match result with
  | .error fault => .failed s events (.unit fault) template
  | .ok compilation => deliver o s template events compilation.ir.text

/-- Runs the compiler: the settings first, then the unit. Before there are settings, reports have
the template that they have without a configuration. -/
def runBy (read : String → Option Toml.Entries) (o : Options) (s : Surroundings) : Outcome :=
  match Settings.loadBy read o s with
  | .error e => .failed s [] (.configuration e) .pretty
  | .ok settings =>
    match readUnit o s with
    | .error e => .failed s [] (.file e) settings.template
    | .ok source => compileUnit o s settings.template (settings.target o s) source

/-- Runs the compiler with the documents that it is used with. -/
def run (o : Options) (s : Surroundings) : Outcome :=
  runBy Toml.parse o s

/-! ## Command lines -/

/-- What a command line leads to: an exit status, what is written to standard output and to
standard error, and the files behind it. -/
structure Completed where
  exitCode : Nat
  output : ByteArray
  messages : List Message
  files : Files

/-- The text on standard error. -/
def Completed.errors (r : Completed) : String :=
  String.join (r.messages.map Message.text)

/-- The line that the version option asks for. -/
def versionText : String := "obc 0.1.0\n"

/-- The text that the help option asks for. -/
def helpText : String :=
  "Compiles a module from stdin to IR on stdout\n\n" ++
  "Usage: obc [OPTIONS]\n\n" ++
  "Options:\n" ++
  "  -i, --input <INPUT>            Read the module from this file instead of stdin\n" ++
  "  -o, --output <OUTPUT>          Write the IR to this file instead of stdout\n" ++
  "      --target <TARGET>          Override the configured target triple\n" ++
  "  -v, --verbose...               Enable verbose logging (use multiple times for increased " ++
  "verbosity)\n" ++
  "  -q, --quiet                    Suppress non-error output\n" ++
  "      --log <LOG>                Set log level (overrides --verbose/--quiet) " ++
  "[possible values: error, warn, info, debug, trace]\n" ++
  "      --log-format <LOG_FORMAT>  Set log output format [default: pretty] " ++
  "[possible values: pretty, json]\n" ++
  "  -c, --config <CONFIG>          Configuration file path\n" ++
  "  -h, --help                     Print help\n" ++
  "  -V, --version                  Print version\n"

/-- Carries out a command line with the given tools, by the given clock. What is said of arguments
that make no sense is up to their reader; they end the run with status 2. -/
def carryOut (t : Tools) (clock : Nat → Nat) (args : List String) (s : Surroundings) : Completed :=
  match t.options args with
  | .ok o =>
    let r := runBy t.document o s
    ⟨r.exitCode, r.output, r.messages t clock o, r.files⟩
  | .error .helpWanted => ⟨0, (s.takes helpText.toUTF8).1, [], s.files⟩
  | .error .versionWanted => ⟨0, (s.takes versionText.toUTF8).1, [], s.files⟩
  | .error _ => ⟨2, .empty, [], s.files⟩

end ModuleCompiler
