/-
  The options of the command line. An option has a long name and possibly a letter; some
  take a value, which stands behind the option or is attached to it. Arguments are read in
  order, and the first that settles the matter does: a fault, or a request for the help or
  the version.
-/
import ModuleCompiler.CommandLine.Log

namespace ModuleCompiler

/-- The options. -/
inductive Flag where
  | input
  | output
  | target
  | verbose
  | quiet
  | log
  | logFormat
  | config
  | help
  | version
  deriving DecidableEq, Repr

namespace Flag

/-- The options in the order of the help. -/
def all : List Flag :=
  [input, output, target, verbose, quiet, log, logFormat, config, help, version]

/-- The name behind two dashes. -/
def long : Flag → String
  | input => "input"
  | output => "output"
  | target => "target"
  | verbose => "verbose"
  | quiet => "quiet"
  | log => "log"
  | logFormat => "log-format"
  | config => "config"
  | help => "help"
  | version => "version"

/-- The letter behind one dash. -/
def short? : Flag → Option Char
  | input => some 'i'
  | output => some 'o'
  | verbose => some 'v'
  | quiet => some 'q'
  | config => some 'c'
  | help => some 'h'
  | version => some 'V'
  | target | log | logFormat => none

/-- The option takes a value. -/
def takesValue : Flag → Bool
  | input | output | target | log | logFormat | config => true
  | verbose | quiet | help | version => false

/-- The option with the given name. -/
def ofLong? (name : String) : Option Flag :=
  all.find? fun f => f.long = name

/-- The option with the given letter. -/
def ofShort? (letter : Char) : Option Flag :=
  all.find? fun f => f.short? = some letter

end Flag

/-- What the arguments ask of a compilation. -/
structure Options where
  input : Option String := none
  output : Option String := none
  target : Option String := none
  verbose : Nat := 0
  quiet : Bool := false
  log : Option Level := none
  logFormat : Option LogFormat := none
  config : Option String := none
  deriving DecidableEq, Repr

/-- Why the arguments do not describe a compilation. -/
inductive Stop where
  | unknownArgument (arg : String)
  | missingValue (flag : Flag)
  | needlessValue (flag : Flag)
  | badValue (flag : Flag) (value : String)
  | repeated (flag : Flag)
  | helpWanted
  | versionWanted
  deriving DecidableEq, Repr

/-- The level with the given name. -/
def Level.ofName? : String → Option Level
  | "error" => some error
  | "warn" => some warn
  | "info" => some info
  | "debug" => some debug
  | "trace" => some trace
  | _ => none

/-- The log format with the given name. -/
def LogFormat.ofName? : String → Option LogFormat
  | "pretty" => some pretty
  | "json" => some json
  | _ => none

namespace Options

/-- The level at which the log is cut: the one asked for, or else by the options that ask for
less or more. -/
def level (o : Options) : Level :=
  match o.log with
  | some level => level
  | none =>
    if o.quiet then .error
    else match o.verbose with
      | 0 => .warn
      | 1 => .info
      | 2 => .debug
      | _ => .trace

/-- The format of the log. -/
def format (o : Options) : LogFormat :=
  o.logFormat.getD .pretty

/-! ## Single options -/

/-- A value for an option that may be given once. -/
def once {α : Type} (f : Flag) (value : String) (old : Option α) (new : Option α) :
    Except Stop (Option α) :=
  if old.isSome then .error (.repeated f)
  else match new with
    | some v => .ok (some v)
    | none => .error (.badValue f value)

/-- A path, which is not empty. -/
def path? (value : String) : Option String :=
  if value = "" then none else some value

/-- The options with one more that has a value. -/
def setValue (o : Options) (f : Flag) (value : String) : Except Stop Options :=
  match f with
  | .input => do return { o with input := ← once f value o.input (path? value) }
  | .output => do return { o with output := ← once f value o.output (path? value) }
  | .target => do return { o with target := ← once f value o.target (some value) }
  | .log => do return { o with log := ← once f value o.log (Level.ofName? value) }
  | .logFormat => do
    return { o with logFormat := ← once f value o.logFormat (LogFormat.ofName? value) }
  | .config => do return { o with config := ← once f value o.config (path? value) }
  | .verbose | .quiet | .help | .version => .error (.needlessValue f)

/-- The options with one more that has no value. -/
def set (o : Options) (f : Flag) : Except Stop Options :=
  match f with
  | .verbose => .ok { o with verbose := o.verbose + 1 }
  | .quiet => if o.quiet then .error (.repeated f) else .ok { o with quiet := true }
  | .help => .error .helpWanted
  | .version => .error .versionWanted
  | .input | .output | .target | .log | .logFormat | .config => .error (.missingValue f)

/-! ## Arguments -/

/-- The options read so far, and the one that waits for its value. -/
structure Reading where
  options : Options
  waiting : Option Flag

/-- Reads letters behind one dash: an option with a value takes the other letters for it,
without a leading equals sign, or waits. -/
def readLetters (o : Options) : List Char → Except Stop Reading
  | [] => .ok ⟨o, none⟩
  | c :: rest =>
    match Flag.ofShort? c with
    | none => .error (.unknownArgument ("-" ++ c.toString))
    | some f =>
      if f.takesValue then
        match rest with
        | [] => .ok ⟨o, some f⟩
        | '=' :: value => do return ⟨← o.setValue f (String.ofList value), none⟩
        | value => do return ⟨← o.setValue f (String.ofList value), none⟩
      else do readLetters (← o.set f) rest

/-- Reads a name behind two dashes, with a value behind an equals sign or without. -/
def readName (o : Options) (arg : List Char) : Except Stop Reading :=
  let name := String.ofList (arg.takeWhile (· ≠ '='))
  match Flag.ofLong? name with
  | none => .error (.unknownArgument ("--" ++ name))
  | some f =>
    match arg.dropWhile (· ≠ '=') with
    | '=' :: value =>
      if f.takesValue then do return ⟨← o.setValue f (String.ofList value), none⟩
      else .error (.needlessValue f)
    | _ =>
      if f.takesValue then .ok ⟨o, some f⟩
      else do return ⟨← o.set f, none⟩

/-- Reads an option, which is no value for one that waits. -/
def readFlag (r : Reading) (read : Options → Except Stop Reading) : Except Stop Reading :=
  match r.waiting with
  | some f => .error (.missingValue f)
  | none => read r.options

/-- Reads one argument. -/
def readArgument (r : Reading) (arg : String) : Except Stop Reading :=
  match arg.toList with
  | '-' :: '-' :: name => readFlag r (readName · name)
  | '-' :: c :: letters => readFlag r (readLetters · (c :: letters))
  | _ =>
    match r.waiting with
    | some f => do return ⟨← r.options.setValue f arg, none⟩
    | none => .error (.unknownArgument arg)

/-- Ends the reading, with no option left to wait. -/
def Reading.finish (r : Reading) : Except Stop Options :=
  match r.waiting with
  | some f => .error (.missingValue f)
  | none => .ok r.options

/-- Reads arguments; two dashes alone end the options, and nothing may follow. -/
def readArguments (r : Reading) : List String → Except Stop Options
  | [] => r.finish
  | "--" :: rest => do
    let options ← r.finish
    match rest with
    | [] => return options
    | arg :: _ => throw (.unknownArgument arg)
  | arg :: rest => do readArguments (← readArgument r arg) rest

/-- The options that the arguments give. -/
def ofArguments (args : List String) : Except Stop Options :=
  readArguments ⟨{}, none⟩ args

end Options

end ModuleCompiler
