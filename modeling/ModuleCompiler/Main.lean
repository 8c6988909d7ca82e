/-
  The program: looks at what a run can see, carries it out, and does what it says. What the system
  refuses only when it is asked to write is found out then, and the run is carried out with that.
-/
import ModuleCompiler.CommandLine.Run

namespace ModuleCompiler.Program

/-- Why the system refuses something; none if there is nothing to refuse. -/
def refusal? : IO.Error → Option FileError
  | .permissionDenied _ code reason | .resourceExhausted _ code reason
  | .invalidArgument _ code reason | .noSuchThing _ code reason
  | .otherError code reason | .resourceBusy code reason | .resourceVanished code reason
  | .unsupportedOperation code reason | .hardwareFault code reason
  | .unsatisfiedConstraints code reason | .illegalOperation code reason
  | .interrupted _ code reason => some (.system reason code.toNat)
  | _ => none

/-- All bytes that a stream still has. -/
partial def readToEnd (input : IO.FS.Stream) (seen : ByteArray) : IO ByteArray := do
  let part ← input.read 65536
  if part.isEmpty then return seen
  readToEnd input (seen ++ part)

/-- All of standard input, or why it cannot be read. -/
def readInput : IO (Except FileError ByteArray) := do
  try
    return .ok (← readToEnd (← IO.getStdin) ByteArray.empty)
  catch e =>
    return .error ((refusal? e).getD .notFound)

/-! ## Files -/

/-- The files with what the action finds at the path, or with what stopped it there. -/
def lookBy (fs : Files) (path : String) (action : IO Files) : IO Files := do
  try
    action
  catch
    | .inappropriateType _ 21 _ =>
      return { fs with directories := Files.way path :: fs.directories }
    | e =>
      let refused := (refusal? e).toList.map ((.read, Files.way path), ·)
      return { fs with refusals := refused ++ fs.refusals }

/-- The files with the one at the path and its content, or with the directory there. -/
def look (fs : Files) (path : String) : IO Files :=
  if (fs.device? (Files.way path)).isSome then return fs
  else lookBy fs path do
    let content ← IO.FS.readBinFile path
    return { fs with entries := (Files.way path, content) :: fs.entries }

/-- The files with the directory at the path, if there is one; a file is not read. -/
def lookForDirectory (fs : Files) (path : String) : IO Files :=
  if (fs.device? (Files.way path)).isSome then return fs
  else lookBy fs path do
    let _ ← IO.FS.Handle.mk path .readWrite
    return fs

/-- The paths that end before a slash of the path, the shortest first. -/
def stages (path : String) : List String :=
  let parts := path.splitOn "/"
  (List.range (parts.length - 1)).map fun n => "/".intercalate (parts.take (n + 1))

/-- The path names standard input. -/
def isInput (path : String) : Bool :=
  Files.way path = Files.way "/dev/stdin"

/-- The devices that stand for the streams of a run, where standard input has these bytes. -/
def devices (input : Except FileError ByteArray) : List (List String × Device) :=
  [(Files.way "/dev/null", ⟨.ok .empty, .nowhere⟩),
   (Files.way "/dev/stdin", ⟨input, .nowhere⟩),
   (Files.way "/dev/stdout", ⟨.ok .empty, .output⟩),
   (Files.way "/dev/stderr", ⟨.ok .empty, .messages⟩)]

/-! ## Runs -/

/-- The directory of the user's configuration. -/
def configDirectory : IO (Option String) := do
  match ← IO.getEnv "XDG_CONFIG_HOME" with
  | some path => if path.startsWith "/" then return some path
  | none => pure ()
  return (← IO.getEnv "HOME").map (· ++ "/.config")

/-- What a run with the given options can see. A configuration that is read from standard input
leaves nothing there for the unit. -/
def surroundings (o : Options) : IO Surroundings := do
  let directory ← configDirectory
  let spent := o.config.any isInput
  let input ← if spent || o.input.all isInput then readInput else pure (.ok .empty)
  let sources := o.config.toList ++ [Settings.localFile] ++
    (directory.map (· ++ "/obc/config.toml")).toList ++ o.input.toList
  let fs ← (sources.flatMap fun path => stages path ++ [path]).foldlM look
    { devices := devices input }
  let fs ← (o.output.toList.flatMap stages).foldlM look fs
  let files ← o.output.toList.foldlM lookForDirectory fs
  let target ← IO.getEnv "OBC_TARGET_TRIPLE"
  return {
    input := if spent then .ok .empty else input
    files
    targetVariable := target.map String.toUTF8
    configDirectory := directory }

/-- Writes the file that a run leaves at the path. If the system refuses that, these are the
surroundings with the refusal. -/
def writeFile (s : Surroundings) (r : Completed) (path : String) : IO (Option Surroundings) := do
  let way := Files.way path
  match r.files.device? way, r.files.find? way with
  | none, some content =>
    try
      let file ← IO.FS.Handle.mk path .write
      file.write content
      file.flush
      return none
    catch e =>
      let refused := ((.write, way), (refusal? e).getD .notFound)
      return some { s with files := { s.files with refusals := refused :: s.files.refusals } }
  | _, _ => return none

/-- Writes to standard output. If the system refuses that, these are the surroundings with the
refusal. -/
def writeOutput (s : Surroundings) (r : Completed) : IO (Option Surroundings) := do
  try
    let output ← IO.getStdout
    output.write r.output
    output.flush
    return none
  catch e =>
    return some { s with room := some (0, (refusal? e).getD .notFound) }

end ModuleCompiler.Program

open ModuleCompiler in
/-- Carries out the command line. -/
def main (args : List String) : IO UInt32 := do
  let start ← IO.monoNanosNow
  let t := Tools.standard
  let o := (t.options args).toOption
  let s ← match o with
    | some o => Program.surroundings o
    | none => pure { input := .ok .empty }
  let elapsed := (← IO.monoNanosNow) - start
  let clock := fun _ => elapsed
  let mut r := carryOut t clock args s
  if r.exitCode = 0 then
    for path in (o.bind Options.output).toList do
      if let some refused ← Program.writeFile s r path then
        r := carryOut t clock args refused
  if let some refused ← Program.writeOutput s r then
    r := carryOut t clock args refused
  IO.eprint r.errors
  return r.exitCode.toUInt32
