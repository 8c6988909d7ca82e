/-
  The files that a run can see, by the names on the way to them from the working directory. A
  directory with something in it is there, and others may be. Besides files there are devices,
  which are not changed by what is written to them, and there is what the system refuses to open.
  No two ways lead to one file: there are no links.
-/

namespace ModuleCompiler

/-- Why a file cannot be read or written, or its bytes are no text. The system may have reasons of
its own, such as that one has no permission or that there is no space left. -/
inductive FileError where
  | notFound
  | notDirectory
  | isDirectory
  | nameTooLong
  | notText
  | system (reason : String) (code : Nat)
  deriving DecidableEq, Repr

/-- The text of the error. -/
def FileError.message : FileError → String
  | notFound => "No such file or directory (os error 2)"
  | notDirectory => "Not a directory (os error 20)"
  | isDirectory => "Is a directory (os error 21)"
  | nameTooLong => "File name too long (os error 36)"
  | notText => "stream did not contain valid UTF-8"
  | system reason code => reason ++ " (os error " ++ toString code ++ ")"

/-- Text from its UTF-8 form. -/
def decodeText (bytes : ByteArray) : Except FileError String :=
  match String.fromUTF8? bytes with
  | some text => .ok text
  | none => .error .notText

/-- What can be done at the end of a way. -/
inductive Access where
  | enter
  | read
  | write
  deriving DecidableEq, Repr

/-- Where a device puts what is written to it: among what the run itself puts out or has to say, or
where the run does not see it again. -/
inductive Channel where
  | output
  | messages
  | nowhere
  deriving DecidableEq, Repr

/-- What is read from a device, and where it puts what is written to it. -/
structure Device where
  reads : Except FileError ByteArray
  writes : Channel

/-- The contents of files by the names on the way to them, directories that may be empty, devices,
and what the system refuses. -/
structure Files where
  entries : List (List String × ByteArray) := []
  directories : List (List String) := []
  devices : List (List String × Device) := []
  refusals : List ((Access × List String) × FileError) := []

namespace Files

/-! ## Ways -/

/-- The way that a path starts from: the root if it begins with a slash, and the working
directory otherwise. -/
def start (path : String) : List String :=
  if path.toList.head? = some '/' then ["/"] else []

/-- The names that a path spells, without the empty ones between adjacent slashes. -/
def names (path : String) : List String :=
  ((path.toList.splitOn '/').map String.ofList).filter (· ≠ "")

/-- The path ends in a slash, so what it leads to has to be a directory. -/
def endsInSlash (path : String) : Bool :=
  path.toList.getLast? = some '/'

/-- The way to the directory around another one; around the root is the root. -/
def up (way : List String) : List String :=
  match way.getLast? with
  | none | some ".." => way ++ [".."]
  | some "/" => way
  | some _ => way.dropLast

/-- The way that is one name longer. -/
def next (way : List String) (name : String) : List String :=
  if name = "." then way else if name = ".." then up way else way ++ [name]

/-- The way that a path spells, whatever is there. -/
def way (path : String) : List String :=
  (names path).foldl next (start path)

/-! ## Paths among the files -/

/-- The content of the file at the end of the way. -/
def find? (fs : Files) (way : List String) : Option ByteArray :=
  fs.entries.lookup way

/-- The device at the end of the way. -/
def device? (fs : Files) (way : List String) : Option Device :=
  fs.devices.lookup way

/-- The reason for which the system refuses something. -/
def refusal? (fs : Files) (access : Access) (way : List String) : Option FileError :=
  fs.refusals.lookup (access, way)

/-- There is a file or a device at the end of the way. -/
def holds (fs : Files) (way : List String) : Bool :=
  (fs.device? way).isSome || (fs.find? way).isSome

/-- The way ends at a directory: the root, one that is around the working directory or is
the working directory itself, or one that is listed or has something in it. -/
def isDirectory (fs : Files) (way : List String) : Bool :=
  way = ["/"] || way.all (· = "..") || fs.directories.any way.isPrefixOf ||
    (fs.devices.any fun d => way.isPrefixOf d.1 && d.1 ≠ way) ||
    fs.entries.any fun e => way.isPrefixOf e.1 && e.1 ≠ way

/-- The greatest number of bytes in a name. -/
def longestName : Nat := 255

/-- The greatest number of bytes in a path. -/
def longestPath : Nat := 4095

/-- Goes one name further, which only a directory allows. -/
def step (fs : Files) (way : List String) (name : String) : Except FileError (List String) :=
  if !fs.isDirectory way then .error (if fs.holds way then .notDirectory else .notFound)
  else match fs.refusal? .enter way with
    | some e => .error e
    | none =>
      if longestName < name.utf8ByteSize then .error .nameTooLong else .ok (next way name)

/-- The way that a path describes; its last name need not exist. -/
def resolve (fs : Files) (path : String) : Except FileError (List String) :=
  if path = "" then .error .notFound
  else if longestPath < path.utf8ByteSize then .error .nameTooLong
  else (names path).foldlM fs.step (start path)

/-! ## Reading -/

/-- The path leads to a file, and not to a directory, a device or nothing. -/
def isFile (fs : Files) (path : String) : Bool :=
  match fs.resolve path with
  | .ok way =>
    !endsInSlash path && !fs.isDirectory way && (fs.device? way).isNone && (fs.find? way).isSome
  | .error _ => false

/-- What the file or device at the end of the way has to read. -/
def contents (fs : Files) (way : List String) : Except FileError ByteArray :=
  match fs.device? way with
  | some device => device.reads
  | none =>
    match fs.find? way with
    | some bytes => .ok bytes
    | none => .error .notFound

/-- The bytes at the end of the way, which is where the path leads. -/
def readAt (fs : Files) (path : String) (way : List String) : Except FileError ByteArray :=
  if endsInSlash path && !fs.isDirectory way then
    .error (if fs.holds way then .notDirectory else .notFound)
  else match fs.refusal? .read way with
    | some e => .error e
    | none => if fs.isDirectory way then .error .isDirectory else fs.contents way

/-- The bytes of what the path leads to. -/
def read (fs : Files) (path : String) : Except FileError ByteArray := do
  fs.readAt path (← fs.resolve path)

/-- The text of what the path leads to. -/
def readText (fs : Files) (path : String) : Except FileError String := do
  decodeText (← fs.read path)

/-! ## Writing -/

/-- Where a text is written: to a file, whether it is there yet or not, or to a device. -/
inductive Destination where
  | file (way : List String)
  | device (writes : Channel)

/-- What there is to write to at the end of the way, which is where the path leads. -/
def destinationAt (fs : Files) (path : String) (way : List String) :
    Except FileError Destination :=
  if endsInSlash path || fs.isDirectory way then .error .isDirectory
  else match fs.refusal? .write way with
    | some e => .error e
    | none =>
      match fs.device? way with
      | some device => .ok (.device device.writes)
      | none => .ok (.file way)

/-- What there is to write to where the path leads. -/
def destination (fs : Files) (path : String) : Except FileError Destination := do
  fs.destinationAt path (← fs.resolve path)

/-- The files after the file at the end of the way got this content, in place of the one it had. -/
def put (fs : Files) (way : List String) (content : ByteArray) : Files :=
  { fs with entries := (way, content) :: fs.entries.filter fun e => e.1 ≠ way }

end Files

end ModuleCompiler
