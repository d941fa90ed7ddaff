import Placeholder.Text

/-!
# Files

A tree of files as a run sees it: each file by its absolute path, and the directories that these
paths run through. Paths are walked one component after the other, as the system does, so that
each fault is the one the system tells of.

A special file, such as a device or a pipe, has a path like an ordinary one, but what is written to
it need not be what is read from it; some are the output of the run itself. Such a file is taken to
keep no run waiting, to give the same whenever it is read, to take bytes as a whole or not at all,
and to hold no other file. The output of a run is taken not to go to an ordinary file of the tree.
Links and permissions are not modelled.
-/
namespace Placeholder

inductive FileFault where
  | notFound
  | notDirectory
  | isDirectory
  | nameTooLong
  | notText
  | nulInName
  /-- What a special file may tell of beside these. -/
  | special (message : String)
  deriving DecidableEq, Repr

def FileFault.message : FileFault → String
  | notFound => "No such file or directory (os error 2)"
  | notDirectory => "Not a directory (os error 20)"
  | isDirectory => "Is a directory (os error 21)"
  | nameTooLong => "File name too long (os error 36)"
  | notText => "stream did not contain valid UTF-8"
  | nulInName => "file name contained an unexpected NUL byte"
  | special message => message

/-! ## Special files -/

/-- The two outputs of a run. -/
inductive Outlet where
  | stdout
  | stderr
  deriving DecidableEq, Repr

/-- A special file. The null device is the plainest: it gives nothing and takes everything. -/
structure Device where
  /-- What reading it to its end comes to. -/
  gives : Except FileFault ByteArray := .ok .empty
  /-- Why it does not take these bytes, if it does not. -/
  refuses : ByteArray → Option FileFault := fun _ => none
  /-- The output of the run that it is. -/
  outlet : Option Outlet := none
  /-- What has been written to it, in order. -/
  taken : List ByteArray := []

namespace Device

def handed (d : Device) (bytes : ByteArray) : Device := { d with taken := d.taken ++ [bytes] }

/-- A device without an end fills the memory of its reader. -/
def endless : Device where
  gives := .error (.special "out of memory")

def full : Device :=
  { endless with
    refuses := fun bytes =>
      if bytes.isEmpty then none else some (.special "No space left on device (os error 28)") }

/-- The special files that are there when nothing else is said. -/
def standard : List (List String × Device) :=
  [(["dev", "null"], {}), (["dev", "zero"], endless), (["dev", "full"], full),
    (["dev", "random"], endless), (["dev", "urandom"], endless)] ++
  [["dev", "stdout"], ["dev", "fd", "1"], ["proc", "self", "fd", "1"]].map
    (·, { outlet := some .stdout }) ++
  [["dev", "stderr"], ["dev", "fd", "2"], ["proc", "self", "fd", "2"]].map
    (·, { outlet := some .stderr })

end Device

/-- Files by absolute path, and the directory in which the run takes place. -/
structure Files where
  directory : List String
  contents : List (List String × ByteArray)
  /-- Directories that are there although no file needs them. -/
  directories : List (List String) := []
  devices : List (List String × Device) := Device.standard

namespace Files

inductive Entry where
  | file (bytes : ByteArray)
  | directory
  | device (d : Device)
  deriving Inhabited

/-- The directories of a path, from the root down. -/
def runsThrough (directory path : List String) : Bool := directory.isPrefixOf path

/-- The directories that a tree is known to have, apart from those above them. -/
def folders (fs : Files) : List (List String) :=
  fs.directory :: fs.directories ++ fs.devices.map (fun e => e.1.dropLast)
    ++ fs.contents.map fun e => e.1.dropLast

def entry? (fs : Files) (path : List String) : Option Entry :=
  match fs.devices.lookup path with
  | some d => some (.device d)
  | none =>
    match fs.contents.lookup path with
    | some bytes => some (.file bytes)
    | none => if fs.folders.any (runsThrough path) then some .directory else none

def components (path : String) : List String :=
  (Text.pieces (· == '/') path.toList).map String.ofList

/-- The longest component and the longest path, in bytes. -/
def maxComponent : Nat := 255

def maxPath : Nat := 4095

/-- Walks from a directory along components. The last one may be missing when `creating`. -/
def walk (fs : Files) (creating : Bool) : (here : List String) → List String →
    Except FileFault (List String)
  | here, [] => .ok here
  | here, c :: rest =>
    match fs.entry? here with
    | some .directory =>
      if c = "" || c = "." then walk fs creating here rest
      else if c = ".." then walk fs creating here.dropLast rest
      else if c.utf8ByteSize > maxComponent then .error .nameTooLong
      else
        let next := here ++ [c]
        match fs.entry? next with
        | some _ => walk fs creating next rest
        | none =>
          if creating && rest.isEmpty then .ok next
          else if creating && rest.all (· = "") then .error .isDirectory
          else .error .notFound
    | some _ => .error .notDirectory
    | none => .error .notFound

/-- The place that a path names, seen from the directory of the run. -/
def locate (fs : Files) (creating : Bool) (path : String) : Except FileFault (List String) :=
  if path.isEmpty then .error .notFound
  else if path.toList.contains '\x00' then .error .nulInName
  else if path.utf8ByteSize > maxPath then .error .nameTooLong
  else walk fs creating (if path.startsWith "/" then [] else fs.directory) (components path)

def read (fs : Files) (path : String) : Except FileFault ByteArray :=
  (fs.locate false path).bind fun place =>
    match fs.entry? place with
    | some (.file bytes) => .ok bytes
    | some (.device d) => d.gives
    | some .directory => .error .isDirectory
    | none => .error .notFound

def readText (fs : Files) (path : String) : Except FileFault String :=
  (fs.read path).bind fun bytes =>
    match String.fromUTF8? bytes with
    | some text => .ok text
    | none => .error .notText

def isFile (fs : Files) (path : String) : Bool :=
  match fs.locate false path with
  | .ok place =>
    match fs.entry? place with
    | some (.file _) => true
    | _ => false
  | .error _ => false

/-- Puts bytes at a place in place of those before. -/
def put (place : List String) (bytes : ByteArray) :
    List (List String × ByteArray) → List (List String × ByteArray)
  | [] => [(place, bytes)]
  | (p, b) :: rest => if p = place then (place, bytes) :: rest else (p, b) :: put place bytes rest

/-- Hands bytes to the special file at a place. -/
def hand (place : List String) (bytes : ByteArray) (devices : List (List String × Device)) :
    List (List String × Device) :=
  devices.map fun (p, d) => (p, if p = place then d.handed bytes else d)

def write (fs : Files) (path : String) (bytes : ByteArray) : Except FileFault Files :=
  (fs.locate true path).bind fun place =>
    match fs.entry? place with
    | some .directory => .error .isDirectory
    | some (.device d) =>
      match d.refuses bytes with
      | some fault => .error fault
      | none => .ok { fs with devices := hand place bytes fs.devices }
    | _ => .ok { fs with contents := put place bytes fs.contents }

/-- The output of the run to which bytes go that are written to a path. -/
def outlet? (fs : Files) (path : String) : Option Outlet :=
  match fs.locate true path with
  | .ok place =>
    match fs.entry? place with
    | some (.device d) => d.outlet
    | _ => none
  | .error _ => none

/-- The place that a path names when links are left aside. -/
def place (directory : List String) (path : String) : List String :=
  let step (here : List String) (c : String) : List String :=
    if c = "" || c = "." then here else if c = ".." then here.dropLast else here ++ [c]
  (components path).foldl step (if path.startsWith "/" then [] else directory)

/-- A place as a path. -/
def absolute (place : List String) : String := "/" ++ "/".intercalate place

def join (directory name : String) : String :=
  if directory.isEmpty || directory.endsWith "/" then directory ++ name
  else directory ++ "/" ++ name

end Files
end Placeholder
