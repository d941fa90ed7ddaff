import Placeholder.Config.Discovery
import Placeholder.Config.Sources
import Placeholder.Credential.Ambient
import Placeholder.Environment.Assignments
import Placeholder.Program.Arguments
import Placeholder.Program.Listing

/-!
# Runs of the program

A run goes through its stages in a fixed order: it finds the config file, builds the registry,
reads the template, renders it, and only then puts anything out. A stage that fails ends the run,
so nothing of a template is put out unless all of it could be rendered. What the program logs while
it works is not modelled.
-/
namespace Placeholder

namespace Program

structure Start where
  words : List String
  environ : List (ByteArray × ByteArray)
  files : Files
  /-- The home directory that the system keeps for the account. -/
  accountHome : Option String := none

structure Finish where
  exit : Nat := 0
  stdout : String := ""
  stderr : String := ""
  files : Files

/-- What a run keeps in mind beside what lies outside of it. -/
structure Memory (ω : Type) where
  cache : Vault.Cache := none
  memo : Chain.Memo := none
  outside : ω

namespace Memory

variable {ω : Type}

def cacheCell : Cell (Memory ω) Vault.Cache := ⟨cache, fun a m => { m with cache := a }⟩

def memoCell : Cell (Memory ω) Chain.Memo := ⟨memo, fun a m => { m with memo := a }⟩

def outsideCell : Cell (Memory ω) ω := ⟨outside, fun a m => { m with outside := a }⟩

end Memory

end Program

/-- The registry of a run in a world. -/
def Settings.ambient {ω : Type} (s : Settings) (out : Outside ω) (env : Environment) :
    Except RunError (Registry (Program.Memory ω)) :=
  s.registry (out.within Program.Memory.outsideCell) Program.Memory.cacheCell
    (Ambient.credential (out.within Program.Memory.outsideCell) Program.Memory.memoCell env) env

namespace Program

def versionText : String := "manifest-subst " ++ Vault.version ++ "\n"

/-- The environment of a run: its variables, and those of the file near its directory. -/
def Start.environment (s : Start) : Environment :=
  Assignments.loadNearest s.files (Environment.ofBytes s.environ)

/-- Texts are painted when the environment insists on it; the run never writes to a terminal. -/
def colours (env : Environment) : Bool := (env.get? "CLICOLOR_FORCE").any (· ≠ "0")

/-- The directories in which a run looks for the file of the user. -/
def userDirectories (s : Start) : ConfigFile.UserDirectories :=
  .ofEnvironment s.environment s.accountHome

/-- The config file of a run. -/
def config (s : Start) (o : ProcessOptions) : Except RunError (Option String × ConfigFile) :=
  ConfigFile.discover s.files (userDirectories s) o.config

/-- The settings of a run. -/
def settings (s : Start) (o : ProcessOptions) : Except RunError Settings :=
  (config s o).map fun found => Settings.resolve found.2 o.environment o.layer

variable {ω : Type}

def registry (out : Outside ω) (s : Start) (o : ProcessOptions) :
    Except RunError (Registry (Memory ω)) :=
  (settings s o).bind fun t => t.ambient out s.environment

def template (s : Start) (file : String) : Except RunError String :=
  match s.files.readText file with
  | .ok text => .ok text
  | .error fault => .error (.io fault.message)

/-- All stages before the first output. -/
def rendering (out : Outside ω) (s : Start) (o : ProcessOptions) (m : Memory ω) :
    Except Stop Rendering × Memory ω :=
  match registry out s o with
  | .error e => (.error (.error e), m)
  | .ok registry =>
    match template s o.input with
    | .error e => (.error (.error e), m)
    | .ok template => registry.render template m

def errorText (colours : Bool) (e : RunError) : String :=
  line (paint colours .boldRed "Error:" ++ " " ++ e.message) ++
    match e.advice? with
    | some advice => line ("  " ++ paint colours .yellow "Fix:" ++ " " ++ advice)
    | none => ""

/-- The end of a run by an error; the files stay as they were. -/
def failed (colours : Bool) (s : Start) (said : String) (e : RunError) : Finish :=
  { exit := 1, stderr := said ++ errorText colours e, files := s.files }

def crashed (s : Start) (c : Crash) : Finish :=
  { exit := 101, stderr := line c.message, files := s.files }

def successText (colours : Bool) (input output : String) : String :=
  line (paint colours .green "✓" ++ " Successfully processed '" ++ input ++ "' to '" ++ output
    ++ "'")

/-- Puts a rendered template out: to a file, or else as the output of the run. The file may be an
output of the run itself, and then the text shows there before what is said of it. -/
def putOut (colours : Bool) (s : Start) (o : ProcessOptions) (r : Rendering) : Finish :=
  let said := if o.report then report colours r else ""
  match o.output with
  | none => { stdout := r.output, stderr := said, files := s.files }
  | some path =>
    match s.files.write path r.output.toUTF8 with
    | .error fault => failed colours s said (.io fault.message)
    | .ok files =>
      let shown (outlet : Outlet) := if s.files.outlet? path = some outlet then r.output else ""
      { stdout := shown .stdout ++ successText colours o.input path
        stderr := said ++ shown .stderr, files }

def process (out : Outside ω) (s : Start) (o : ProcessOptions) (w : ω) : Finish × ω :=
  let env := s.environment
  let (result, m) := rendering out s o { outside := w }
  let finish :=
    match result with
    | .ok r => putOut (colours env) s o r
    | .error (.error e) => failed (colours env) s "" e
    | .error (.crash c) => crashed s c
  (finish, m.outside)

def scan (s : Start) (file : String) : Finish :=
  let colours := colours s.environment
  match template s file with
  | .ok template => { stdout := listing colours file template, files := s.files }
  | .error e => failed colours s "" e

/-- Runs the program; an ending in place of a finish when no command is given. -/
def run (out : Outside ω) (s : Start) (w : ω) : Except Ending Finish × ω :=
  match Command.ofWords s.words with
  | .error ending => (.error ending, w)
  | .ok (.scan file) => (.ok (scan s file), w)
  | .ok (.process o) =>
    let (finish, w) := process out s o w
    (.ok finish, w)

/-- The paths that a run is told to read, whatever is there. -/
def Start.inputs (s : Start) : List String :=
  match Command.ofWords s.words with
  | .ok (.process o) => o.input :: o.config.toList
  | .ok (.scan file) => [file]
  | .error _ => []

/-- The path that a run is told to write. -/
def Start.output? (s : Start) : Option String :=
  match Command.ofWords s.words with
  | .ok (.process o) => o.output
  | _ => none

/-- The other paths that a run may read or write, once the files of variables are known. -/
def Start.others (s : Start) : List String :=
  [ConfigFile.localPath, ConfigFile.userPath (userDirectories s)] ++ s.output?.toList

/-! ## Help -/

def helpText : String :=
  String.join (List.map line
    ["Substitute placeholders in deployment manifests", "",
      "Usage: manifest-subst [-v | -q] process -i <FILE> [OPTIONS]",
      "       manifest-subst [-v | -q] scan <FILE>", "",
      "  -i, --input <FILE>             Template to read",
      "  -o, --output <FILE>            File to write in place of the standard output",
      "  -e, --environment <NAME>       Section of the config file to apply",
      "  -c, --config <FILE>            Config file to use",
      "      --vars-source <SOURCE>     Where vars come from: github, env",
      "      --secrets-source <SOURCE>  Where secrets come from: github, env",
      "      --kv-source <SOURCE>       What stands behind kv: azure-keyvault, none",
      "      --keyvault-name <NAME>     Name of the vault",
      "      --keyvault-url <URL>       Address of the vault, in place of its name",
      "      --timeout <SECONDS>        Time for each request to the vault, at least 1",
      "      --max-retries <N>          How often a request may be made again",
      "      --report                   Tell what became of each placeholder"])

end Program
end Placeholder
