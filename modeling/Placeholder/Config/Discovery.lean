import Placeholder.Config.ConfigFile
import Placeholder.Environment
import Placeholder.Files

/-!
# Finding the config file

A path that is given must name a readable config file. Without one, the file in the directory of
the run is taken if there is one, else the file of the user, else the empty config.
-/
namespace Placeholder.ConfigFile

def localPath : String := "manifest-subst.toml"

/-- What tells where the files of a user are. -/
structure UserDirectories where
  configHome : Option String
  home : Option String
  /-- The home directory that the system keeps for the account. -/
  accountHome : Option String

def UserDirectories.ofEnvironment (env : Environment) (accountHome : Option String) :
    UserDirectories :=
  { configHome := env.get? "XDG_CONFIG_HOME", home := env.get? "HOME", accountHome }

/-- The directory for the user's settings: the one named for it, if its path is absolute, else
`.config` at home. -/
def UserDirectories.config? (u : UserDirectories) : Option String :=
  (u.configHome.filter fun path => path.startsWith "/").or
    (((u.home.filter fun path => !path.isEmpty).or u.accountHome).map fun home =>
      Files.join home ".config")

def userPath (u : UserDirectories) : String :=
  Files.join (Files.join (u.config?.getD ".") "manifest-subst") "config.toml"

def load (fs : Files) (path : String) : Except RunError ConfigFile :=
  match fs.readText path with
  | .ok text => parse text
  | .error fault =>
    .error (.config ("Failed to read config file '" ++ path ++ "': " ++ fault.message))

def discover (fs : Files) (u : UserDirectories) (given : Option String) :
    Except RunError (Option String × ConfigFile) :=
  let candidate := given.or ([localPath, userPath u].find? fs.isFile)
  match candidate with
  | some path => (load fs path).map fun c => (some path, c)
  | none => .ok (none, {})

end Placeholder.ConfigFile
