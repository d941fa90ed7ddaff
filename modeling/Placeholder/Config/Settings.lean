import Placeholder.Config.ConfigFile
import Placeholder.Vault.Name

/-!
# Settings of a run

The layers of a run are, from the top: the command line, the chosen environment and the defaults
of the config file. What no layer sets has a value of its own. An empty vault name or address
counts as unset, but hides what lies below it.
-/
namespace Placeholder

structure Settings where
  environment : Option String
  varsSource : SourceMode
  secretsSource : SourceMode
  vaultSource : VaultMode
  vaultName : Option String
  vaultUrl : Option String
  varsLead : String
  secretsLead : String
  timeoutSeconds : Nat
  maxRetries : Nat
  deriving DecidableEq, Repr

namespace Settings

def defaultVarsLead : String := "VARS_"

def defaultSecretsLead : String := "SECRETS_"

def defaultTimeoutSeconds : Nat := 30

def defaultMaxRetries : Nat := 2

def nonEmpty (s : String) : Bool := !s.isEmpty

/-- The layer of the chosen environment; one without a section sets nothing. -/
def environmentLayer (file : ConfigFile) (environment : Option String) : Layer :=
  ((environment.bind file.environment?)).getD {}

/-- The layers of a run laid over each other. -/
def layered (file : ConfigFile) (environment : Option String) (cli : Layer) : Layer :=
  cli.above ((environmentLayer file environment).above file.defaults)

/-- The settings that a layer gives. A timeout of zero would end every request, so it is one. -/
def ofLayer (environment : Option String) (l : Layer) : Settings where
  environment
  varsSource := l.varsSource.getD .github
  secretsSource := l.secretsSource.getD .github
  vaultSource := l.vaultSource.getD .azureKeyvault
  vaultName := l.vaultName.filter nonEmpty
  vaultUrl := l.vaultUrl.filter nonEmpty
  varsLead := l.varsLead.getD defaultVarsLead
  secretsLead := l.secretsLead.getD defaultSecretsLead
  timeoutSeconds := (l.timeoutSeconds.map fun s => max s 1).getD defaultTimeoutSeconds
  maxRetries := l.maxRetries.getD defaultMaxRetries

def resolve (file : ConfigFile) (environment : Option String) (cli : Layer) : Settings :=
  ofLayer environment (layered file environment cli)

/-- The address of the vault behind `kv`, if one is wanted and named. An address wins over a name,
and a name is checked. -/
def vaultTarget (s : Settings) : Except RunError (Option String) :=
  match s.vaultSource, s.vaultUrl, s.vaultName with
  | .none, _, _ => .ok none
  | .azureKeyvault, some url, _ => .ok (some url)
  | .azureKeyvault, none, some name => (Vault.Name.url name).map some
  | .azureKeyvault, none, none => .ok none

end Settings
end Placeholder
