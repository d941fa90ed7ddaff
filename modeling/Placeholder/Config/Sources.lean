import Placeholder.Config.Settings
import Placeholder.Environment
import Placeholder.Vault

/-!
# The sources of a run

The settings say which source stands for which kind. `vars` and `secrets` are variables of the
environment under a lead, unless `vars` are to be the whole environment; `env` always is. Behind
`kv` stands a vault, when the settings name one.
-/
namespace Placeholder.Settings

variable {ω : Type}

def vault? (s : Settings) (out : Outside ω) (credential : Credential ω) :
    Except RunError (Option (Vault ω)) :=
  match s.vaultTarget with
  | .error e => .error e
  | .ok none => .ok none
  | .ok (some text) =>
    (Vault.address text).map fun url =>
      some
        { outside := out, url, credential, retry := { maxRetries := s.maxRetries }
          limit := s.timeoutSeconds * 1000 }

def varsTable (s : Settings) (env : Environment) : Table :=
  match s.varsSource with
  | .github => Table.ofLed s.varsLead env.entries
  | .env => env

/-- The variables behind `secrets`; they keep their lead in either mode. -/
def secretsTable (s : Settings) (env : Environment) : Table :=
  Table.ofLed s.secretsLead env.entries

/-- The registry of a run whose vault, if there is one, is given. -/
def registryWith (s : Settings) (env : Environment) (vault : Option (Source ω)) : Registry ω :=
  let fixed := ((Registry.empty.register .vars (.ofTable (s.varsTable env))).register .secrets
    (.ofTable (s.secretsTable env))).register .env (.ofTable env)
  match vault with
  | some source => fixed.register .kv source
  | none => fixed

def registry (s : Settings) (out : Outside ω) (cache : Cell ω Vault.Cache)
    (credential : Credential ω) (env : Environment) : Except RunError (Registry ω) :=
  (s.vault? out credential).map fun vault => s.registryWith env (vault.map (·.source cache))

end Placeholder.Settings
