import Placeholder.Kind
import Placeholder.FetchError

/-!
# Errors of a run

The causes for which a run ends with an error. Each has a code, a message and, as a rule, advice.
The first three abort a substitution; the others arise before it or around it.
-/
namespace Placeholder

inductive RunError where
  /-- A required token names a kind that has no source. -/
  | unconfigured (kind : Kind) (name : String)
  /-- A required token has no value. -/
  | missing (kind : Kind) (name : String)
  /-- The source of a required token failed. -/
  | fetch (kind : Kind) (name : String) (cause : FetchError)
  | config (reason : String)
  | vaultName (name reason : String)
  | httpClient (reason : String)
  | io (reason : String)
  deriving DecidableEq, Repr

namespace RunError

def label : RunError → String
  | unconfigured .. => "UnconfiguredSource"
  | missing .. => "MissingVariable"
  | fetch .. => "FetchFailure"
  | config _ => "ConfigError"
  | vaultName .. => "InvalidVaultName"
  | httpClient _ => "HttpClient"
  | io _ => "Io"

def code : RunError → String
  | unconfigured .. => "SUBST-001"
  | missing .. => "SUBST-002"
  | fetch .. => "SUBST-003"
  | config _ => "SUBST-010"
  | vaultName .. => "SUBST-011"
  | httpClient _ => "SUBST-012"
  | io _ => "SUBST-020"

def message (e : RunError) : String :=
  "[" ++ e.code ++ "] " ++
  match e with
  | unconfigured kind name =>
    "Source '" ++ kind.name ++ "' not configured but required for '" ++ name ++ "'"
  | missing kind name =>
    "Required variable '" ++ name ++ "' from source '" ++ kind.name ++ "' is missing"
  | fetch kind name cause =>
    "Failed to retrieve required " ++ kind.name ++ " value '" ++ name ++ "': " ++ cause.message
  | config reason => "Configuration error: " ++ reason
  | vaultName name reason => "Invalid Key Vault name '" ++ name ++ "': " ++ reason
  | httpClient reason => "Failed to build HTTP client: " ++ reason
  | io reason => "IO error: " ++ reason

def abort : RunError → Bool
  | unconfigured .. => true
  | missing .. => true
  | fetch .. => true
  | _ => false

def advice? : RunError → Option String
  | unconfigured .kv _ => some "Pass --keyvault-name (and keep --kv-source azure-keyvault)"
  | unconfigured _ _ => some "Check the --vars-source / --secrets-source settings"
  | missing .vars _ => some "Export VARS_<NAME> (github mode) or <NAME> (env mode)"
  | missing .secrets _ => some "Export SECRETS_<NAME> in the job environment"
  | missing .kv _ => some "Create the secret in the Key Vault"
  | missing .env _ => some "Export the environment variable before running"
  | fetch .. => some "Check network access to the vault and that the identity can read secrets"
  | config _ => some "Check the TOML syntax of the config file"
  | vaultName .. =>
    some "Vault names are 3-24 chars: letters, digits and hyphens, starting with a letter"
  | httpClient _ => none
  | io _ => some "Check file path and permissions"

/-- The name under which a diagnostic lists the error. -/
def diagnosticCode : RunError → String
  | unconfigured .. => "subst::unconfigured_source"
  | missing .. => "subst::missing_variable"
  | fetch .. => "subst::fetch_failure"
  | config _ => "subst::config_error"
  | vaultName .. => "subst::invalid_vault_name"
  | httpClient _ => "subst::http_client"
  | io _ => "subst::io_error"

/-- What a diagnostic adds to the message. -/
def help? : RunError → Option String
  | unconfigured .. =>
    some "Configure the source (e.g. --keyvault-name for kv) or drop the '!' marker"
  | missing .. =>
    some "Define the variable in the source, or give it a default (NAME:value) instead of '!'"
  | fetch .. => some "Check vault name, network access and credentials"
  | _ => none

def cause? : RunError → Option String
  | fetch _ _ cause => some cause.message
  | io reason => some reason
  | _ => none

end RunError
end Placeholder
