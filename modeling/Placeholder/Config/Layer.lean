import Placeholder.Json
import Placeholder.Toml

/-!
# Layers of settings

A layer sets some of the nine settings and leaves the others to the layers below it. Layers come
from TOML and from JSON values; both are first seen as a `Layer.Entry`, so the two formats obey
the same rules. `Layer.above_assoc` says that layers may be grouped at will.
-/
namespace Placeholder

/-- Where vars and secrets come from. -/
inductive SourceMode where
  /-- Variables with a lead, exported by a job. -/
  | github
  /-- The whole environment. -/
  | env
  deriving DecidableEq, Repr

def SourceMode.name : SourceMode → String
  | github => "github"
  | env => "env"

def SourceMode.ofName? (s : String) : Option SourceMode :=
  [github, env].find? fun m => m.name == s

inductive VaultMode where
  | azureKeyvault
  | none
  deriving DecidableEq, Repr

def VaultMode.name : VaultMode → String
  | azureKeyvault => "azure-keyvault"
  | none => "none"

def VaultMode.ofName? (s : String) : Option VaultMode :=
  [azureKeyvault, none].find? fun m => m.name == s

/-- The settings of one layer; an unset one is left to the layer below. -/
structure Layer where
  varsSource : Option SourceMode := none
  secretsSource : Option SourceMode := none
  vaultSource : Option VaultMode := none
  vaultName : Option String := none
  vaultUrl : Option String := none
  varsLead : Option String := none
  secretsLead : Option String := none
  timeoutSeconds : Option Nat := none
  maxRetries : Option Nat := none
  deriving DecidableEq, Repr

namespace Layer

/-- The layer `upper` laid over `lower`: what `upper` sets counts. -/
def above (upper lower : Layer) : Layer where
  varsSource := upper.varsSource.or lower.varsSource
  secretsSource := upper.secretsSource.or lower.secretsSource
  vaultSource := upper.vaultSource.or lower.vaultSource
  vaultName := upper.vaultName.or lower.vaultName
  vaultUrl := upper.vaultUrl.or lower.vaultUrl
  varsLead := upper.varsLead.or lower.varsLead
  secretsLead := upper.secretsLead.or lower.secretsLead
  timeoutSeconds := upper.timeoutSeconds.or lower.timeoutSeconds
  maxRetries := upper.maxRetries.or lower.maxRetries

theorem above_assoc (a b c : Layer) : (a.above b).above c = a.above (b.above c) := by
  simp [above, Option.or_assoc]

@[simp] theorem above_empty (a : Layer) : a.above {} = a := by simp [above]

@[simp] theorem empty_above (a : Layer) : ({} : Layer).above a = a := by simp [above]

/-! ## Reading -/

/-- A value of a document as a setting sees it. -/
inductive Entry where
  | unset
  | text (s : String)
  | natural (n : Nat)
  /-- A name with nothing under it, another spelling of a choice. -/
  | choice (name : String)
  | other
  deriving DecidableEq, Repr

namespace Entry

def ofToml : Toml → Entry
  | .string s => text s
  | .integer n => if 0 ≤ n then natural n.toNat else other
  | .table [(name, .table [])] => choice name
  | .table [(name, .array [])] => choice name
  | _ => other

def ofJson : Json → Entry
  | .null => unset
  | .string s => text s
  | .number (.natural n) => natural n
  | .object [(name, .null)] => choice name
  | _ => other

/-- One of several choices by name. -/
def choice? {α : Type} (ofName? : String → Option α) : Entry → Option (Option α)
  | unset => some none
  | text s => (ofName? s).map some
  | choice s => (ofName? s).map some
  | _ => none

def text? : Entry → Option (Option String)
  | unset => some none
  | text s => some (some s)
  | _ => none

/-- A number below a limit. -/
def below? (limit : Nat) : Entry → Option (Option Nat)
  | unset => some none
  | natural n => if n < limit then some (some n) else none
  | _ => none

end Entry

def names : List String :=
  ["vars_source", "secrets_source", "kv_source", "keyvault_name", "keyvault_url", "vars_prefix",
    "secrets_prefix", "timeout_secs", "max_retries"]

/-- A layer from named entries; none when one of them has the wrong form. Other names are passed
over. -/
def ofEntries? (entries : List (String × Entry)) : Option Layer :=
  let entry (name : String) : Entry := (entries.lookup name).getD .unset
  ((entry "vars_source").choice? SourceMode.ofName?).bind fun varsSource =>
  ((entry "secrets_source").choice? SourceMode.ofName?).bind fun secretsSource =>
  ((entry "kv_source").choice? VaultMode.ofName?).bind fun vaultSource =>
  (entry "keyvault_name").text?.bind fun vaultName =>
  (entry "keyvault_url").text?.bind fun vaultUrl =>
  (entry "vars_prefix").text?.bind fun varsLead =>
  (entry "secrets_prefix").text?.bind fun secretsLead =>
  ((entry "timeout_secs").below? UInt64.size).bind fun timeoutSeconds =>
  ((entry "max_retries").below? UInt32.size).map fun maxRetries =>
    { varsSource, secretsSource, vaultSource, vaultName, vaultUrl, varsLead, secretsLead,
      timeoutSeconds, maxRetries }

/-- A layer from entries in the order of `names`. -/
def ofItems? (items : List Entry) : Option Layer := ofEntries? (names.zip items)

/-- A layer from a table, from an array that starts with the nine settings in order, or from a
date, which sets nothing. -/
def ofToml? : Toml → Option Layer
  | .table members => ofEntries? (members.map fun (name, v) => (name, Entry.ofToml v))
  | .array items =>
    if items.length < names.length then none else ofItems? (items.map Entry.ofToml)
  | .datetime => some {}
  | _ => none

/-- A layer from an object or from an array of the nine settings in order. -/
def ofJson? : Json → Option Layer
  | .object members => ofEntries? (members.map fun (name, v) => (name, Entry.ofJson v))
  | .array items =>
    if items.length = names.length then ofItems? (items.map Entry.ofJson) else none
  | _ => none

end Layer
end Placeholder
