import Placeholder.Credential

/-!
# The identity of a machine

A machine or an application service vouches for what runs on it. The service of a machine is near,
so it is given little time.
-/
namespace Placeholder

structure ManagedIdentity where
  endpoint : String
  /-- The header by which an application service knows its own; none for a machine. -/
  header : Option String
  /-- One of several identities. -/
  client : Option String := none

namespace ManagedIdentity

def machineEndpoint : String := "http://169.254.169.254/metadata/identity/oauth2/token"

def machineLimit : Nat := 2000

def machine : ManagedIdentity := ⟨machineEndpoint, none, none⟩

def query (m : ManagedIdentity) : List (String × String) :=
  [("api-version", if m.header.isSome then "2019-08-01" else "2018-02-01"),
    ("resource", Credential.vaultResource)] ++
  (m.client.map fun c => ("client_id", c)).toList

def headers (m : ManagedIdentity) : List (String × String) :=
  match m.header with
  | some header => [("x-identity-header", header)]
  | none => [("metadata", "true")]

def request? (m : ManagedIdentity) : Option Http.Request :=
  (Url.ofText? m.endpoint).bind fun url => Http.Request.of? .get (url.addQuery m.query) m.headers ""

/-- The client with the limit that the service has. -/
def limited (m : ManagedIdentity) (client : Http.Client) : Http.Client :=
  if m.header.isSome then client else { client with limit := some machineLimit }

def name : String := "managed-identity"

def credential {ω : Type} (out : Outside ω) (m : ManagedIdentity) : Credential ω :=
  ⟨name, fun client w => Credential.ask out name (m.limited client) m.request? w⟩

end ManagedIdentity
end Placeholder
