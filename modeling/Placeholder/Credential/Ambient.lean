import Placeholder.Credential.AzureCli
import Placeholder.Credential.Chain
import Placeholder.Credential.ClientSecret
import Placeholder.Credential.ManagedIdentity
import Placeholder.Environment

/-!
# Credentials found in the environment

Which credentials a run tries, and in which order, follows from the variables of its environment.
An empty variable counts as unset.
-/
namespace Placeholder.Ambient

/-- The application that the environment names in full. -/
def clientSecret? (env : Environment) : Option ClientSecret :=
  (env.nonEmpty? "AZURE_TENANT_ID").bind fun tenant =>
  (env.nonEmpty? "AZURE_CLIENT_ID").bind fun client =>
  (env.nonEmpty? "AZURE_CLIENT_SECRET").map fun secret =>
    let c : ClientSecret := { tenant, client, secret }
    ((env.nonEmpty? "AZURE_AUTHORITY_HOST").map c.withAuthority).getD c

/-- The identity of the application service, if it is told of, else that of the machine. -/
def managedIdentity (env : Environment) : ManagedIdentity :=
  let m : ManagedIdentity :=
    match env.nonEmpty? "IDENTITY_ENDPOINT", env.nonEmpty? "IDENTITY_HEADER" with
    | some endpoint, some header => ⟨endpoint, some header, none⟩
    | _, _ => .machine
  { m with client := env.nonEmpty? "AZURE_CLIENT_ID" }

variable {ω : Type}

def sources (out : Outside ω) (env : Environment) : List (Credential ω) :=
  ((env.nonEmpty? "AZURE_ACCESS_TOKEN").map Credential.ofToken).toList ++
    ((clientSecret? env).map fun c => c.credential out).toList ++
    [(managedIdentity env).credential out, AzureCli.credential out "az"]

def credential (out : Outside ω) (memo : Cell ω Chain.Memo) (env : Environment) : Credential ω :=
  Chain.credential memo (sources out env)

end Placeholder.Ambient
