import Placeholder.Credential.Ambient

/-!
# Blank variables

The chain of an environment is made from seven variables, and from an empty one it takes as little
as from an absent one. So environments that agree on these, up to blank ones, have the same chain:
`Ambient.sources_eq_of_agree`.
-/
namespace Placeholder

namespace Environment

/-- The variable is absent or empty. -/
def Blank (env : Environment) (name : String) : Prop :=
  env.get? name = none ∨ env.get? name = some ""

/-- The variable has the same value in both, or is blank in both. -/
def Agree (env env' : Environment) (name : String) : Prop :=
  env.get? name = env'.get? name ∨ env.Blank name ∧ env'.Blank name

theorem nonEmpty?_of_blank {env : Environment} {name : String} (h : env.Blank name) :
    env.nonEmpty? name = none := by
  rcases h with h | h
  · rw [nonEmpty?, h]
    rfl
  · rw [nonEmpty?, h]
    rfl

theorem Agree.nonEmpty?_eq {env env' : Environment} {name : String} (h : env.Agree env' name) :
    env.nonEmpty? name = env'.nonEmpty? name := by
  rcases h with h | ⟨hleft, hright⟩
  · rw [nonEmpty?, nonEmpty?, h]
  · rw [nonEmpty?_of_blank hleft, nonEmpty?_of_blank hright]

end Environment

namespace Ambient

/-- The variables from which a chain is made. -/
def variableNames : List String :=
  ["AZURE_ACCESS_TOKEN", "AZURE_TENANT_ID", "AZURE_CLIENT_ID", "AZURE_CLIENT_SECRET",
    "AZURE_AUTHORITY_HOST", "IDENTITY_ENDPOINT", "IDENTITY_HEADER"]

variable {ω : Type} {env env' : Environment}

theorem clientSecret?_eq_of_agree (h : ∀ name ∈ variableNames, env.Agree env' name) :
    clientSecret? env = clientSecret? env' := by
  have htenant := (h "AZURE_TENANT_ID" (by decide)).nonEmpty?_eq
  have hclient := (h "AZURE_CLIENT_ID" (by decide)).nonEmpty?_eq
  have hsecret := (h "AZURE_CLIENT_SECRET" (by decide)).nonEmpty?_eq
  have hauthority := (h "AZURE_AUTHORITY_HOST" (by decide)).nonEmpty?_eq
  rw [clientSecret?, htenant, hclient, hsecret, hauthority]
  rfl

theorem managedIdentity_eq_of_agree (h : ∀ name ∈ variableNames, env.Agree env' name) :
    managedIdentity env = managedIdentity env' := by
  have hclient := (h "AZURE_CLIENT_ID" (by decide)).nonEmpty?_eq
  have hendpoint := (h "IDENTITY_ENDPOINT" (by decide)).nonEmpty?_eq
  have hheader := (h "IDENTITY_HEADER" (by decide)).nonEmpty?_eq
  rw [managedIdentity, hclient, hendpoint, hheader]
  rfl

theorem sources_eq_of_agree (h : ∀ name ∈ variableNames, env.Agree env' name) (out : Outside ω) :
    sources out env = sources out env' := by
  have htoken := (h "AZURE_ACCESS_TOKEN" (by decide)).nonEmpty?_eq
  rw [sources, htoken, clientSecret?_eq_of_agree h, managedIdentity_eq_of_agree h]
  rfl

end Ambient
end Placeholder
