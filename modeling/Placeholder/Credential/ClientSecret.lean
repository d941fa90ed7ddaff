import Placeholder.Credential

/-!
# The credential of an application

An application proves by a secret who it is and gets a token from its identity platform.
-/
namespace Placeholder

def ClientSecret.publicAuthority : String := "https://login.microsoftonline.com"

structure ClientSecret where
  authority : String := ClientSecret.publicAuthority
  tenant : String
  client : String
  secret : String

namespace ClientSecret

/-- The host of the identity platform, written without slashes at the end. -/
def withAuthority (c : ClientSecret) (host : String) : ClientSecret :=
  { c with authority := String.ofList (host.toList.reverse.dropWhile (· = '/')).reverse }

def address (c : ClientSecret) : String :=
  c.authority ++ "/" ++ c.tenant ++ "/oauth2/v2.0/token"

def form (c : ClientSecret) : List (String × String) :=
  [("grant_type", "client_credentials"), ("client_id", c.client), ("client_secret", c.secret),
    ("scope", Credential.vaultScope)]

def request? (c : ClientSecret) : Option Http.Request :=
  (Url.ofText? c.address).bind fun url =>
    Http.Request.of? .post url [("content-type", "application/x-www-form-urlencoded")]
      (Percent.form c.form)

def name : String := "client-secret"

def credential {ω : Type} (out : Outside ω) (c : ClientSecret) : Credential ω :=
  ⟨name, fun client w => Credential.ask out name client c.request? w⟩

end ClientSecret
end Placeholder
