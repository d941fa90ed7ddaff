import Placeholder.Credential
import Placeholder.Registry
import Placeholder.Retry
import Placeholder.RunError

/-!
# Vaults

A vault keeps secrets, each under an address of its own. A lookup is one request, made with a
bearer token and made again as `Retry` allows. Only the token is kept between lookups, and only as
long as it is fresh; a secret never is.
-/
namespace Placeholder

structure Vault (ω : Type) where
  outside : Outside ω
  url : Url
  credential : Credential ω
  retry : Retry
  /-- The time for each request, in milliseconds. -/
  limit : Nat

namespace Vault

def apiVersion : String := "7.4"

def version : String := "0.1.0"

/-- The time for making a connection, when there is no less for the whole request. -/
def connectLimit : Nat := 10000

def usualLimit : Nat := 30000

/-- The address of a vault. A name without a path cannot hold secrets. -/
def address (text : String) : Except RunError Url :=
  let refused := "Invalid Key Vault URL '" ++ text ++ "'"
  match Url.ofText? text with
  | none => .error (.config (refused ++ ": " ++ detail))
  | some url => if url.isName then .error (.config refused) else .ok url

def secretUrl (vault : Url) (name : String) : Url :=
  (vault.addSegments ["secrets", name]).addQuery [("api-version", apiVersion)]

def request? (vault : Url) (name bearer : String) : Option Http.Request :=
  Http.Request.of? .get (secretUrl vault name) [("authorization", "Bearer " ++ bearer)] ""

/-! ## Responses -/

/-- The message of an error in the form that vaults use: code and text, or the one that is there. -/
def errorMessage? (text : String) : Option String :=
  (Json.Syntax.ofBytes? text.toUTF8).bind fun s =>
  (s.fields? ["error"]).bind fun fields =>
  fields.head?.join.bind fun error =>
  (error.fields? ["code", "message"]).bind fun parts =>
  (parts.mapM Json.Syntax.optionalText?).map fun parts =>
    match parts with
    | [some code, some message] => code ++ ": " ++ message
    | [code, message] => (message.or code).getD ""
    | _ => ""

/-- The message of an error: in the form of vaults, else the whole text. -/
def errorText (text : String) : String := (errorMessage? text).getD (Text.trim text)

/-- The value in a secret bundle; none within when the bundle has no value. -/
def bundleValue? (body : ByteArray) : Option (Option String) :=
  (Json.Syntax.ofBytes? body).bind fun s =>
  (s.fields? ["value"]).bind fun fields => Json.Syntax.optionalText? fields.head?.join

/-- What a body says that came with a good status. -/
def valueOf (body : ByteArray) : Except FetchError (Option String) :=
  match bundleValue? body with
  | none => .error (.invalidResponse detail)
  | some none => .error (.invalidResponse "secret bundle has no 'value' field")
  | some (some value) => .ok (some value)

variable {ω : Type}

def client (v : Vault ω) : Http.Client :=
  { agent := some ("manifest-subst/" ++ version), limit := some v.limit
    connectLimit := some (min connectLimit v.limit) }

/-- The error for a limit that ran out. The time is told in a word of 64 bits. -/
def timedOut (v : Vault ω) : FetchError := .timeout (v.limit % UInt64.size)

/-- An error of an exchange, with a limit that ran out told as such. -/
def timed (v : Vault ω) : FetchError → FetchError
  | .transport .timeout => v.timedOut
  | .transport .connectTimeout => v.timedOut
  | e => e

def answer (v : Vault ω) (r : Http.Response) (w : ω) : Answer × ω :=
  if r.status = 404 then (.ok none, w)
  else
    let (body, w) := v.outside.body v.client r w
    if r.ok then
      match body with
      | .error .timeout => (.error (.error v.timedOut), w)
      | .error _ => (.error (.error (.invalidResponse detail)), w)
      | .ok bytes =>
        match valueOf bytes with
        | .ok value => (.ok value, w)
        | .error e => (.error (.error e), w)
    else (.error (.error (.http r.status (errorText ((body.toOption.map Text.ofBytes).getD "")))), w)

def fetch (v : Vault ω) (name bearer : String) (w : ω) : Answer × ω :=
  match v.outside.exchange v.client (request? v.url name bearer) w with
  | (.error fault, w) => (.error (.error (v.timed (.transport fault))), w)
  | (.ok r, w) => v.answer r w

/-! ## Lookups -/

/-- The token kept from an earlier lookup. -/
abbrev Cache := Option AccessToken

/-- A fresh token: the kept one, else a new one, which is then kept. -/
def bearer (v : Vault ω) : Cache × ω → Except Failure String × Cache × ω
  | (cache, w) =>
    match cache.filter fun t => t.freshAt (v.outside.now w) with
    | some t => (.ok t.text, cache, w)
    | none =>
      match v.credential.issue v.client w with
      | (.ok t, w) => (.ok t.text, some t, w)
      | (.error (.error e), w) => (.error (.error (v.timed e)), cache, w)
      | (.error (.crash c), w) => (.error (.crash c), cache, w)

/-- One attempt: a token, and then one request. -/
def attempt (v : Vault ω) (name : String) (s : Cache × ω) : Answer × Cache × ω :=
  match v.bearer s with
  | (.error f, s) => (.error f, s)
  | (.ok bearer, cache, w) =>
    match v.fetch name bearer w with
    | (answer, w) => (answer, cache, w)

def lookup (v : Vault ω) (name : String) (s : Cache × ω) : Answer × Cache × ω :=
  v.retry.run (fun ms (cache, w) => (cache, v.outside.pause ms w)) (v.attempt name) s

/-- The vault as a source that keeps its token in a part of the state. -/
def source (v : Vault ω) (cache : Cell ω Cache) : Source ω :=
  ⟨"keyvault", fun name => cache.step (v.lookup name)⟩

end Vault
end Placeholder
