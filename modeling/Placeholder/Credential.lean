import Placeholder.AccessToken
import Placeholder.Json.Syntax
import Placeholder.Outside
import Placeholder.Text
import Placeholder.Text.Blank
import Placeholder.Text.Decoding

/-!
# Credentials

A credential issues access tokens. Asking it may change the state `ω`. Token endpoints answer with
a JSON object, whose lifetime may be a number or text, a span or a time of day.
-/
namespace Placeholder

structure Credential (ω : Type) where
  name : String
  issue : Http.Client → ω → Except Failure AccessToken × ω

namespace Credential

variable {ω : Type}

def vaultResource : String := "https://vault.azure.net"

def vaultScope : String := vaultResource ++ "/.default"

def failed (reason : String) : Failure := .error (.credential reason)

/-! ## Answers of token endpoints -/

def seconds? : Json → Option Nat
  | .number (.natural n) => some n
  | .string s => Text.naturalBelow? UInt64.size s
  | _ => none

/-- The lifetime of a token: the span that the answer gives, else the time left until the end that
it gives, which is none for one in the past. -/
def lifetime? (epoch : Nat) (answer : Json) : Option Nat :=
  ((answer.member? "expires_in").bind seconds?).or
    (((answer.member? "expires_on").bind seconds?).map (· - epoch))

/-- The text of the token, under the first of its two names that is there. -/
def tokenText? (answer : Json) : Option String :=
  ((answer.member? "access_token").or (answer.member? "accessToken")).bind Json.text?

def tokenOf (name : String) (now epoch : Nat) (answer : Json) : Except Failure AccessToken :=
  match tokenText? answer with
  | none => .error (failed (name ++ " response has no access token"))
  | some text =>
    match AccessToken.issue now text (lifetime? epoch answer) with
    | .ok token => .ok token
    | .error crash => .error (.crash crash)

/-- The error for a response with a bad status. A status that asks to come back later is kept. -/
def refusal (name : String) (status : Nat) (text : String) : Failure :=
  if FetchError.retryableStatus status then
    .error (.http status (name ++ " token endpoint: " ++ text))
  else failed (name ++ " returned HTTP " ++ toString status ++ ": " ++ text)

def tokenOfResponse (out : Outside ω) (name : String) (client : Http.Client) (r : Http.Response)
    (w : ω) : Except Failure AccessToken × ω :=
  let (body, w) := out.body client r w
  if r.ok then
    match body.toOption.bind Json.ofBytes? with
    | none => (.error (failed (name ++ " returned malformed JSON: " ++ detail)), w)
    | some answer => (tokenOf name (out.now w) (out.epoch w) answer, w)
  else (.error (refusal name r.status (Text.trim ((body.toOption.map Text.ofBytes).getD ""))), w)

def ask (out : Outside ω) (name : String) (client : Http.Client) (q : Option Http.Request)
    (w : ω) : Except Failure AccessToken × ω :=
  match out.exchange client q w with
  | (.error fault, w) => (.error (.error (.transport fault)), w)
  | (.ok r, w) => tokenOfResponse out name client r w

/-! ## A token given beforehand -/

def ofToken (token : String) : Credential ω :=
  ⟨"static-token", fun _ w => (.ok ⟨token, none⟩, w)⟩

end Credential
end Placeholder
