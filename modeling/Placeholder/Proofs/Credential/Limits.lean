import Placeholder.Credential.AzureCli
import Placeholder.Credential.ClientSecret
import Placeholder.Credential.ManagedIdentity
import Placeholder.Proofs.Credential.Exhaustion

/-!
# Limits that run out for a token

Who is asked for a token may fail because a limit runs out: the one that a client sets for a
request or for a connection, a shorter one that a request has of its own, or one that a credential
tells of itself (`Issuer.RunsOut`). No other error tells of a limit: a response that has begun to
arrive is refused for what it says, and a chain only passes on a status or sums up its failures.
-/
namespace Placeholder

/-- A limit that ran out, in milliseconds. -/
inductive Expiry where
  /-- The time for a request. -/
  | request (limit : Nat)
  /-- The time for making a connection. -/
  | connection (limit : Nat)
  /-- A limit that a credential tells in words of its own. -/
  | stated (limit : Nat)
  deriving DecidableEq, Repr

def Expiry.limit : Expiry → Nat
  | request limit => limit
  | connection limit => limit
  | stated limit => limit

/-- The limit of a client that has run out when one of its requests ends by this fault. -/
def Http.Client.expiry? (client : Http.Client) : TransportFault → Option Expiry
  | .timeout => client.limit.map .request
  | .connectTimeout => client.connectLimit.map .connection
  | .connect => none
  | .other => none

/-- The client with a limit that a request sets for itself. -/
def Http.Client.withOwn (client : Http.Client) (own : Option Nat) : Http.Client :=
  { client with limit := own.or client.limit }

theorem Http.Client.withOwn_none (client : Http.Client) : client.withOwn none = client := rfl

/-- The limit that a managed identity sets for its request. -/
def ManagedIdentity.own? (m : ManagedIdentity) : Option Nat :=
  if m.header.isSome then none else some machineLimit

theorem ManagedIdentity.limited_eq (m : ManagedIdentity) (client : Http.Client) :
    m.limited client = client.withOwn m.own? := by
  unfold limited own?
  split
  · rfl
  · rfl

variable {ω : Type}

/-! ## Issuers -/

/-- Who issues tokens. -/
inductive Issuer (ω : Type) where
  | given (token : String)
  | application (c : ClientSecret)
  | identity (m : ManagedIdentity)
  | tool (program : String)
  | chain (memo : Cell ω Chain.Memo) (sources : List (Credential ω))
  /-- Any other credential, with the limit that it sets for its requests, if it sets one. -/
  | other (c : Credential ω) (own : Option Nat)

namespace Issuer

def credential (out : Outside ω) : Issuer ω → Credential ω
  | given token => Credential.ofToken token
  | application c => c.credential out
  | identity m => m.credential out
  | tool program => AzureCli.credential out program
  | chain memo sources => Chain.credential memo sources
  | other c _ => c

/-- Asked in this state, an issuer fails because this limit runs out before a response has begun. -/
inductive RunsOut (out : Outside ω) (client : Http.Client) (w : ω) : Issuer ω → Expiry → Prop
  | application {c : ClientSecret} {fault : TransportFault} {e : Expiry}
      (hx : (out.exchange client c.request? w).1 = .error fault)
      (he : client.expiry? fault = some e) : RunsOut out client w (.application c) e
  | identity {m : ManagedIdentity} {fault : TransportFault} {e : Expiry}
      (hx : (out.exchange (m.limited client) m.request? w).1 = .error fault)
      (he : (m.limited client).expiry? fault = some e) : RunsOut out client w (.identity m) e
  | tool {program : String}
      (hx : (out.command program AzureCli.arguments w).1 = .error .timeout) :
      RunsOut out client w (.tool program) (.stated AzureCli.limit)
  | requested {c : Credential ω} {own : Option Nat} {fault : TransportFault} {e : Expiry}
      (hx : (c.issue client w).1 = .error (.error (.transport fault)))
      (he : (client.withOwn own).expiry? fault = some e) : RunsOut out client w (.other c own) e
  | stated {c : Credential ω} {own : Option Nat} {limit : Nat}
      (hx : (c.issue client w).1 = .error (.error (.timeout limit))) :
      RunsOut out client w (.other c own) (.stated limit)

theorem RunsOut.unique {out : Outside ω} {client : Http.Client} {w : ω} {issuer : Issuer ω}
    {e e' : Expiry} (h : issuer.RunsOut out client w e) (h' : issuer.RunsOut out client w e') :
    e = e' := by
  cases h with
  | application hx he =>
      cases h' with
      | application hx' he' =>
          cases hx.symm.trans hx'
          exact Option.some.inj (he.symm.trans he')
  | identity hx he =>
      cases h' with
      | identity hx' he' =>
          cases hx.symm.trans hx'
          exact Option.some.inj (he.symm.trans he')
  | tool hx =>
      cases h' with
      | tool hx' => rfl
  | requested hx he =>
      cases h' with
      | requested hx' he' =>
          cases hx.symm.trans hx'
          exact Option.some.inj (he.symm.trans he')
      | stated hx' => cases hx.symm.trans hx'
  | stated hx =>
      cases h' with
      | requested hx' he' => cases hx.symm.trans hx'
      | stated hx' =>
          cases hx.symm.trans hx'
          rfl

end Issuer

/-! ## Errors that tell of no limit -/

/-- An error that tells of no limit: a status, or why a credential has failed. -/
inductive FetchError.Untimed : FetchError → Prop
  | http (status : Nat) (message : String) : Untimed (.http status message)
  | credential (reason : String) : Untimed (.credential reason)

section Untimed

variable {out : Outside ω} {client : Http.Client} {name : String} {w : ω} {e : FetchError}

theorem Credential.untimed_refusal {status : Nat} {text : String}
    (h : refusal name status text = .error e) : e.Untimed := by
  unfold refusal failed at h
  split at h
  · cases h
    exact .http _ _
  · cases h
    exact .credential _

theorem Credential.untimed_tokenOf {now epoch : Nat} {answer : Json}
    (h : tokenOf name now epoch answer = .error (.error e)) : e.Untimed := by
  unfold tokenOf failed at h
  split at h
  · cases h
    exact .credential _
  · split at h
    · cases h
    · cases h

theorem Credential.untimed_tokenOfResponse {r : Http.Response}
    (h : (tokenOfResponse out name client r w).1 = .error (.error e)) : e.Untimed := by
  obtain ⟨body, w', hread⟩ : ∃ body w', out.body client r w = (body, w') := ⟨_, _, rfl⟩
  simp only [tokenOfResponse, hread] at h
  split at h
  · split at h
    · cases h
      exact .credential _
    · exact untimed_tokenOf h
  · exact untimed_refusal (Except.error.inj h)

theorem AzureCli.untimed_tokenOfOutput {program : String} {now epoch : Nat} {o : CommandOutput}
    (h : tokenOfOutput program now epoch o = .error (.error e)) : e.Untimed := by
  unfold tokenOfOutput at h
  split at h
  · split at h
    · exact Credential.untimed_tokenOf h
    · cases h
      exact .credential _
  · cases h
    exact .credential _

theorem Chain.untimed_issue {sources : List (Credential ω)} {s : Chain.Memo × ω}
    (h : (issue sources client s).1 = .error (.error e)) : e.Untimed := by
  obtain ⟨memo, w⟩ := s
  cases memo with
  | some why =>
      cases h
      exact .credential why
  | none =>
      obtain ⟨asked, x, memo, w', hcall⟩ := call_total sources client w
      rw [hcall.issue_eq] at h
      cases hcall with
      | issued hs hf hc => cases h
      | crashed hs hf hc => cases h
      | throttled hf hb he =>
          cases h
          cases e with
          | http status message => exact .http status message
          | _ => cases he
      | exhausted hf hn =>
          cases h
          exact .credential _

end Untimed

end Placeholder
