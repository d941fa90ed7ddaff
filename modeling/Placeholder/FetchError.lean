/-!
# Failures of a lookup

A source may fail to answer. `FetchError` gives the cause, `FetchError.message` its only wording.
What other software says about a failure is never quoted: it stands as `<detail>` in messages.
A `Crash` is no answer at all: it ends the whole run.
-/
namespace Placeholder

/-- Stands in messages for words of other software. -/
def detail : String := "<detail>"

/-- Why an exchange over the network brought no response. -/
inductive TransportFault where
  /-- No connection was made. -/
  | connect
  /-- No connection was made in the time that there is for it. -/
  | connectTimeout
  | timeout
  /-- The request could not be formed, or its answer broke off. -/
  | other
  deriving DecidableEq, Repr

/-- Why a source did not answer; that a value is absent is an answer. -/
inductive FetchError where
  | http (status : Nat) (message : String)
  | transport (fault : TransportFault)
  | timeout (milliseconds : Nat)
  | credential (reason : String)
  | invalidResponse (reason : String)
  deriving DecidableEq, Repr

namespace FetchError

def message : FetchError → String
  | http status message => "HTTP " ++ toString status ++ ": " ++ message
  | transport _ => "transport error: " ++ detail
  | timeout ms => "timed out after " ++ toString ms ++ "ms"
  | credential reason => "credential error: " ++ reason
  | invalidResponse reason => "invalid response: " ++ reason

/-- A status that asks the client to come back later. -/
def retryableStatus (status : Nat) : Bool := status == 429 || (500 ≤ status && status < 600)

/-- Another attempt may succeed. -/
def transient : FetchError → Bool
  | http status _ => retryableStatus status
  | transport fault => fault != .other
  | timeout _ => true
  | credential _ => false
  | invalidResponse _ => false

end FetchError

/-- What ends a run at once, without an error of the run's own. -/
inductive Crash where
  /-- A source that must not be asked was asked for this name. -/
  | forbidden (name : String)
  /-- A lifetime reaches past the end of the clock. -/
  | clockOverflow
  deriving DecidableEq, Repr

def Crash.message : Crash → String
  | forbidden name => "unexpected lookup of '" ++ name ++ "' on a forbidden provider"
  | clockOverflow => "overflow when adding duration to instant"

/-- How asking a source can go wrong. -/
inductive Failure where
  | error (e : FetchError)
  | crash (c : Crash)
  deriving DecidableEq, Repr

/-- A source's answer: a value, or that there is none, or a failure. -/
abbrev Answer := Except Failure (Option String)

end Placeholder
