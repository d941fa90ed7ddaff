import Placeholder.Credential

/-!
# Chains of credentials

The credentials of a chain are asked in order, and the first token counts. When all have failed, an
endpoint that asked to come back later may be asked again; otherwise the chain is exhausted: it
keeps the reason and never asks again. `issue_of_exhausted` says so.
-/
namespace Placeholder.Chain

variable {ω : Type}

inductive Trial where
  | token (t : AccessToken)
  /-- All failed, each by name with its error. -/
  | failed (failures : List (String × FetchError))
  | crash (c : Crash)
  deriving DecidableEq, Repr

/-- Asks credentials in order, up to the first token. -/
def tryAll (client : Http.Client) : List (Credential ω) → ω → Trial × ω
  | [], w => (.failed [], w)
  | c :: rest, w =>
    match c.issue client w with
    | (.ok t, w) => (.token t, w)
    | (.error (.crash c), w) => (.crash c, w)
    | (.error (.error e), w) =>
      match tryAll client rest w with
      | (.failed failures, w) => (.failed ((c.name, e) :: failures), w)
      | other => other

/-- The endpoint was there and asked to come back later. -/
def isThrottled : FetchError → Bool
  | .http status _ => FetchError.retryableStatus status
  | _ => false

/-- Why a chain is exhausted. -/
def reason (failures : List (String × FetchError)) : String :=
  if failures.isEmpty then "no credential sources configured"
  else "; ".intercalate (failures.map fun (name, e) => name ++ ": " ++ e.message)

/-- What a chain keeps: the reason, once it is exhausted. -/
abbrev Memo := Option String

/-- Issues a token, and keeps the reason when there will never be one. -/
def issue (sources : List (Credential ω)) (client : Http.Client) :
    Memo × ω → Except Failure AccessToken × Memo × ω
  | (some reason, w) => (.error (Credential.failed reason), some reason, w)
  | (none, w) =>
    match tryAll client sources w with
    | (.token t, w) => (.ok t, none, w)
    | (.crash c, w) => (.error (.crash c), none, w)
    | (.failed failures, w) =>
      match failures.find? fun (_, e) => isThrottled e with
      | some (_, e) => (.error (.error e), none, w)
      | none => (.error (Credential.failed (reason failures)), some (reason failures), w)

theorem issue_of_exhausted (sources : List (Credential ω)) (client : Http.Client) (why : String)
    (w : ω) :
    issue sources client (some why, w) = (.error (Credential.failed why), some why, w) :=
  rfl

def name : String := "chained"

/-- The chain as a credential that keeps its memo in a part of the state. -/
def credential (memo : Cell ω Memo) (sources : List (Credential ω)) : Credential ω :=
  ⟨name, fun client => memo.step (issue sources client)⟩

end Placeholder.Chain
