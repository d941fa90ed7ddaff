import Placeholder.FetchError

/-!
# Access tokens

A bearer token and the time at which it expires, by a clock of milliseconds. The clock ends after
2^63 - 1 seconds; a lifetime that reaches beyond its end is a crash, not a long lifetime.
-/
namespace Placeholder

structure AccessToken where
  text : String
  /-- The time of expiry; none for a token that says nothing about it. -/
  expiry? : Option Nat
  deriving DecidableEq, Repr

namespace AccessToken

/-- The last second of the clock. -/
def lastSecond : Nat := 0x7FFFFFFFFFFFFFFF

/-- A token is not used in its last minute. -/
def expiryMargin : Nat := 60000

/-- A token issued now that lives for so many seconds. -/
def issue (now : Nat) (text : String) : (lifetime? : Option Nat) → Except Crash AccessToken
  | none => .ok ⟨text, none⟩
  | some seconds =>
    if now / 1000 + seconds ≤ lastSecond then .ok ⟨text, some (now + seconds * 1000)⟩
    else .error .clockOverflow

/-- The token lives for longer than the margin. -/
def freshAt (t : AccessToken) (now : Nat) : Bool :=
  match t.expiry? with
  | none => true
  | some expiry => now + expiryMargin < expiry

/-- What a log shows of a token that does not expire. -/
def summary? (t : AccessToken) : Option String :=
  match t.expiry? with
  | none => some "AccessToken \x7b token: \"***\", expires_at: None \x7d"
  | some _ => none

end AccessToken
end Placeholder
