import Placeholder.Http
import Placeholder.Files

/-!
# What lies outside of a run

A run reaches other hosts, other programs and the clocks only through `Outside`, whose functions
change a state `ω`. How they do it is not modelled here; `Outside.exchange` adds what a client does
on its own: it goes where a response sends it, a few times.
-/
namespace Placeholder

/-- What a program left when it ended. -/
structure CommandOutput where
  /-- The exit code; none when the program was killed. -/
  exit : Option Nat
  stdout : ByteArray
  stderr : ByteArray

/-- Why a command has left nothing. -/
inductive CommandFault where
  /-- It could not be started. -/
  | unstarted (fault : FileFault)
  /-- It was stopped when its time had run out. -/
  | timeout
  deriving DecidableEq, Repr

structure Outside (ω : Type) where
  send : Http.Client → Http.Request → ω → Except TransportFault Http.Response × ω
  command : (program : String) → (arguments : List String) → ω →
    Except CommandFault CommandOutput × ω
  /-- The clock of expiry times, in milliseconds. -/
  now : ω → Nat
  /-- The time of day, in seconds. -/
  epoch : ω → Nat
  pause : Nat → ω → ω

namespace Outside

variable {ω : Type}

/-- How often a client goes where a response sends it. -/
def redirectLimit : Nat := 5

/-- Sends a request and those that responses ask for in its place. -/
def follow (out : Outside ω) (client : Http.Client) :
    (left : Nat) → Http.Request → ω → Except TransportFault Http.Response × ω
  | left, q, w =>
    match out.send client q w with
    | (.error fault, w) => (.error fault, w)
    | (.ok r, w) =>
      match q.redirected? r, left with
      | none, _ => (.ok r, w)
      | some _, 0 => (.error .other, w)
      | some q, left + 1 => out.follow client left q w

/-- Sends a request, if it could be formed. -/
def exchange (out : Outside ω) (client : Http.Client) (q : Option Http.Request) (w : ω) :
    Except TransportFault Http.Response × ω :=
  match q with
  | none => (.error .other, w)
  | some q => out.follow client redirectLimit q w

/-- Waits for the body of a response, at most until the limit runs out. -/
def body (out : Outside ω) (client : Http.Client) (r : Http.Response) (w : ω) :
    Except TransportFault ByteArray × ω :=
  match r.body with
  | .ok bytes => (.ok bytes, w)
  | .error .timeout => (.error .timeout, out.pause (client.limit.getD 0) w)
  | .error fault => (.error fault, w)

end Outside

/-- A part of a state: how it is read and how it is replaced. -/
structure Cell (σ α : Type) where
  get : σ → α
  set : α → σ → σ

/-- Takes a step on a part of a state beside the whole, and puts the part back. -/
def Cell.step {σ α β : Type} (c : Cell σ α) (f : α × σ → β × α × σ) (s : σ) : β × σ :=
  let (b, a, s) := f (c.get s, s)
  (b, c.set a s)

/-- Nothing is reachable, and only a clock of milliseconds goes on. The time of day is that of the
start, given in seconds, and what has passed since. -/
def Outside.isolated (start : Nat) : Outside Nat where
  send _ _ clock := (.error .connect, clock)
  command _ _ clock := (.error (.unstarted .notFound), clock)
  now clock := clock
  epoch clock := start + clock / 1000
  pause ms clock := clock + ms

/-- What lies outside, seen from a state of which its own is a part. -/
def Outside.within {σ ω : Type} (c : Cell σ ω) (out : Outside ω) : Outside σ where
  send client q s :=
    let (r, w) := out.send client q (c.get s)
    (r, c.set w s)
  command program arguments s :=
    let (r, w) := out.command program arguments (c.get s)
    (r, c.set w s)
  now s := out.now (c.get s)
  epoch s := out.epoch (c.get s)
  pause ms s := c.set (out.pause ms (c.get s)) s

end Placeholder
