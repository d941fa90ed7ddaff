import Placeholder.Credential.Chain
import Placeholder.Playback
import Placeholder.Rehearsal.Server
import Placeholder.Vault

/-!
# A world for rehearsals

In a rehearsal a script stands for all that lies outside of a run: one server, one tool and a clock
that moves only when somebody waits. The world also keeps what sources and credentials remember,
and a trace of what was asked.
-/
namespace Placeholder.Rehearsal

/-- What was asked, the last of each kind first. -/
structure Trace where
  /-- The label of a source, and the name it was asked for. -/
  lookups : List (String × String) := []
  requests : List Sent := []
  commands : List String := []

def Trace.inOrder (t : Trace) : Trace :=
  ⟨t.lookups.reverse, t.requests.reverse, t.commands.reverse⟩

/-- A token that a script issues, with its lifetime in seconds. -/
abbrev Grant := Except FetchError (String × Option Nat)

structure World where
  /-- The rules of the server, if there is one. -/
  rules : Option (List Rule) := none
  /-- What the tool `az` does, if there is one. -/
  tool : Option CommandOutput := none
  now : Nat := 1000000
  trace : Trace := {}
  caches : List Vault.Cache := []
  memos : List Chain.Memo := []
  answers : List (Playback (Except FetchError (Option String))) := []
  grants : List (Playback Grant) := []
  logs : List (List String) := []

namespace World

/-! ## What lies outside -/

/-- The hosts and ports behind which the server listens. -/
def listening : List (Url.Host × Nat) :=
  [(.ipv4 0x7F000001, 4747), (.ipv4 0xA9FEA9FE, 80)]

/-- The server gets requests for this URL. -/
def reaches (client : Http.Client) (url : Url) : Bool :=
  url.scheme = "http" &&
    (client.proxied ||
      match url.host?, url.port? with
      | some host, some port => listening.contains (host, port)
      | _, _ => false)

def wait (ms : Nat) (w : World) : World := { w with now := w.now + ms }

def send (client : Http.Client) (q : Http.Request) (w : World) :
    Except TransportFault Http.Response × World :=
  match w.rules with
  | none => (.error .connect, w)
  | some rules =>
    if reaches client q.url then
      let sent := Sent.ofRequest client q
      let (rule, rules) := Rule.take sent.method sent.path rules
      let trace := { w.trace with requests := sent :: w.trace.requests }
      let w := { w with rules := some rules, trace }
      match rule.conduct with
      | .hang => (.error .timeout, w.wait (client.limit.getD 0))
      | .close => (.error .other, w)
      | _ => (.ok rule.response, w)
    else (.error .connect, w)

def command (program : String) (arguments : List String) (w : World) :
    Except CommandFault CommandOutput × World :=
  match program, w.tool with
  | "az", some output =>
    let line := " ".intercalate arguments
    (.ok output, { w with trace := { w.trace with commands := line :: w.trace.commands } })
  | _, _ => (.error (.unstarted .notFound), w)

/-- The time of day at the start, in seconds. -/
def dawn : Nat := 1750000000

def outside : Outside World where
  send := send
  command := command
  now := World.now
  epoch w := dawn + w.now / 1000
  pause := wait

/-! ## What is remembered -/

/-- The `i`-th of the values that a part of the world lists. -/
def nth {α : Type} (get : World → List α) (set : List α → World → World) (initial : α) (i : Nat) :
    Cell World α where
  get w := (get w)[i]?.getD initial
  set a w := set ((get w).set i a) w

def cache (i : Nat) : Cell World Vault.Cache :=
  nth caches (fun l w => { w with caches := l }) none i

def memo (i : Nat) : Cell World Chain.Memo :=
  nth memos (fun l w => { w with memos := l }) none i

/-- A place for the token of one more vault. -/
def addCache (w : World) : Cell World Vault.Cache × World :=
  (cache w.caches.length, { w with caches := w.caches ++ [none] })

/-- A place for the memo of one more chain. -/
def addMemo (w : World) : Cell World Chain.Memo × World :=
  (memo w.memos.length, { w with memos := w.memos ++ [none] })

def noteLookup (label name : String) (w : World) : World :=
  { w with trace := { w.trace with lookups := (label, name) :: w.trace.lookups } }

end World

/-! ## Scripted sources and credentials -/

/-- What a mock does when it is asked. -/
inductive Manner where
  | values (t : Table)
  | failing (message : String)
  | forbidden

def Manner.answer (m : Manner) (name : String) : Answer :=
  match m with
  | values t => .ok (t.get? name)
  | failing message => .error (.error (.http 500 message))
  | forbidden => .error (.crash (.forbidden name))

/-- The source that keeps a log of the names it was asked for. -/
def mock (manner : Manner) (i : Nat) : Source World :=
  ⟨"mock", fun name w =>
    (manner.answer name, { w with logs := w.logs.modify i (· ++ [name]) })⟩

def scriptedSource (sourceName : String) (i : Nat) : Source World :=
  ⟨sourceName, fun _ w =>
    match w.answers[i]?.bind Playback.next? with
    | none => (.ok none, w)
    | some (entry, rest) =>
      let answer : Answer :=
        match entry with
        | .ok value => .ok value
        | .error e => .error (.error e)
      (answer, { w with answers := w.answers.set i rest })⟩

def grant (now : Nat) : Grant → Except Failure AccessToken
  | .error e => .error (.error e)
  | .ok (text, lifetime) =>
    match AccessToken.issue now text lifetime with
    | .ok t => .ok t
    | .error c => .error (.crash c)

def scriptedCredential (name : String) (i : Nat) : Credential World :=
  ⟨name, fun _ w =>
    match w.grants[i]?.bind Playback.next? with
    | none => (.error (Credential.failed ""), w)
    | some (entry, rest) => (grant w.now entry, { w with grants := w.grants.set i rest })⟩

/-- The source with a label under which lookups are noted. -/
def labelled (label : String) (s : Source World) : Source World :=
  ⟨s.name, fun name w => s.ask name (w.noteLookup label name)⟩

end Placeholder.Rehearsal
