import Placeholder.Http

/-!
# Scripted servers

A scripted server answers by rules: a request takes the first rule that fits it and is not used
up. A request that no rule fits is not found.
-/
namespace Placeholder.Rehearsal

/-- What a server does with a request. -/
inductive Conduct where
  | answer
  /-- Nothing comes back. -/
  | hang
  /-- The connection ends without a response. -/
  | close
  /-- The head of the response comes, but its body never does. -/
  | stall
  deriving DecidableEq, Repr

structure Rule where
  /-- The requests that the rule fits: those with this method, if it is given, -/
  method : Option String := none
  /-- and with this target up to its query. -/
  path : Option String := none
  /-- How often the rule may still be used; none for any number of times. -/
  left : Option Nat := none
  status : Nat := 200
  body : ByteArray := .empty
  location : Option String := none
  conduct : Conduct := .answer

namespace Rule

def fits (r : Rule) (method path : String) : Bool :=
  (r.method.all (· == method)) && (r.path.all (· == path)) && r.left != some 0

def used (r : Rule) : Rule := { r with left := r.left.map (· - 1) }

/-- The statuses after which no body comes. -/
def bodiless : List Nat := [204, 304]

def response (r : Rule) : Http.Response where
  status := r.status
  location := r.location
  body :=
    if bodiless.contains r.status then .ok .empty
    else if r.conduct = .stall then .error .timeout
    else .ok r.body

/-- The rule for a request, and the rules after it. -/
def take (method path : String) : List Rule → Rule × List Rule
  | [] => ({ status := 404 }, [])
  | r :: rest =>
    if r.fits method path then (r, r.used :: rest)
    else
      let (found, rest) := take method path rest
      (found, r :: rest)

end Rule

structure Sent where
  method : String
  target : String
  headers : List (String × String)
  body : String
  deriving DecidableEq, Repr

namespace Sent

/-- The headers that a server keeps. -/
def keptHeaders : List String :=
  ["authorization", "content-type", "metadata", "user-agent", "x-identity-header"]

def isGap (c : Char) : Bool := c == ' ' || c == '\t'

def trimmed (s : String) : String :=
  String.ofList ((s.toList.dropWhile isGap).reverse.dropWhile isGap).reverse

/-- What is asked for: all of the URL, when a proxy is asked. -/
def targetOf (client : Http.Client) (url : Url) : String :=
  if client.proxied then { url with fragment := none : Url }.text else url.target

def ofRequest (client : Http.Client) (q : Http.Request) : Sent where
  method := q.method.name
  target := targetOf client q.url
  headers :=
    let all := (client.agent.map fun a => ("user-agent", a)).toList ++ q.headers
    (all.filter fun (name, _) => keptHeaders.contains name).map fun (n, v) => (n, trimmed v)
  body := q.body

def path (s : Sent) : String := String.ofList (s.target.toList.takeWhile (· ≠ '?'))

end Sent
end Placeholder.Rehearsal
