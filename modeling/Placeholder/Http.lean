import Placeholder.Url
import Placeholder.FetchError
import Placeholder.Http.Base64

/-!
# Requests and responses

What is sent over the network and what comes back. A request exists only when it can be formed:
its URL has a host and belongs to the web, and its headers hold no controls. Names of headers are
in lower case.
-/
namespace Placeholder.Http

inductive Method where
  | get
  | post
  deriving DecidableEq, Repr

def Method.name : Method → String
  | get => "GET"
  | post => "POST"

structure Request where
  method : Method
  url : Url
  headers : List (String × String) := []
  body : String := ""
  deriving DecidableEq, Repr

structure Response where
  status : Nat
  /-- Where the response sends the client. -/
  location : Option String
  /-- The body, or why it never arrives in full. -/
  body : Except TransportFault ByteArray

def Response.ok (r : Response) : Bool := 200 ≤ r.status && r.status < 300

structure Client where
  agent : Option String := none
  /-- The time for a request, in milliseconds. -/
  limit : Option Nat := none
  /-- The time for making a connection, in milliseconds. -/
  connectLimit : Option Nat := none
  /-- Requests go through a proxy. -/
  proxied : Bool := false
  deriving DecidableEq, Repr

def isHeaderChar (c : Char) : Bool := c == '\t' || (0x20 ≤ c.toNat && c.toNat != 0x7f)

def percentDecoded? (s : String) : Option String :=
  String.fromUTF8? ⟨(Percent.decodeBytes s.toUTF8.toList).toArray⟩

/-- The headers for a user whom a URL names. -/
def userHeaders (url : Url) : List (String × String) :=
  match url.authority with
  | none => []
  | some a =>
    match percentDecoded? a.username with
    | none => []
    | some username =>
      let password := if a.password.isEmpty then none else percentDecoded? a.password
      if username.isEmpty && password.isNone then []
      else
        [("authorization", "Basic " ++ Base64.ofText (username ++ ":" ++ password.getD ""))]

namespace Request

/-- Forms a request. A user named in the URL moves into the headers. -/
def of? (method : Method) (url : Url) (headers : List (String × String)) (body : String) :
    Option Request :=
  if url.hasHost && (url.scheme = "http" || url.scheme = "https")
      && headers.all fun (_, value) => value.toList.all isHeaderChar then
    let authority := url.authority.map fun a => { a with username := "", password := "" }
    some
      { method, url := { url with authority }, headers := userHeaders url ++ headers, body }
  else none

def without (names : List String) (headers : List (String × String)) : List (String × String) :=
  headers.filter fun (name, _) => !names.contains name

def redirects : List Nat := [301, 302, 303, 307, 308]

/-- The statuses after which a posted form is not sent again. -/
def turnsToGet : List Nat := [301, 302, 303]

/-- The request that a response asks for in place of this one. A bearer token goes to no other
host. -/
def redirected? (q : Request) (r : Response) : Option Request :=
  if redirects.contains r.status then
    (r.location.bind q.url.join?).map fun url =>
      let same := url.host? = q.url.host? && url.port? = q.url.port?
      let headers := if same then q.headers else without ["authorization"] q.headers
      if q.method = .post && turnsToGet.contains r.status then
        { method := .get, url, headers := without ["content-type"] headers }
      else { q with url, headers }
  else none

end Request
end Placeholder.Http
