import Placeholder.Url.Host
import Placeholder.Url.Path

/-!
# URLs

A URL in its parts, how it is read from text, and its one written form. A reference is read
against the URL of the page that holds it, which belongs to the web. Of a text that is no URL
nothing is told but that.
-/
namespace Placeholder

namespace Url

/-- How the rest of a URL is read, by its scheme. -/
inductive Form where
  /-- A host is needed, and a backslash is a slash. -/
  | web
  | file
  | other
  deriving DecidableEq, Repr

def webPort? (scheme : String) : Option Nat :=
  [("http", 80), ("https", 443), ("ws", 80), ("wss", 443), ("ftp", 21)].lookup scheme

def Form.ofScheme (scheme : String) : Form :=
  if (webPort? scheme).isSome then .web else if scheme = "file" then .file else .other

/-- Where the path begins: who is asked, and at which host and port. -/
structure Authority where
  username : String := ""
  password : String := ""
  host : Host
  /-- The port, unless it is the one of the scheme. -/
  port : Option Nat := none
  deriving DecidableEq, Repr

end Url

structure Url where
  scheme : String
  authority : Option Url.Authority
  path : Url.Path
  query : Option String
  fragment : Option String
  deriving DecidableEq, Repr

namespace Url

def form (u : Url) : Form := Form.ofScheme u.scheme

/-! ## Text -/

def Authority.userText (a : Authority) : String :=
  if a.username.isEmpty && a.password.isEmpty then ""
  else if a.password.isEmpty then a.username ++ "@"
  else a.username ++ ":" ++ a.password ++ "@"

def Authority.portText (a : Authority) : String :=
  (a.port.map fun p => ":" ++ toString p).getD ""

def Authority.text (a : Authority) : String := "//" ++ a.userText ++ a.host.text ++ a.portText

/-- What keeps a path that starts with two slashes from being read as a host. -/
def pathGuard (u : Url) : String :=
  match u.authority, u.path with
  | none, .segments ("" :: _ :: _) => "/."
  | _, _ => ""

def queryText (u : Url) : String := (u.query.map ("?" ++ ·)).getD ""

def fragmentText (u : Url) : String := (u.fragment.map ("#" ++ ·)).getD ""

/-- What is asked for at the host. -/
def target (u : Url) : String := u.path.text ++ u.queryText

def text (u : Url) : String :=
  u.scheme ++ ":" ++ (u.authority.map Authority.text).getD "" ++ u.pathGuard ++ u.target
    ++ u.fragmentText

/-! ## Reading -/

def isSlash (form : Form) (c : Char) : Bool := c == '/' || (form != .other && c == '\\')

/-- The path ends here. -/
def endsPath (c : Char) : Bool := c == '?' || c == '#'

def endsAuthority (form : Form) (c : Char) : Bool := isSlash form c || endsPath c

/-- The text that counts: no blanks or controls around it, no tabs and line breaks in it. -/
def significant (s : String) : List Char :=
  let blank (c : Char) : Bool := c.toNat ≤ 0x20
  (((s.toList.dropWhile blank).reverse.dropWhile blank).reverse).filter Path.isWritten

def isSchemeChar (c : Char) : Bool := c.isAlphanum || c == '+' || c == '-' || c == '.'

/-- The scheme in lower case, and what follows the colon. -/
def readScheme (cs : List Char) : Option (String × List Char) :=
  match cs.takeWhile isSchemeChar, cs.dropWhile isSchemeChar with
  | c :: name, ':' :: rest =>
    if c.isAlpha then some (String.ofList ((c :: name).map Char.toLower), rest) else none
  | _, _ => none

def readEnd (form : Form) (cs : List Char) : Option String × Option String :=
  let plain := cs.takeWhile (· ≠ '#')
  let query : Option String :=
    match plain with
    | '?' :: q =>
      some (Percent.encodeChars (if form = .other then Percent.query else Percent.specialQuery) q)
    | _ => none
  let fragment : Option String :=
    match cs.dropWhile (· ≠ '#') with
    | _ :: f => some (Percent.encodeChars Percent.fragment f)
    | [] => none
  (query, fragment)

/-- The segments of a path that is read from a directory on. -/
def readSegments (form : Form) (directory : List String) (cs : List Char) : List String :=
  Path.follow directory ((Text.pieces (isSlash form) cs).map (Percent.encodeChars Percent.path))

/-- The path of a file starts with one slash. -/
def trimEmpty : List String → List String
  | "" :: s :: rest => trimEmpty (s :: rest)
  | segments => segments

def readPath (scheme : String) (authority : Option Authority) (cs : List Char) : Url :=
  let form := Form.ofScheme scheme
  let raw := cs.takeWhile (!endsPath ·)
  let (query, fragment) := readEnd form (cs.dropWhile (!endsPath ·))
  let segments :=
    match raw with
    | [] => if form = .other then [] else [""]
    | c :: rest => readSegments form [] (if isSlash form c then rest else raw)
  let segments := if form = .file then trimEmpty segments else segments
  { scheme, authority, path := .segments segments, query, fragment }

/-- User and password, split at the first colon. -/
def readUser (cs : List Char) : String × String :=
  let encode := Percent.encodeChars Percent.userinfo
  (encode (cs.takeWhile (· ≠ ':')), encode ((cs.dropWhile (· ≠ ':')).drop 1))

/-- A text cut at the last `@`: what stands before it, if it is there, and what follows. -/
def splitUser (cs : List Char) : Option (List Char) × List Char :=
  if cs.contains '@' then
    let host := (cs.reverse.takeWhile (· ≠ '@')).reverse
    (some (cs.take (cs.length - host.length - 1)), host)
  else (none, cs)

/-- A text cut at the first colon outside brackets. -/
def splitPort (inBrackets : Bool) : List Char → List Char × List Char
  | [] => ([], [])
  | ':' :: rest =>
    if inBrackets then
      let (host, port) := splitPort inBrackets rest
      (':' :: host, port)
    else ([], ':' :: rest)
  | c :: rest =>
    let inBrackets := c = '[' || (inBrackets && c ≠ ']')
    let (host, port) := splitPort inBrackets rest
    (c :: host, port)

/-- A port after its colon; none within when it is left out or the one of the scheme. -/
def readPort (scheme : String) (cs : List Char) : Option (Option Nat) :=
  let n := cs.foldl (fun n c => n * 10 + (c.toNat - 48)) 0
  if cs.all (fun c => '0' ≤ c && c ≤ '9') && n < 65536 then
    some (if cs.isEmpty || webPort? scheme = some n then none else some n)
  else none

def readHost (form : Form) (cs : List Char) : Option Host :=
  match form with
  | .web => Host.ofText? (String.ofList cs)
  | .other => Host.ofPlainText? (String.ofList cs)
  | .file =>
    if cs.isEmpty then some (.plain "")
    else (Host.ofText? (String.ofList cs)).map fun host =>
      if host = .domain "localhost" then .plain "" else host

/-- What follows the two slashes before an authority. -/
def readAuthority (scheme : String) (cs : List Char) : Option Url :=
  let form := Form.ofScheme scheme
  let region := cs.takeWhile (!endsAuthority form ·)
  let rest := cs.dropWhile (!endsAuthority form ·)
  if form = .file then
    (readHost form region).map fun host => readPath scheme (some { host }) rest
  else
    let (user?, place) := splitUser region
    let (username, password) := readUser (user?.getD [])
    let named := !(username.isEmpty && password.isEmpty)
    let (host, port) := splitPort false place
    let digits := (port.drop 1).takeWhile (· ≠ '\\')
    let rest := (port.drop 1).dropWhile (· ≠ '\\') ++ rest
    let bare := form ≠ .web && !named && port.isEmpty && !(user? = some [] && !rest.isEmpty)
    if host.isEmpty && !bare then none
    else
      (readHost form host).bind fun host => (readPort scheme digits).map fun port =>
        readPath scheme (some { username, password, host, port }) rest

def readAbsolute (scheme : String) (cs : List Char) : Option Url :=
  let form := Form.ofScheme scheme
  match form, cs with
  | .web, cs => readAuthority scheme (cs.dropWhile (isSlash form))
  | .file, a :: b :: rest =>
    if isSlash form a && isSlash form b then readAuthority scheme rest
    else some (readPath scheme (some { host := .plain "" }) cs)
  | .file, cs => some (readPath scheme (some { host := .plain "" }) cs)
  | .other, '/' :: '/' :: rest => readAuthority scheme rest
  | .other, '/' :: rest => some (readPath scheme none ('/' :: rest))
  | .other, cs =>
    let (query, fragment) := readEnd form (cs.dropWhile (!endsPath ·))
    let path := .name (Percent.encodeChars Percent.controls (cs.takeWhile (!endsPath ·)))
    some { scheme, authority := none, path, query, fragment }

def ofText? (s : String) : Option Url :=
  (readScheme (significant s)).bind fun (scheme, rest) => readAbsolute scheme rest

/-- A reference without a scheme, seen from a URL of the web. -/
def readRelative (base : Url) (cs : List Char) : Option Url :=
  let directory : List String :=
    match base.path with
    | .segments segments => segments.dropLast
    | .name _ => []
  let onward (directory : List String) (cs : List Char) : Url :=
    let (query, fragment) := readEnd base.form (cs.dropWhile (!endsPath ·))
    let path := .segments (readSegments base.form directory (cs.takeWhile (!endsPath ·)))
    { base with path, query, fragment }
  match cs with
  | [] => some { base with fragment := none }
  | '#' :: f => some { base with fragment := some (Percent.encodeChars Percent.fragment f) }
  | '?' :: _ =>
    let (query, fragment) := readEnd base.form cs
    some { base with query, fragment }
  | '/' :: '/' :: rest => readAuthority base.scheme rest
  | a :: rest =>
    if isSlash base.form a then
      if (rest.head?.map (isSlash base.form)).getD false then
        readAuthority base.scheme (cs.dropWhile (isSlash base.form))
      else some (onward [] rest)
    else some (onward directory cs)

/-- The URL that a reference names when it is found at `base`. -/
def join? (base : Url) (reference : String) : Option Url :=
  let cs := significant reference
  match readScheme cs with
  | some (scheme, rest) =>
    if scheme = base.scheme && (rest.takeWhile (isSlash base.form)).length < 2 then
      readRelative base rest
    else readAbsolute scheme rest
  | none => readRelative base cs

/-! ## Changing -/

/-- The URL is only a name: it has no path to go along. -/
def isName (u : Url) : Bool :=
  match u.path with
  | .name _ => true
  | .segments _ => false

/-- Adds segments after the path without its final slash. -/
def addSegments (u : Url) (added : List String) : Url :=
  match u.path with
  | .name _ => u
  | .segments ss =>
    let c := if u.form = .other then Percent.segment else Percent.specialSegment
    { u with path := .segments (added.foldl (Path.push c) (Path.dropFinalSlash ss)) }

def addQuery (u : Url) (pairs : List (String × String)) : Url :=
  let added := Percent.form pairs
  let query := u.query.getD ""
  { u with query := some (if query.isEmpty then added else query ++ "&" ++ added) }

def hasHost (u : Url) : Bool := (u.authority.map fun a => !a.host.text.isEmpty).getD false

def port? (u : Url) : Option Nat := (u.authority.bind Authority.port).or (webPort? u.scheme)

def host? (u : Url) : Option Host := u.authority.map Authority.host

end Url
end Placeholder
