import Placeholder.Text
import Placeholder.Url.Percent
import Placeholder.Url.Punycode

/-!
# Hosts

The host of a URL: a domain name in ASCII, an address of either kind, or a plain text where the
scheme gives hosts no meaning.

Domains in ASCII are read as the standard says, but for labels that begin with `xn--`. Beyond ASCII
the standard goes by tables that are not part of this library: `Domain.lower?` knows the capitals
of a few scripts and the commonest characters that are left out or barred, composes nothing, and
takes every other character as it is. So a domain may be read here that the tables reject, or be
read with other letters than they give it.
-/
namespace Placeholder.Url

inductive Host where
  | domain (name : String)
  | ipv4 (address : Nat)
  | ipv6 (pieces : List Nat)
  | plain (text : String)
  deriving DecidableEq, Repr

/-! ## Addresses of version 4 -/

namespace Ipv4

def digitOf? (base : Nat) (c : Char) : Option Nat :=
  let value :=
    if '0' ≤ c && c ≤ '9' then c.toNat - 48
    else if 'a' ≤ c && c ≤ 'f' then c.toNat - 87
    else if 'A' ≤ c && c ≤ 'F' then c.toNat - 55
    else base
  if value < base then some value else none

def based? (base : Nat) (cs : List Char) : Option Nat :=
  cs.foldlM (fun n c => (digitOf? base c).map fun d => n * base + d) 0

/-- A part of an address: decimal, octal after a zero, hexadecimal after `0x`. -/
def part? : List Char → Option Nat
  | [] => none
  | '0' :: 'x' :: rest => based? 16 rest
  | '0' :: 'X' :: rest => based? 16 rest
  | ['0'] => some 0
  | '0' :: rest => based? 8 rest
  | cs => based? 10 cs

/-- The parts of a name, without an empty last one. -/
def parts (name : String) : List (List Char) :=
  let parts := Text.pieces (· == '.') name.toList
  match parts.reverse with
  | [] :: rest => if rest.isEmpty then parts else rest.reverse
  | _ => parts

/-- A name whose last part is a number must be an address. -/
def endsInNumber (name : String) : Bool :=
  match (parts name).getLast? with
  | none => false
  | some [] => false
  | some last => last.all (fun c => '0' ≤ c && c ≤ '9') || (part? last).isSome

/-- Reads an address of up to four parts; the last part fills what is left. -/
def ofName? (name : String) : Option Nat :=
  let parts := parts name
  if parts.length > 4 then none
  else
    (parts.mapM part?).bind fun values =>
      let leading := values.dropLast
      let last := values.getLast?.getD 0
      if leading.any (· > 255) || last ≥ 1 <<< (8 * (5 - values.length)) then none
      else
        let high := leading.zipIdx.foldl (fun n (v, i) => n + v <<< (8 * (3 - i))) 0
        some (high + last)

def text (address : Nat) : String :=
  ".".intercalate ((List.range 4).map fun i => toString (address >>> (8 * (3 - i)) % 256))

end Ipv4

/-! ## Addresses of version 6 -/

namespace Ipv6

/-- The pieces of a run of groups between colons; a last group may be a version 4 address. -/
def groups? : List (List Char) → Option (List Nat)
  | [] => some []
  | [g] =>
    if g.contains '.' then
      let parts := Text.pieces (· == '.') g
      let values := parts.filterMap fun cs =>
        if cs.isEmpty || cs.length > 3 || (cs.length > 1 && cs.head? = some '0') then none
        else (Ipv4.based? 10 cs).filter (· ≤ 255)
      match values with
      | [a, b, c, d] => if parts.length = 4 then some [a * 256 + b, c * 256 + d] else none
      | _ => none
    else if g.isEmpty || g.length > 4 then none
    else (Ipv4.based? 16 g).map fun v => [v]
  | g :: rest =>
    if g.isEmpty || g.length > 4 then none
    else (Ipv4.based? 16 g).bind fun v => (groups? rest).map (v :: ·)

def run? (s : String) : Option (List Nat) :=
  if s.isEmpty then some [] else groups? (Text.pieces (· == ':') s.toList)

/-- Reads an address; one gap of two colons stands for pieces of zero. -/
def ofText? (s : String) : Option (List Nat) :=
  match s.splitOn "::" with
  | [all] => (run? all).filter (·.length = 8)
  | [before, after] =>
    if before.contains '.' then none
    else
      (run? before).bind fun a => (run? after).bind fun b =>
        if a.length + b.length ≥ 8 then none
        else some (a ++ List.replicate (8 - a.length - b.length) 0 ++ b)
  | _ => none

/-- Start and length of the first longest run of zeros. -/
def longestZeros (pieces : List Nat) : Nat × Nat :=
  let runs := (List.range pieces.length).map fun i =>
    (i, ((pieces.drop i).takeWhile (· = 0)).length)
  runs.foldl (fun best r => if r.2 > best.2 then r else best) (0, 0)

def hex (n : Nat) : String := String.ofList (Nat.toDigits 16 n)

def text (pieces : List Nat) : String :=
  let (start, length) := longestZeros pieces
  let join (ps : List Nat) := ":".intercalate (ps.map hex)
  if length < 2 then join pieces
  else join (pieces.take start) ++ "::" ++ join (pieces.drop (start + length))

end Ipv6

/-! ## Domains -/

namespace Domain

/-- The characters that a domain cannot hold. -/
def isForbidden (c : Char) : Bool :=
  c.toNat ≤ 0x20 || c.toNat = 0x7f || "#/:<>?@[\\]^|%".toList.contains c

/-- Capital letters, as first and last of a range, the step between the capitals in it
and what leads from a capital to its small letter. -/
def capitals : List (Nat × Nat × Nat × Nat) :=
  [(0x41, 0x5A, 1, 32), (0xC0, 0xD6, 1, 32), (0xD8, 0xDE, 1, 32), (0x100, 0x12E, 2, 1),
    (0x134, 0x136, 2, 1), (0x139, 0x13D, 2, 1), (0x141, 0x147, 2, 1), (0x14A, 0x176, 2, 1),
    (0x179, 0x17D, 2, 1), (0x386, 0x386, 1, 38), (0x388, 0x38A, 1, 37), (0x38C, 0x38C, 1, 64),
    (0x38E, 0x38F, 1, 63), (0x391, 0x3A1, 1, 32), (0x3A3, 0x3AB, 1, 32), (0x400, 0x40F, 1, 80),
    (0x410, 0x42F, 1, 32), (0x460, 0x480, 2, 1), (0x48A, 0x4BE, 2, 1), (0x4D0, 0x52E, 2, 1),
    (0x531, 0x556, 1, 48), (0x1E00, 0x1E94, 2, 1), (0x1EA0, 0x1EFE, 2, 1)]

def inRanges (ranges : List (Nat × Nat)) (c : Char) : Bool :=
  ranges.any fun (a, b) => a ≤ c.toNat && c.toNat ≤ b

/-- Characters that a domain leaves out. -/
def silent : List (Nat × Nat) :=
  [(0xAD, 0xAD), (0x34F, 0x34F), (0x180B, 0x180F), (0x200B, 0x200B), (0x2060, 0x2064),
    (0xFE00, 0xFE0F), (0xFEFF, 0xFEFF)]

/-- Blanks, controls and characters in private use, which no domain has. -/
def barred : List (Nat × Nat) :=
  [(0x80, 0xA0), (0x1680, 0x1680), (0x2000, 0x200A), (0x200E, 0x200F), (0x2028, 0x202F),
    (0x205F, 0x205F), (0x2066, 0x206F), (0x3000, 0x3000), (0xE000, 0xF8FF), (0xFFF9, 0xFFFF),
    (0xE0000, 0x10FFFF)]

/-- Other marks that end a label. -/
def stops : List (Nat × Nat) := [(0x3002, 0x3002), (0xFF0E, 0xFF0E), (0xFF61, 0xFF61)]

/-- The plain form of a wide character. -/
def narrow (c : Char) : Char :=
  if inRanges [(0xFF01, 0xFF5E)] c then Char.ofNat (c.toNat - 0xFEE0) else c

def small (c : Char) : Char :=
  match capitals.find? fun (a, b, step, _) =>
    a ≤ c.toNat && c.toNat ≤ b && (c.toNat - a) % step = 0 with
  | some (_, _, _, shift) => Char.ofNat (c.toNat + shift)
  | none => c

/-- A character as a domain holds it; none for one that no domain has. The tables of the standard
know more of either kind. -/
def lower? (c : Char) : Option (List Char) :=
  if inRanges barred c then none
  else if inRanges silent c then some []
  else if inRanges stops c then some ['.']
  else some [small (narrow c)]

/-- A label in ASCII. One in Punycode must stand for characters that are written this way and, as
far as `lower?` can tell, are held by domains as they are. -/
def label? (cs : List Char) : Option (List Char) :=
  if cs.all fun c => c.toNat < 128 then
    match cs with
    | 'x' :: 'n' :: '-' :: '-' :: rest =>
      (Punycode.decode? rest).bind fun decoded =>
        if (decoded.any fun c => c.toNat ≥ 128) && (decoded.all fun c => lower? c = some [c])
          && Punycode.encode decoded = rest
        then some cs else none
    | cs => some cs
  else some ("xn--".toList ++ Punycode.encode cs)

def ofText? (s : String) : Option String :=
  (s.toList.mapM lower?).bind fun lowered =>
    ((Text.pieces (· == '.') lowered.flatten).mapM label?).bind fun labels =>
      let name := ".".intercalate (labels.map String.ofList)
      if name.isEmpty || name.toList.any isForbidden then none else some name

end Domain

namespace Host

/-- A text in brackets, without them. -/
def bracketed? (s : String) : Option (Option String) :=
  match s.toList with
  | '[' :: rest =>
    match rest.reverse with
    | ']' :: inner => some (some (String.ofList inner.reverse))
    | _ => some none
  | _ => none

def ofText? (s : String) : Option Host :=
  match bracketed? s with
  | some inner => (inner.bind Ipv6.ofText?).map ipv6
  | none =>
    (String.fromUTF8? ⟨(Percent.decodeBytes s.toUTF8.toList).toArray⟩).bind fun decoded =>
      (Domain.ofText? decoded).bind fun name =>
        if Ipv4.endsInNumber name then (Ipv4.ofName? name).map ipv4 else some (domain name)

/-- The characters that a plain host cannot hold. -/
def isForbidden (c : Char) : Bool :=
  c = '\x00' || "\t\n\r #/:<>?@[\\]^|".toList.contains c

def ofPlainText? (s : String) : Option Host :=
  match bracketed? s with
  | some inner => (inner.bind Ipv6.ofText?).map ipv6
  | none =>
    if s.toList.any isForbidden then none
    else some (plain (Percent.encode Percent.controls s))

def text : Host → String
  | domain name => name
  | ipv4 address => Ipv4.text address
  | ipv6 pieces => "[" ++ Ipv6.text pieces ++ "]"
  | plain t => t

end Host
end Placeholder.Url
