/-!
# Punycode

Labels of a domain in characters beyond ASCII, written in ASCII: the ASCII characters first, then
the places of the others as numbers of variable length.
-/
namespace Placeholder.Punycode

def base : Nat := 36

def digit (d : Nat) : Char := if d < 26 then Char.ofNat (97 + d) else Char.ofNat (22 + d)

def digitValue? (c : Char) : Option Nat :=
  if 'a' ≤ c && c ≤ 'z' then some (c.toNat - 97)
  else if 'A' ≤ c && c ≤ 'Z' then some (c.toNat - 65)
  else if '0' ≤ c && c ≤ '9' then some (c.toNat - 22)
  else none

/-- The least digit that is not the last one of a number, at its `k`-th place. -/
def threshold (k bias : Nat) : Nat :=
  if k ≤ bias then 1 else if k ≥ bias + 26 then 26 else k - bias

def adaptFrom : Nat → (k delta : Nat) → Nat
  | 0, k, delta => k + 36 * delta / (delta + 38)
  | fuel + 1, k, delta =>
    if delta > 455 then adaptFrom fuel (k + base) (delta / 35) else k + 36 * delta / (delta + 38)

/-- The bias after a number `delta`. -/
def adapt (delta points : Nat) (first : Bool) : Nat :=
  let delta := if first then delta / 700 else delta / 2
  adaptFrom delta 0 (delta + delta / points)

/-- A number as digits, the least one first. -/
def number : Nat → (k bias q : Nat) → List Char
  | 0, _, _, _ => []
  | fuel + 1, k, bias, q =>
    let t := threshold k bias
    if q < t then [digit q]
    else digit (t + (q - t) % (base - t)) :: number fuel (k + base) bias ((q - t) / (base - t))

structure Writer where
  out : List Char
  delta : Nat
  bias : Nat
  handled : Nat

/-- Passes over a label for the character `n`. -/
def pass (n basic : Nat) (w : Writer) (c : Char) : Writer :=
  if c.toNat < n then { w with delta := w.delta + 1 }
  else if c.toNat = n then
    { out := w.out ++ number (w.delta + 1) base w.bias w.delta
      delta := 0
      bias := adapt w.delta (w.handled + 1) (w.handled = basic)
      handled := w.handled + 1 }
  else w

def encodeFrom : Nat → (cs : List Char) → (n basic : Nat) → Writer → List Char
  | 0, _, _, _, w => w.out
  | fuel + 1, cs, n, basic, w =>
    match (cs.filterMap fun c => if n ≤ c.toNat then some c.toNat else none).min? with
    | none => w.out
    | some m =>
      let w := { w with delta := w.delta + (m - n) * (w.handled + 1) }
      let w := cs.foldl (pass m basic) w
      encodeFrom fuel cs (m + 1) basic { w with delta := w.delta + 1 }

def encode (cs : List Char) : List Char :=
  let plain := cs.filter fun c => c.toNat < 128
  let out := if plain.isEmpty then [] else plain ++ ['-']
  encodeFrom (cs.length + 1) cs 128 plain.length ⟨out, 0, 72, plain.length⟩

/-- Reads a number: its value and the rest. -/
def readNumber : Nat → (k bias weight acc : Nat) → List Char → Option (Nat × List Char)
  | 0, _, _, _, _, _ => none
  | _, _, _, _, _, [] => none
  | fuel + 1, k, bias, weight, acc, c :: rest =>
    (digitValue? c).bind fun d =>
      let acc := acc + d * weight
      let t := threshold k bias
      if acc ≥ UInt32.size then none
      else if d < t then some (acc, rest)
      else readNumber fuel (k + base) bias (weight * (base - t)) acc rest

def decodeFrom : Nat → (n i bias : Nat) → (out cs : List Char) → Option (List Char)
  | 0, _, _, _, _, _ => none
  | _, _, _, _, out, [] => some out
  | fuel + 1, n, i, bias, out, cs =>
    (readNumber (cs.length + 1) base bias 1 0 cs).bind fun (delta, rest) =>
      let points := out.length + 1
      let bias := adapt delta points (i = 0)
      let place := i + delta
      let n := n + place / points
      let i := place % points
      if h : n.isValidChar then
        decodeFrom fuel n (i + 1) bias (out.take i ++ Char.ofNatAux n h :: out.drop i) rest
      else none

def decode? (cs : List Char) : Option (List Char) :=
  let tail := (cs.reverse.takeWhile (· ≠ '-')).reverse
  let plain := (cs.take (cs.length - tail.length)).dropLast
  decodeFrom (cs.length + 2) 128 0 72 plain tail

end Placeholder.Punycode
