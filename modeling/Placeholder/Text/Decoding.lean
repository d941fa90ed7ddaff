/-!
# Text out of bytes

Bytes that are meant to be text, read without ever failing: what is no text becomes the
replacement character, one for each longest start of a character that breaks off. A mark at the
head tells UTF-8 and the two orders of UTF-16 apart; without one the bytes are UTF-8.
-/
namespace Placeholder.Text

def replacement : Char := Char.ofNat 0xFFFD

/-- A character of which some bytes are still to come. -/
structure Pending where
  left : Nat
  /-- The range of the next byte. -/
  low : UInt8
  high : UInt8
  value : Nat

/-- What a first byte gives: a whole character, or one that goes on. -/
def beginByte (b : UInt8) : List Char × Option Pending :=
  let n := b.toNat
  if n < 0x80 then ([Char.ofNat n], none)
  else if 0xC2 ≤ n && n ≤ 0xDF then ([], some ⟨1, 0x80, 0xBF, n - 0xC0⟩)
  else if 0xE0 ≤ n && n ≤ 0xEF then
    ([], some ⟨2, if n = 0xE0 then 0xA0 else 0x80, if n = 0xED then 0x9F else 0xBF, n - 0xE0⟩)
  else if 0xF0 ≤ n && n ≤ 0xF4 then
    ([], some ⟨3, if n = 0xF0 then 0x90 else 0x80, if n = 0xF4 then 0x8F else 0xBF, n - 0xF0⟩)
  else ([replacement], none)

/-- What a byte gives after those before it. -/
def nextByte : Option Pending → UInt8 → List Char × Option Pending
  | none, b => beginByte b
  | some p, b =>
    if p.low ≤ b && b ≤ p.high then
      let value := p.value * 64 + (b.toNat - 0x80)
      if p.left = 1 then ([Char.ofNat value], none)
      else ([], some ⟨p.left - 1, 0x80, 0xBF, value⟩)
    else
      let (cs, state) := beginByte b
      (replacement :: cs, state)

def utf8From : Option Pending → List UInt8 → List Char
  | none, [] => []
  | some _, [] => [replacement]
  | state, b :: rest =>
    let (cs, state) := nextByte state b
    cs ++ utf8From state rest

def ofUtf8 (bytes : List UInt8) : String := String.ofList (utf8From none bytes)

/-- Units of 16 bits, the high byte first when `big`. An odd last byte is no unit. -/
def units (big : Bool) : List UInt8 → List (Option Nat)
  | a :: b :: rest =>
    some (if big then a.toNat * 256 + b.toNat else b.toNat * 256 + a.toNat) :: units big rest
  | [_] => [none]
  | [] => []

def isHigh (u : Nat) : Bool := 0xD800 ≤ u && u < 0xDC00

def isLow (u : Nat) : Bool := 0xDC00 ≤ u && u < 0xE000

/-- Characters out of units; surrogates count only in pairs. -/
def utf16 : List (Option Nat) → List Char
  | some a :: some b :: rest =>
    if isHigh a && isLow b then
      Char.ofNat (0x10000 + (a - 0xD800) * 1024 + (b - 0xDC00)) :: utf16 rest
    else
      (if isHigh a || isLow a then replacement else Char.ofNat a) :: utf16 (some b :: rest)
  | some a :: rest =>
    (if isHigh a || isLow a then replacement else Char.ofNat a) :: utf16 rest
  | none :: rest => replacement :: utf16 rest
  | [] => []

def ofBytes (bytes : ByteArray) : String :=
  match bytes.toList with
  | 0xEF :: 0xBB :: 0xBF :: rest => ofUtf8 rest
  | 0xFE :: 0xFF :: rest => String.ofList (utf16 (units true rest))
  | 0xFF :: 0xFE :: rest => String.ofList (utf16 (units false rest))
  | all => ofUtf8 all

end Placeholder.Text
