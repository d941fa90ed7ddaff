/-!
# Percent-encoding

Text in a URL is UTF-8 with some bytes written as a percent sign and two hexadecimal digits. Which
bytes are written so depends on the part of the URL.
-/
namespace Placeholder.Percent

/-- Bytes that a part of a URL cannot hold as they are. -/
abbrev Class := UInt8 → Bool

def isOneOf (cs : String) (b : UInt8) : Bool := cs.toUTF8.toList.contains b

/-- Controls, and all bytes beyond ASCII. -/
def controls : Class := fun b => b < 0x20 || b > 0x7e

def fragment : Class := fun b => controls b || isOneOf " \"<>`" b

def path : Class := fun b => fragment b || isOneOf "#?\x7b\x7d" b

def userinfo : Class := fun b => path b || isOneOf "/:;=@[\\]^|" b

/-- A segment given as text: the marks that would end or recode it are encoded, too. -/
def segment : Class := fun b => path b || isOneOf "/%" b

def specialSegment : Class := fun b => segment b || isOneOf "\\" b

def query : Class := fun b => controls b || isOneOf " \"#<>" b

def specialQuery : Class := fun b => query b || isOneOf "'" b

def hexDigit (n : Nat) : Char :=
  if n < 10 then Char.ofNat (48 + n) else Char.ofNat (55 + n)

def byte (b : UInt8) : List Char := ['%', hexDigit (b.toNat / 16), hexDigit (b.toNat % 16)]

def encodeByte (c : Class) (b : UInt8) : List Char :=
  if c b then byte b else [Char.ofNat b.toNat]

def encodeBytes (c : Class) (bs : List UInt8) : List Char := bs.flatMap (encodeByte c)

def encode (c : Class) (s : String) : String := String.ofList (encodeBytes c s.toUTF8.toList)

def encodeChars (c : Class) (cs : List Char) : String := encode c (String.ofList cs)

def hexValue? (b : UInt8) : Option UInt8 :=
  if 48 ≤ b && b ≤ 57 then some (b - 48)
  else if 65 ≤ b && b ≤ 70 then some (b - 55)
  else if 97 ≤ b && b ≤ 102 then some (b - 87)
  else none

/-- The bytes for which encoded bytes stand; a lone percent sign stands for itself. -/
def decodeBytes : List UInt8 → List UInt8
  | [] => []
  | 37 :: a :: b :: rest =>
    match hexValue? a, hexValue? b with
    | some x, some y => (x * 16 + y) :: decodeBytes rest
    | _, _ => 37 :: decodeBytes (a :: b :: rest)
  | b :: rest => b :: decodeBytes rest

/-! ## Forms -/

/-- Bytes of a form that are written as they are. -/
def isFormPlain (b : UInt8) : Bool :=
  (48 ≤ b && b ≤ 57) || (65 ≤ b && b ≤ 90) || (97 ≤ b && b ≤ 122) || isOneOf "*-._" b

def formByte (b : UInt8) : List Char :=
  if b = 32 then ['+'] else if isFormPlain b then [Char.ofNat b.toNat] else byte b

def formText (s : String) : String := String.ofList (s.toUTF8.toList.flatMap formByte)

def formPair (p : String × String) : String := formText p.1 ++ "=" ++ formText p.2

def form (pairs : List (String × String)) : String := "&".intercalate (pairs.map formPair)

end Placeholder.Percent
