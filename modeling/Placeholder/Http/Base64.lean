/-!
# Base64

Bytes as letters: three bytes make four letters, and `=` fills up the last four.
-/
namespace Placeholder.Base64

def letter (n : Nat) : Char :=
  if n < 26 then Char.ofNat (65 + n)
  else if n < 52 then Char.ofNat (71 + n)
  else if n < 62 then Char.ofNat (n - 4)
  else if n = 62 then '+' else '/'

/-- Four letters for a number of 24 bits. -/
def four (n : Nat) : List Char :=
  [letter (n / 262144), letter (n / 4096 % 64), letter (n / 64 % 64), letter (n % 64)]

def encode : List UInt8 → List Char
  | a :: b :: c :: rest => four (a.toNat * 65536 + b.toNat * 256 + c.toNat) ++ encode rest
  | [a, b] => (four (a.toNat * 65536 + b.toNat * 256)).take 3 ++ ['=']
  | [a] => (four (a.toNat * 65536)).take 2 ++ ['=', '=']
  | [] => []

def ofText (s : String) : String := String.ofList (encode s.toUTF8.toList)

end Placeholder.Base64
