import Placeholder.Json

/-!
# JSON texts

A JSON text is read in two steps. `Syntax.ofBytes?` checks the grammar and keeps each string and
number as written; a string that is no Unicode text, or a number that is too large, is a fault
only where it is used. `Syntax.value?` then makes a value of the whole text, and `Syntax.fields?`
takes named fields out of it and passes over the rest.
-/
namespace Placeholder.Json

/-- A number as written: sign, digits and power of ten, and whether it is a whole number. -/
structure Numeral where
  negative : Bool
  magnitude : Decimal
  whole : Bool
  deriving DecidableEq, Repr

/-- A text that follows the grammar. A string is `none` when it is no Unicode text. -/
inductive Syntax where
  | null
  | bool (b : Bool)
  | numeral (n : Numeral)
  | string (s : Option String)
  | array (items : List Syntax)
  | object (members : List (Option String × Syntax))
  deriving Inhabited

namespace Syntax

abbrev Bytes := List UInt8

def skipBlank (bs : Bytes) : Bytes :=
  bs.dropWhile fun b => b = 32 || b = 9 || b = 10 || b = 13

def word? (w : String) (bs : Bytes) : Option Bytes :=
  let lead := w.toUTF8.toList
  if lead.isPrefixOf bs then some (bs.drop lead.length) else none

def isDigit (b : UInt8) : Bool := 48 ≤ b && b ≤ 57

def digits (bs : Bytes) : List Nat × Bytes :=
  ((bs.takeWhile isDigit).map fun b => b.toNat - 48, bs.dropWhile isDigit)

def ofDigits (ds : List Nat) : Nat := ds.foldl (fun n d => 10 * n + d) 0

def fraction? : Bytes → Option (Option (List Nat) × Bytes)
  | 46 :: bs =>
    match digits bs with
    | ([], _) => none
    | (ds, rest) => some (some ds, rest)
  | bs => some (none, bs)

def power? : Bytes → Option (Option Int × Bytes)
  | b :: bs =>
    if b = 101 || b = 69 then
      let (negative, bs) := match bs with
        | 43 :: bs => (false, bs)
        | 45 :: bs => (true, bs)
        | bs => (false, bs)
      match digits bs with
      | ([], _) => none
      | (ds, rest) =>
        let n := Int.ofNat (ofDigits ds)
        some (some (if negative then -n else n), rest)
    else some (none, b :: bs)
  | [] => some (none, [])

/-- Reads a number; a leading zero stands alone. -/
def numeral? (bs : Bytes) : Option (Numeral × Bytes) :=
  let (negative, bs) := match bs with
    | 45 :: bs => (true, bs)
    | bs => (false, bs)
  match digits bs with
  | ([], _) => none
  | (whole, bs) =>
    if whole.length > 1 && whole.head? = some 0 then none
    else
      (fraction? bs).bind fun (frac, bs) =>
      (power? bs).map fun (power, bs) =>
        let places := frac.getD []
        let magnitude : Decimal :=
          ⟨ofDigits (whole ++ places), power.getD 0 - Int.ofNat places.length⟩
        (⟨negative, magnitude, frac.isNone && power.isNone⟩, bs)

def hexValue? (b : UInt8) : Option Nat :=
  if isDigit b then some (b.toNat - 48)
  else if 97 ≤ b && b ≤ 102 then some (b.toNat - 87)
  else if 65 ≤ b && b ≤ 70 then some (b.toNat - 55)
  else none

def unit? : Bytes → Option (Nat × Bytes)
  | a :: b :: c :: d :: rest =>
    match hexValue? a, hexValue? b, hexValue? c, hexValue? d with
    | some a, some b, some c, some d => some (((a * 16 + b) * 16 + c) * 16 + d, rest)
    | _, _, _, _ => none
  | _ => none

/-- A piece of a quoted text. -/
inductive Piece where
  | byte (b : UInt8)
  /-- A unit of UTF-16, written as an escape. -/
  | unit (n : Nat)

def escape? : Bytes → Option (Piece × Bytes)
  | 34 :: rest => some (.byte 34, rest)
  | 92 :: rest => some (.byte 92, rest)
  | 47 :: rest => some (.byte 47, rest)
  | 98 :: rest => some (.byte 8, rest)
  | 102 :: rest => some (.byte 12, rest)
  | 110 :: rest => some (.byte 10, rest)
  | 114 :: rest => some (.byte 13, rest)
  | 116 :: rest => some (.byte 9, rest)
  | 117 :: rest => (unit? rest).map fun (n, rest) => (.unit n, rest)
  | _ => none

/-- Reads up to the closing quote; a control character must be escaped. -/
def pieces? : Nat → List Piece → Bytes → Option (List Piece × Bytes)
  | 0, _, _ => none
  | _, _, [] => none
  | fuel + 1, acc, b :: rest =>
    if b = 34 then some (acc.reverse, rest)
    else if b = 92 then
      (escape? rest).bind fun (p, rest) => pieces? fuel (p :: acc) rest
    else if b < 32 then none
    else pieces? fuel (.byte b :: acc) rest

/-- The UTF-8 bytes of the pieces; surrogate units must come in pairs. -/
def utf8? : List Piece → Option Bytes
  | [] => some []
  | .byte b :: rest => (utf8? rest).map (b :: ·)
  | .unit n :: .unit m :: rest =>
    if 0xD800 ≤ n && n < 0xDC00 then
      if 0xDC00 ≤ m && m < 0xE000 then
        let c := Char.ofNat (0x10000 + (n - 0xD800) * 0x400 + (m - 0xDC00))
        (utf8? rest).map ((String.singleton c).toUTF8.toList ++ ·)
      else none
    else if 0xDC00 ≤ n && n < 0xE000 then none
    else (utf8? (.unit m :: rest)).map ((String.singleton (Char.ofNat n)).toUTF8.toList ++ ·)
  | .unit n :: rest =>
    if 0xD800 ≤ n && n < 0xE000 then none
    else (utf8? rest).map ((String.singleton (Char.ofNat n)).toUTF8.toList ++ ·)

def pieceText? (ps : List Piece) : Option String :=
  (utf8? ps).bind fun bs => String.fromUTF8? ⟨bs.toArray⟩

def quoted? : Bytes → Option (Option String × Bytes)
  | 34 :: rest =>
    (pieces? (rest.length + 1) [] rest).map fun (ps, rest) => (pieceText? ps, rest)
  | _ => none

mutual

/-- Reads one value with the blanks before it. The first argument bounds the depth of calls. -/
def value : Nat → Bytes → Option (Syntax × Bytes)
  | 0, _ => none
  | fuel + 1, bs =>
    match skipBlank bs with
    | [] => none
    | 91 :: rest =>
      match skipBlank rest with
      | 93 :: rest => some (array [], rest)
      | rest => (elements fuel rest).map fun (items, rest) => (array items, rest)
    | 123 :: rest =>
      match skipBlank rest with
      | 125 :: rest => some (object [], rest)
      | rest => (pairs fuel rest).map fun (members, rest) => (object members, rest)
    | 34 :: rest => (quoted? (34 :: rest)).map fun (s, rest) => (string s, rest)
    | 110 :: rest => (word? "ull" rest).map fun rest => (null, rest)
    | 116 :: rest => (word? "rue" rest).map fun rest => (bool true, rest)
    | 102 :: rest => (word? "alse" rest).map fun rest => (bool false, rest)
    | bs => (numeral? bs).map fun (n, rest) => (numeral n, rest)

def elements : Nat → Bytes → Option (List Syntax × Bytes)
  | 0, _ => none
  | fuel + 1, bs =>
    (value fuel bs).bind fun (v, rest) =>
      match skipBlank rest with
      | 44 :: rest => (elements fuel rest).map fun (vs, rest) => (v :: vs, rest)
      | 93 :: rest => some ([v], rest)
      | _ => none

def pairs : Nat → Bytes → Option (List (Option String × Syntax) × Bytes)
  | 0, _ => none
  | fuel + 1, bs =>
    (quoted? (skipBlank bs)).bind fun (name, rest) =>
      match skipBlank rest with
      | 58 :: rest =>
        (value fuel rest).bind fun (v, rest) =>
          match skipBlank rest with
          | 44 :: rest => (pairs fuel rest).map fun (ms, rest) => ((name, v) :: ms, rest)
          | 125 :: rest => some ([(name, v)], rest)
          | _ => none
      | _ => none

end

def ofBytes? (bytes : ByteArray) : Option Syntax :=
  let bs := bytes.toList
  (value (2 * bs.length + 2) bs).bind fun (v, rest) =>
    if (skipBlank rest).isEmpty then some v else none

end Syntax

/-- The value of a number; a whole number that fits no word becomes a double, and one that is too
large for a double has no value. -/
def Numeral.number? (n : Numeral) : Option Number :=
  let real := (Binary64.ofDecimal? n.negative n.magnitude).map Number.real
  if n.whole then
    match n.negative with
    | false => if n.magnitude.digits < UInt64.size then some (.natural n.magnitude.digits) else real
    | true =>
      if n.magnitude.digits ≠ 0 && n.magnitude.digits ≤ 0x8000000000000000 then
        some (.negative n.magnitude.digits)
      else real
  else real

namespace Syntax

def depthLimit : Nat := 127

mutual

/-- The value of a text, at most `depth` containers deep; of members with one name the last. -/
def valueWithin? : Nat → Syntax → Option Json
  | _, null => some .null
  | _, bool b => some (.bool b)
  | _, numeral n => n.number?.map .number
  | _, string s => s.map .string
  | 0, array _ => none
  | 0, object _ => none
  | depth + 1, array items => (itemValues? depth items).map .array
  | depth + 1, object members => (memberValues? depth members).map Json.ofMembers

def itemValues? : Nat → List Syntax → Option (List Json)
  | _, [] => some []
  | depth, s :: rest =>
    (valueWithin? depth s).bind fun v => (itemValues? depth rest).map (v :: ·)

def memberValues? : Nat → List (Option String × Syntax) → Option (List (String × Json))
  | _, [] => some []
  | depth, (name, s) :: rest =>
    name.bind fun name =>
    (valueWithin? depth s).bind fun v => (memberValues? depth rest).map ((name, v) :: ·)

end

def value? (s : Syntax) : Option Json := valueWithin? depthLimit s

/-- The fields with these names: from an object that names none of them twice, or from an array
of as many items, in order. Other members are passed over unread. -/
def fields? (names : List String) : Syntax → Option (List (Option Syntax))
  | array items =>
    if items.length = names.length then some (items.map some) else none
  | object members =>
    if members.any fun (n, _) => n.isNone then none
    else
      names.mapM fun name =>
        match members.filter fun (n, _) => n = some name with
        | [] => some none
        | [(_, v)] => some (some v)
        | _ => none
  | _ => none

/-- An optional text: missing and null are absent, anything but a text is a fault. -/
def optionalText? : Option Syntax → Option (Option String)
  | none => some none
  | some null => some none
  | some (string (some s)) => some (some s)
  | some _ => none

end Syntax

def ofBytes? (bytes : ByteArray) : Option Json :=
  (Syntax.ofBytes? bytes).bind Syntax.value?

def ofText? (s : String) : Option Json := ofBytes? s.toUTF8

end Placeholder.Json
