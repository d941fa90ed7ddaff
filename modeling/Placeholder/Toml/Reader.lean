import Placeholder.Toml
import Placeholder.Binary64

/-!
# TOML texts

Reads a TOML 1.0 document. A text is first cut into statements, then the statements build the
table of the document. Every fault makes the whole text unreadable. At most 79 arrays and inline
tables may lie in one another, and a dotted key has at most 79 parts.
-/
namespace Placeholder.Toml

abbrev Chars := List Char

/-- The depth of nesting and the number of key parts that are too much. -/
def depthLimit : Nat := 80

/-! ## Blanks and line ends -/

def isBlank (c : Char) : Bool := c = ' ' || c = '\t'

def skipBlank (cs : Chars) : Chars := cs.dropWhile isBlank

/-- A character that may stand in a comment, and in a text unless it is special there. -/
def isPrintable (c : Char) : Bool := c = '\t' || (' ' ≤ c && c ≠ '\x7f')

def newline? : Chars → Option Chars
  | '\n' :: rest => some rest
  | '\r' :: '\n' :: rest => some rest
  | _ => none

/-- Passes over the rest of a line: blanks, a comment and the line end or the end of the text. -/
def lineEnd? (cs : Chars) : Option Chars :=
  let rest := match skipBlank cs with
    | '#' :: rest => rest.dropWhile isPrintable
    | rest => rest
  if rest.isEmpty then some [] else newline? rest

/-- Passes over blanks, line ends and comments. -/
def skipLines : Nat → Chars → Option Chars
  | 0, cs => some cs
  | fuel + 1, cs =>
    match skipBlank cs with
    | '#' :: rest => (newline? (rest.dropWhile isPrintable)).bind (skipLines fuel)
    | '\n' :: rest => skipLines fuel rest
    | '\r' :: rest => (newline? ('\r' :: rest)).bind (skipLines fuel)
    | rest => some rest

/-! ## Numbers -/

def isDigit (c : Char) : Bool := '0' ≤ c && c ≤ '9'

/-- Digits of a base with single underscores between them. -/
def digitRun? (base : Char → Option Nat) : Chars → Option (List Nat × Chars)
  | [] => none
  | c :: rest => (base c).map fun d => run [d] rest
where
  run (acc : List Nat) : Chars → List Nat × Chars
    | '_' :: c :: rest =>
      match base c with
      | some d => run (d :: acc) rest
      | none => (acc.reverse, '_' :: c :: rest)
    | c :: rest =>
      match base c with
      | some d => run (d :: acc) rest
      | none => (acc.reverse, c :: rest)
    | [] => (acc.reverse, [])

def decimalDigit (c : Char) : Option Nat := if isDigit c then some (c.toNat - 48) else none

def hexDigit (c : Char) : Option Nat :=
  if isDigit c then some (c.toNat - 48)
  else if 'a' ≤ c && c ≤ 'f' then some (c.toNat - 87)
  else if 'A' ≤ c && c ≤ 'F' then some (c.toNat - 55)
  else none

def octalDigit (c : Char) : Option Nat :=
  if '0' ≤ c && c ≤ '7' then some (c.toNat - 48) else none

def binaryDigit (c : Char) : Option Nat :=
  if c = '0' then some 0 else if c = '1' then some 1 else none

def ofDigits (base : Nat) (ds : List Nat) : Nat := ds.foldl (fun n d => base * n + d) 0

def sign : Chars → Bool × Chars
  | '+' :: rest => (false, rest)
  | '-' :: rest => (true, rest)
  | rest => (false, rest)

/-- A decimal number without a leading zero. -/
def whole? (cs : Chars) : Option (List Nat × Chars) :=
  match cs with
  | '0' :: rest => some ([0], rest)
  | cs => digitRun? decimalDigit cs

def power? : Chars → Option (Int × Chars)
  | c :: rest =>
    if c = 'e' || c = 'E' then
      let (negative, rest) := sign rest
      (digitRun? decimalDigit rest).map fun (ds, rest) =>
        (if negative then -Int.ofNat (ofDigits 10 ds) else Int.ofNat (ofDigits 10 ds), rest)
    else none
  | [] => none

/-- A float; one that is too large is refused unless it is negative. -/
def float? (cs : Chars) : Option (Toml × Chars) :=
  let (negative, body) := sign cs
  (whole? body).bind fun (ds, rest) =>
    let finish (places : List Nat) (power : Int) (rest : Chars) : Option (Toml × Chars) :=
      let d : Decimal := ⟨ofDigits 10 (ds ++ places), power - Int.ofNat places.length⟩
      if negative || (Binary64.ofDecimal? false d).isSome then some (.float, rest) else none
    match rest with
    | '.' :: after =>
      (digitRun? decimalDigit after).bind fun (places, rest) =>
        match power? rest with
        | some (power, rest) => finish places power rest
        | none => finish places 0 rest
    | rest => (power? rest).bind fun (power, rest) => finish [] power rest

def word? (w : String) (cs : Chars) : Option Chars :=
  if w.toList.isPrefixOf cs then some (cs.drop w.length) else none

def special? (cs : Chars) : Option (Toml × Chars) :=
  let (_, body) := sign cs
  ((word? "inf" body).or (word? "nan" body)).map fun rest => (.float, rest)

def fitsWord (n : Int) : Bool := -0x8000000000000000 ≤ n && n < 0x8000000000000000

def based? (base : Nat) (digit : Char → Option Nat) (cs : Chars) : Option (Toml × Chars) :=
  (digitRun? digit cs).bind fun (ds, rest) =>
    let n := Int.ofNat (ofDigits base ds)
    if fitsWord n then some (.integer n, rest) else none

def integer? (cs : Chars) : Option (Toml × Chars) :=
  match cs with
  | '0' :: 'x' :: rest => based? 16 hexDigit rest
  | '0' :: 'o' :: rest => based? 8 octalDigit rest
  | '0' :: 'b' :: rest => based? 2 binaryDigit rest
  | cs =>
    let (negative, body) := sign cs
    (whole? body).bind fun (ds, rest) =>
      let n := Int.ofNat (ofDigits 10 ds)
      let n := if negative then -n else n
      if fitsWord n then some (.integer n, rest) else none

/-! ## Dates and times -/

/-- A number of exactly `n` digits. -/
def fixed? (n : Nat) (cs : Chars) : Option (Nat × Chars) :=
  let ds := (cs.take n).filterMap decimalDigit
  if ds.length = n then some (ofDigits 10 ds, cs.drop n) else none

def char? (c : Char) : Chars → Option Chars
  | d :: rest => if c = d then some rest else none
  | [] => none

def leapYear (y : Nat) : Bool := y % 4 = 0 && (y % 100 ≠ 0 || y % 400 = 0)

def daysIn (year month : Nat) : Nat :=
  if month = 2 then if leapYear year then 29 else 28
  else if month = 4 || month = 6 || month = 9 || month = 11 then 30
  else 31

def date? (cs : Chars) : Option Chars :=
  (fixed? 4 cs).bind fun (year, cs) =>
  (char? '-' cs).bind fun cs =>
  (fixed? 2 cs).bind fun (month, cs) =>
  (char? '-' cs).bind fun cs =>
  (fixed? 2 cs).bind fun (day, cs) =>
    if 1 ≤ month && month ≤ 12 && 1 ≤ day && day ≤ daysIn year month then some cs else none

def hourMinute? (cs : Chars) : Option Chars :=
  (fixed? 2 cs).bind fun (hour, cs) =>
  (char? ':' cs).bind fun cs =>
  (fixed? 2 cs).bind fun (minute, cs) =>
    if hour ≤ 23 && minute ≤ 59 then some cs else none

def time? (cs : Chars) : Option Chars :=
  (hourMinute? cs).bind fun cs =>
  (char? ':' cs).bind fun cs =>
  (fixed? 2 cs).bind fun (second, cs) =>
    if second ≤ 60 then
      match cs with
      | '.' :: c :: rest => if isDigit c then some (rest.dropWhile isDigit) else some cs
      | cs => some cs
    else none

/-- Passes over an offset if there is one; a broken one is a fault. -/
def offset? : Chars → Option Chars
  | [] => some []
  | c :: rest =>
    if c = 'Z' || c = 'z' then some rest
    else if c = '+' || c = '-' then hourMinute? rest
    else some (c :: rest)

def datetime? (cs : Chars) : Option (Toml × Chars) :=
  match date? cs with
  | some (c :: rest) =>
    if c = 'T' || c = 't' || c = ' ' then
      match time? rest with
      | some rest => (offset? rest).map fun rest => (.datetime, rest)
      | none => some (.datetime, c :: rest)
    else some (.datetime, c :: rest)
  | some [] => some (.datetime, [])
  | none => (time? cs).map fun rest => (.datetime, rest)

def number? (cs : Chars) : Option (Toml × Chars) :=
  (((datetime? cs).or (float? cs)).or (special? cs)).or (integer? cs)

/-! ## Texts -/

/-- A character by its number, written with exactly `n` hexadecimal digits. -/
def scalar? (n : Nat) (cs : Chars) : Option (Char × Chars) :=
  let ds := (cs.take n).filterMap hexDigit
  if ds.length = n then
    let v := ofDigits 16 ds
    if h : v.isValidChar then some (Char.ofNatAux v h, cs.drop n) else none
  else none

def escape? : Chars → Option (Char × Chars)
  | 'b' :: rest => some ('\x08', rest)
  | 't' :: rest => some ('\t', rest)
  | 'n' :: rest => some ('\n', rest)
  | 'f' :: rest => some ('\x0c', rest)
  | 'r' :: rest => some ('\r', rest)
  | '"' :: rest => some ('"', rest)
  | '\\' :: rest => some ('\\', rest)
  | 'u' :: rest => scalar? 4 rest
  | 'U' :: rest => scalar? 8 rest
  | _ => none

/-- The rest of a text in double quotes on one line. -/
def basic? : Nat → Chars → Chars → Option (Chars × Chars)
  | 0, _, _ => none
  | _, _, [] => none
  | fuel + 1, acc, c :: rest =>
    if c = '"' then some (acc.reverse, rest)
    else if c = '\\' then (escape? rest).bind fun (d, rest) => basic? fuel (d :: acc) rest
    else if isPrintable c then basic? fuel (c :: acc) rest
    else none

/-- The rest of a text in single quotes on one line. -/
def literal? (cs : Chars) : Option (Chars × Chars) :=
  let body := cs.takeWhile fun c => c ≠ '\'' && isPrintable c
  match cs.drop body.length with
  | '\'' :: rest => some (body, rest)
  | _ => none

def skipSpace : Chars → Chars
  | '\r' :: '\n' :: rest => skipSpace rest
  | c :: rest => if isBlank c || c = '\n' then skipSpace rest else c :: rest
  | [] => []

/-- What the quotes at the head of a text of several lines mean: the end, with the quotes that
still belong to the text, or quotes within it. -/
def closing (quote : Char) (cs : Chars) : Option Nat × Chars :=
  let run := (cs.takeWhile (· = quote)).length
  if run < 3 then (none, cs.drop run)
  else (some (min (run - 3) 2), cs.drop (3 + min (run - 3) 2))

/-- The rest of a text of several lines; `escapes` when a backslash is special in it. -/
def multiline? (quote : Char) (escapes : Bool) : Nat → Chars → Chars → Option (Chars × Chars)
  | 0, _, _ => none
  | _, _, [] => none
  | fuel + 1, acc, c :: rest =>
    if c = quote then
      match closing quote (c :: rest) with
      | (some inside, after) => some ((List.replicate inside quote ++ acc).reverse, after)
      | (none, after) =>
        let run := (c :: rest).length - after.length
        if after.isEmpty then none
        else multiline? quote escapes fuel (List.replicate run quote ++ acc) after
    else if c = '\\' && escapes then
      match newline? (skipBlank rest) with
      | some after => multiline? quote escapes fuel acc (skipSpace after)
      | none =>
        (escape? rest).bind fun (d, rest) => multiline? quote escapes fuel (d :: acc) rest
    else if isPrintable c then multiline? quote escapes fuel (c :: acc) rest
    else
      (newline? (c :: rest)).bind fun rest => multiline? quote escapes fuel ('\n' :: acc) rest

/-- A text of several lines without the line end that may follow the opening quotes. -/
def afterOpening (cs : Chars) : Chars := (newline? cs).getD cs

def text? (cs : Chars) : Option (String × Chars) :=
  let found := match cs with
    | '"' :: '"' :: '"' :: rest =>
      multiline? '"' true (rest.length + 1) [] (afterOpening rest)
    | '"' :: rest => basic? (rest.length + 1) [] rest
    | '\'' :: '\'' :: '\'' :: rest =>
      multiline? '\'' false (rest.length + 1) [] (afterOpening rest)
    | '\'' :: rest => literal? rest
    | _ => none
  found.map fun (s, rest) => (String.ofList s, rest)

/-! ## Keys -/

def isBare (c : Char) : Bool := c.isAlphanum || c = '-' || c = '_'

def keyPart? (cs : Chars) : Option (String × Chars) :=
  match cs with
  | '"' :: rest => (basic? (rest.length + 1) [] rest).map fun (s, rest) => (String.ofList s, rest)
  | '\'' :: rest => (literal? rest).map fun (s, rest) => (String.ofList s, rest)
  | cs =>
    match cs.takeWhile isBare with
    | [] => none
    | part => some (String.ofList part, cs.dropWhile isBare)

/-- A dotted key with the blanks around it: the parts before the last, and the last. -/
def key? : Nat → List String → Chars → Option (List String × String × Chars)
  | 0, _, _ => none
  | fuel + 1, before, cs =>
    (keyPart? (skipBlank cs)).bind fun (part, rest) =>
      match skipBlank rest with
      | '.' :: rest => key? fuel (part :: before) rest
      | rest => some (before.reverse, part, rest)

def dottedKey? (cs : Chars) : Option (List String × String × Chars) :=
  key? (depthLimit - 1) [] cs

/-! ## Values -/

mutual

/-- Reads a value. `fuel` bounds the calls, `depth` counts the containers around the value. -/
def value? : (fuel depth : Nat) → Chars → Option (Toml × Chars)
  | 0, _, _ => none
  | fuel + 1, depth, cs =>
    match cs with
    | [] => none
    | '"' :: _ => (text? cs).map fun (s, rest) => (.string s, rest)
    | '\'' :: _ => (text? cs).map fun (s, rest) => (.string s, rest)
    | '[' :: rest =>
      if depth + 1 ≥ depthLimit then none
      else (items? fuel (depth + 1) [] rest).map fun (vs, rest) => (.array vs, rest)
    | '\x7b' :: rest =>
      if depth + 1 ≥ depthLimit then none
      else
        match skipBlank rest with
        | '\x7d' :: rest => some (.table [], rest)
        | rest =>
          (assignments? fuel (depth + 1) [] rest).bind fun (as, rest) =>
            (inlineMembers as).map fun ms => (.table ms, rest)
    | 't' :: _ => (word? "true" cs).map fun rest => (.boolean true, rest)
    | 'f' :: _ => (word? "false" cs).map fun rest => (.boolean false, rest)
    | cs => number? cs

def items? : (fuel depth : Nat) → List Toml → Chars → Option (List Toml × Chars)
  | 0, _, _, _ => none
  | fuel + 1, depth, acc, cs =>
    (skipLines (cs.length + 1) cs).bind fun cs =>
      match cs with
      | ']' :: rest => some (acc.reverse, rest)
      | cs =>
        (value? fuel depth cs).bind fun (v, rest) =>
        (skipLines (rest.length + 1) rest).bind fun rest =>
          match rest with
          | ',' :: rest => items? fuel depth (v :: acc) rest
          | ']' :: rest => some ((v :: acc).reverse, rest)
          | _ => none

def assignments? : (fuel depth : Nat) → List (List String × String × Toml) → Chars →
    Option (List (List String × String × Toml) × Chars)
  | 0, _, _, _ => none
  | fuel + 1, depth, acc, cs =>
    (dottedKey? cs).bind fun (path, key, rest) =>
    (char? '=' rest).bind fun rest =>
    (value? fuel depth (skipBlank rest)).bind fun (v, rest) =>
      let acc := (path, key, v) :: acc
      match skipBlank rest with
      | ',' :: rest => assignments? fuel depth acc rest
      | '\x7d' :: rest => some (acc.reverse, rest)
      | _ => none

end

/-! ## Documents -/

def statement? (cs : Chars) : Option (Statement × Chars) :=
  match cs with
  | '[' :: '[' :: rest =>
    (dottedKey? rest).bind fun (path, key, rest) =>
    (char? ']' rest).bind fun rest =>
    (char? ']' rest).bind fun rest =>
    (lineEnd? rest).map fun rest => (.element path key, rest)
  | '[' :: rest =>
    (dottedKey? rest).bind fun (path, key, rest) =>
    (char? ']' rest).bind fun rest =>
    (lineEnd? rest).map fun rest => (.table path key, rest)
  | cs =>
    (dottedKey? cs).bind fun (path, key, rest) =>
    (char? '=' rest).bind fun rest =>
    (value? (2 * cs.length + 2) 0 (skipBlank rest)).bind fun (v, rest) =>
    (lineEnd? rest).map fun rest => (.assign path key v, rest)

def statements? : Nat → List Statement → Chars → Option (List Statement)
  | 0, _, _ => none
  | fuel + 1, acc, cs =>
    match skipBlank cs with
    | [] => some acc.reverse
    | '#' :: rest => (lineEnd? ('#' :: rest)).bind (statements? fuel acc)
    | '\n' :: rest => statements? fuel acc rest
    | '\r' :: rest => (newline? ('\r' :: rest)).bind (statements? fuel acc)
    | rest => (statement? rest).bind fun (s, rest) => statements? fuel (s :: acc) rest

/-- A text without the mark of byte order that may open it. -/
def withoutMark : Chars → Chars
  | '\ufeff' :: rest => rest
  | cs => cs

def ofText? (text : String) : Option (List (String × Toml)) :=
  let cs := withoutMark text.toList
  (statements? (cs.length + 1) [] cs).bind fun statements =>
    (build [] [] statements).map memberValues

end Placeholder.Toml
