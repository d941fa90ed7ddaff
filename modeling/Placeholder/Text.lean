/-!
# Heads and runs of a text

Reading off the head of a list of characters. `after?_eq_some_iff` and `takeUntil_append_dropUntil`
say that nothing is lost on the way.
-/
namespace Placeholder.Text

/-- What follows `lead`, when the text starts with it. -/
def after? : (lead cs : List Char) → Option (List Char)
  | [], cs => some cs
  | _ :: _, [] => none
  | l :: lead, c :: cs => if l = c then after? lead cs else none

theorem after?_append (lead cs : List Char) : after? lead (lead ++ cs) = some cs := by
  induction lead with
  | nil => rfl
  | cons l lead ih => simp [after?, ih]

theorem after?_eq_some_iff {lead cs rest : List Char} :
    after? lead cs = some rest ↔ cs = lead ++ rest := by
  constructor
  · intro h
    fun_induction after? lead cs with
    | case1 cs => simpa using h
    | case2 => simp at h
    | case3 l lead cs ih => simp [ih h]
    | case4 => simp at h
  · rintro rfl
    exact after?_append lead rest

/-- The characters before the first one in `stops`. -/
def takeUntil (stops : List Char) (cs : List Char) : List Char :=
  cs.takeWhile fun c => !stops.contains c

/-- The text from the first character in `stops` on. -/
def dropUntil (stops : List Char) (cs : List Char) : List Char :=
  cs.dropWhile fun c => !stops.contains c

@[simp] theorem takeUntil_append_dropUntil (stops cs : List Char) :
    takeUntil stops cs ++ dropUntil stops cs = cs :=
  List.takeWhile_append_dropWhile

/-- The runs of characters between the marks of a text. -/
def pieces (isMark : Char → Bool) : List Char → List (List Char)
  | [] => [[]]
  | c :: rest =>
    if isMark c then [] :: pieces isMark rest
    else
      match pieces isMark rest with
      | [] => [[c]]
      | first :: more => (c :: first) :: more

/-- A whole number below a limit, in decimal digits; a plus sign may stand before it. -/
def naturalBelow? (limit : Nat) (s : String) : Option Nat :=
  let digits := (after? ['+'] s.toList).getD s.toList
  let n := digits.foldl (fun n c => n * 10 + (c.toNat - 48)) 0
  if !digits.isEmpty && digits.all Char.isDigit && n < limit then some n else none

/-- The size of a text in UTF-8. -/
def utf8Size (cs : List Char) : Nat := cs.foldr (fun c n => c.utf8Size + n) 0

@[simp] theorem utf8Size_nil : utf8Size [] = 0 := rfl

@[simp] theorem utf8Size_append (a b : List Char) :
    utf8Size (a ++ b) = utf8Size a + utf8Size b := by
  induction a with
  | nil => exact (Nat.zero_add (utf8Size b)).symm
  | cons c a ih =>
    change c.utf8Size + utf8Size (a ++ b) = c.utf8Size + utf8Size a + utf8Size b
    rw [ih, Nat.add_assoc]

theorem utf8Size_pos {cs : List Char} (h : cs ≠ []) : 0 < utf8Size cs := by
  cases cs with
  | nil => exact absurd rfl h
  | cons c cs => exact Nat.add_pos_left c.utf8Size_pos _

end Placeholder.Text
