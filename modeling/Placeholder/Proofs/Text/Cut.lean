import Mathlib.Data.String.Basic
import Placeholder.Text

/-!
# Cutting a text at bytes

A text stands in memory in UTF-8, and a place in it is a number of bytes. `Text.cut?` takes out what
lies between two places, if characters begin or the text ends there; anywhere else the cut fails.
`cut?_eq_some_iff` says which cuts there are, by the characters before, between and after.
-/
namespace Placeholder.Text

theorem utf8Size_eq (cs : List Char) : utf8Size cs = (String.ofList cs).utf8ByteSize := by
  rw [String.utf8ByteSize_ofList]
  induction cs with
  | nil => rfl
  | cons c cs ih =>
      rw [String.utf8Len_cons, ← ih, Nat.add_comm]
      rfl

theorem utf8Size_toList (s : String) : utf8Size s.toList = s.utf8ByteSize := by
  rw [utf8Size_eq, String.ofList_toList]

/-- The text from one byte up to another. -/
def cut? (s : String) (start stop : Nat) : Option String :=
  if start ≤ stop ∧ (⟨start⟩ : String.Pos.Raw).IsValid s ∧ (⟨stop⟩ : String.Pos.Raw).IsValid s then
    some (String.Pos.Raw.extract s ⟨start⟩ ⟨stop⟩)
  else none

/-- The text from a byte on. -/
def from? (s : String) (start : Nat) : Option String := cut? s start s.utf8ByteSize

theorem isValid_iff {s : String} {n : Nat} : (⟨n⟩ : String.Pos.Raw).IsValid s ↔
    ∃ before after, s.toList = before ++ after ∧ n = utf8Size before := by
  rw [String.Pos.Raw.isValid_iff_exists_append]
  constructor
  · rintro ⟨a, b, rfl, hn⟩
    refine ⟨a.toList, b.toList, String.toList_append, ?_⟩
    rw [utf8Size_toList]
    exact congrArg String.Pos.Raw.byteIdx hn
  · rintro ⟨before, after, hs, rfl⟩
    refine ⟨String.ofList before, String.ofList after, ?_, ?_⟩
    · rw [← String.ofList_append, ← hs, String.ofList_toList]
    · rw [utf8Size_eq]
      rfl

variable {s : String} {before part after : List Char}

theorem cut?_of_append (h : s.toList = before ++ (part ++ after)) :
    cut? s (utf8Size before) (utf8Size before + utf8Size part) = some (String.ofList part) := by
  have hstart := isValid_iff.mpr ⟨before, part ++ after, h, rfl⟩
  have hstop : (⟨utf8Size before + utf8Size part⟩ : String.Pos.Raw).IsValid s := by
    refine isValid_iff.mpr ⟨before ++ part, after, ?_, ?_⟩
    · rw [h, List.append_assoc]
    · rw [utf8Size_append]
  have hs : s = String.ofList (before ++ part ++ after) := by
    rw [List.append_assoc, ← h, String.ofList_toList]
  have hlen (cs : List Char) : utf8Size cs = String.utf8Len cs := by
    rw [utf8Size_eq, String.utf8ByteSize_ofList]
  rw [cut?, if_pos ⟨Nat.le_add_right .., hstart, hstop⟩, hlen, hlen, hs]
  rw [String.extract_of_valid]

theorem cut?_eq_some_iff {start stop : Nat} {r : String} : cut? s start stop = some r ↔
    ∃ before part after, s.toList = before ++ (part ++ after) ∧ start = utf8Size before ∧
      stop = start + utf8Size part ∧ r = String.ofList part := by
  constructor
  · intro h
    have hcut := h
    unfold cut? at h
    split at h
    · next hvalid =>
        obtain ⟨hle, hstart, hstop⟩ := hvalid
        obtain ⟨before, rest, hs, rfl⟩ := isValid_iff.mp hstart
        obtain ⟨longer, after, hs', rfl⟩ := isValid_iff.mp hstop
        -- The second place is not before the first, so its text begins with the other one.
        obtain ⟨part, rfl⟩ : ∃ part, longer = before ++ part := by
          rcases List.append_eq_append_iff.mp (hs.symm.trans hs') with ⟨part, hp, -⟩ | ⟨part, hp, -⟩
          · exact ⟨part, hp⟩
          · refine ⟨[], ?_⟩
            rw [hp, utf8Size_append] at hle
            have hpart : part = [] := by
              by_contra hne
              have hpos := utf8Size_pos hne
              omega
            rw [hp, hpart, List.append_nil, List.append_nil]
        rw [List.append_assoc] at hs'
        refine ⟨before, part, after, hs', rfl, utf8Size_append before part, ?_⟩
        rw [utf8Size_append, cut?_of_append hs'] at hcut
        exact (Option.some.inj hcut).symm
    · cases h
  · rintro ⟨before, part, after, hs, rfl, rfl, rfl⟩
    exact cut?_of_append hs

theorem from?_of_append (h : s.toList = before ++ after) :
    from? s (utf8Size before) = some (String.ofList after) := by
  have hsize : s.utf8ByteSize = utf8Size before + utf8Size after := by
    rw [← utf8Size_toList, h, utf8Size_append]
  rw [from?, hsize]
  apply cut?_of_append
  rw [List.append_nil]
  exact h

theorem size_of_from? {start : Nat} {r : String} (h : from? s start = some r) :
    s.utf8ByteSize = start + r.utf8ByteSize := by
  obtain ⟨before, part, after, -, rfl, hstop, rfl⟩ := cut?_eq_some_iff.mp h
  rw [hstop, utf8Size_eq part]

/-! ## Finding -/

/-- The number of bytes before the first place from which on the text is so. -/
def offset? (here : List Char → Bool) : List Char → Option Nat
  | [] => none
  | c :: cs => if here (c :: cs) then some 0 else (offset? here cs).map (c.utf8Size + ·)

/-- The text goes on with one of these characters. -/
def startsIn (stops cs : List Char) : Bool := cs.head?.any stops.contains

theorem startsIn_of_dropUntil {stops cs rest : List Char} {c : Char}
    (h : dropUntil stops cs = c :: rest) : startsIn stops (c :: rest) = true := by
  have hhead := List.head?_dropWhile_not (fun c => !stops.contains c) cs
  rw [show cs.dropWhile _ = c :: rest from h] at hhead
  simpa [startsIn] using hhead

variable {here : List Char → Bool}

theorem offset?_cases (here : List Char → Bool) (cs : List Char) :
    ∃ passed rest, cs = passed ++ rest ∧
      (∀ before after, passed = before ++ after → after ≠ [] → here (after ++ rest) = false) ∧
      ((rest = [] ∧ offset? here cs = none) ∨
        (rest ≠ [] ∧ here rest = true ∧ offset? here cs = some (utf8Size passed))) := by
  induction cs with
  | nil =>
      refine ⟨[], [], rfl, ?_, .inl ⟨rfl, rfl⟩⟩
      intro before after he hne
      exact absurd (List.append_eq_nil_iff.mp he.symm).2 hne
  | cons c cs ih =>
      cases hc : here (c :: cs) with
      | true =>
          refine ⟨[], c :: cs, rfl, ?_, .inr ⟨List.cons_ne_nil c cs, hc, ?_⟩⟩
          · intro before after he hne
            exact absurd (List.append_eq_nil_iff.mp he.symm).2 hne
          · rw [offset?, if_pos hc]
            rfl
      | false =>
          obtain ⟨passed, rest, rfl, hpassed, hend⟩ := ih
          have hstep : offset? here (c :: (passed ++ rest)) =
              (offset? here (passed ++ rest)).map (c.utf8Size + ·) := by
            rw [offset?, hc]
            rfl
          refine ⟨c :: passed, rest, rfl, ?_, ?_⟩
          · intro before after he hne
            cases before with
            | nil =>
                obtain rfl : after = c :: passed := he.symm
                exact hc
            | cons b before => exact hpassed before after (List.cons.inj he).2 hne
          · rw [hstep]
            rcases hend with ⟨hrest, hnone⟩ | ⟨hrest, hhere, hsome⟩
            · exact .inl ⟨hrest, by rw [hnone]; rfl⟩
            · exact .inr ⟨hrest, hhere, by rw [hsome]; rfl⟩

theorem offset?_lt {cs : List Char} {n : Nat} (h : offset? here cs = some n) :
    n < utf8Size cs := by
  obtain ⟨passed, rest, rfl, -, ⟨-, hnone⟩ | ⟨hrest, -, hsome⟩⟩ := offset?_cases here cs
  · cases hnone.symm.trans h
  · obtain rfl := Option.some.inj (hsome.symm.trans h)
    have hpos := utf8Size_pos hrest
    rw [utf8Size_append]
    omega

theorem offset?_startsIn (stops cs : List Char) : offset? (startsIn stops) cs =
    if dropUntil stops cs = [] then none else some (utf8Size (takeUntil stops cs)) := by
  induction cs with
  | nil => rfl
  | cons c cs ih =>
      cases hc : stops.contains c with
      | true =>
          have hhere : startsIn stops (c :: cs) = true := hc
          rw [offset?, if_pos hhere, dropUntil, takeUntil, List.dropWhile_cons, List.takeWhile_cons,
            hc]
          rfl
      | false =>
          have hhere : ¬ startsIn stops (c :: cs) = true := by
            rw [show startsIn stops (c :: cs) = stops.contains c from rfl, hc]
            exact Bool.false_ne_true
          have hdrop : dropUntil stops (c :: cs) = dropUntil stops cs := by
            rw [dropUntil, List.dropWhile_cons, hc]
            rfl
          have htake : takeUntil stops (c :: cs) = c :: takeUntil stops cs := by
            rw [takeUntil, List.takeWhile_cons, hc]
            rfl
          rw [offset?, if_neg hhere, ih, hdrop, htake]
          split
          · rfl
          · rfl

/-- Cuts out what stands before the first of some characters, and tells its size. The inner option is
none if there is none of them or nothing before it. -/
def upTo? (stops : List Char) (s : String) : Option (Option (String × Nat)) :=
  match offset? (startsIn stops) s.toList with
  | none => some none
  | some 0 => some none
  | some size => (cut? s 0 size).map fun part => some (part, size)

theorem upTo?_of_dropUntil_nil {stops cs : List Char} (h : dropUntil stops cs = []) :
    upTo? stops (String.ofList cs) = some none := by
  have hoffset := offset?_startsIn stops cs
  rw [if_pos h] at hoffset
  simp only [upTo?, String.toList_ofList, hoffset]

theorem upTo?_of_takeUntil_nil {stops cs : List Char} (h : takeUntil stops cs = []) :
    upTo? stops (String.ofList cs) = some none := by
  have hoffset := offset?_startsIn stops cs
  rw [h] at hoffset
  split at hoffset
  · simp only [upTo?, String.toList_ofList, hoffset]
  · simp only [upTo?, String.toList_ofList, hoffset, utf8Size_nil]

theorem upTo?_of_ne_nil {stops cs : List Char} (htake : takeUntil stops cs ≠ [])
    (hdrop : dropUntil stops cs ≠ []) : upTo? stops (String.ofList cs) =
      some (some (String.ofList (takeUntil stops cs), utf8Size (takeUntil stops cs))) := by
  have hoffset := offset?_startsIn stops cs
  rw [if_neg hdrop] at hoffset
  have hcs : (String.ofList cs).toList = [] ++ (takeUntil stops cs ++ dropUntil stops cs) := by
    rw [String.toList_ofList, takeUntil_append_dropUntil, List.nil_append]
  have hcut := cut?_of_append hcs
  rw [utf8Size_nil, Nat.zero_add] at hcut
  obtain ⟨n, hn⟩ := Nat.exists_eq_succ_of_ne_zero (Nat.pos_iff_ne_zero.mp (utf8Size_pos htake))
  rw [hn] at hoffset hcut ⊢
  simp only [upTo?, String.toList_ofList, hoffset, hcut, Option.map_some]

end Placeholder.Text
