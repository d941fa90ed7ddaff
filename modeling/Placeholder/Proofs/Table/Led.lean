import Placeholder.Table

/-!
# Names under a lead

`Table.get?_ofLed`: a table made of the names with a lead has, under the rest of such a name, the
value that the whole name was given last. Exactly one lead is taken off, so no two names meet.
-/
namespace Placeholder.Table

theorem strip?_eq_some_iff {lead name rest : String} :
    strip? lead name = some rest ↔ rest ≠ "" ∧ name = lead ++ rest := by
  unfold strip?
  constructor
  · intro h
    split at h
    · next c cs hafter =>
        cases h
        refine ⟨?_, ?_⟩
        · intro hempty
          simpa using congrArg String.toList hempty
        · apply String.toList_inj.mp
          simpa using Text.after?_eq_some_iff.mp hafter
    · cases h
  · rintro ⟨hrest, rfl⟩
    obtain ⟨c, cs, hcs⟩ : ∃ c cs, rest.toList = c :: cs := by
      cases hlist : rest.toList with
      | nil => exact absurd (String.toList_inj.mp hlist) hrest
      | cons c cs => exact ⟨c, cs, rfl⟩
    rw [String.toList_append, Text.after?_append, hcs]
    simp only [← hcs, String.ofList_toList]

/-- Looked up among the stripped names, a name stands for itself under the lead. -/
theorem lookup_strip (lead name : String) (hname : name ≠ "") (pairs : List (String × String)) :
    (pairs.filterMap fun (n, value) => (strip? lead n).map fun rest => (rest, value)).lookup name =
      pairs.lookup (lead ++ name) := by
  induction pairs with
  | nil => rfl
  | cons p rest ih =>
      obtain ⟨n, value⟩ := p
      by_cases hn : n = lead ++ name
      · have hstrip : strip? lead n = some name := strip?_eq_some_iff.mpr ⟨hname, hn⟩
        subst hn
        simp [hstrip]
      · have hne : (lead ++ name == n) = false := beq_eq_false_iff_ne.mpr (Ne.symm hn)
        rw [List.lookup_cons, hne, ← ih]
        cases hstrip : strip? lead n with
        | none => simp [hstrip]
        | some other =>
            have hother : (name == other) = false := by
              apply beq_eq_false_iff_ne.mpr
              rintro rfl
              exact hn (strip?_eq_some_iff.mp hstrip).2
            simp [hstrip, List.lookup_cons, hother]

theorem get?_ofLed {name : String} (hname : name ≠ "") (lead : String)
    (pairs : List (String × String)) :
    (ofLed lead pairs).get? name = pairs.reverse.lookup (lead ++ name) := by
  rw [ofLed, get?_ofPairs, ← List.filterMap_reverse, lookup_strip lead name hname]

/-- In a table no name has a second value that could be found from the other end. -/
theorem lookup_reverse_entries (t : Table) (name : String) :
    t.entries.reverse.lookup name = t.get? name := by
  obtain ⟨entries, hnodup⟩ := t
  change entries.reverse.lookup name = entries.lookup name
  induction entries with
  | nil => rfl
  | cons e rest ih =>
      obtain ⟨n, value⟩ := e
      obtain ⟨hfresh, hrest⟩ := List.nodup_cons.mp hnodup
      rw [List.reverse_cons, List.lookup_append, ih hrest]
      by_cases hn : name = n
      · subst hn
        have hnone : rest.lookup name = none := by
          apply List.lookup_eq_none_iff.mpr
          intro p hp
          apply bne_iff_ne.mpr
          rintro rfl
          exact hfresh (List.mem_map.mpr ⟨p, hp, rfl⟩)
        simp [hnone]
      · have hne : (name == n) = false := beq_eq_false_iff_ne.mpr hn
        simp [List.lookup_cons, hne]

theorem get?_ofLed_entries {name : String} (hname : name ≠ "") (lead : String) (t : Table) :
    (ofLed lead t.entries).get? name = t.get? (lead ++ name) := by
  rw [get?_ofLed hname, lookup_reverse_entries]

end Placeholder.Table
