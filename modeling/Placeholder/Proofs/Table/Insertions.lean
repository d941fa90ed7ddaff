import Placeholder.Proofs.Table.Led
import Placeholder.Registry

/-!
# Tables under a lead, and what is inserted later

A table starts with the names that have a lead and then grows. `Table.answers_of_led` says what it
answers in the end: what was inserted last, else what the name under its lead was given last. No
other name is in it, which gives its size.
-/
namespace Placeholder.Table

variable {pairs : List (String × String)} {name value : String}

/-! ## The last pair of a name -/

/-- The last of the pairs with this name has this value. -/
def LastOf (pairs : List (String × String)) (name value : String) : Prop :=
  ∃ before after, pairs = before ++ (name, value) :: after ∧ name ∉ after.map Prod.fst

theorem lookup_eq_none_iff_notMem : pairs.lookup name = none ↔ name ∉ pairs.map Prod.fst := by
  rw [List.lookup_eq_none_iff]
  constructor
  · intro h hmem
    obtain ⟨p, hp, rfl⟩ := List.mem_map.mp hmem
    exact bne_iff_ne.mp (h p hp) rfl
  · intro h p hp
    apply bne_iff_ne.mpr
    rintro rfl
    exact h (List.mem_map_of_mem hp)

theorem lookup_reverse_eq_none_iff :
    pairs.reverse.lookup name = none ↔ name ∉ pairs.map Prod.fst := by
  rw [lookup_eq_none_iff_notMem, List.map_reverse, List.mem_reverse]

theorem lookup_reverse_eq_some_iff :
    pairs.reverse.lookup name = some value ↔ LastOf pairs name value := by
  constructor
  · intro h
    obtain ⟨after, before, heq, hafter⟩ := List.lookup_eq_some_iff.mp h
    refine ⟨before.reverse, after.reverse, ?_, ?_⟩
    · simpa using congrArg List.reverse heq
    · apply lookup_reverse_eq_none_iff.mp
      rw [List.reverse_reverse]
      exact List.lookup_eq_none_iff.mpr hafter
  · rintro ⟨before, after, rfl, hafter⟩
    rw [List.reverse_append, List.lookup_append, List.reverse_cons, List.lookup_append,
      lookup_reverse_eq_none_iff.mpr hafter]
    simp

/-! ## Names -/

theorem mem_names_iff {t : Table} : name ∈ t.names ↔ ∃ value, t.get? name = some value := by
  rw [← Option.ne_none_iff_exists', ne_eq, get?, lookup_eq_none_iff_notMem, Decidable.not_not]
  rfl

theorem get?_ofLed_empty (lead : String) (pairs : List (String × String)) :
    (ofLed lead pairs).get? "" = none := by
  rw [ofLed, get?_ofPairs, lookup_reverse_eq_none_iff]
  intro hmem
  obtain ⟨⟨n, v⟩, hp, hn⟩ := List.mem_map.mp hmem
  obtain ⟨⟨key, v'⟩, -, hkey⟩ := List.mem_filterMap.mp hp
  obtain ⟨rest, hstrip, heq⟩ := Option.map_eq_some_iff.mp hkey
  cases heq
  exact (strip?_eq_some_iff.mp hstrip).1 hn

/-! ## Insertions -/

/-- The table after these insertions, made one after the other. -/
def insertAll (t : Table) (pairs : List (String × String)) : Table :=
  pairs.foldl (fun t p => t.insert p.1 p.2) t

theorem get?_insertAll (t : Table) (pairs : List (String × String)) (name : String) :
    (t.insertAll pairs).get? name = (pairs.reverse.lookup name).or (t.get? name) :=
  get?_foldl_insert t pairs name

/-- What a name has come to under a lead, with the insertions that were made later. -/
inductive Answers (lead : String) (pairs insertions : List (String × String)) :
    (name value : String) → Prop
  | inserted {name value : String} (h : LastOf insertions name value) :
      Answers lead pairs insertions name value
  | led {name value : String} (hnew : name ∉ insertions.map Prod.fst) (hname : name ≠ "")
      (h : LastOf pairs (lead ++ name) value) : Answers lead pairs insertions name value

theorem get?_eq_some_iff_answers (lead : String) (pairs insertions : List (String × String)) :
    ((ofLed lead pairs).insertAll insertions).get? name = some value ↔
      Answers lead pairs insertions name value := by
  rw [get?_insertAll, Option.or_eq_some_iff, lookup_reverse_eq_some_iff,
    lookup_reverse_eq_none_iff]
  constructor
  · rintro (h | ⟨hnew, h⟩)
    · exact .inserted h
    · have hname : name ≠ "" := by
        rintro rfl
        rw [get?_ofLed_empty] at h
        cases h
      rw [get?_ofLed hname, lookup_reverse_eq_some_iff] at h
      exact .led hnew hname h
  · intro h
    cases h with
    | inserted h => exact .inl h
    | led hnew hname h =>
        refine .inr ⟨hnew, ?_⟩
        rw [get?_ofLed hname, lookup_reverse_eq_some_iff]
        exact h

/-- A table that starts with the names under a lead answers what was inserted last for a name, else
what was given last to the name under the lead. It holds the names that it answers and no others,
each once: an empty name only comes in later, and no two names meet when one lead is taken off. -/
theorem answers_of_led (lead : String) (pairs insertions : List (String × String)) :
    (∀ name value, ((ofLed lead pairs).insertAll insertions).get? name = some value ↔
        Answers lead pairs insertions name value) ∧
      (∃ names : List String, names.Nodup ∧
        (∀ name, name ∈ names ↔ ∃ value, Answers lead pairs insertions name value) ∧
        ((ofLed lead pairs).insertAll insertions).size = names.length) ∧
      (∀ (ω : Type) (w : ω) (name : String),
        (Source.ofTable ((ofLed lead pairs).insertAll insertions)).ask name w =
          (.ok (((ofLed lead pairs).insertAll insertions).get? name), w)) ∧
      (ofLed lead pairs).get? "" = none ∧
      (∀ key other name, strip? lead key = some name → strip? lead other = some name →
        key = other) ∧
      ∀ name, name ≠ "" → strip? lead (lead ++ name) = some name := by
  have hget (name value : String) :
      ((ofLed lead pairs).insertAll insertions).get? name = some value ↔
        Answers lead pairs insertions name value :=
    get?_eq_some_iff_answers lead pairs insertions
  refine ⟨hget, ?_, fun ω w name => rfl, get?_ofLed_empty lead pairs, ?_, ?_⟩
  · refine ⟨((ofLed lead pairs).insertAll insertions).names,
      ((ofLed lead pairs).insertAll insertions).nodup, ?_, ?_⟩
    · intro name
      rw [mem_names_iff]
      exact exists_congr (hget name)
    · exact (List.length_map Prod.fst).symm
  · intro key other name hkey hother
    rw [(strip?_eq_some_iff.mp hkey).2, (strip?_eq_some_iff.mp hother).2]
  · intro name hname
    exact strip?_eq_some_iff.mpr ⟨hname, rfl⟩

end Placeholder.Table
