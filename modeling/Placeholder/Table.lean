import Placeholder.Text

/-!
# Tables of values

Names with values, each name once. `Table.get?_insert` and `Table.get?_ofPairs` say what a name
gives: the value written last.
-/
namespace Placeholder

/-- Names and values; no name occurs twice. -/
structure Table where
  entries : List (String × String)
  nodup : (entries.map Prod.fst).Nodup

namespace Table

def empty : Table := ⟨[], .nil⟩

def get? (t : Table) (name : String) : Option String := t.entries.lookup name

def size (t : Table) : Nat := t.entries.length

def isEmpty (t : Table) : Bool := t.entries.isEmpty

def names (t : Table) : List String := t.entries.map Prod.fst

/-- The entries with the value of `name` replaced, or with a new entry at the end. -/
def put (name value : String) : List (String × String) → List (String × String)
  | [] => [(name, value)]
  | (n, v) :: rest => if name = n then (n, value) :: rest else (n, v) :: put name value rest

theorem map_fst_put (name value : String) (entries : List (String × String)) :
    (put name value entries).map Prod.fst =
      if name ∈ entries.map Prod.fst then entries.map Prod.fst
      else entries.map Prod.fst ++ [name] := by
  induction entries with
  | nil => simp [put]
  | cons e rest ih =>
    obtain ⟨n, v⟩ := e
    by_cases h : name = n
    · simp [put, h]
    · simp only [put, h, if_false, List.map_cons, List.mem_cons, false_or, ih]
      split <;> simp

theorem nodup_put {name value : String} {entries : List (String × String)}
    (h : (entries.map Prod.fst).Nodup) : ((put name value entries).map Prod.fst).Nodup := by
  rw [map_fst_put]
  split
  · exact h
  · next hn =>
    rw [List.nodup_append]
    refine ⟨h, by simp, ?_⟩
    intro a ha b hb hab
    rw [List.mem_singleton] at hb
    exact hn (hb ▸ hab ▸ ha)

def insert (t : Table) (name value : String) : Table :=
  ⟨put name value t.entries, nodup_put t.nodup⟩

theorem lookup_put (name value other : String) (entries : List (String × String)) :
    (put name value entries).lookup other =
      if other = name then some value else entries.lookup other := by
  induction entries with
  | nil =>
    by_cases h : other = name
    · simp [put, h]
    · have hb : (other == name) = false := by simpa using h
      simp [put, List.lookup_cons, h, hb]
  | cons e rest ih =>
    obtain ⟨n, v⟩ := e
    by_cases hn : name = n
    · subst hn
      by_cases h : other = name
      · simp [put, h]
      · have hb : (other == name) = false := by simpa using h
        simp [put, List.lookup_cons, h, hb]
    · by_cases h : other = n
      · subst h
        simp [put, hn, Ne.symm hn]
      · have hb : (other == n) = false := by simpa using h
        simp [put, hn, List.lookup_cons, hb, ih]

@[simp] theorem get?_insert (t : Table) (name value other : String) :
    (t.insert name value).get? other = if other = name then some value else t.get? other :=
  lookup_put name value other t.entries

/-- The table in which the last value of each name counts. -/
def ofPairs (pairs : List (String × String)) : Table :=
  pairs.foldl (fun t (name, value) => t.insert name value) empty

theorem get?_foldl_insert (t : Table) (pairs : List (String × String)) (name : String) :
    (pairs.foldl (fun t (n, v) => t.insert n v) t).get? name =
      (pairs.reverse.lookup name).or (t.get? name) := by
  induction pairs generalizing t with
  | nil => simp
  | cons p rest ih =>
    obtain ⟨n, v⟩ := p
    rw [List.foldl_cons, ih, get?_insert, List.reverse_cons, List.lookup_append]
    by_cases h : name = n
    · subst h
      cases rest.reverse.lookup name <;> simp
    · have hb : (name == n) = false := by simpa using h
      simp [h, List.lookup_cons, hb]

theorem get?_ofPairs (pairs : List (String × String)) (name : String) :
    (ofPairs pairs).get? name = pairs.reverse.lookup name := by
  rw [ofPairs, get?_foldl_insert]
  simp [get?, empty]

/-- The name without this lead; none for a name that has not the lead or nothing after it. -/
def strip? (lead name : String) : Option String :=
  match Text.after? lead.toList name.toList with
  | some (c :: rest) => some (String.ofList (c :: rest))
  | _ => none

/-- The entries whose name has this lead, under the rest of the name. -/
def ofLed (lead : String) (pairs : List (String × String)) : Table :=
  ofPairs (pairs.filterMap fun (name, value) => (strip? lead name).map fun rest => (rest, value))

end Table
end Placeholder
