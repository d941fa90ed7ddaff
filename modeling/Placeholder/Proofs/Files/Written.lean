import Placeholder.Files

/-!
# What a write changes

A write that succeeds changes one place and nothing else. At an ordinary place the bytes stand
there, and are read again under the same path; a special file has been handed them.
-/
namespace Placeholder.Files

variable {fs : Files} {place : List String} {bytes : ByteArray}

/-! ## Entries -/

/-- Some known directory lies at the place or below it. -/
def Through (fs : Files) (place : List String) : Prop := ∃ d ∈ fs.folders, place <+: d

theorem any_runsThrough_iff : fs.folders.any (runsThrough place) = true ↔ fs.Through place := by
  simp only [List.any_eq_true, runsThrough, List.isPrefixOf_iff_prefix, Through]

theorem Through.above {above : List String} (h : fs.Through place) (ha : above <+: place) :
    fs.Through above := by
  obtain ⟨d, hd, hp⟩ := h
  exact ⟨d, hd, ha.trans hp⟩

theorem Through.dropLast (h : fs.Through place) : fs.Through place.dropLast :=
  h.above (List.dropLast_prefix place)

/-- No special file is at the place. -/
def Ordinary (fs : Files) (place : List String) : Prop := ∀ d, fs.entry? place ≠ some (.device d)

theorem entry?_eq_device_iff {d : Device} :
    fs.entry? place = some (.device d) ↔ fs.devices.lookup place = some d := by
  unfold entry?
  cases fs.devices.lookup place with
  | some found => simp
  | none =>
      simp only [reduceCtorEq, iff_false]
      split
      · exact nofun
      · split <;> exact nofun

theorem ordinary_iff : fs.Ordinary place ↔ fs.devices.lookup place = none := by
  simp only [Ordinary, ne_eq, entry?_eq_device_iff, Option.eq_none_iff_forall_ne_some]

theorem entry?_of_file (ho : fs.Ordinary place) (h : fs.contents.lookup place = some bytes) :
    fs.entry? place = some (.file bytes) := by
  unfold entry?
  simp only [ordinary_iff.mp ho, h]

theorem through_of_directory (h : fs.entry? place = some .directory) : fs.Through place := by
  unfold entry? at h
  split at h
  · cases h
  · split at h
    · cases h
    · split at h
      · next hany => exact any_runsThrough_iff.mp hany
      · cases h

/-- An entry depends on what is at its place and on whether directories run through it. -/
theorem entry?_congr {fs' : Files} (hd : fs'.devices.lookup place = fs.devices.lookup place)
    (hl : fs'.contents.lookup place = fs.contents.lookup place)
    (ht : fs'.Through place ↔ fs.Through place) : fs'.entry? place = fs.entry? place := by
  have hany : fs'.folders.any (runsThrough place) = fs.folders.any (runsThrough place) := by
    rw [Bool.eq_iff_iff, any_runsThrough_iff, any_runsThrough_iff, ht]
  unfold entry?
  simp only [hd, hl, hany]

/-! ## Places of paths -/

/-- A component of a path that leads down. -/
structure IsStep (c : String) : Prop where
  ne_here : ¬(c = "" || c = ".") = true
  ne_up : c ≠ ".."
  short : ¬c.utf8ByteSize > maxComponent

/-- Where components lead from a directory, one after the other. -/
inductive Walks (fs : Files) (creating : Bool) : List String → List String → List String → Prop
  | here {here : List String} : Walks fs creating here [] here
  | stay {here rest place : List String} {c : String} (hh : fs.entry? here = some .directory)
      (hc : (c = "" || c = ".") = true) (h : Walks fs creating here rest place) :
      Walks fs creating here (c :: rest) place
  | up {here rest place : List String} (hh : fs.entry? here = some .directory)
      (h : Walks fs creating here.dropLast rest place) :
      Walks fs creating here (".." :: rest) place
  | down {here rest place : List String} {c : String} {e : Entry}
      (hh : fs.entry? here = some .directory) (hc : IsStep c)
      (he : fs.entry? (here ++ [c]) = some e) (h : Walks fs creating (here ++ [c]) rest place) :
      Walks fs creating here (c :: rest) place
  | make {here : List String} {c : String} (hcreating : creating = true)
      (hh : fs.entry? here = some .directory) (hc : IsStep c)
      (he : fs.entry? (here ++ [c]) = none) : Walks fs creating here [c] (here ++ [c])

theorem walks_of_walk {creating : Bool} {here cs : List String}
    (h : fs.walk creating here cs = .ok place) : fs.Walks creating here cs place := by
  induction cs generalizing here with
  | nil =>
      cases h
      exact .here
  | cons c rest ih =>
      rw [walk] at h
      cases hh : fs.entry? here with
      | none =>
          rw [hh] at h
          cases h
      | some e =>
          rw [hh] at h
          cases e with
          | file bytes => cases h
          | device d => cases h
          | directory =>
              simp only at h
              split at h
              · exact .stay hh ‹_› (ih h)
              · split at h
                · subst ‹c = ".."›
                  exact .up hh (ih h)
                · split at h
                  · cases h
                  · have hc : IsStep c := ⟨‹_›, ‹_›, ‹_›⟩
                    cases he : fs.entry? (here ++ [c]) with
                    | some e =>
                        rw [he] at h
                        exact .down hh hc he (ih h)
                    | none =>
                        simp only [he] at h
                        split at h
                        · next hmake =>
                            cases h
                            obtain ⟨hcreating, hrest⟩ := (Bool.and_eq_true _ _).mp hmake
                            obtain rfl := List.isEmpty_iff.mp hrest
                            exact .make hcreating hh hc he
                        · split at h <;> cases h

theorem Walks.walk_eq {creating : Bool} {here cs : List String}
    (h : fs.Walks creating here cs place) : fs.walk creating here cs = .ok place := by
  induction h with
  | here => rfl
  | stay hh hc _ ih => rw [walk, hh, ← ih, if_pos hc]
  | up hh _ ih =>
      rw [walk, hh, ← ih]
      rfl
  | down hh hc he _ ih =>
      rw [walk, hh, ← ih]
      simp only [if_neg hc.ne_here, if_neg hc.ne_up, if_neg hc.short, he]
  | make hcreating hh hc he =>
      rw [walk, hh]
      simp only [if_neg hc.ne_here, if_neg hc.ne_up, if_neg hc.short, he, hcreating]
      rfl

/-- Directories run through all that lies above the place of a path. -/
theorem Walks.through {creating : Bool} {here cs : List String}
    (h : fs.Walks creating here cs place) (hh : fs.Through here.dropLast) :
    fs.Through place.dropLast := by
  induction h with
  | here => exact hh
  | stay _ _ _ ih => exact ih hh
  | up hhere _ ih => exact ih (through_of_directory hhere).dropLast.dropLast
  | down hhere _ _ _ ih =>
      refine ih ?_
      rw [List.dropLast_concat]
      exact through_of_directory hhere
  | make _ hhere =>
      rw [List.dropLast_concat]
      exact through_of_directory hhere

/-- The directory from which a path is walked. -/
def base (fs : Files) (path : String) : List String :=
  if path.startsWith "/" then [] else fs.directory

/-- A path that the system takes at all: neither empty nor too long, and without a zero. -/
structure IsPath (path : String) : Prop where
  ne_empty : ¬path.isEmpty = true
  no_zero : ¬path.toList.contains '\x00' = true
  short : ¬path.utf8ByteSize > maxPath

theorem locate_eq_ok_iff {creating : Bool} {path : String} :
    fs.locate creating path = .ok place ↔
      IsPath path ∧ fs.Walks creating (fs.base path) (components path) place := by
  constructor
  · intro h
    unfold locate at h
    split at h
    · cases h
    · split at h
      · cases h
      · split at h
        · cases h
        · exact ⟨⟨‹_›, ‹_›, ‹_›⟩, walks_of_walk h⟩
  · rintro ⟨hpath, h⟩
    rw [locate, if_neg hpath.ne_empty, if_neg hpath.no_zero, if_neg hpath.short]
    exact h.walk_eq

theorem through_of_locate {creating : Bool} {path : String}
    (h : fs.locate creating path = .ok place) : fs.Through place.dropLast := by
  have hstart : fs.Through fs.directory := ⟨_, List.mem_cons_self, List.prefix_rfl⟩
  refine (locate_eq_ok_iff.mp h).2.through (hstart.above ?_)
  unfold base
  split
  · exact List.nil_prefix
  · exact List.dropLast_prefix fs.directory

/-! ## Bytes put at a place -/

theorem lookup_cons_eq_ite {β : Type} (other p : List String) (b : β)
    (rest : List (List String × β)) :
    ((p, b) :: rest).lookup other = if other = p then some b else rest.lookup other := by
  by_cases h : other = p
  · simp [h]
  · have hb : (other == p) = false := by simpa using h
    simp [List.lookup_cons, h, hb]

theorem lookup_put (place other : List String) (bytes : ByteArray)
    (contents : List (List String × ByteArray)) :
    (put place bytes contents).lookup other =
      if other = place then some bytes else contents.lookup other := by
  induction contents with
  | nil => rw [put, lookup_cons_eq_ite]
  | cons e rest ih =>
      obtain ⟨p, b⟩ := e
      rw [put, lookup_cons_eq_ite]
      split
      · next hp =>
          rw [hp, lookup_cons_eq_ite]
          split <;> rfl
      · next hp =>
          rw [lookup_cons_eq_ite, ih]
          split
          · next h => rw [if_neg fun ho => hp (h.symm.trans ho)]
          · rfl

theorem mem_map_put {d : List String} {contents : List (List String × ByteArray)} :
    d ∈ (put place bytes contents).map Prod.fst ↔ d = place ∨ d ∈ contents.map Prod.fst := by
  induction contents with
  | nil => simp [put]
  | cons e rest ih =>
      obtain ⟨p, b⟩ := e
      rw [put]
      split
      · next hp =>
          subst hp
          simp
      · rw [List.map_cons, List.mem_cons, ih, List.map_cons, List.mem_cons]
        exact or_left_comm

/-- The tree with bytes put at a place. -/
def holding (fs : Files) (place : List String) (bytes : ByteArray) : Files :=
  { fs with contents := put place bytes fs.contents }

theorem mem_folders_holding {d : List String} :
    d ∈ (fs.holding place bytes).folders ↔ d = place.dropLast ∨ d ∈ fs.folders := by
  have hmem (contents : List (List String × ByteArray)) :
      d ∈ contents.map (fun e => e.1.dropLast) ↔
        ∃ p ∈ contents.map Prod.fst, p.dropLast = d := by simp
  unfold folders holding
  rw [List.mem_append, List.mem_append (t := fs.contents.map _), hmem, hmem]
  simp only [mem_map_put, or_and_right, exists_or, exists_eq_left]
  rw [eq_comm, or_left_comm]

theorem through_holding {other : List String} (hp : fs.Through place.dropLast) :
    (fs.holding place bytes).Through other ↔ fs.Through other := by
  constructor
  · rintro ⟨d, hd, hprefix⟩
    rcases mem_folders_holding.mp hd with rfl | hd
    · exact hp.above hprefix
    · exact ⟨d, hd, hprefix⟩
  · rintro ⟨d, hd, hprefix⟩
    exact ⟨d, mem_folders_holding.mpr (.inr hd), hprefix⟩

/-- Bytes that are put below a directory change no other entry. -/
theorem entry?_holding {other : List String} (hp : fs.Through place.dropLast)
    (ho : other ≠ place) : Files.entry? (fs.holding place bytes) other = fs.entry? other := by
  refine entry?_congr rfl ?_ (through_holding hp)
  rw [holding, lookup_put, if_neg ho]

theorem entry?_holding_self (ho : fs.Ordinary place) :
    Files.entry? (fs.holding place bytes) place = some (.file bytes) := by
  have ho' : (fs.holding place bytes).Ordinary place := ordinary_iff.mpr (ordinary_iff.mp ho :)
  refine entry?_of_file ho' ?_
  rw [holding, lookup_put, if_pos rfl]

/-- The path of a place that is no directory leads there again once there is something. -/
theorem Walks.holding {here cs : List String} (hp : fs.Through place.dropLast)
    (ho : fs.Ordinary place) (hd : fs.entry? place ≠ some .directory)
    (h : fs.Walks true here cs place) : (fs.holding place bytes).Walks false here cs place := by
  -- No directory on the way is the place itself, so the bytes there hide none of them.
  have hkept {other : List String} (he : fs.entry? other = some .directory) :
      Files.entry? (fs.holding place bytes) other = some .directory := by
    rw [entry?_holding hp, he]
    rintro rfl
    exact hd he
  induction h with
  | here => exact .here
  | stay hh hc _ ih => exact .stay (hkept hh) hc (ih hp ho hd hkept)
  | up hh _ ih => exact .up (hkept hh) (ih hp ho hd hkept)
  | @down here _ place c e hh hc he _ ih =>
      obtain ⟨e', he'⟩ : ∃ e', Files.entry? (fs.holding place bytes) (here ++ [c]) = some e' := by
        by_cases hplace : here ++ [c] = place
        · rw [hplace]
          exact ⟨_, entry?_holding_self ho⟩
        · exact ⟨e, (entry?_holding hp hplace).trans he⟩
      exact .down (hkept hh) hc he' (ih hp ho hd hkept)
  | make _ hh hc he =>
      exact .down (hkept hh) hc (entry?_holding_self ho) .here

/-! ## Bytes handed to a special file -/

/-- The tree with bytes handed to the special file at a place. -/
def handing (fs : Files) (place : List String) (bytes : ByteArray) : Files :=
  { fs with devices := hand place bytes fs.devices }

theorem lookup_hand (place other : List String) (bytes : ByteArray)
    (devices : List (List String × Device)) :
    (hand place bytes devices).lookup other =
      if other = place then (devices.lookup other).map (·.handed bytes)
      else devices.lookup other := by
  induction devices with
  | nil => exact (ite_self none).symm
  | cons e rest ih =>
      obtain ⟨p, d⟩ := e
      rw [hand, List.map_cons, ← hand, lookup_cons_eq_ite, lookup_cons_eq_ite, ih]
      by_cases ho : other = p
      · subst ho
        simp only [if_true]
        split <;> rfl
      · simp only [if_neg ho]

theorem folders_handing : (fs.handing place bytes).folders = fs.folders := by
  have hpaths : (hand place bytes fs.devices).map (fun e => e.1.dropLast) =
      fs.devices.map fun e => e.1.dropLast := List.map_map
  simp only [folders, handing, hpaths]

/-- Bytes that are handed to a special file change no other entry. -/
theorem entry?_handing {other : List String} (ho : other ≠ place) :
    Files.entry? (fs.handing place bytes) other = fs.entry? other := by
  refine entry?_congr ?_ rfl ?_
  · rw [handing, lookup_hand, if_neg ho]
  · rw [Through, folders_handing, Through]

theorem entry?_handing_self {d : Device} (h : fs.entry? place = some (.device d)) :
    Files.entry? (fs.handing place bytes) place = some (.device (d.handed bytes)) := by
  rw [entry?_eq_device_iff] at h ⊢
  rw [handing, lookup_hand, if_pos rfl, h, Option.map_some]

/-! ## Writes -/

theorem read_eq {path : String} (h : fs.locate false path = .ok place)
    (he : fs.entry? place = some (.file bytes)) : fs.read path = .ok bytes := by
  simp only [read, h, Except.bind, he]

theorem outlet?_of_ordinary {path : String} (h : fs.locate true path = .ok place)
    (ho : fs.Ordinary place) : fs.outlet? path = none := by
  simp only [outlet?, h]
  split
  · next d hd => exact absurd hd (ho d)
  · rfl

theorem outlet?_of_device {path : String} {d : Device} (h : fs.locate true path = .ok place)
    (hd : fs.entry? place = some (.device d)) : fs.outlet? path = d.outlet := by
  simp only [outlet?, h, hd]

/-- What a write has made of a tree: at the place of the path it has put the bytes, or else it has
handed them to the special file there. -/
theorem write_eq_ok {fs' : Files} {path : String} (h : fs.write path bytes = .ok fs') :
    ∃ place, fs.locate true path = .ok place ∧
      (fs.Ordinary place ∧ fs.entry? place ≠ some .directory ∧ fs' = fs.holding place bytes ∨
        ∃ d, fs.entry? place = some (.device d) ∧ d.refuses bytes = none ∧
          fs' = fs.handing place bytes) := by
  unfold write at h
  cases hplace : fs.locate true path with
  | error fault =>
      rw [hplace] at h
      cases h
  | ok place =>
      rw [hplace] at h
      refine ⟨place, rfl, ?_⟩
      simp only [Except.bind] at h
      split at h
      · cases h
      · next d hd =>
          split at h
          · cases h
          · next hrefuses =>
              cases h
              exact .inr ⟨d, hd, hrefuses, rfl⟩
      · next hdirectory hdevice =>
          cases h
          exact .inl ⟨hdevice, hdirectory, rfl⟩

/-- A write changes the entry of its place and no other. What it has written to an ordinary place is
what is read again there, and a special file has been handed it. -/
theorem written {fs' : Files} {path : String} (h : fs.write path bytes = .ok fs') :
    ∃ place, fs.locate true path = .ok place ∧
      (∀ other, other ≠ place → fs'.entry? other = fs.entry? other) ∧
      (fs.Ordinary place → fs'.read path = .ok bytes) ∧
      ∀ d, fs.entry? place = some (.device d) →
        fs'.entry? place = some (.device (d.handed bytes)) := by
  obtain ⟨place, hplace, ⟨ho, hd, rfl⟩ | ⟨d, hd, -, rfl⟩⟩ := write_eq_ok h
  · have hp := through_of_locate hplace
    obtain ⟨hpath, hwalks⟩ := locate_eq_ok_iff.mp hplace
    have hlocate : (fs.holding place bytes).locate false path = .ok place :=
      locate_eq_ok_iff.mpr ⟨hpath, hwalks.holding hp ho hd⟩
    exact ⟨place, hplace, fun _ => entry?_holding hp,
      fun _ => read_eq hlocate (entry?_holding_self ho), fun d hd' => absurd hd' (ho d)⟩
  · exact ⟨place, hplace, fun _ => entry?_handing, fun ho => absurd hd (ho d),
      fun d' hd' => entry?_handing_self hd'⟩

end Placeholder.Files
