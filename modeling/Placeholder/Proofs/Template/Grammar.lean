import Placeholder.Token

/-!
# The grammar of tokens

`Token.Spells` is the grammar, without regard to how a text is read: which texts are tokens, and
which token each of them spells. `Token.read?_eq_some_iff` says that reading finds exactly these
texts at the head of a longer one.
-/
namespace Placeholder

namespace Text

theorem not_mem_of_mem_takeUntil {stops cs : List Char} {c : Char} (h : c ∈ takeUntil stops cs) :
    c ∉ stops := by
  have hall := List.all_eq_true.mp (List.all_takeWhile (l := cs) (p := fun c => !stops.contains c)) c h
  simpa using hall

theorem takeUntil_append {stops cs : List Char} {stop : Char} (rest : List Char)
    (h : ∀ c ∈ cs, c ∉ stops) (hs : stop ∈ stops) : takeUntil stops (cs ++ stop :: rest) = cs := by
  rw [takeUntil, List.takeWhile_append_of_pos (by simpa using h)]
  simp [hs]

theorem dropUntil_append {stops cs : List Char} {stop : Char} (rest : List Char)
    (h : ∀ c ∈ cs, c ∉ stops) (hs : stop ∈ stops) :
    dropUntil stops (cs ++ stop :: rest) = stop :: rest := by
  rw [dropUntil, List.dropWhile_append_of_pos (by simpa using h)]
  simp [hs]

end Text

/-- One or more characters, none of which ends a name. -/
structure IsName (cs : List Char) : Prop where
  ne_nil : cs ≠ []
  allowed : ∀ c ∈ cs, c ≠ ':' ∧ c ≠ '!' ∧ c ≠ '}'

/-- One or more characters, none of which is a closing brace. -/
structure IsFallback (cs : List Char) : Prop where
  ne_nil : cs ≠ []
  allowed : ∀ c ∈ cs, c ≠ '}'

/-- What may follow a name. -/
inductive Tail.Spells : List Char → Tail → Prop
  | plain : Spells ['}'] .plain
  | required : Spells ['!', '}'] .required
  | fallback {text : List Char} (h : IsFallback text) :
      Spells ([':'] ++ text ++ ['}']) (.fallback (String.ofList text))

/-- The texts that are tokens: a kind, a name and a tail between their marks. -/
inductive Token.Spells : List Char → Token → Prop
  | mk (kind : Kind) {name cs : List Char} {tail : Tail} (hn : IsName name)
      (ht : Tail.Spells cs tail) :
      Spells (['$', '{'] ++ kind.name.toList ++ [':'] ++ name ++ cs) ⟨kind, String.ofList name, tail⟩

/-! ## Tails -/

namespace Tail

theorem Spells.eq_chars {cs : List Char} {tail : Tail} (h : Spells cs tail) : cs = tail.chars := by
  cases h with
  | plain => rfl
  | required => rfl
  | fallback h => simp [chars]

/-- A tail starts with a character that ends the name before it. -/
theorem Spells.head_mem {cs : List Char} {tail : Tail} (h : Spells cs tail) :
    ∃ c rest, cs = c :: rest ∧ c ∈ Token.nameStops := by
  cases h with
  | plain => exact ⟨_, _, rfl, by decide⟩
  | required => exact ⟨_, _, rfl, by decide⟩
  | fallback h => exact ⟨_, _, rfl, by decide⟩

theorem spells_of_read? {cs rest : List Char} {tail : Tail} (h : read? cs = some (tail, rest)) :
    Spells tail.chars tail := by
  unfold read? at h
  split at h
  · cases h
    exact .plain
  · cases h
    exact .required
  · next body =>
      split at h
      · next c text brace after hTake hDrop =>
          cases h
          have hb : IsFallback (c :: text) := by
            refine ⟨by simp, ?_⟩
            intro d hd
            have := Text.not_mem_of_mem_takeUntil (hTake ▸ hd)
            simpa using this
          simpa [chars] using Spells.fallback hb
      · cases h
  · cases h

theorem Spells.read?_append {cs : List Char} {tail : Tail} (h : Spells cs tail)
    (rest : List Char) : read? (cs ++ rest) = some (tail, rest) := by
  cases h with
  | plain => rfl
  | required => rfl
  | @fallback text h =>
      have hstop : ∀ c ∈ text, c ∉ ['}'] := by
        intro c hc
        simpa using h.allowed c hc
      have hTake := Text.takeUntil_append rest hstop (List.mem_singleton.mpr rfl)
      have hDrop := Text.dropUntil_append rest hstop (List.mem_singleton.mpr rfl)
      obtain ⟨c, cs, rfl⟩ := List.exists_cons_of_ne_nil h.ne_nil
      have hcs : [':'] ++ (c :: cs) ++ ['}'] ++ rest = ':' :: ((c :: cs) ++ '}' :: rest) := by simp
      rw [hcs, read?, hTake, hDrop]

end Tail

/-! ## Tokens -/

namespace Token

theorem readKind?_append (kind : Kind) (rest : List Char) :
    readKind? (kind.name.toList ++ ':' :: rest) = some (kind, rest) := by
  cases kind <;> rfl

theorem readBody?_eq_some_iff {kind : Kind} {cs rest : List Char} {t : Token} :
    readBody? kind cs = some (t, rest) ↔
      ∃ name ending tail, IsName name ∧ Tail.Spells ending tail ∧ cs = name ++ ending ++ rest ∧
        t = ⟨kind, String.ofList name, tail⟩ := by
  constructor
  · intro h
    unfold readBody? at h
    split at h
    · cases h
    · next c name hTake =>
        obtain ⟨⟨tail, after⟩, hTail, he⟩ := Option.map_eq_some_iff.mp h
        cases he
        have hn : IsName (c :: name) := by
          refine ⟨by simp, ?_⟩
          intro d hd
          have := Text.not_mem_of_mem_takeUntil (hTake ▸ hd)
          simpa [nameStops] using this
        refine ⟨c :: name, tail.chars, tail, hn, Tail.spells_of_read? hTail, ?_, rfl⟩
        rw [List.append_assoc, ← Tail.chars_append_of_read? hTail, ← hTake,
          Text.takeUntil_append_dropUntil]
  · rintro ⟨name, ending, tail, hn, ht, rfl, rfl⟩
    obtain ⟨stop, more, hend, hstop⟩ := ht.head_mem
    have hallowed : ∀ c ∈ name, c ∉ nameStops := by
      intro c hc
      simpa [nameStops] using hn.allowed c hc
    have hcs : name ++ ending ++ rest = name ++ stop :: (more ++ rest) := by simp [hend]
    have hTake := Text.takeUntil_append (more ++ rest) hallowed hstop
    have hDrop := Text.dropUntil_append (more ++ rest) hallowed hstop
    have hTail := ht.read?_append rest
    rw [hend, List.cons_append] at hTail
    obtain ⟨c, cs, rfl⟩ := List.exists_cons_of_ne_nil hn.ne_nil
    rw [hcs, readBody?, hTake, hDrop, hTail]
    rfl

/-- Reading finds a token at the head of a text exactly when the text starts with one. -/
theorem read?_eq_some_iff {cs rest : List Char} {t : Token} :
    read? cs = some (t, rest) ↔ ∃ m, Spells m t ∧ cs = m ++ rest := by
  constructor
  · intro h
    unfold read? at h
    split at h
    · next body =>
        obtain ⟨⟨kind, afterKind⟩, hKind, hBody⟩ := Option.bind_eq_some_iff.mp h
        obtain ⟨name, ending, tail, hn, ht, rfl, rfl⟩ := readBody?_eq_some_iff.mp hBody
        refine ⟨_, .mk kind hn ht, ?_⟩
        rw [chars_append_of_readKind? hKind]
        simp
    · cases h
  · rintro ⟨m, hm, rfl⟩
    cases hm with
    | @mk kind name cs tail hn ht =>
        have hBody : readBody? kind (name ++ (cs ++ rest)) =
            some (⟨kind, String.ofList name, tail⟩, rest) :=
          readBody?_eq_some_iff.mpr ⟨name, cs, tail, hn, ht, (List.append_assoc ..).symm, rfl⟩
        simp only [List.cons_append, List.nil_append, List.append_assoc]
        rw [read?, readKind?_append]
        exact hBody

theorem Spells.eq_chars {cs : List Char} {t : Token} (h : Spells cs t) : cs = t.chars := by
  cases h with
  | mk kind hn ht => simp [chars, ← ht.eq_chars]

/-- At most one text at the head of another is a token. -/
theorem Spells.unique {cs m m' rest rest' : List Char} {t t' : Token} (h : Spells m t)
    (h' : Spells m' t') (hm : cs = m ++ rest) (hm' : cs = m' ++ rest') : m = m' ∧ t = t' := by
  have hr := read?_eq_some_iff.mpr ⟨m, h, hm⟩
  rw [read?_eq_some_iff.mpr ⟨m', h', hm'⟩] at hr
  cases hr
  exact ⟨List.append_cancel_right (hm.symm.trans hm'), rfl⟩

end Token
end Placeholder
