import Placeholder.Proofs.Template.Grammar
import Placeholder.Template

/-!
# Leftmost tokens

`Template.Leftmost` takes tokens from a text as a search without overlaps does: each time the one
that starts first in what is left. `scan_eq_iff` says that a scan finds exactly these tokens at
these places, and `Leftmost.covers` that no token of the grammar starts anywhere else, unless
inside of one that was found.
-/
namespace Placeholder

namespace Template

/-- A token of the grammar stands at the head of the text. -/
def Starts (cs : List Char) : Prop := ∃ m t, Token.Spells m t ∧ m <+: cs

theorem not_starts_of_read? {cs : List Char} (h : Token.read? cs = none) : ¬ Starts cs := by
  rintro ⟨m, t, hm, rest, rfl⟩
  rw [Token.read?_eq_some_iff.mpr ⟨m, hm, rfl⟩] at h
  cases h

theorem not_starts_nil : ¬ Starts [] := not_starts_of_read? rfl

/-- The tokens that are found by taking, again and again, the one that starts first at or after the
end of the one before. The text left over stands at the given place. -/
inductive Leftmost : Position → List Char → List Placed → Prop
  | done {p : Position} {cs : List Char}
      (none : ∀ before after, cs = before ++ after → ¬ Starts after) : Leftmost p cs []
  | next {p : Position} {skipped m rest : List Char} {t : Token} {ts : List Placed}
      (first : ∀ before after, skipped = before ++ after → after ≠ [] →
        ¬ Starts (after ++ (m ++ rest)))
      (ht : Token.Spells m t) (more : Leftmost ((p.past skipped).past m) rest ts) :
      Leftmost p (skipped ++ (m ++ rest)) (⟨t, p.past skipped⟩ :: ts)

namespace Leftmost

/-- A character at which no token starts may be passed over. -/
theorem skip {p : Position} {c : Char} {cs : List Char} {ts : List Placed}
    (hn : ¬ Starts (c :: cs)) (h : Leftmost (p.past [c]) cs ts) : Leftmost p (c :: cs) ts := by
  cases h with
  | done none =>
      refine .done ?_
      intro before after he
      cases before with
      | nil => exact (List.nil_append after ▸ he) ▸ hn
      | cons b before => exact none before after (List.cons.inj he).2
  | @next _ skipped m rest t ts first ht more =>
      have hp : (p.past [c]).past skipped = p.past (c :: skipped) :=
        (Position.past_append p [c] skipped).symm
      rw [hp] at more ⊢
      refine @Leftmost.next p (c :: skipped) m rest t ts ?_ ht more
      intro before after he hne
      cases before with
      | nil =>
          rw [List.nil_append] at he
          exact he ▸ hn
      | cons b before => exact first before after (List.cons.inj he).2 hne

theorem unique {p : Position} {cs : List Char} {ts us : List Placed} (h : Leftmost p cs ts)
    (h' : Leftmost p cs us) : ts = us := by
  induction h generalizing us with
  | done none =>
      cases h' with
      | done _ => rfl
      | next _ ht _ => exact absurd ⟨_, _, ht, List.prefix_append ..⟩ (none _ _ rfl)
  | @next p skipped m rest t ts first ht more ih =>
      generalize hcs : skipped ++ (m ++ rest) = cs at h'
      cases h' with
      | done none => exact absurd ⟨_, _, ht, List.prefix_append ..⟩ (none _ _ hcs.symm)
      | @next _ skipped' m' rest' t' ts' first' ht' more' =>
          obtain rfl : skipped = skipped' := by
            rcases List.append_eq_append_iff.mp hcs with ⟨a, hs, hm⟩ | ⟨a, hs, hm⟩
            · cases a with
              | nil => simp [hs]
              | cons c a =>
                  refine absurd ⟨m, t, ht, ?_⟩ (first' skipped (c :: a) hs (by simp))
                  exact hm ▸ List.prefix_append ..
            · cases a with
              | nil => simp [hs]
              | cons c a =>
                  refine absurd ⟨m', t', ht', ?_⟩ (first skipped' (c :: a) hs (by simp))
                  exact hm ▸ List.prefix_append ..
          have hm := List.append_cancel_left hcs
          obtain ⟨rfl, rfl⟩ := ht.unique ht' rfl hm
          rw [List.append_cancel_left hm] at ih
          rw [ih more']

/-- A token of the grammar that stands anywhere in the text was found there, or starts inside of
one that was found. -/
theorem covers {p : Position} {cs : List Char} {ts : List Placed} (h : Leftmost p cs ts)
    {before m rest : List Char} {t : Token} (ht : Token.Spells m t)
    (hcs : cs = before ++ (m ++ rest)) :
    ⟨t, p.past before⟩ ∈ ts ∨
      ∃ q ∈ ts, q.start.byte < (p.past before).byte ∧ (p.past before).byte < q.stopByte := by
  induction h generalizing before with
  | done none => exact absurd ⟨m, t, ht, List.prefix_append ..⟩ (none before _ hcs)
  | @next p skipped m₁ rest₁ t₁ ts first ht₁ more ih =>
      have same (hb : before = skipped) (hm : m₁ ++ rest₁ = m ++ rest) :
          ⟨t, p.past before⟩ ∈ Placed.mk t₁ (p.past skipped) :: ts := by
        obtain ⟨_, rfl⟩ := ht₁.unique ht rfl hm
        simp [hb]
      have later (b : List Char) (hb : before = skipped ++ (m₁ ++ b))
          (hr : rest₁ = b ++ (m ++ rest)) :
          ⟨t, p.past before⟩ ∈ Placed.mk t₁ (p.past skipped) :: ts ∨
            ∃ q ∈ Placed.mk t₁ (p.past skipped) :: ts,
              q.start.byte < (p.past before).byte ∧ (p.past before).byte < q.stopByte := by
        have hp : ((p.past skipped).past m₁).past b = p.past before := by
          rw [hb, Position.past_append, Position.past_append]
        rw [← hp]
        rcases ih hr with h | ⟨q, hq, h⟩
        · exact .inl (List.mem_cons_of_mem _ h)
        · exact .inr ⟨q, List.mem_cons_of_mem _ hq, h⟩
      rcases List.append_eq_append_iff.mp hcs with ⟨a, hb, hm⟩ | ⟨a, hs, hm⟩
      · rcases List.append_eq_append_iff.mp hm with ⟨b, ha, hr⟩ | ⟨b, hm₁, hr⟩
        · exact later b (by rw [hb, ha]) hr
        · by_cases ha : a = []
          · exact .inl (same (by simp [hb, ha]) (by simp [hm, ha]))
          · by_cases hb' : b = []
            · exact later [] (by simp [hb, hm₁, hb']) (by simpa [hb'] using hr.symm)
            · refine .inr ⟨_, List.mem_cons_self, ?_⟩
              have ha' := Text.utf8Size_pos ha
              have hb'' := Text.utf8Size_pos hb'
              simp only [Placed.stopByte, ← ht₁.eq_chars, hm₁, hb, Position.past,
                Text.utf8Size_append]
              omega
      · by_cases ha : a = []
        · exact .inl (same (by simp [hs, ha]) (by simp [hm, ha]))
        · exact absurd ⟨m, t, ht, hm ▸ List.prefix_append ..⟩ (first before a hs ha)

end Leftmost

/-! ## Scanning -/

/-- The tokens among placed segments. -/
def tokensOf (layout : List (Position × Segment)) : List Placed :=
  layout.filterMap fun (p, s) => s.token?.map fun t => ⟨t, p⟩

theorem tokensOf_flush_append (p : Position) (pending : List Char) (rest : List Segment) :
    tokensOf (layoutFrom p (Segment.flush pending ++ rest)) =
      tokensOf (layoutFrom (p.past pending.reverse) rest) := by
  cases pending with
  | nil => rfl
  | cons c pending => simp [Segment.flush, layoutFrom, tokensOf, Segment.token?, Segment.chars]

theorem leftmost_segmentsFrom (p : Position) (pending cs : List Char) :
    Leftmost (p.past pending.reverse) cs (tokensOf (layoutFrom p (segmentsFrom pending cs))) := by
  fun_induction segmentsFrom pending cs generalizing p with
  | case1 pending =>
      have hnone := tokensOf_flush_append p pending []
      rw [List.append_nil] at hnone
      rw [hnone]
      refine .done ?_
      intro before after he
      rw [(List.append_eq_nil_iff.mp he.symm).2]
      exact not_starts_nil
  | case2 pending c cs t rest hread ih =>
      obtain ⟨m, ht, hcs⟩ := Token.read?_eq_some_iff.mp hread
      rw [tokensOf_flush_append, hcs]
      refine @Leftmost.next _ [] m rest t _ ?_ ht ?_
      · intro before after he hne
        exact absurd (List.append_eq_nil_iff.mp he.symm).2 hne
      · have hmore := ih ((p.past pending.reverse).past m)
        rwa [ht.eq_chars] at hmore ⊢
  | case3 pending c cs hread ih =>
      have hmore := ih p
      rw [List.reverse_cons, Position.past_append] at hmore
      exact hmore.skip (not_starts_of_read? hread)

theorem leftmost_scan (template : String) : Leftmost {} template.toList (scan template) :=
  leftmost_segmentsFrom {} [] template.toList

theorem scan_eq_iff {template : String} {ts : List Placed} :
    scan template = ts ↔ Leftmost {} template.toList ts := by
  constructor
  · rintro rfl
    exact leftmost_scan template
  · exact (leftmost_scan template).unique

/-- Scanning accepts exactly the grammar, from left to right and without overlaps. At most one head
of a text is a token; reading finds it if there is one, with its kind, name and tail, and leaves
the text after it; the tokens of a template are the leftmost ones, taken again and again; and
wherever a token of the grammar starts, it is among them or starts inside of one of them. -/
theorem scan_accepts_grammar (template : String) :
    (∀ cs m m' t t', Token.Spells m t → Token.Spells m' t' → m <+: cs → m' <+: cs →
      m = m' ∧ t = t') ∧
    (∀ cs t rest, Token.read? cs = some (t, rest) ↔ ∃ m, Token.Spells m t ∧ cs = m ++ rest) ∧
    (segments template).filterMap Segment.token? = (scan template).map Placed.token ∧
    (∀ ts, scan template = ts ↔ Leftmost {} template.toList ts) ∧
    (∀ before m rest t, template.toList = before ++ (m ++ rest) → Token.Spells m t →
      ⟨t, Position.past {} before⟩ ∈ scan template ∨
        ∃ q ∈ scan template, q.start.byte < Text.utf8Size before ∧
          Text.utf8Size before < q.stopByte) ∧
    (∀ q ∈ scan template, ¬ (q.token.required = true ∧ q.token.fallback?.isSome = true)) := by
  refine ⟨?_, ?_, (map_token_scan template).symm, fun ts => scan_eq_iff, ?_, ?_⟩
  · rintro cs m m' t t' h h' ⟨rest, hm⟩ ⟨rest', hm'⟩
    exact h.unique h' hm.symm hm'.symm
  · intro cs t rest
    exact Token.read?_eq_some_iff
  · intro before m rest t hcs ht
    simpa [Position.past] using (leftmost_scan template).covers ht hcs
  · rintro q _ ⟨hr, hf⟩
    simp [Token.fallback?_of_required hr] at hf

end Template
end Placeholder
