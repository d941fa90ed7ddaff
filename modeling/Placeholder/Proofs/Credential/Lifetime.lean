import Placeholder.Proofs.Vault.Lookup

/-!
# Lifetimes of tokens

An answer of a token endpoint is a token, an error, or a crash. It is a crash when it is `Overlong`:
its lifetime fits a word of 64 bits, as all that are read do, but reaches past the end of the clock.
-/
namespace Placeholder

/-! ## Numbers in JSON texts -/

namespace Json

theorem Numeral.natural_lt {m : Numeral} {n : Nat} (h : m.number? = some (.natural n)) :
    n < UInt64.size := by
  have hreal (x : Option Binary64) : x.map Number.real ≠ some (.natural n) := by
    cases x <;> simp
  unfold number? at h
  split at h
  · split at h
    · split at h
      · next hlt =>
          cases h
          exact hlt
      · exact absurd h (hreal _)
    · split at h
      · cases h
      · exact absurd h (hreal _)
  · exact absurd h (hreal _)

theorem mem_insertMember {name n : String} {value v : Json} {members : List (String × Json)}
    (h : (n, v) ∈ insertMember name value members) :
    (n, v) = (name, value) ∨ (n, v) ∈ members := by
  induction members with
  | nil => simpa [insertMember] using h
  | cons member rest ih =>
      rw [insertMember] at h
      split at h
      · rcases List.mem_cons.mp h with he | hr
        · exact .inl he
        · exact .inr (List.mem_cons_of_mem _ hr)
      · split at h
        · exact List.mem_cons.mp h
        · rcases List.mem_cons.mp h with he | hr
          · exact .inr (List.mem_cons.mpr (.inl he))
          · exact (ih hr).imp id (List.mem_cons_of_mem _)

theorem mem_foldl_insertMember {p : String × Json} {acc members : List (String × Json)}
    (h : p ∈ members.foldl (fun acc (n, v) => insertMember n v acc) acc) :
    p ∈ acc ∨ p ∈ members := by
  induction members generalizing acc with
  | nil => exact .inl h
  | cons member rest ih =>
      rcases ih h with hacc | hrest
      · rcases mem_insertMember hacc with he | ha
        · exact .inr (List.mem_cons.mpr (.inl he))
        · exact .inl ha
      · exact .inr (List.mem_cons_of_mem _ hrest)

theorem mem_of_member? {members : List (String × Json)} {name : String} {v : Json}
    (h : (ofMembers members).member? name = some v) : (name, v) ∈ members := by
  obtain ⟨before, after, hmembers, _⟩ := List.lookup_eq_some_iff.mp h
  have hmem : (name, v) ∈ members.foldl (fun acc (n, v) => insertMember n v acc) [] := by
    rw [hmembers]
    exact List.mem_append_right before List.mem_cons_self
  exact (mem_foldl_insertMember hmem).resolve_left (List.not_mem_nil)

namespace Syntax

theorem mem_memberValues? {depth : Nat} {members : List (Option String × Syntax)}
    {values : List (String × Json)} (h : memberValues? depth members = some values)
    {p : String × Json} (hp : p ∈ values) : ∃ s, valueWithin? depth s = some p.2 := by
  induction members generalizing values with
  | nil =>
      rw [memberValues?] at h
      cases h
      cases hp
  | cons member rest ih =>
      obtain ⟨name?, s⟩ := member
      rw [memberValues?] at h
      obtain ⟨name, -, h⟩ := Option.bind_eq_some_iff.mp h
      obtain ⟨v, hv, h⟩ := Option.bind_eq_some_iff.mp h
      obtain ⟨others, hothers, rfl⟩ := Option.map_eq_some_iff.mp h
      rcases List.mem_cons.mp hp with rfl | hp
      · exact ⟨s, hv⟩
      · exact ih hothers hp

theorem natural_lt {depth n : Nat} {s : Syntax}
    (h : valueWithin? depth s = some (.number (.natural n))) : n < UInt64.size := by
  cases s with
  | null => simp [valueWithin?] at h
  | bool b => simp [valueWithin?] at h
  | numeral m =>
      rw [valueWithin?] at h
      obtain ⟨number, hm, he⟩ := Option.map_eq_some_iff.mp h
      cases he
      exact Numeral.natural_lt hm
  | string s => simp [valueWithin?] at h
  | array items => cases depth <;> simp [valueWithin?] at h
  | object members => cases depth <;> simp [valueWithin?, ofMembers] at h

end Syntax

/-- A whole number in a member of a text that was read fits a word. -/
theorem natural_lt {body : ByteArray} {answer : Json} {name : String} {n : Nat}
    (h : ofBytes? body = some answer) (hn : answer.member? name = some (.number (.natural n))) :
    n < UInt64.size := by
  obtain ⟨s, -, hvalue⟩ := Option.bind_eq_some_iff.mp h
  obtain ⟨listed, rfl⟩ : ∃ listed, answer = .object listed := by
    cases answer with
    | object listed => exact ⟨listed, rfl⟩
    | _ => cases hn
  rw [Syntax.value?, Syntax.depthLimit] at hvalue
  cases s with
  | object members =>
      rw [Syntax.valueWithin?] at hvalue
      obtain ⟨values, hvalues, he⟩ := Option.map_eq_some_iff.mp hvalue
      rw [← he] at hn
      obtain ⟨s, hs⟩ := Syntax.mem_memberValues? hvalues (mem_of_member? hn)
      exact Syntax.natural_lt hs
  | _ => simp [Syntax.valueWithin?] at hvalue

end Json

namespace Credential

variable {name : String} {now epoch : Nat} {answer : Json}

theorem naturalBelow?_lt {limit n : Nat} {s : String} (h : Text.naturalBelow? limit s = some n) :
    n < limit := by
  unfold Text.naturalBelow? at h
  simp only at h
  split at h
  · next hok =>
      cases h
      simp only [Bool.and_eq_true, decide_eq_true_eq] at hok
      exact hok.2
  · cases h

/-- A lifetime that was read fits a word, whichever member it stands in and in whichever form. -/
theorem lifetime?_lt {body : ByteArray} {seconds : Nat} (h : Json.ofBytes? body = some answer)
    (hl : lifetime? epoch answer = some seconds) : seconds < UInt64.size := by
  have hmember {name : String} {n : Nat} (hn : (answer.member? name).bind seconds? = some n) :
      n < UInt64.size := by
    obtain ⟨value, hvalue, hs⟩ := Option.bind_eq_some_iff.mp hn
    unfold seconds? at hs
    split at hs
    · cases hs
      exact Json.natural_lt h hvalue
    · exact naturalBelow?_lt hs
    · cases hs
  unfold lifetime? at hl
  rcases Option.or_eq_some_iff.mp hl with hin | ⟨-, hon⟩
  · exact hmember hin
  · obtain ⟨n, hn, rfl⟩ := Option.map_eq_some_iff.mp hon
    have hlt := hmember hn
    -- The time that is left until an instant is never more than the instant.
    omega

/-- The answer holds a token that would outlive the clock. -/
def Overlong (now epoch : Nat) (answer : Json) : Prop :=
  ∃ text seconds, tokenText? answer = some text ∧ lifetime? epoch answer = some seconds ∧
    AccessToken.lastSecond < now / 1000 + seconds

/-- What an answer comes to: a token that lives as long as it says, an error when there is none in
it, or a crash when it would outlive the clock. -/
inductive Reads (name : String) (now epoch : Nat) (answer : Json) :
    Except Failure AccessToken → Prop
  | token {text : String} (ht : tokenText? answer = some text) (hl : ¬ Overlong now epoch answer) :
      Reads name now epoch answer
        (.ok ⟨text, (lifetime? epoch answer).map fun seconds => now + seconds * 1000⟩)
  | missing (ht : tokenText? answer = none) :
      Reads name now epoch answer (.error (failed (name ++ " response has no access token")))
  | overlong (hl : Overlong now epoch answer) :
      Reads name now epoch answer (.error (.crash .clockOverflow))

theorem reads_tokenOf (name : String) (now epoch : Nat) (answer : Json) :
    Reads name now epoch answer (tokenOf name now epoch answer) := by
  cases ht : tokenText? answer with
  | none =>
      rw [tokenOf, ht]
      exact .missing ht
  | some text =>
      by_cases hl : Overlong now epoch answer
      · obtain ⟨_, seconds, _, hs, hlast⟩ := hl
        have hissue : AccessToken.issue now text (some seconds) = .error .clockOverflow :=
          if_neg (Nat.not_le.mpr hlast)
        simp only [tokenOf, ht, hs, hissue]
        exact .overlong ⟨text, seconds, ht, hs, hlast⟩
      · have hissue : AccessToken.issue now text (lifetime? epoch answer) =
            .ok ⟨text, (lifetime? epoch answer).map fun seconds => now + seconds * 1000⟩ := by
          cases hs : lifetime? epoch answer with
          | none => rfl
          | some seconds =>
              have hlast : now / 1000 + seconds ≤ AccessToken.lastSecond :=
                Nat.not_lt.mp fun hgt => hl ⟨text, seconds, ht, hs, hgt⟩
              exact if_pos hlast
        simp only [tokenOf, ht, hissue]
        exact .token ht hl

theorem Reads.unique {x y : Except Failure AccessToken} (hx : Reads name now epoch answer x)
    (hy : Reads name now epoch answer y) : x = y := by
  cases hx with
  | token ht hl =>
      cases hy with
      | token ht' hl' => rw [Option.some.inj (ht.symm.trans ht')]
      | missing hn => cases ht.symm.trans hn
      | overlong hl' => exact absurd hl' hl
  | missing hn =>
      cases hy with
      | token ht hl => cases hn.symm.trans ht
      | missing _ => rfl
      | overlong hl =>
          obtain ⟨_, _, ht, _⟩ := hl
          cases hn.symm.trans ht
  | overlong hl =>
      cases hy with
      | token ht hl' => exact absurd hl hl'
      | missing hn =>
          obtain ⟨_, _, ht, _⟩ := hl
          cases hn.symm.trans ht
      | overlong _ => rfl

theorem tokenOf_eq_iff_reads {x : Except Failure AccessToken} :
    tokenOf name now epoch answer = x ↔ Reads name now epoch answer x := by
  constructor
  · rintro rfl
    exact reads_tokenOf name now epoch answer
  · exact (reads_tokenOf name now epoch answer).unique

theorem tokenOf_eq_crash_iff {c : Crash} :
    tokenOf name now epoch answer = .error (.crash c) ↔
      c = .clockOverflow ∧ Overlong now epoch answer := by
  rw [tokenOf_eq_iff_reads]
  constructor
  · intro h
    cases h with
    | overlong hl => exact ⟨rfl, hl⟩
  · rintro ⟨rfl, hl⟩
    exact .overlong hl

/-! ## Answers of endpoints and of the tool -/

/-- The body is an answer whose token would outlive the clock. -/
def OverlongBody (now epoch : Nat) (body : ByteArray) : Prop :=
  ∃ answer, Json.ofBytes? body = some answer ∧ Overlong now epoch answer

variable {ω : Type} {out : Outside ω} {client : Http.Client} {w w' : ω} {c : Crash}

theorem not_crash_refusal (name : String) (status : Nat) (text : String) (c : Crash) :
    refusal name status text ≠ .crash c := by
  unfold refusal failed
  split <;> simp

/-- Of the responses only a good one that is overlong is a crash, in the state in which it has been
read. -/
theorem tokenOfResponse_eq_crash_iff {r : Http.Response} :
    tokenOfResponse out name client r w = (.error (.crash c), w') ↔
      c = .clockOverflow ∧ w' = w ∧ r.ok = true ∧
        ∃ body, r.body = .ok body ∧ OverlongBody (out.now w) (out.epoch w) body := by
  by_cases hok : r.ok = true
  · cases hb : r.body with
    | error fault =>
        obtain ⟨body, w₁, hbody⟩ : ∃ body w₁, out.body client r w = (body, w₁) := ⟨_, _, rfl⟩
        have hread := Vault.body_fst out client r w
        rw [hbody, hb] at hread
        obtain rfl : body = .error fault := hread
        simp [tokenOfResponse, hok, hbody, failed, Except.toOption]
    | ok body =>
        have hbody : out.body client r w = (.ok body, w) := by
          rw [Outside.body, hb]
        have hread : (Except.ok body : Except TransportFault ByteArray).toOption.bind
            Json.ofBytes? = Json.ofBytes? body := rfl
        cases ha : Json.ofBytes? body with
        | none => simp [tokenOfResponse, hok, hbody, hread, ha, OverlongBody, failed]
        | some answer =>
            have heq : tokenOfResponse out name client r w =
                (tokenOf name (out.now w) (out.epoch w) answer, w) := by
              simp only [tokenOfResponse, hbody, hok, if_true, hread, ha]
            rw [heq, Prod.mk.injEq, tokenOf_eq_crash_iff]
            constructor
            · rintro ⟨⟨hc, hl⟩, rfl⟩
              exact ⟨hc, rfl, hok, body, rfl, answer, ha, hl⟩
            · rintro ⟨hc, hw, -, body', hb', answer', ha', hl⟩
              cases hb'
              cases ha.symm.trans ha'
              exact ⟨⟨hc, hl⟩, hw.symm⟩
  · have hrefusal (text : String) : refusal name r.status text ≠ .crash c :=
      not_crash_refusal name r.status text c
    simp [tokenOfResponse, hok, hrefusal]

end Credential

/-- Of the outputs only one of a tool that has ended well and that is overlong is a crash. -/
theorem AzureCli.tokenOfOutput_eq_crash_iff {program : String} {now epoch : Nat}
    {o : CommandOutput} {c : Crash} :
    tokenOfOutput program now epoch o = .error (.crash c) ↔
      c = .clockOverflow ∧ o.exit = some 0 ∧ Credential.OverlongBody now epoch o.stdout := by
  unfold tokenOfOutput Credential.OverlongBody
  by_cases he : o.exit = some 0
  · cases ha : Json.ofBytes? o.stdout with
    | none => simp [he, Credential.failed]
    | some answer => simp [he, Credential.tokenOf_eq_crash_iff]
  · simp [he, Credential.failed]

end Placeholder
