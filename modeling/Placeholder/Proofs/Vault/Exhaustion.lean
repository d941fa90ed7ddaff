import Placeholder.Credential.AzureCli
import Placeholder.Proofs.Credential.Exhaustion
import Placeholder.Proofs.Outside
import Placeholder.Proofs.Vault.Lookup

/-!
# Vaults after the end of their chain

A vault that is the only user of a chain keeps it beside the world. Its lookups leave the memo of
the chain alone until one exhausts it. From then on a vault has no token: the one it kept, if any,
was stale when the chain was asked, and time does not go back. So every lookup ends with the reason
of the chain, before anything is sent.
-/
namespace Placeholder

/-- The credential, seen from a state of which its own is a part. -/
def Credential.within {σ ω : Type} (cell : Cell σ ω) (c : Credential ω) : Credential σ :=
  ⟨c.name, fun client s =>
    let (issued, w) := c.issue client (cell.get s)
    (issued, cell.set w s)⟩

variable {ω : Type} {client : Http.Client}

/-! ## The memo beside the world -/

theorem Chain.tryAll_within (sources : List (Credential ω)) (memo : Chain.Memo) (w : ω) :
    Chain.tryAll client (sources.map (Credential.within .snd)) (memo, w) =
      ((Chain.tryAll client sources w).1, memo, (Chain.tryAll client sources w).2) := by
  induction sources generalizing w with
  | nil => rfl
  | cons c rest ih =>
      obtain ⟨x, w₁, hc⟩ : ∃ x w₁, c.issue client w = (x, w₁) := ⟨_, _, rfl⟩
      have hcell : (c.within .snd).issue client (memo, w) = (x, memo, w₁) := by
        simp [Credential.within, Cell.snd, hc]
      simp only [List.map_cons, Chain.tryAll, hcell, hc]
      rcases x with (e | crash) | t
      · obtain ⟨trial, w₂, ht⟩ : ∃ trial w₂, Chain.tryAll client rest w₁ = (trial, w₂) :=
          ⟨_, _, rfl⟩
        simp only [ih, ht]
        cases trial <;> rfl
      · rfl
      · rfl

theorem Chain.credential_issue (sources : List (Credential ω)) (s : Chain.Memo × ω) :
    (Chain.credential .fst (sources.map (Credential.within .snd))).issue client s =
      Chain.issue sources client s := by
  obtain ⟨memo, w⟩ := s
  cases memo with
  | some why => rfl
  | none =>
      obtain ⟨trial, w₁, ht⟩ : ∃ trial w₁, Chain.tryAll client sources w = (trial, w₁) :=
        ⟨_, _, rfl⟩
      have hwithin : Chain.tryAll client _ (none, w) = _ := Chain.tryAll_within sources none w
      rw [ht] at hwithin
      cases trial with
      | token t => simp [Chain.credential, Cell.step, Cell.fst, Chain.issue, hwithin, ht]
      | crash c => simp [Chain.credential, Cell.step, Cell.fst, Chain.issue, hwithin, ht]
      | failed failures =>
          simp only [Chain.credential, Cell.step, Cell.fst, Chain.issue_of_failed hwithin,
            Chain.issue_of_failed ht]
          cases failures.find? (Chain.isThrottled ·.2) <;> rfl

/-! ## What a vault leaves alone -/

theorem Outside.body_within_fst {κ : Type} (out : Outside ω) (r : Http.Response) (s : κ × ω) :
    ((out.within .snd).body client r s).2.1 = s.1 := by
  unfold body
  split <;> rfl

namespace Vault

/-- The vault with a chain of its own, whose memo stands beside the world. -/
def withChain (v : Vault ω) (sources : List (Credential ω)) : Vault (Chain.Memo × ω) where
  outside := v.outside.within .snd
  url := v.url
  credential := Chain.credential .fst (sources.map (Credential.within .snd))
  retry := v.retry
  limit := v.limit

/-- There is no token in the cache, or one that is stale. -/
def Spent (cache : Cache) (now : Nat) : Prop := ∀ t, cache = some t → t.freshAt now = false

theorem Spent.mono {cache : Cache} {now later : Nat} (h : Spent cache now) (hle : now ≤ later) :
    Spent cache later := by
  intro t ht
  have hstale := h t ht
  obtain ⟨text, expiry?⟩ := t
  cases expiry? with
  | none => cases hstale
  | some expiry =>
      simp only [AccessToken.freshAt, decide_eq_false_iff_not] at hstale ⊢
      omega

theorem spent_iff_filter {cache : Cache} {now : Nat} :
    Spent cache now ↔ cache.filter (fun t => t.freshAt now) = none := by
  cases cache <;> simp [Spent]

variable {v : Vault ω} {sources : List (Credential ω)} {name : String} {cache : Cache}

theorem answer_memo (r : Http.Response) (s : Chain.Memo × ω) :
    ((v.withChain sources).answer r s).2.1 = s.1 := by
  by_cases hr : r.status = 404
  · simp [answer, hr]
  · rw [answer_snd hr]
    exact v.outside.body_within_fst r s

theorem fetch_memo (v : Vault ω) (sources : List (Credential ω)) (name bearer : String)
    (s : Chain.Memo × ω) :
    ((v.withChain sources).fetch name bearer s).2.1 = s.1 := by
  have hexchange : ((v.withChain sources).outside.exchange (v.withChain sources).client
      (request? (v.withChain sources).url name bearer) s).2.1 = s.1 :=
    congrArg (fun sent => sent.2.1) (v.outside.exchange_within Cell.lawful_snd _ s)
  unfold fetch
  generalize (v.withChain sources).outside.exchange (v.withChain sources).client
    (request? (v.withChain sources).url name bearer) s = sent at hexchange ⊢
  obtain ⟨x, s'⟩ := sent
  cases x with
  | error fault => exact hexchange
  | ok r => exact (answer_memo r s').trans hexchange

/-! ## Attempts -/

theorem bearer_of_fresh {s : Chain.Memo × ω} {t : AccessToken}
    (h : cache.filter (fun t => t.freshAt (v.outside.now s.2)) = some t) :
    (v.withChain sources).bearer (cache, s) = (.ok t.text, cache, s) := by
  have hfresh : cache.filter (fun t => t.freshAt ((v.withChain sources).outside.now s)) = some t := h
  simp only [bearer, hfresh]

theorem bearer_of_spent {s : Chain.Memo × ω} (h : Spent cache (v.outside.now s.2)) :
    (v.withChain sources).bearer (cache, s) =
      match Chain.issue sources v.client s with
      | (.ok t, s) => (.ok t.text, some t, s)
      | (.error (.error e), s) => (.error (.error (v.timed e)), cache, s)
      | (.error (.crash c), s) => (.error (.crash c), cache, s) := by
  have hstale : cache.filter (fun t => t.freshAt ((v.withChain sources).outside.now s)) = none :=
    spent_iff_filter.mp h
  have hissue : (v.withChain sources).credential.issue (v.withChain sources).client s =
      Chain.issue sources v.client s := Chain.credential_issue sources s
  simp only [bearer, hstale, hissue]
  obtain ⟨(e | c) | t, s'⟩ := Chain.issue sources v.client s
  · rfl
  · rfl
  · rfl

/-- With the chain exhausted and no fresh token, an attempt ends before it has done anything. -/
theorem attempt_of_exhausted {why : String} {w : ω} (h : Spent cache (v.outside.now w)) :
    (v.withChain sources).attempt name (cache, some why, w) =
      (.error (Credential.failed why), cache, some why, w) := by
  have hbearer : (v.withChain sources).bearer (cache, some why, w) =
      (.error (Credential.failed why), cache, some why, w) :=
    bearer_of_spent h
  simp only [attempt, hbearer]

/-- What is left by an attempt that exhausts the chain: the reason, and no fresh token. The last
thing done was to ask the last credential. -/
structure Ends (v : Vault ω) (sources : List (Credential ω)) (x : Answer) (why : String)
    (cache : Cache) (w : ω) : Prop where
  answer : x = .error (Credential.failed why)
  spent : Spent cache (v.outside.now w)
  asked : ∃ w₁ failures, Chain.Fails v.client sources w₁ failures w

/-- An attempt leaves no memo behind, or it ends with the reason of the chain. -/
theorem attempt_memo (hnow : ∀ c ∈ sources, c.KeepsTime v.outside.now)
    {s s' : Cache × Chain.Memo × ω} {x : Answer} {why : String} (hs : s.2.1 = none)
    (h : (v.withChain sources).attempt name s = (x, s')) (hs' : s'.2.1 = some why) :
    Ends v sources x why s'.1 s'.2.2 := by
  obtain ⟨cache, memo, w⟩ := s
  cases hs
  have hfetch {bearer : String} {cache₁ : Cache} {s₁ : Chain.Memo × ω}
      (hb : (v.withChain sources).bearer (cache, none, w) = (.ok bearer, cache₁, s₁)) :
      s₁.1 = some why := by
    rw [← fetch_memo v sources name bearer s₁, ← hs']
    simp only [attempt, hb] at h
    exact congrArg (fun p => p.2.2.1) h
  -- A fresh token keeps the attempt from the chain; only a spent cache lets it come to an end.
  cases hfilter : cache.filter (fun t => t.freshAt (v.outside.now w)) with
  | some t => cases hfetch (bearer_of_fresh (s := (none, w)) hfilter)
  | none =>
      have hspent : Spent cache (v.outside.now w) := spent_iff_filter.mpr hfilter
      obtain ⟨asked, issued, memo, w₁, hcall⟩ := Chain.call_total sources v.client w
      have hb : (v.withChain sources).bearer (cache, none, w) = _ := bearer_of_spent hspent
      rw [hcall.issue_eq] at hb
      rcases issued with (e | c) | t
      · simp only [attempt, hb] at h
        cases h
        obtain rfl : memo = some why := hs'
        obtain ⟨_, hfailed, failures, hf⟩ := hcall.of_memo
        cases hfailed
        exact ⟨rfl, hspent.mono (hf.now_le hnow), w, failures, hf⟩
      · simp only [attempt, hb] at h
        cases h
        obtain rfl : memo = some why := hs'
        cases hcall.of_memo.2.1
      · obtain rfl : memo = some why := hfetch hb
        cases hcall.of_memo.2.1

/-! ## Lookups -/

theorem lookup_of_exhausted {why : String} {w : ω} (h : Spent cache (v.outside.now w)) :
    (v.withChain sources).lookup name (cache, some why, w) =
      (.error (Credential.failed why), cache, some why, w) := by
  have hattempt : (v.withChain sources).attempt name (cache, some why, w) = _ :=
    attempt_of_exhausted h
  have hend : ¬ Retry.Transient
      ((v.withChain sources).attempt name (cache, some why, w)).1 := by
    rw [hattempt]
    exact Chain.not_transient_failed why
  rw [lookup, Retry.run, Retry.attempts_of_not_transient hend, hattempt]

/-- A lookup leaves no memo behind, or it ends with the reason of the chain. -/
theorem lookup_memo (hnow : ∀ c ∈ sources, c.KeepsTime v.outside.now)
    {s s' : Cache × Chain.Memo × ω} {x : Answer} {why : String} (hs : s.2.1 = none)
    (h : (v.withChain sources).lookup name s = (x, s')) (hs' : s'.2.1 = some why) :
    Ends v sources x why s'.1 s'.2.2 := by
  obtain ⟨n, _, heq, hbefore, _⟩ := (v.withChain sources).lookup_eq_attempt name s
  -- An attempt that exhausts the chain does not fail in passing, so it is the last one.
  have hmemo : ∀ k ≤ n, ((v.withChain sources).begun name s k).2.1 = none := by
    intro k hk
    induction k with
    | zero => exact hs
    | succ k ih =>
        have hpassing := hbefore k (by omega)
        obtain ⟨x₁, s₁, ha⟩ : ∃ x₁ s₁, (v.withChain sources).attempt name
            ((v.withChain sources).begun name s k) = (x₁, s₁) := ⟨_, _, rfl⟩
        rw [ha] at hpassing
        rw [begun_succ, ha]
        cases hmemo : s₁.2.1 with
        | none => exact hmemo
        | some reason =>
            rw [(attempt_memo hnow (ih (by omega)) ha hmemo).answer] at hpassing
            exact absurd hpassing (Chain.not_transient_failed reason)
  exact attempt_memo hnow (hmemo n (Nat.le_refl n)) (heq.symm.trans h) hs'

/-- An exhausted chain ends every lookup of its vault, for any name and at any later time, and
nothing but what happens elsewhere changes the world. -/
theorem run_of_exhausted {why : String} (later : List (Event String ω))
    (hlater : Event.KeepTime v.outside.now later) (w : ω) (hw : Spent cache (v.outside.now w)) :
    Event.run (v.withChain sources).lookup (fun change => Prod.map id (Prod.map id change)) later
        (cache, some why, w) =
      (List.replicate (Event.questions later) (.error (Credential.failed why)),
        cache, some why, Event.elapsed later w) := by
  have hask (name : String) (w : ω) (hw : Spent cache (v.outside.now w)) :
      (v.withChain sources).lookup name (cache, some why, w) =
        (.error (Credential.failed why), cache, some why, w) := lookup_of_exhausted hw
  exact Event.run_of_settled (fun w => (cache, some why, w))
    (fun w => Spent cache (v.outside.now w)) (fun _ _ => rfl) hask later
    (fun change hc w hw => hw.mono (hlater change hc w)) w hw

/-- A chain follows the rules of `Chain.Call` until a call in which all credentials were asked and
failed for good; after it the chain only repeats the reason. In a vault that is the only user of
the chain, on a clock that is not turned back, the lookup in which this happens ends with that
reason as soon as the last credential has failed, and so does every later one, while only what
happens elsewhere changes the world: nothing is sent and no program is run. -/
theorem chain_exhaustion (sources : List (Credential ω)) :
    (∀ client w x memo w', Chain.issue sources client (none, w) = (x, memo, w') ↔
      ∃ asked, Chain.Call sources client w asked x memo w') ∧
    (∀ client w asked x memo w' log, Chain.Call sources client w asked x memo w' →
      asked ≤ sources.length ∧ Chain.issue (Chain.noted 0 sources) client (none, log, w) =
        (x, memo, log ++ List.range asked, w')) ∧
    (∀ client w x why w', Chain.issue sources client (none, w) = (x, some why, w') →
      x = .error (Credential.failed why) ∧ ¬ Retry.Transient x ∧
        ∃ failures, Chain.Fails client sources w failures w') ∧
    (∀ why events w, Event.run (Chain.issue sources) (Prod.map id) events (some why, w) =
      (List.replicate (Event.questions events) (.error (Credential.failed why)),
        some why, Event.elapsed events w)) ∧
    (∀ (v : Vault ω) name cache w x cache' why w',
      (∀ c ∈ sources, c.KeepsTime v.outside.now) →
      (v.withChain sources).lookup name (cache, none, w) = (x, cache', some why, w') →
      x = .error (Credential.failed why) ∧
        (∃ w₁ failures, Chain.Fails v.client sources w₁ failures w') ∧
        ∀ later, Event.KeepTime v.outside.now later →
          Event.run (v.withChain sources).lookup
              (fun change => Prod.map id (Prod.map id change)) later (cache', some why, w') =
            (List.replicate (Event.questions later) (.error (Credential.failed why)),
              cache', some why, Event.elapsed later w')) := by
  refine ⟨fun _ _ _ _ _ => Chain.issue_eq_iff_call, ?_, ?_, ?_, ?_⟩
  · intro client w asked x memo w' log hcall
    rw [List.range_eq_range']
    exact ⟨hcall.asked_le, (hcall.noted 0 log).issue_eq⟩
  · intro client w x why w' h
    obtain ⟨asked, hcall⟩ := Chain.issue_eq_iff_call.mp h
    obtain ⟨_, rfl, hfails⟩ := hcall.of_memo
    exact ⟨rfl, Chain.not_transient_failed why, hfails⟩
  · intro why events w
    exact Chain.run_of_exhausted why events w
  · intro v name cache w x cache' why w' hnow hlookup
    have hends := lookup_memo hnow rfl hlookup rfl
    refine ⟨hends.answer, hends.asked, ?_⟩
    intro later hlater
    exact run_of_exhausted later hlater w' hends.spent

/-- The tool is not there: after the first lookup two more fail in the same way, with time passing
before and between them. -/
theorem chain_exhaustion_isolated :
    let tool := AzureCli.credential (Outside.isolated 0) "az"
    let v : Vault Nat := ⟨Outside.isolated 0, ⟨"https", none, .segments [], none, none⟩, tool, {}, 5⟩
    let why := Chain.reason [(tool.name,
      .credential ("failed to run '" ++ "az" ++ "': " ++ FileFault.notFound.message))]
    ((v.withChain [tool]).lookup "A" (none, none, 0)).1 = .error (Credential.failed why) ∧
      Event.run (v.withChain [tool]).lookup (fun change => Prod.map id (Prod.map id change))
          [.elsewhere (· + 90000), .ask "B", .elsewhere (· + 1), .ask "A"] (none, some why, 0) =
        ([.error (Credential.failed why), .error (Credential.failed why)], none, some why, 90001) := by
  intro tool v why
  have hnow : ∀ c ∈ [tool], c.KeepsTime v.outside.now := by
    intro c hc client w
    obtain rfl := List.mem_singleton.mp hc
    exact Nat.le_refl w
  have hlookup : (v.withChain [tool]).lookup "A" (none, none, 0) =
      (.error (Credential.failed why), none, some why, 0) := rfl
  obtain ⟨_, _, hlater⟩ := (chain_exhaustion [tool]).2.2.2.2 v "A" none 0 _ none why 0 hnow hlookup
  refine ⟨congrArg Prod.fst hlookup, hlater _ ?_⟩
  intro change hchange w
  simp only [List.mem_cons, Event.elsewhere.injEq, reduceCtorEq, List.not_mem_nil, or_false,
    false_or] at hchange
  rcases hchange with rfl | rfl
  · exact Nat.le_add_right w 90000
  · exact Nat.le_add_right w 1

end Vault
end Placeholder
