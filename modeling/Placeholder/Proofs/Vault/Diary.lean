import Placeholder.Proofs.Vault.Exhaustion

/-!
# The diary of a vault

A diary has an entry for each attempt of each lookup: the time at which it began, what the vault
did, and what came of it. `Entry.Written` says what an entry may hold, by the token that was kept
before. Keeping the diary changes nothing else: `run_recordedLookup_written`.
-/
namespace Placeholder

/-- What a vault does that others notice. -/
inductive Vault.Deed where
  /-- The credential was asked for a token. -/
  | asked (issued : Except Failure AccessToken)
  /-- A request was sent, to the vault or to where a response pointed. -/
  | sent (q : Http.Request) (x : Except TransportFault Http.Response)

/-- The world outside with a list of what was sent to it. -/
def Outside.noting {ω : Type} (out : Outside ω) : Outside (List Vault.Deed × ω) :=
  { out.within Cell.snd with
    send := fun client q (deeds, w) =>
      let (x, w) := out.send client q w
      (x, deeds ++ [.sent q x], w) }

/-- The credential with a list of what it was asked for. -/
def Credential.noted {ω : Type} (c : Credential ω) : Credential (List Vault.Deed × ω) :=
  ⟨c.name, fun client (deeds, w) =>
    let (issued, w) := c.issue client w
    (issued, deeds ++ [.asked issued], w)⟩

variable {ω : Type}

theorem Credential.issue_noted {c : Credential ω} {client : Http.Client} {w w' : ω}
    {issued : Except Failure AccessToken}
    (h : c.issue client w = (issued, w')) (deeds : List Vault.Deed) :
    c.noted.issue client (deeds, w) = (issued, deeds ++ [.asked issued], w') := by
  simp only [noted, h]

namespace Vault

/-- A request and those that responses asked for in its place, in order, and what came of the
last one. -/
inductive Trail : Http.Request → List Deed → Except TransportFault Http.Response → Prop
  | last (q : Http.Request) (x : Except TransportFault Http.Response) : Trail q [.sent q x] x
  /-- One redirection too many. -/
  | lost (q : Http.Request) (r : Http.Response) : Trail q [.sent q (.ok r)] (.error .other)
  | onward {q next : Http.Request} {r : Http.Response} {deeds : List Deed}
      {x : Except TransportFault Http.Response} (hq : q.redirected? r = some next)
      (ht : Trail next deeds x) : Trail q (.sent q (.ok r) :: deeds) x

end Vault

theorem Outside.follow_noting (out : Outside ω) (client : Http.Client) (left : Nat) (q : Http.Request)
    (deeds : List Vault.Deed) (w : ω) :
    ∃ trail, Vault.Trail q trail (out.follow client left q w).1 ∧
      out.noting.follow client left q (deeds, w) =
        ((out.follow client left q w).1, deeds ++ trail, (out.follow client left q w).2) := by
  induction left generalizing q deeds w with
  | zero =>
      obtain ⟨x, w₁, hs⟩ : ∃ x w₁, out.send client q w = (x, w₁) := ⟨_, _, rfl⟩
      have hn : out.noting.send client q (deeds, w) = (x, deeds ++ [.sent q x], w₁) := by
        simp only [noting, hs]
      rw [follow, follow, hs, hn]
      cases x with
      | error fault => exact ⟨_, .last q _, rfl⟩
      | ok r =>
          cases hr : q.redirected? r with
          | none =>
              simp only [hr]
              exact ⟨_, .last q _, rfl⟩
          | some next =>
              simp only [hr]
              exact ⟨_, .lost q r, rfl⟩
  | succ left ih =>
      obtain ⟨x, w₁, hs⟩ : ∃ x w₁, out.send client q w = (x, w₁) := ⟨_, _, rfl⟩
      have hn : out.noting.send client q (deeds, w) = (x, deeds ++ [.sent q x], w₁) := by
        simp only [noting, hs]
      rw [follow, follow, hs, hn]
      cases x with
      | error fault => exact ⟨_, .last q _, rfl⟩
      | ok r =>
          cases hr : q.redirected? r with
          | none =>
              simp only [hr]
              exact ⟨_, .last q _, rfl⟩
          | some next =>
              simp only [hr]
              obtain ⟨trail, ht, heq⟩ := ih next (deeds ++ [.sent q (.ok r)]) w₁
              refine ⟨.sent q (.ok r) :: trail, .onward hr ht, ?_⟩
              rw [heq, List.append_assoc, List.singleton_append]

theorem Outside.body_noting (out : Outside ω) (client : Http.Client) (r : Http.Response)
    (deeds : List Vault.Deed) (w : ω) : out.noting.body client r (deeds, w) =
      ((out.body client r w).1, deeds, (out.body client r w).2) := by
  simp only [body]
  split <;> rfl

namespace Vault

variable {v : Vault ω} {name bearer : String} {cache : Cache} {deeds : List Deed} {w : ω}

/-- The vault with a list of what it does. -/
def noted (v : Vault ω) : Vault (List Deed × ω) where
  outside := v.outside.noting
  url := v.url
  credential := v.credential.noted
  retry := v.retry
  limit := v.limit

/-! ## Requests -/

/-- What is sent for a secret, and what is made of the response. -/
inductive Fetched (v : Vault ω) (name bearer : String) : List Deed → Answer → Prop
  | unformed {e : FetchError} (hq : request? v.url name bearer = none) :
      Fetched v name bearer [] (.error (.error e))
  | unanswered {q : Http.Request} {trail : List Deed} {fault : TransportFault} {e : FetchError}
      (hq : request? v.url name bearer = some q) (ht : Trail q trail (.error fault)) :
      Fetched v name bearer trail (.error (.error e))
  | answered {q : Http.Request} {trail : List Deed} {r : Http.Response} {x : Answer}
      (hq : request? v.url name bearer = some q) (ht : Trail q trail (.ok r))
      (hx : Tells (.answered r) x) : Fetched v name bearer trail x

theorem tells_answered (v : Vault ω) (r : Http.Response) (w : ω) :
    Tells (.answered r) (v.answer r w).1 := by
  by_cases hr : r.status = 404
  · rw [answer_of_notFound hr]
    exact tells_notFound hr
  · exact tells_answer hr w

theorem answer_noted (r : Http.Response) :
    v.noted.answer r (deeds, w) = ((v.answer r w).1, deeds, (v.answer r w).2) := by
  by_cases hr : r.status = 404
  · simp only [answer_of_notFound hr]
  · obtain ⟨body, w', hread⟩ : ∃ body w', v.outside.body v.client r w = (body, w') := ⟨_, _, rfl⟩
    have hnoted : v.noted.outside.body v.noted.client r (deeds, w) = (body, deeds, w') := by
      have h := v.outside.body_noting v.client r deeds w
      rw [hread] at h
      exact h
    simp only [answer, if_neg hr, hread, hnoted]
    split
    · cases body with
      | error fault => cases fault <;> rfl
      | ok bytes => cases hv : valueOf bytes <;> simp only [hv]
    · rfl

theorem fetch_noted (v : Vault ω) (name bearer : String) (deeds : List Deed) (w : ω) :
    ∃ trail, Fetched v name bearer trail (v.fetch name bearer w).1 ∧
      v.noted.fetch name bearer (deeds, w) =
        ((v.fetch name bearer w).1, deeds ++ trail, (v.fetch name bearer w).2) := by
  cases hq : request? v.url name bearer with
  | none =>
      have hn : request? v.noted.url name bearer = none := hq
      refine ⟨[], ?_, ?_⟩
      · simp only [fetch, hq, Outside.exchange]
        exact .unformed hq
      · simp only [fetch, hq, hn, Outside.exchange, List.append_nil]
        rfl
  | some q =>
      have hn : request? v.noted.url name bearer = some q := hq
      obtain ⟨trail, ht, heq⟩ :=
        v.outside.follow_noting v.client Outside.redirectLimit q deeds w
      obtain ⟨x, w', hf⟩ :
          ∃ x w', v.outside.follow v.client Outside.redirectLimit q w = (x, w') := ⟨_, _, rfl⟩
      rw [hf] at ht heq
      have hnoted : v.noted.outside.follow v.noted.client Outside.redirectLimit q (deeds, w) =
          (x, deeds ++ trail, w') := heq
      refine ⟨trail, ?_⟩
      simp only [fetch, hq, hn, Outside.exchange, hf, hnoted]
      cases x with
      | error fault => exact ⟨.unanswered hq ht, rfl⟩
      | ok r => exact ⟨.answered hq ht (tells_answered v r w'), answer_noted r⟩

/-! ## Attempts -/

/-- An attempt for a name, at the time when it began. -/
structure Entry where
  name : String
  time : Nat
  deeds : List Deed
  answer : Answer

abbrev Diary := List Entry

/-- One attempt, which writes an entry of its own. -/
def recordedAttempt (v : Vault ω) (name : String) :
    Cache × Diary × ω → Answer × Cache × Diary × ω
  | (cache, diary, w) =>
    let (answer, cache, deeds, w') := v.noted.attempt name (cache, [], w)
    (answer, cache, diary ++ [⟨name, v.outside.now w, deeds, answer⟩], w')

def recordedLookup (v : Vault ω) (name : String) :
    Cache × Diary × ω → Answer × Cache × Diary × ω :=
  v.retry.run (fun ms (cache, diary, w) => (cache, diary, v.outside.pause ms w))
    (v.recordedAttempt name)

/-- What an entry may hold when one token is kept before it and another one after it. -/
inductive Entry.Written (v : Vault ω) : Cache → Entry → Cache → Prop
  | refused {held : Cache} {name : String} {time : Nat} {f g : Failure} (hs : Spent held time) :
      Written v held ⟨name, time, [.asked (.error f)], .error g⟩ held
  | renewed {held : Cache} {name : String} {time : Nat} {t : AccessToken} {trail : List Deed}
      {x : Answer} (hs : Spent held time) (hf : Fetched v name t.text trail x) :
      Written v held ⟨name, time, .asked (.ok t) :: trail, x⟩ (some t)
  | kept {name : String} {time : Nat} {t : AccessToken} {trail : List Deed} {x : Answer}
      (ht : t.freshAt time = true) (hf : Fetched v name t.text trail x) :
      Written v (some t) ⟨name, time, trail, x⟩ (some t)

/-- An attempt writes one entry by the rules, and does all else as without a diary. -/
theorem recordedAttempt_written (v : Vault ω) (name : String) (cache : Cache) (diary : Diary)
    (w : ω) :
    ∃ e kept w', v.attempt name (cache, w) = (e.answer, kept, w') ∧
      v.recordedAttempt name (cache, diary, w) = (e.answer, kept, diary ++ [e], w') ∧
      e.Written v cache kept := by
  cases hfilter : cache.filter (fun t => t.freshAt (v.outside.now w)) with
  | some t =>
      obtain ⟨rfl, hfresh⟩ := Option.filter_eq_some_iff.mp hfilter
      obtain ⟨trail, hf, heq⟩ := v.fetch_noted name t.text [] w
      obtain ⟨x, w', hx⟩ : ∃ x w', v.fetch name t.text w = (x, w') := ⟨_, _, rfl⟩
      rw [hx] at hf heq
      have hnoted : (some t : Cache).filter (fun t => t.freshAt (v.noted.outside.now ([], w))) =
          some t := hfilter
      refine ⟨⟨name, v.outside.now w, trail, x⟩, some t, w', ?_, ?_, .kept hfresh hf⟩
      · simp only [attempt, bearer, hfilter, hx]
      · simp only [recordedAttempt, attempt, bearer, hnoted, heq, List.nil_append]
  | none =>
      have hspent : Spent cache (v.outside.now w) := spent_iff_filter.mpr hfilter
      have hnoted : cache.filter (fun t => t.freshAt (v.noted.outside.now ([], w))) = none :=
        hfilter
      obtain ⟨issued, w₁, hi⟩ : ∃ issued w₁, v.credential.issue v.client w = (issued, w₁) :=
        ⟨_, _, rfl⟩
      have hn : v.noted.credential.issue v.noted.client ([], w) = (issued, [.asked issued], w₁) :=
        Credential.issue_noted hi []
      rcases issued with (e | c) | t
      · refine ⟨⟨name, v.outside.now w, [.asked (.error (.error e))], .error (.error (v.timed e))⟩,
          cache, w₁, ?_, ?_, .refused hspent⟩
        · simp only [attempt, bearer, hfilter, hi]
        · simp only [recordedAttempt, attempt, bearer, hnoted, hn]
          rfl
      · refine ⟨⟨name, v.outside.now w, [.asked (.error (.crash c))], .error (.crash c)⟩,
          cache, w₁, ?_, ?_, .refused hspent⟩
        · simp only [attempt, bearer, hfilter, hi]
        · simp only [recordedAttempt, attempt, bearer, hnoted, hn]
      · obtain ⟨trail, hf, heq⟩ := v.fetch_noted name t.text [.asked (.ok t)] w₁
        obtain ⟨x, w', hx⟩ : ∃ x w', v.fetch name t.text w₁ = (x, w') := ⟨_, _, rfl⟩
        rw [hx] at hf heq
        refine ⟨⟨name, v.outside.now w, .asked (.ok t) :: trail, x⟩, some t, w', ?_, ?_,
          .renewed hspent hf⟩
        · simp only [attempt, bearer, hfilter, hi, hx]
        · simp only [recordedAttempt, attempt, bearer, hnoted, hn, heq, List.singleton_append]

/-! ## Runs -/

/-- Entries that follow each other, each with the token that the one before has left. -/
inductive Diary.Written (v : Vault ω) : Cache → Diary → Cache → Prop
  | nil (held : Cache) : Written v held [] held
  | cons {held between kept : Cache} {e : Entry} {rest : Diary} (he : e.Written v held between)
      (hr : Written v between rest kept) : Written v held (e :: rest) kept

theorem Diary.Written.append {held between kept : Cache} {before after : Diary}
    (hb : Diary.Written v held before between) (ha : Diary.Written v between after kept) :
    Diary.Written v held (before ++ after) kept := by
  induction hb with
  | nil held => exact ha
  | cons he _ ih => exact .cons he (ih ha)

/-- A lookup writes an entry for each attempt, and its answer is that of one of them. -/
theorem attempts_written (v : Vault ω) (name : String) (left k : Nat) (cache : Cache)
    (diary : Diary) (w : ω) :
    ∃ x kept entries w',
      v.retry.attempts (fun ms (cache, w) => (cache, v.outside.pause ms w)) (v.attempt name)
        left k (cache, w) = (x, kept, w') ∧
      v.retry.attempts (fun ms (cache, diary, w) => (cache, diary, v.outside.pause ms w))
        (v.recordedAttempt name) left k (cache, diary, w) = (x, kept, diary ++ entries, w') ∧
      Diary.Written v cache entries kept ∧ ∃ e ∈ entries, e.answer = x := by
  induction left generalizing k cache diary w with
  | zero =>
      obtain ⟨e, kept, w', hplain, hrecorded, he⟩ := v.recordedAttempt_written name cache diary w
      rw [Retry.attempts_zero, Retry.attempts_zero]
      exact ⟨e.answer, kept, [e], w', hplain, hrecorded, .cons he (.nil kept), e,
        List.mem_singleton_self e, rfl⟩
  | succ left ih =>
      obtain ⟨e, kept, w', hplain, hrecorded, he⟩ := v.recordedAttempt_written name cache diary w
      -- The two answers are the same, so both runs go on or neither does.
      have hfirst : (v.attempt name (cache, w)).1 = e.answer := by rw [hplain]
      have hsame : (v.recordedAttempt name (cache, diary, w)).1 = e.answer := by rw [hrecorded]
      by_cases ht : Retry.Transient e.answer
      · rw [Retry.attempts_of_transient (hfirst ▸ ht), Retry.attempts_of_transient (hsame ▸ ht),
          hplain, hrecorded]
        obtain ⟨x, last, entries, w₂, hleft, hright, hwritten, found, hfound, hx⟩ :=
          ih (k + 1) kept (diary ++ [e]) (v.outside.pause (v.retry.delay k) w')
        refine ⟨x, last, e :: entries, w₂, hleft, ?_, .cons he hwritten, found,
          List.mem_cons_of_mem e hfound, hx⟩
        rw [hright, List.append_assoc, List.singleton_append]
      · rw [Retry.attempts_of_not_transient (hfirst ▸ ht),
          Retry.attempts_of_not_transient (hsame ▸ ht)]
        exact ⟨e.answer, kept, [e], w', hplain, hrecorded, .cons he (.nil kept), e,
          List.mem_singleton_self e, rfl⟩

theorem recordedLookup_written (v : Vault ω) (name : String) (cache : Cache) (diary : Diary)
    (w : ω) :
    ∃ x kept entries w', v.lookup name (cache, w) = (x, kept, w') ∧
      v.recordedLookup name (cache, diary, w) = (x, kept, diary ++ entries, w') ∧
      Diary.Written v cache entries kept ∧ ∃ e ∈ entries, e.answer = x :=
  v.attempts_written name v.retry.maxRetries 0 cache diary w

/-- A run of lookups, with whatever happens between them, writes entries by the rules, and does all
else as without a diary. -/
theorem run_recordedLookup_written (v : Vault ω) (events : List (Event String ω)) (cache : Cache)
    (diary : Diary) (w : ω) :
    ∃ answers kept entries w',
      Event.run v.lookup (Prod.map id) events (cache, w) = (answers, kept, w') ∧
      Event.run v.recordedLookup (fun change => Prod.map id (Prod.map id change)) events
        (cache, diary, w) = (answers, kept, diary ++ entries, w') ∧
      Diary.Written v cache entries kept ∧ ∀ x ∈ answers, ∃ e ∈ entries, e.answer = x := by
  induction events generalizing cache diary w with
  | nil => exact ⟨[], cache, [], w, rfl, by simp [Event.run], .nil cache, by simp⟩
  | cons event rest ih =>
      cases event with
      | elsewhere change => exact ih cache diary (change w)
      | ask name =>
          obtain ⟨x, between, first, w₁, hplain, hrecorded, hfirst, found, hfound, hx⟩ :=
            v.recordedLookup_written name cache diary w
          obtain ⟨answers, kept, later, w', hleft, hright, hlater, hanswers⟩ :=
            ih between (diary ++ first) w₁
          refine ⟨x :: answers, kept, first ++ later, w', ?_, ?_, hfirst.append hlater, ?_⟩
          · simp only [Event.run, hplain, hleft]
          · simp only [Event.run, hrecorded, hright, List.append_assoc]
          · intro y hy
            rcases List.mem_cons.mp hy with rfl | hy
            · exact ⟨found, List.mem_append_left later hfound, hx⟩
            · obtain ⟨e, he, hey⟩ := hanswers y hy
              exact ⟨e, List.mem_append_right first he, hey⟩

end Vault
end Placeholder
