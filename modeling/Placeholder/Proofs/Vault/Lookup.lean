import Placeholder.Credential.AzureCli
import Placeholder.Proofs.Retry.Attempts
import Placeholder.Vault

/-!
# What a lookup in a vault comes to

`Attempted` describes one attempt by what it does and how far it comes; a lookup is a row of such
attempts, by `Retry.run_eq_attempt`. Only the course of the last one counts: absence is a response
with status 404 and nothing else, a value is what a good response says, and all the rest is a
failure. How requests are sent and how bodies are read is given from outside.
-/
namespace Placeholder.Vault

variable {ω : Type} {v : Vault ω} {name : String} {s s' : Cache × ω}

/-- How far an attempt comes. -/
inductive Course where
  /-- There is no bearer token, and no request is made. -/
  | unissued (f : Failure)
  /-- The request brings no response. -/
  | unanswered (fault : TransportFault)
  /-- The response, after all redirects. -/
  | answered (r : Http.Response)

/-- One attempt: a bearer token is acquired once, and if there is one, the secret is requested
once. The body of a response is waited for unless its status says that nothing was found. -/
inductive Attempted (v : Vault ω) (name : String) (s : Cache × ω) : Course → Cache × ω → Prop
  | unissued {f : Failure} {s' : Cache × ω} (hb : v.bearer s = (.error f, s')) :
      Attempted v name s (.unissued f) s'
  | unanswered {bearer : String} {cache : Cache} {w w' : ω} {fault : TransportFault}
      (hb : v.bearer s = (.ok bearer, cache, w))
      (hx : v.outside.exchange v.client (request? v.url name bearer) w = (.error fault, w')) :
      Attempted v name s (.unanswered fault) (cache, w')
  | notFound {bearer : String} {cache : Cache} {w w' : ω} {r : Http.Response}
      (hb : v.bearer s = (.ok bearer, cache, w))
      (hx : v.outside.exchange v.client (request? v.url name bearer) w = (.ok r, w'))
      (hr : r.status = 404) :
      Attempted v name s (.answered r) (cache, w')
  | answered {bearer : String} {cache : Cache} {w w' : ω} {r : Http.Response}
      (hb : v.bearer s = (.ok bearer, cache, w))
      (hx : v.outside.exchange v.client (request? v.url name bearer) w = (.ok r, w'))
      (hr : r.status ≠ 404) :
      Attempted v name s (.answered r) (cache, (v.outside.body v.client r w').2)

/-! ## Responses -/

/-- The response says that there is a secret, and what its value is. -/
def Holds (r : Http.Response) (value : String) : Prop :=
  r.ok = true ∧ ∃ bytes, r.body = .ok bytes ∧ bundleValue? bytes = some (some value)

theorem status_ne_of_ok {r : Http.Response} (h : r.ok = true) : r.status ≠ 404 := by
  intro hr
  simp [Http.Response.ok, hr] at h

theorem body_fst (out : Outside ω) (client : Http.Client) (r : Http.Response) (w : ω) :
    (out.body client r w).1 = r.body := by
  unfold Outside.body
  split <;> simp_all

theorem valueOf_eq_ok_iff {bytes : ByteArray} {value : Option String} :
    valueOf bytes = .ok value ↔ ∃ text, value = some text ∧ bundleValue? bytes = some (some text) := by
  cases hb : bundleValue? bytes with
  | none => simp [valueOf, hb]
  | some found => cases found <;> simp [valueOf, hb, eq_comm]

theorem answer_of_notFound {r : Http.Response} (h : r.status = 404) (w : ω) :
    v.answer r w = (.ok none, w) := by
  simp [answer, h]

theorem answer_snd {r : Http.Response} (h : r.status ≠ 404) (w : ω) :
    (v.answer r w).2 = (v.outside.body v.client r w).2 := by
  obtain ⟨body, w', hread⟩ : ∃ body w', v.outside.body v.client r w = (body, w') := ⟨_, _, rfl⟩
  simp only [answer, if_neg h, hread]
  repeat' split
  all_goals rfl

/-- A response that is not a 404 is a value or an error, and never absence. -/
theorem answer_fst {r : Http.Response} (h : r.status ≠ 404) (w : ω) :
    (∃ value, (v.answer r w).1 = .ok (some value) ∧ Holds r value) ∨
      (∃ e, (v.answer r w).1 = .error (.error e) ∧ ∀ value, ¬ Holds r value) := by
  obtain ⟨body, w', hread⟩ : ∃ body w', v.outside.body v.client r w = (body, w') := ⟨_, _, rfl⟩
  have hbody : body = r.body := by rw [← body_fst v.outside v.client r w, hread]
  simp only [answer, if_neg h, hread]
  by_cases hok : r.ok = true
  · simp only [hok, if_true]
    cases body with
    | error fault =>
        refine .inr ?_
        have hnone : ∀ value, ¬ Holds r value := by
          rintro value ⟨_, bytes, hb, _⟩
          cases hbody.trans hb
        cases fault <;> exact ⟨_, rfl, hnone⟩
    | ok bytes =>
        cases hv : valueOf bytes with
        | error e =>
            refine .inr ⟨e, by simp only [hv], ?_⟩
            rintro value ⟨_, bytes', hb, hvalue⟩
            cases hbody.trans hb
            rw [valueOf_eq_ok_iff.mpr ⟨value, rfl, hvalue⟩] at hv
            cases hv
        | ok found =>
            obtain ⟨value, rfl, hvalue⟩ := valueOf_eq_ok_iff.mp hv
            exact .inl ⟨value, by simp only [hv], hok, bytes, hbody.symm, hvalue⟩
  · simp only [if_neg hok]
    exact .inr ⟨_, rfl, fun value hv => hok hv.1⟩

theorem Holds.unique {r : Http.Response} {value other : String} (h : Holds r value)
    (ho : Holds r other) : value = other := by
  obtain ⟨_, bytes, hb, hvalue⟩ := h
  obtain ⟨_, bytes', hb', hother⟩ := ho
  cases hb.symm.trans hb'
  simpa using hvalue.symm.trans hother

/-! ## Attempts -/

theorem exists_attempted (v : Vault ω) (name : String) (s : Cache × ω) :
    ∃ course s', v.Attempted name s course s' := by
  obtain ⟨acquired, cache, w, hb⟩ : ∃ acquired cache w, v.bearer s = (acquired, cache, w) :=
    ⟨_, _, _, rfl⟩
  cases acquired with
  | error f => exact ⟨_, _, .unissued hb⟩
  | ok bearer =>
      obtain ⟨x, w', hx⟩ :
          ∃ x w', v.outside.exchange v.client (request? v.url name bearer) w = (x, w') :=
        ⟨_, _, rfl⟩
      cases x with
      | error fault => exact ⟨_, _, .unanswered hb hx⟩
      | ok r =>
          by_cases hr : r.status = 404
          · exact ⟨_, _, .notFound hb hx hr⟩
          · exact ⟨_, _, .answered hb hx hr⟩

theorem Attempted.attempt_snd {course : Course} (h : v.Attempted name s course s') :
    (v.attempt name s).2 = s' := by
  cases h with
  | unissued hb => simp [attempt, hb]
  | unanswered hb hx => simp [attempt, hb, fetch, hx]
  | notFound hb hx hr => simp [attempt, hb, fetch, hx, answer_of_notFound hr]
  | answered hb hx hr => simp [attempt, hb, fetch, hx, answer_snd hr]

/-- What an answer tells of the course that has led to it. A crash is neither absence nor a value
nor an error, and comes only from the acquisition of a token. -/
structure Tells (course : Course) (x : Answer) : Prop where
  absent : x = .ok none ↔ ∃ r, course = .answered r ∧ r.status = 404
  value : ∀ value, x = .ok (some value) ↔ ∃ r, course = .answered r ∧ Holds r value
  crash : ∀ c, x = .error (.crash c) ↔ course = .unissued (.crash c)
  error : (∃ e, x = .error (.error e)) ↔ (∀ c, course ≠ .unissued (.crash c)) ∧
    ∀ r, course = .answered r → r.status ≠ 404 ∧ ∀ value, ¬ Holds r value

theorem tells_unissued (f : Failure) : Tells (.unissued f) (.error f) := by
  refine ⟨by simp, by simp, by simp, ?_⟩
  cases f <;> simp

theorem tells_unanswered (fault : TransportFault) (e : FetchError) :
    Tells (.unanswered fault) (.error (.error e)) :=
  ⟨by simp, by simp, by simp, by simp⟩

theorem tells_notFound {r : Http.Response} (hr : r.status = 404) :
    Tells (.answered r) (.ok none) := by
  have hnone (value : String) : ¬ Holds r value := fun hv => status_ne_of_ok hv.1 hr
  exact ⟨by simp [hr], by simp [hnone], by simp, by simp [hr]⟩

theorem tells_answer {r : Http.Response} (hr : r.status ≠ 404) (w : ω) :
    Tells (.answered r) (v.answer r w).1 := by
  rcases answer_fst (v := v) hr w with ⟨value, hx, hvalue⟩ | ⟨e, hx, hnone⟩
  · have hiff (other : String) : Holds r other ↔ value = other :=
      ⟨hvalue.unique, fun h => h ▸ hvalue⟩
    rw [hx]
    exact ⟨by simp [hr], by simp [hiff], by simp, by simp [hiff]⟩
  · rw [hx]
    exact ⟨by simp [hr], by simp [hnone], by simp, by simp [hr, hnone]⟩

theorem Attempted.tells {course : Course} (h : v.Attempted name s course s') :
    Tells course (v.attempt name s).1 := by
  cases h with
  | unissued hb =>
      simp only [attempt, hb]
      exact tells_unissued _
  | unanswered hb hx =>
      simp only [attempt, hb, fetch, hx]
      exact tells_unanswered _ _
  | notFound hb hx hr =>
      simp only [attempt, hb, fetch, hx, answer_of_notFound hr]
      exact tells_notFound hr
  | answered hb hx hr =>
      simp only [attempt, hb, fetch, hx]
      exact tells_answer hr _

/-! ## Lookups -/

/-- The state in which an attempt of a lookup starts that `k` failed ones have come before. -/
def begun (v : Vault ω) (name : String) : Cache × ω → Nat → Cache × ω :=
  v.retry.start (fun ms (cache, w) => (cache, v.outside.pause ms w)) (v.attempt name)

theorem begun_succ (v : Vault ω) (name : String) (s : Cache × ω) (k : Nat) :
    v.begun name s (k + 1) = ((v.attempt name (v.begun name s k)).2.1,
      v.outside.pause (v.retry.delay k) (v.attempt name (v.begun name s k)).2.2) :=
  rfl

/-- A lookup comes to what its last attempt comes to, and all attempts before it fail in passing. -/
theorem lookup_eq_attempt (v : Vault ω) (name : String) (s : Cache × ω) :
    ∃ n ≤ v.retry.maxRetries, v.lookup name s = v.attempt name (v.begun name s n) ∧
      (∀ k < n, Retry.Transient (v.attempt name (v.begun name s k)).1) ∧
      (n = v.retry.maxRetries ∨ ¬ Retry.Transient (v.lookup name s).1) := by
  obtain ⟨n, hn, heq, hbefore, hend⟩ := v.retry.run_eq_attempt
    (fun ms (cache, w) => (cache, v.outside.pause ms w)) (v.attempt name) s
  have hlookup : v.lookup name s = v.attempt name (v.begun name s n) := heq
  refine ⟨n, hn, hlookup, hbefore, ?_⟩
  rw [hlookup]
  exact hend

/-- Of a lookup only the last attempt counts, whose turn comes when all before it have failed in
passing. It says that a secret is absent when the vault has said so by a 404, gives the value that
a good response holds, and is an error in all other cases but one: a crash in the acquisition of
the token. -/
theorem lookup_tells_course (v : Vault ω) (name : String) (s : Cache × ω) :
    ∃ n ≤ v.retry.maxRetries, ∃ courses : Nat → Course,
      v.lookup name s = v.attempt name (v.begun name s n) ∧
      (∀ k ≤ n, v.Attempted name (v.begun name s k) (courses k)
        (v.attempt name (v.begun name s k)).2) ∧
      (∀ k < n, Retry.Transient (v.attempt name (v.begun name s k)).1) ∧
      (n = v.retry.maxRetries ∨ ¬ Retry.Transient (v.lookup name s).1) ∧
      Tells (courses n) (v.lookup name s).1 := by
  obtain ⟨n, hn, hlookup, hbefore, hend⟩ := v.lookup_eq_attempt name s
  have hall (k : Nat) : ∃ course, v.Attempted name (v.begun name s k) course
      (v.attempt name (v.begun name s k)).2 := by
    obtain ⟨course, s', hcourse⟩ := v.exists_attempted name (v.begun name s k)
    rw [hcourse.attempt_snd]
    exact ⟨course, hcourse⟩
  obtain ⟨courses, hcourses⟩ := Classical.skolem.mp hall
  refine ⟨n, hn, courses, hlookup, fun k _ => hcourses k, hbefore, hend, ?_⟩
  rw [hlookup]
  exact (hcourses n).tells

/-- A tool whose tokens live beyond the end of every clock. -/
def endless : Outside Nat :=
  let answer := "\x7b\"access_token\":\"a\",\"expires_in\":18446744073709551615\x7d"
  { Outside.isolated 0 with
    command := fun _ _ clock => (.ok ⟨some 0, answer.toUTF8, .empty⟩, clock) }

/-- A vault that takes its tokens from such a tool. -/
def endlessVault : Vault Nat where
  outside := endless
  url := ⟨"https", some { host := .domain "v.vault.azure.net" }, .segments [], none, none⟩
  credential := AzureCli.credential endless "az"
  retry := {}
  limit := usualLimit

/-- What the tool says about a lifetime is enough to end the run. -/
theorem lookup_endlessVault :
    (endlessVault.lookup "A" (none, 0)).1 = .error (.crash .clockOverflow) := by
  have h : (match (endlessVault.lookup "A" (none, 0)).1 with
      | .error f => some f
      | .ok _ => none) = some (.crash .clockOverflow) := by decide +kernel
  split at h
  · rename_i f hf
    rw [hf, Option.some.inj h]
  · cases h

end Placeholder.Vault
