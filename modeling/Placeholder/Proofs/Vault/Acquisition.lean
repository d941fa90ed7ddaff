import Placeholder.Credential.Ambient
import Placeholder.Proofs.Vault.Exhaustion

/-!
# The acquisition of tokens within the retries

When all credentials of a chain fail, the call either fails in passing, so that a lookup goes on and
a later call asks again, or it exhausts the chain. `acquisition_retried` says which: it fails in
passing exactly if an endpoint has asked to come back later. That an endpoint cannot be reached, or
does not answer in time, is no such request, although a lookup would go on after it
(`acquisition_outage`).
-/
namespace Placeholder

variable {ω : Type} {client : Http.Client} {w w' : ω} {failures : List (String × FetchError)}

namespace Chain

variable {sources : List (Credential ω)}

theorem transient_of_isThrottled {e : FetchError} (h : isThrottled e = true) :
    e.transient = true := by
  cases e with
  | http status message => exact h
  | transport fault => cases h
  | timeout ms => cases h
  | credential reason => cases h
  | invalidResponse reason => cases h

/-- The call gives no token, but it leaves the chain as it was, and its error asks for another. -/
def FailsInPassing (sources : List (Credential ω)) (client : Http.Client) (w w' : ω) : Prop :=
  ∃ e, issue sources client (none, w) = (.error (.error e), none, w') ∧ e.transient = true

theorem Fails.exhausts (hf : Fails client sources w failures w')
    (hnone : ∀ failure ∈ failures, isThrottled failure.2 = false) :
    issue sources client (none, w) =
      (.error (Credential.failed (reason failures)), some (reason failures), w') :=
  (Call.exhausted hf hnone).issue_eq

theorem Fails.failsInPassing_iff (hf : Fails client sources w failures w') :
    FailsInPassing sources client w w' ↔
      ∃ failure ∈ failures, isThrottled failure.2 = true := by
  constructor
  · rintro ⟨e, hissue, -⟩
    by_cases hnone : ∀ failure ∈ failures, isThrottled failure.2 = false
    · rw [hf.exhausts hnone] at hissue
      cases hissue
    · simpa using hnone
  · rintro ⟨failure, hmem, hthrottled⟩
    cases hfind : failures.find? (isThrottled ·.2) with
    | none =>
        have hnot := List.find?_eq_none.mp hfind failure hmem
        exact absurd hthrottled hnot
    | some first =>
        have hfirst := List.find?_some hfind
        refine ⟨first.2, ?_, transient_of_isThrottled hfirst⟩
        rw [issue_of_failed hf.tryAll_eq, hfind]

theorem Call.asked_pos {asked : Nat} {x : Except Failure AccessToken} {memo : Memo}
    (h : Call sources client w asked x memo w') (hne : sources ≠ []) : 0 < asked := by
  have hlength : 0 < sources.length := List.length_pos_iff.mpr hne
  cases h with
  | issued hs hf hc => exact Nat.succ_pos _
  | crashed hs hf hc => exact Nat.succ_pos _
  | throttled hf hb he => exact hlength
  | exhausted hf hn => exact hlength

/-- As long as a chain is not exhausted, each call asks its first credential. -/
theorem asks_first (c : Credential ω) (rest : List (Credential ω)) (client : Http.Client)
    (log : List Nat) (w : ω) :
    ∃ more, (issue (noted 0 (c :: rest)) client (none, log, w)).2.2.1 = log ++ 0 :: more := by
  obtain ⟨asked, x, memo, w', hcall⟩ := call_total (c :: rest) client w
  obtain ⟨n, rfl⟩ := Nat.exists_eq_succ_of_ne_zero
    (Nat.pos_iff_ne_zero.mp (hcall.asked_pos (List.cons_ne_nil c rest)))
  refine ⟨List.range' 1 n, ?_⟩
  rw [(hcall.noted 0 log).issue_eq]
  rfl

end Chain

namespace Ambient

/-- Where an application is named and no credential issues a token, none was given beforehand, and
the application is asked first. -/
theorem sources_of_fails {out : Outside ω} {env : Environment} {c : ClientSecret}
    (hc : clientSecret? env = some c) (hf : Chain.Fails client (sources out env) w failures w') :
    sources out env = [c.credential out, (managedIdentity env).credential out,
      AzureCli.credential out "az"] := by
  cases hgiven : env.nonEmpty? "AZURE_ACCESS_TOKEN" with
  | none => simp [sources, hgiven, hc]
  | some token =>
      simp only [sources, hgiven, Option.map_some, Option.toList_some, List.cons_append] at hf
      cases hf with
      | cons hissue => cases hissue

end Ambient

namespace Vault

/-- What is left of a lookup from an attempt on that `retries` others have come before. -/
def resume (v : Vault ω) (name : String) (left retries : Nat) (s : Cache × ω) :
    Answer × Cache × ω :=
  v.retry.attempts (fun ms (cache, w) => (cache, v.outside.pause ms w)) (v.attempt name) left
    retries s

theorem lookup_eq_resume (v : Vault ω) (name : String) (s : Cache × ω) :
    v.lookup name s = v.resume name v.retry.maxRetries 0 s :=
  rfl

variable {v : Vault ω} {sources : List (Credential ω)} {cache : Cache}

theorem transient_timed {e : FetchError} (h : e.transient = true) :
    (v.timed e).transient = true := by
  unfold timed
  split
  · rfl
  · rfl
  · exact h

/-- An attempt whose chain fails ends with the error of the chain and sends nothing. -/
theorem attempt_of_issue {e : FetchError} {memo : Chain.Memo} (name : String)
    (hspent : Spent cache (v.outside.now w))
    (h : Chain.issue sources v.client (none, w) = (.error (.error e), memo, w')) :
    (v.withChain sources).attempt name (cache, none, w) =
      (.error (.error (v.timed e)), cache, memo, w') := by
  have hbearer : (v.withChain sources).bearer (cache, none, w) = _ := bearer_of_spent hspent
  rw [h] at hbearer
  simp only [attempt, hbearer]

/-- An attempt that only has changed the world from `w` to `w'` is made again while retries are
left; when none is, its error is the end of the lookup. -/
structure Retried (v : Vault ω) (sources : List (Credential ω)) (name : String) (cache : Cache)
    (w w' : ω) (retries : Nat) : Prop where
  goesOn : ∀ left, (v.withChain sources).resume name (left + 1) retries (cache, none, w) =
    (v.withChain sources).resume name left (retries + 1)
      (cache, none, v.outside.pause (v.retry.delay retries) w')
  ends : ∃ e, e.transient = true ∧ (v.withChain sources).resume name 0 retries (cache, none, w) =
    (.error (.error e), cache, none, w')

theorem retried_of_failsInPassing (name : String) (hspent : Spent cache (v.outside.now w))
    (h : Chain.FailsInPassing sources v.client w w') (retries : Nat) :
    v.Retried sources name cache w w' retries := by
  obtain ⟨e, hissue, ht⟩ := h
  have hattempt := attempt_of_issue name hspent hissue
  have htransient : Retry.Transient
      ((v.withChain sources).attempt name (cache, none, w)).1 := by
    rw [hattempt]
    exact ⟨v.timed e, rfl, transient_timed ht⟩
  constructor
  · intro left
    rw [resume, Retry.attempts_of_transient htransient, hattempt]
    rfl
  · refine ⟨v.timed e, transient_timed ht, ?_⟩
    rw [resume, Retry.attempts_zero, hattempt]

/-- A call that exhausts the chain ends the lookup at once. -/
theorem lookup_of_exhausting {why : String} (name : String)
    (hspent : Spent cache (v.outside.now w))
    (h : Chain.issue sources v.client (none, w) = (.error (Credential.failed why), some why, w')) :
    (v.withChain sources).lookup name (cache, none, w) =
      (.error (Credential.failed why), cache, some why, w') := by
  have hattempt : (v.withChain sources).attempt name (cache, none, w) =
      (.error (Credential.failed why), cache, some why, w') := attempt_of_issue name hspent h
  have hend : ¬ Retry.Transient ((v.withChain sources).attempt name (cache, none, w)).1 := by
    rw [hattempt]
    exact Chain.not_transient_failed why
  rw [lookup, Retry.run, Retry.attempts_of_not_transient hend, hattempt]

/-- An environment names an application whose endpoint fails with a transient error, and nothing
else issues a token. The call fails in passing exactly if an endpoint has asked to come back later,
as the one of the application does when its error is a status; else the chain is exhausted. After a
call that fails in passing the attempt is made again, and the next call begins with the
application. -/
theorem acquisition_retried {out : Outside ω} {env : Environment} {c : ClientSecret}
    {e : FetchError} {w₁ : ω} (hc : Ambient.clientSecret? env = some c)
    (he : (c.credential out).issue client w = (.error (.error e), w₁)) (ht : e.transient = true)
    (hf : Chain.Fails client (Ambient.sources out env) w failures w') :
    (Chain.FailsInPassing (Ambient.sources out env) client w w' ↔
        ∃ failure ∈ failures, Chain.isThrottled failure.2 = true) ∧
      ((∃ status message, e = .http status message) →
        Chain.issue (Ambient.sources out env) client (none, w) =
          (.error (.error e), none, w')) ∧
      ((∀ failure ∈ failures, Chain.isThrottled failure.2 = false) →
        Chain.issue (Ambient.sources out env) client (none, w) =
          (.error (Credential.failed (Chain.reason failures)), some (Chain.reason failures),
            w')) ∧
      (∃ rest, Ambient.sources out env = c.credential out :: rest ∧
        ∀ log later, ∃ more,
          (Chain.issue (Chain.noted 0 (c.credential out :: rest)) client (none, log, later)).2.2.1 =
            log ++ 0 :: more) ∧
      (Chain.FailsInPassing (Ambient.sources out env) client w w' →
        ∀ (v : Vault ω) name cache, v.client = client → Spent cache (v.outside.now w) →
          ∀ retries, v.Retried (Ambient.sources out env) name cache w w' retries) := by
  have hsources := Ambient.sources_of_fails hc hf
  refine ⟨hf.failsInPassing_iff, ?_, hf.exhausts, ⟨_, hsources, Chain.asks_first _ _ client⟩, ?_⟩
  · rintro ⟨status, message, rfl⟩
    rw [hsources] at hf ⊢
    cases hf with
    | cons hissue hrest =>
        cases he.symm.trans hissue
        have hthrottled : Chain.isThrottled (.http status message) = true := ht
        rw [Chain.issue_of_failed (Chain.Fails.cons he hrest).tryAll_eq]
        simp only [List.find?_cons, hthrottled]
  · intro hpassing v name cache hclient hspent retries
    subst hclient
    exact retried_of_failsInPassing name hspent hpassing retries

/-! ## An endpoint out of reach -/

/-- What failed, and the state that is left. -/
def errorOf? {α σ : Type} : Except Failure α × σ → Option (FetchError × σ)
  | (.error (.error e), s) => some (e, s)
  | _ => none

theorem eq_of_errorOf? {α σ : Type} {x : Except Failure α × σ} {e : FetchError} {s : σ}
    (h : errorOf? x = some (e, s)) : x = (.error (.error e), s) := by
  obtain ⟨(e' | c) | a, s'⟩ := x
  · cases h
    rfl
  · cases h
  · cases h

/-- The variables that name an application. -/
def named : Environment :=
  ⟨[("AZURE_TENANT_ID", "t"), ("AZURE_CLIENT_ID", "c"), ("AZURE_CLIENT_SECRET", "s")], by decide⟩

def application : ClientSecret := { tenant := "t", client := "c", secret := "s" }

/-- Nothing is there but the endpoint of the application, which answers so. -/
def endpoint (answer : Nat → Except TransportFault Http.Response) : Outside Nat :=
  { Outside.isolated 0 with
    send := fun _ q clock =>
      if q.method = .post then (answer clock, clock + 1) else (.error .connect, clock) }

theorem machine_endpoint (answer : Nat → Except TransportFault Http.Response) (clock : Nat) :
    ((Ambient.managedIdentity named).credential (endpoint answer)).issue client clock =
      (.error (.error (.transport .connect)), clock) := by
  have hget : (Ambient.managedIdentity named).request?.map (·.method) = some .get := by
    decide +kernel
  obtain ⟨q, hq, hmethod⟩ := Option.map_eq_some_iff.mp hget
  simp [ManagedIdentity.credential, Credential.ask, Outside.exchange, Outside.follow, endpoint, hq,
    hmethod]

/-- Nothing else issues a token when the endpoint does not, nor is it asked to come back later. -/
theorem fails_endpoint {answer : Nat → Except TransportFault Http.Response} {e : FetchError}
    {clock clock' : Nat} (h : (application.credential (endpoint answer)).issue client clock =
      (.error (.error e), clock')) :
    ∃ others, (∀ failure ∈ others, Chain.isThrottled failure.2 = false) ∧
      Chain.Fails client (Ambient.sources (endpoint answer) named) clock
        ((ClientSecret.name, e) :: others) clock' := by
  refine ⟨_, ?_, .cons h (.cons (machine_endpoint answer clock') (.cons rfl (.nil clock')))⟩
  intro failure hfailure
  simp only [List.mem_cons, List.not_mem_nil, or_false] at hfailure
  rcases hfailure with rfl | rfl
  · rfl
  · rfl

def vaultOf (out : Outside Nat) : Vault Nat where
  outside := out
  url := ⟨"https", some { host := .domain "v.vault.azure.net" }, .segments [], none, none⟩
  credential := application.credential out
  retry := {}
  limit := usualLimit

/-- The endpoint is busy. -/
def busy : Outside Nat := endpoint fun _ => .ok ⟨503, none, .ok .empty⟩

/-- Two retries are left after a first attempt that has found the endpoint busy. -/
theorem acquisition_retried_busy :
    Chain.issue (Ambient.sources busy named) (vaultOf busy).client (none, 0) =
        (.error (.error (.http 503 "client-secret token endpoint: ")), none, 1) ∧
      ((vaultOf busy).withChain (Ambient.sources busy named)).lookup "A" (none, none, 0) =
        ((vaultOf busy).withChain (Ambient.sources busy named)).resume "A" 1 1
          (none, none, 201) := by
  have he : (application.credential busy).issue (vaultOf busy).client 0 =
      (.error (.error (.http 503 "client-secret token endpoint: ")), 1) :=
    eq_of_errorOf? (by decide +kernel)
  obtain ⟨others, -, hf⟩ := fails_endpoint he
  have hnamed : Ambient.clientSecret? named = some application := rfl
  obtain ⟨-, hissue, -, -, hvault⟩ := acquisition_retried hnamed he rfl hf
  have hkept := hissue ⟨_, _, rfl⟩
  have hspent : Spent none ((vaultOf busy).outside.now 0) := fun t ht => by cases ht
  have hretried := hvault ⟨_, hkept, rfl⟩ (vaultOf busy) "A" none rfl hspent 0
  refine ⟨hkept, ?_⟩
  rw [lookup_eq_resume]
  exact hretried.goesOn 1

/-- The endpoint does not answer at first, and issues tokens from then on. -/
def outage : Outside Nat := endpoint fun clock =>
  if clock = 0 then .error .timeout
  else .ok ⟨200, none, .ok "\x7b\"access_token\":\"a\"\x7d".toUTF8⟩

/-- One request that ran out of time exhausts the chain, whatever retries are left, although the
endpoint would answer the next one. -/
theorem acquisition_outage :
    Ambient.clientSecret? named = some application ∧
      (application.credential outage).issue (vaultOf outage).client 0 =
        (.error (.error (.transport .timeout)), 1) ∧
      FetchError.transient (.transport .timeout) = true ∧
      (∃ failures,
        Chain.Fails (vaultOf outage).client (Ambient.sources outage named) 0 failures 1) ∧
      (vaultOf outage).retry.maxRetries = 2 ∧
      (∃ why,
        Chain.issue (Ambient.sources outage named) (vaultOf outage).client (none, 0) =
            (.error (Credential.failed why), some why, 1) ∧
          ((vaultOf outage).withChain (Ambient.sources outage named)).lookup "A" (none, none, 0) =
            (.error (Credential.failed why), none, some why, 1)) ∧
      ((application.credential outage).issue (vaultOf outage).client 1).1.toOption =
        some ⟨"a", none⟩ := by
  have he : (application.credential outage).issue (vaultOf outage).client 0 =
      (.error (.error (.transport .timeout)), 1) :=
    eq_of_errorOf? (by decide +kernel)
  obtain ⟨others, hothers, hf⟩ := fails_endpoint he
  have hnone : ∀ failure ∈ (ClientSecret.name, FetchError.transport .timeout) :: others,
      Chain.isThrottled failure.2 = false := by
    intro failure hfailure
    rcases List.mem_cons.mp hfailure with rfl | hmem
    · rfl
    · exact hothers failure hmem
  have hspent : Spent none ((vaultOf outage).outside.now 0) := fun t ht => by cases ht
  refine ⟨rfl, he, rfl, ⟨_, hf⟩, rfl, ⟨_, hf.exhausts hnone, ?_⟩, by decide +kernel⟩
  exact lookup_of_exhausting "A" hspent (hf.exhausts hnone)

end Vault
end Placeholder
