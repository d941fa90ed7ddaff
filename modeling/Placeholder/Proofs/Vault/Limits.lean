import Placeholder.Proofs.Credential.Limits
import Placeholder.Proofs.Vault.Exhaustion

/-!
# Limits that run out in a lookup

A lookup ends by a time-out when a limit has run out in its last attempt: that of a request for a
secret or for a token, that of a connection, or one that a credential tells of itself.
`Vault.lookup_timeout_tells` says which number the error then gives. It is the limit that the vault
sets for a request, whichever limit of a request it was: a request for a token may have less time
(`lookup_unansweredVault`).
-/
namespace Placeholder

variable {ω : Type}

namespace Vault

variable {v : Vault ω} {issuer : Issuer ω} {name bearer : String} {s : Cache × ω} {ms : Nat}

/-- The vault with tokens from this issuer. -/
def withIssuer (v : Vault ω) (issuer : Issuer ω) : Vault ω :=
  { v with credential := issuer.credential v.outside }

/-- What is told of a limit that ran out. -/
def told (v : Vault ω) : Expiry → Nat
  | .request _ => v.limit % UInt64.size
  | .connection _ => v.limit % UInt64.size
  | .stated limit => limit

/-! ## Faults and errors -/

theorem timed_of_untimed {e : FetchError} (h : e.Untimed) : v.timed e ≠ .timeout ms := by
  cases h with
  | http status message => exact FetchError.noConfusion
  | credential reason => exact FetchError.noConfusion

/-- A request of the vault may have a limit of its own, and always has one. -/
theorem timed_transport_iff (own : Option Nat) {fault : TransportFault} :
    v.timed (.transport fault) = .timeout ms ↔
      ∃ e, (v.client.withOwn own).expiry? fault = some e ∧ ms = v.told e := by
  have hlimit : (v.client.withOwn own).limit = some (own.getD v.limit) := by
    cases own <;> rfl
  have hconnect : (v.client.withOwn own).connectLimit = some (min connectLimit v.limit) := rfl
  cases fault with
  | connect => simp [timed, Http.Client.expiry?]
  | connectTimeout => simp [timed, timedOut, Http.Client.expiry?, hconnect, told, eq_comm]
  | timeout => simp [timed, timedOut, Http.Client.expiry?, hlimit, told, eq_comm]
  | other => simp [timed, Http.Client.expiry?]

/-- A request for a token ends by a time-out when its exchange does, and never by its response. -/
theorem timed_ask_iff (own : Option Nat) {q : Option Http.Request} {w : ω} :
    (∃ e, (Credential.ask v.outside name (v.client.withOwn own) q w).1 = .error (.error e) ∧
        v.timed e = .timeout ms) ↔
      ∃ fault e, (v.outside.exchange (v.client.withOwn own) q w).1 = .error fault ∧
        (v.client.withOwn own).expiry? fault = some e ∧ ms = v.told e := by
  obtain ⟨x, w', hx⟩ : ∃ x w', v.outside.exchange (v.client.withOwn own) q w = (x, w') :=
    ⟨_, _, rfl⟩
  cases x with
  | error fault => simp [Credential.ask, hx, timed_transport_iff own]
  | ok r =>
      simp only [Credential.ask, hx, reduceCtorEq, false_and, exists_false, iff_false]
      rintro ⟨e, he, htimed⟩
      exact timed_of_untimed (Credential.untimed_tokenOfResponse he) htimed

theorem timed_tool_iff {program : String} {w : ω} :
    (∃ e, ((AzureCli.credential v.outside program).issue v.client w).1 = .error (.error e) ∧
        v.timed e = .timeout ms) ↔
      ∃ e, Issuer.RunsOut v.outside v.client w (.tool program) e ∧ ms = v.told e := by
  obtain ⟨x, w', hx⟩ : ∃ x w',
      v.outside.command program AzureCli.arguments w = (x, w') := ⟨_, _, rfl⟩
  constructor
  · rintro ⟨e, he, htimed⟩
    simp only [AzureCli.credential, hx] at he
    rcases x with (fault | _) | o
    · cases he
      cases htimed
    · cases he
      cases htimed
      exact ⟨_, .tool (congrArg Prod.fst hx), rfl⟩
    · exact absurd htimed (timed_of_untimed (AzureCli.untimed_tokenOfOutput he))
  · rintro ⟨e, he, rfl⟩
    cases he with
    | tool hx' =>
        rw [hx] at hx'
        cases hx'
        exact ⟨.timeout AzureCli.limit, by simp [AzureCli.credential, hx], rfl⟩

theorem timed_other_iff {c : Credential ω} {own : Option Nat} {w : ω} :
    (∃ e, (c.issue v.client w).1 = .error (.error e) ∧ v.timed e = .timeout ms) ↔
      ∃ e, Issuer.RunsOut v.outside v.client w (.other c own) e ∧ ms = v.told e := by
  constructor
  · rintro ⟨e, he, htimed⟩
    cases e with
    | transport fault =>
        obtain ⟨e, he', rfl⟩ := (timed_transport_iff own).mp htimed
        exact ⟨e, .requested he he', rfl⟩
    | timeout limit =>
        cases htimed
        exact ⟨_, .stated he, rfl⟩
    | http status message => cases htimed
    | credential reason => cases htimed
    | invalidResponse reason => cases htimed
  · rintro ⟨e, he, rfl⟩
    cases he with
    | requested hx he =>
        exact ⟨_, hx, (timed_transport_iff own).mpr ⟨e, he, rfl⟩⟩
    | stated hx => exact ⟨_, hx, rfl⟩

/-- The error that an issuer brings to a vault is a time-out when a limit has run out for it. -/
theorem timed_issue_iff {w : ω} :
    (∃ e, ((issuer.credential v.outside).issue v.client w).1 = .error (.error e) ∧
        v.timed e = .timeout ms) ↔
      ∃ e, issuer.RunsOut v.outside v.client w e ∧ ms = v.told e := by
  cases issuer with
  | given token =>
      constructor
      · rintro ⟨e, he, -⟩
        cases he
      · rintro ⟨e, he, -⟩
        cases he
  | application c =>
      refine (timed_ask_iff none).trans ⟨?_, ?_⟩
      · rintro ⟨fault, e, hx, he, rfl⟩
        exact ⟨e, .application hx he, rfl⟩
      · rintro ⟨e, he, rfl⟩
        cases he with
        | application hx he => exact ⟨_, e, hx, he, rfl⟩
  | identity m =>
      have hask := @timed_ask_iff ω v ManagedIdentity.name ms m.own? m.request? w
      rw [← m.limited_eq v.client] at hask
      refine hask.trans ⟨?_, ?_⟩
      · rintro ⟨fault, e, hx, he, rfl⟩
        exact ⟨e, .identity hx he, rfl⟩
      · rintro ⟨e, he, rfl⟩
        cases he with
        | identity hx he => exact ⟨_, e, hx, he, rfl⟩
  | tool program => exact timed_tool_iff
  | chain memo sources =>
      constructor
      · rintro ⟨e, he, htimed⟩
        exact absurd htimed (timed_of_untimed (Chain.untimed_issue he))
      · rintro ⟨e, he, -⟩
        cases he
  | other c own => exact timed_other_iff

/-! ## Attempts -/

/-- In an attempt from this state a limit runs out, and nothing comes of the attempt. A body that
does not arrive in time counts when the status is good; else the status is what the error tells. -/
inductive RunsOut (v : Vault ω) (issuer : Issuer ω) (name : String) (s : Cache × ω) :
    Expiry → Prop
  | token {e : Expiry} (hs : Spent s.1 (v.outside.now s.2))
      (he : issuer.RunsOut v.outside v.client s.2 e) : RunsOut v issuer name s e
  | secret {bearer : String} {cache : Cache} {w : ω} {fault : TransportFault} {e : Expiry}
      (hb : (v.withIssuer issuer).bearer s = (.ok bearer, cache, w))
      (hx : (v.outside.exchange v.client (request? v.url name bearer) w).1 = .error fault)
      (he : v.client.expiry? fault = some e) : RunsOut v issuer name s e
  | body {bearer : String} {cache : Cache} {w w' : ω} {r : Http.Response}
      (hb : (v.withIssuer issuer).bearer s = (.ok bearer, cache, w))
      (hx : v.outside.exchange v.client (request? v.url name bearer) w = (.ok r, w'))
      (hr : r.ok = true) (hbody : r.body = .error .timeout) :
      RunsOut v issuer name s (.request v.limit)

theorem bearer_timeout_iff :
    ((v.withIssuer issuer).bearer s).1 = .error (.error (.timeout ms)) ↔
      ∃ e, Spent s.1 (v.outside.now s.2) ∧ issuer.RunsOut v.outside v.client s.2 e ∧
        ms = v.told e := by
  obtain ⟨cache, w⟩ := s
  rw [exists_and_left, ← timed_issue_iff]
  have hcredential : (v.withIssuer issuer).credential.issue (v.withIssuer issuer).client w =
      (issuer.credential v.outside).issue v.client w := rfl
  cases hfilter : cache.filter (fun t => t.freshAt (v.outside.now w)) with
  | some t =>
      have hfresh : cache.filter (fun t => t.freshAt ((v.withIssuer issuer).outside.now w)) =
          some t := hfilter
      simp [bearer, hfresh, spent_iff_filter, hfilter]
  | none =>
      have hstale : cache.filter (fun t => t.freshAt ((v.withIssuer issuer).outside.now w)) =
          none := hfilter
      simp only [bearer, hstale, hcredential, spent_iff_filter, hfilter, true_and]
      obtain ⟨(e | c) | t, w'⟩ := (issuer.credential v.outside).issue v.client w
      · simp [timed, withIssuer, timedOut]
      · simp
      · simp

theorem valueOf_ne_timeout (bytes : ByteArray) (ms : Nat) :
    valueOf bytes ≠ .error (.timeout ms) := by
  cases hb : bundleValue? bytes with
  | none => simp [valueOf, hb]
  | some found => cases found <;> simp [valueOf, hb]

theorem answer_timeout_iff {r : Http.Response} {w : ω} :
    (v.answer r w).1 = .error (.error (.timeout ms)) ↔
      r.ok = true ∧ r.body = .error .timeout ∧ ms = v.told (.request v.limit) := by
  by_cases hr : r.status = 404
  · have hok : r.ok ≠ true := fun hok => status_ne_of_ok hok hr
    simp [answer_of_notFound hr, hok]
  · have hbody := body_fst v.outside v.client r w
    obtain ⟨body, w', hread⟩ : ∃ body w', v.outside.body v.client r w = (body, w') := ⟨_, _, rfl⟩
    rw [hread] at hbody
    subst hbody
    by_cases hok : r.ok = true
    · simp only [answer, if_neg hr, hread, hok, true_and]
      rcases r.body with fault | bytes
      · cases fault <;> simp [timedOut, told, eq_comm]
      · have hvalue := valueOf_ne_timeout bytes ms
        cases hv : valueOf bytes <;> simp_all
    · simp [answer, if_neg hr, hread, hok]

theorem fetch_timeout_iff {w : ω} :
    (v.fetch name bearer w).1 = .error (.error (.timeout ms)) ↔
      (∃ fault e, (v.outside.exchange v.client (request? v.url name bearer) w).1 = .error fault ∧
        v.client.expiry? fault = some e ∧ ms = v.told e) ∨
      ∃ r w', v.outside.exchange v.client (request? v.url name bearer) w = (.ok r, w') ∧
        r.ok = true ∧ r.body = .error .timeout ∧ ms = v.told (.request v.limit) := by
  obtain ⟨x, w', hx⟩ : ∃ x w',
      v.outside.exchange v.client (request? v.url name bearer) w = (x, w') := ⟨_, _, rfl⟩
  cases x with
  | error fault => simp [fetch, hx, timed_transport_iff none, Http.Client.withOwn_none]
  | ok r => simp [fetch, hx, answer_timeout_iff]

theorem attempt_timeout_iff :
    ((v.withIssuer issuer).attempt name s).1 = .error (.error (.timeout ms)) ↔
      ∃ e, v.RunsOut issuer name s e ∧ ms = v.told e := by
  obtain ⟨acquired, cache, w, hb⟩ : ∃ acquired cache w,
      (v.withIssuer issuer).bearer s = (acquired, cache, w) := ⟨_, _, _, rfl⟩
  have hbearer := @bearer_timeout_iff ω v issuer s ms
  rw [hb] at hbearer
  cases acquired with
  | error f =>
      simp only [attempt, hb]
      rw [Except.error.injEq] at hbearer ⊢
      rw [hbearer]
      constructor
      · rintro ⟨e, hs, he, rfl⟩
        exact ⟨e, .token hs he, rfl⟩
      · rintro ⟨e, he, rfl⟩
        cases he with
        | token hs he => exact ⟨e, hs, he, rfl⟩
        | secret hb' hx he => cases hb.symm.trans hb'
        | body hb' hx hr hbody => cases hb.symm.trans hb'
  | ok bearer =>
      have hattempt : ((v.withIssuer issuer).attempt name s).1 = (v.fetch name bearer w).1 := by
        simp only [attempt, hb]
        rfl
      rw [hattempt, fetch_timeout_iff]
      constructor
      · rintro (⟨fault, e, hx, he, rfl⟩ | ⟨r, w', hx, hr, hbody, rfl⟩)
        · exact ⟨e, .secret hb hx he, rfl⟩
        · exact ⟨_, .body hb hx hr hbody, rfl⟩
      · rintro ⟨e, he, rfl⟩
        cases he with
        | token hs he => cases hbearer.mpr ⟨e, hs, he, rfl⟩
        | secret hb' hx he =>
            cases hb.symm.trans hb'
            exact .inl ⟨_, e, hx, he, rfl⟩
        | body hb' hx hr hbody =>
            cases hb.symm.trans hb'
            exact .inr ⟨_, _, hx, hr, hbody, rfl⟩

theorem RunsOut.unique {e e' : Expiry} (h : v.RunsOut issuer name s e)
    (h' : v.RunsOut issuer name s e') : e = e' := by
  -- Where a limit runs out for the token there is none, and nothing is sent for the secret.
  have hnone {e : Expiry} (hs : Spent s.1 (v.outside.now s.2))
      (he : issuer.RunsOut v.outside v.client s.2 e) {bearer : String} {s' : Cache × ω} :
      (v.withIssuer issuer).bearer s ≠ (.ok bearer, s') := by
    intro hb
    have htimeout := bearer_timeout_iff.mpr ⟨e, hs, he, rfl⟩
    rw [hb] at htimeout
    cases htimeout
  cases h with
  | token hs he =>
      cases h' with
      | token hs' he' => exact he.unique he'
      | secret hb' hx' he' => exact absurd hb' (hnone hs he)
      | body hb' hx' hr' hbody' => exact absurd hb' (hnone hs he)
  | secret hb hx he =>
      cases h' with
      | token hs' he' => exact absurd hb (hnone hs' he')
      | secret hb' hx' he' =>
          cases hb.symm.trans hb'
          cases hx.symm.trans hx'
          exact Option.some.inj (he.symm.trans he')
      | body hb' hx' hr' hbody' =>
          cases hb.symm.trans hb'
          rw [hx'] at hx
          cases hx
  | body hb hx hr hbody =>
      cases h' with
      | token hs' he' => exact absurd hb (hnone hs' he')
      | secret hb' hx' he' =>
          cases hb.symm.trans hb'
          rw [hx] at hx'
          cases hx'
      | body hb' hx' hr' hbody' => rfl

/-! ## Limits -/

/-- The limits that an attempt knows with this issuer. -/
inductive Limited (v : Vault ω) : Issuer ω → Expiry → Prop
  | request (issuer : Issuer ω) : Limited v issuer (.request v.limit)
  | connection (issuer : Issuer ω) : Limited v issuer (.connection (min connectLimit v.limit))
  /-- The service of a machine is given little time. -/
  | machine {m : ManagedIdentity} (hm : m.header = none) :
      Limited v (.identity m) (.request ManagedIdentity.machineLimit)
  | tool (program : String) : Limited v (.tool program) (.stated AzureCli.limit)
  | own (c : Credential ω) (limit : Nat) : Limited v (.other c (some limit)) (.request limit)
  | stated (c : Credential ω) (own : Option Nat) (limit : Nat) :
      Limited v (.other c own) (.stated limit)

theorem expiry_cases {own : Option Nat} {fault : TransportFault} {e : Expiry}
    (h : (v.client.withOwn own).expiry? fault = some e) :
    e = .connection (min connectLimit v.limit) ∨ e = .request (own.getD v.limit) := by
  cases fault with
  | connect => cases h
  | connectTimeout => exact .inl (Option.some.inj h).symm
  | timeout =>
      right
      cases own with
      | none => exact (Option.some.inj h).symm
      | some limit => exact (Option.some.inj h).symm
  | other => cases h

theorem limited_of_expiry {fault : TransportFault} {e : Expiry}
    (h : v.client.expiry? fault = some e) : v.Limited issuer e := by
  rw [← v.client.withOwn_none] at h
  rcases expiry_cases h with rfl | rfl
  · exact .connection issuer
  · exact .request issuer

theorem limited_of_issuer {w : ω} {e : Expiry} (h : issuer.RunsOut v.outside v.client w e) :
    v.Limited issuer e := by
  cases h with
  | application hx he => exact limited_of_expiry he
  | @identity m fault e hx he =>
      rw [m.limited_eq] at he
      cases hm : m.header with
      | some header =>
          rw [ManagedIdentity.own?, hm] at he
          exact limited_of_expiry he
      | none =>
          rw [ManagedIdentity.own?, hm] at he
          rcases expiry_cases he with rfl | rfl
          · exact .connection _
          · exact .machine hm
  | tool hx => exact .tool _
  | @requested c own fault e hx he =>
      cases own with
      | none => exact limited_of_expiry he
      | some limit =>
          rcases expiry_cases he with rfl | rfl
          · exact .connection _
          · exact .own c limit
  | stated hx => exact .stated _ _ _

theorem RunsOut.limited {e : Expiry} (h : v.RunsOut issuer name s e) : v.Limited issuer e := by
  cases h with
  | token hs he => exact limited_of_issuer he
  | secret hb hx he => exact limited_of_expiry he
  | body hb hx hr hbody => exact .request issuer

theorem told_eq_limit_iff {e : Expiry} : v.told e = e.limit ↔
    (∃ limit, e = .stated limit) ∨ e.limit = v.limit % UInt64.size := by
  cases e with
  | request limit => simp [told, Expiry.limit, eq_comm]
  | connection limit => simp [told, Expiry.limit, eq_comm]
  | stated limit => simp [told, Expiry.limit]

-- Of a time that does not fit into a word only the rest is told.
example (v : Vault ω) : ({ v with limit := 18446744073709552000 } : Vault ω).told
    (.request 18446744073709552000) = 384 := by cbv

/-! ## Lookups -/

/-- A lookup ends by a time-out exactly if a limit has run out in its last attempt, and there is one
such limit. The number told is this limit when a credential tells of it itself, or when it is the
time that the vault has for a request and fits into a word. For every other limit it is that time
too. -/
theorem lookup_timeout_tells (v : Vault ω) (issuer : Issuer ω) (name : String) (s : Cache × ω) :
    ∃ n ≤ v.retry.maxRetries, ∃ last, last = (v.withIssuer issuer).begun name s n ∧
      (v.withIssuer issuer).lookup name s = (v.withIssuer issuer).attempt name last ∧
      (∀ ms, ((v.withIssuer issuer).lookup name s).1 = .error (.error (.timeout ms)) ↔
        ∃ e, v.RunsOut issuer name last e ∧ ms = v.told e) ∧
      (∀ e e', v.RunsOut issuer name last e → v.RunsOut issuer name last e' → e = e') ∧
      (∀ e, v.RunsOut issuer name last e → v.Limited issuer e ∧
        (v.told e = e.limit ↔
          (∃ limit, e = .stated limit) ∨ e.limit = v.limit % UInt64.size)) := by
  obtain ⟨n, hn, hlookup, -, -⟩ := (v.withIssuer issuer).lookup_eq_attempt name s
  refine ⟨n, hn, _, rfl, hlookup, ?_, fun _ _ h h' => h.unique h',
    fun _ h => ⟨h.limited, told_eq_limit_iff⟩⟩
  intro ms
  rw [hlookup]
  exact attempt_timeout_iff

/-- Nothing answers, and each request takes all the time that it has. -/
def unanswering : Outside Nat :=
  { Outside.isolated 0 with
    send := fun client _ clock => (.error .timeout, clock + client.limit.getD 0) }

def unansweredVault : Vault Nat where
  outside := unanswering
  url := ⟨"https", some { host := .domain "v.vault.azure.net" }, .segments [], none, none⟩
  credential := ManagedIdentity.machine.credential unanswering
  retry := { maxRetries := 0 }
  limit := usualLimit

theorem exchange_unanswering {q? : Option Http.Request} (h : q?.isSome = true)
    (client : Http.Client) (clock : Nat) :
    unanswering.exchange client q? clock = (.error .timeout, clock + client.limit.getD 0) := by
  obtain ⟨q, rfl⟩ := Option.isSome_iff_exists.mp h
  rfl

/-- The service of the machine does not answer within two seconds, and the lookup, which has lasted
no longer, tells of thirty. -/
theorem lookup_unansweredVault :
    unansweredVault.withIssuer (.identity .machine) = unansweredVault ∧
      unansweredVault.RunsOut (.identity .machine) "A" (none, 0) (.request 2000) ∧
      unansweredVault.lookup "A" (none, 0) = (.error (.error (.timeout 30000)), none, 2000) := by
  have hsome : ManagedIdentity.machine.request?.isSome = true := by decide +kernel
  have hx : unanswering.exchange (ManagedIdentity.machine.limited unansweredVault.client)
      ManagedIdentity.machine.request? 0 = (.error .timeout, 2000) :=
    exchange_unanswering hsome _ 0
  have hspent : Spent none (unansweredVault.outside.now 0) := fun t ht => by cases ht
  refine ⟨rfl, .token hspent (.identity (congrArg Prod.fst hx) rfl), ?_⟩
  have hask : unansweredVault.credential.issue unansweredVault.client 0 =
      Credential.ask unanswering ManagedIdentity.name
        (ManagedIdentity.machine.limited unansweredVault.client)
        ManagedIdentity.machine.request? 0 := rfl
  have hissue : unansweredVault.credential.issue unansweredVault.client 0 =
      (.error (.error (.transport .timeout)), 2000) := by
    simp only [hask, Credential.ask, hx]
  have hattempt : unansweredVault.attempt "A" (none, 0) =
      (.error (.error (.timeout 30000)), none, 2000) := by
    simp only [attempt, bearer, Option.filter_none, hissue]
    rfl
  rw [lookup, Retry.run]
  exact (Retry.attempts_zero 0 (none, 0)).trans hattempt

end Vault
end Placeholder
