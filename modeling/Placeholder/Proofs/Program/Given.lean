import Placeholder.Proofs.Credential.Blank
import Placeholder.Proofs.Program.Crash
import Placeholder.Proofs.Substitution.Questions
import Placeholder.Proofs.Vault.Given
import Placeholder.Proofs.Vault.Requests

/-!
# Runs with a token given in the environment

A token in the environment is the first credential of the chain, and always there, so nothing else
of the chain is ever asked. The registry of such a run is then like the one whose world outside
keeps a list of what is done in it (`alike_ambient`), and the list has room for requests for secrets
with this token only. What an empty variable says to the chain, an absent one says too.
-/
namespace Placeholder

open Program

variable {ω : Type}

/-! ## The chain -/

theorem Ambient.sources_given {σ : Type} (out : Outside σ) {env : Environment} {token : String}
    (h : env.nonEmpty? "AZURE_ACCESS_TOKEN" = some token) :
    ∃ others, sources out env = Credential.ofToken token :: others := by
  rw [sources, h]
  exact ⟨_, rfl⟩

/-- As long as its chain is not exhausted, the credential has the token and does nothing. -/
theorem Ambient.gives_credential (out : Outside (Memory ω)) {env : Environment} {token : String}
    (h : env.nonEmpty? "AZURE_ACCESS_TOKEN" = some token) {m : Memory ω} (hm : m.memo = none) :
    Vault.Gives Memory.outsideCell (credential out Memory.memoCell env) token m := by
  intro client w
  obtain ⟨others, hsources⟩ := sources_given out h
  have hissue : Chain.issue (sources out env) client (none, Memory.outsideCell.set w m) =
      (.ok ⟨token, none⟩, none, Memory.outsideCell.set w m) := by
    rw [hsources]
    rfl
  have hget : Memory.memoCell.get (Memory.outsideCell.set w m) = none := hm
  have hset : Memory.memoCell.set none (Memory.outsideCell.set w m) = Memory.outsideCell.set w m := by
    rw [← hget]
    rfl
  simp only [credential, Chain.credential, Cell.step, hget, hissue, hset]

/-! ## The registry -/

namespace Settings

/-- Either there is no address of a vault, and no registry if it is a bad one, or the vault at an
address is built from whatever world and credential there are. -/
theorem vault?_cases (s : Settings) :
    (∃ e, ∀ (σ : Type) (out : Outside σ) credential, s.vault? out credential = .error e) ∨
    (∀ (σ : Type) (out : Outside σ) credential, s.vault? out credential = .ok none) ∨
    ∃ url, ∀ (σ : Type) (out : Outside σ) credential, s.vault? out credential =
      .ok (some ⟨out, url, credential, { maxRetries := s.maxRetries }, s.timeoutSeconds * 1000⟩) := by
  unfold vault?
  cases s.vaultTarget with
  | error e => exact .inl ⟨e, fun σ out credential => rfl⟩
  | ok target =>
      cases target with
      | none => exact .inr (.inl fun σ out credential => rfl)
      | some text =>
          cases hurl : Vault.address text with
          | error e =>
              refine .inl ⟨e, ?_⟩
              intro σ out credential
              simp only [hurl, Except.map]
          | ok url =>
              refine .inr (.inr ⟨url, ?_⟩)
              intro σ out credential
              simp only [hurl, Except.map]

end Settings

/-- What a run keeps in mind when its world keeps a list of what is done in it. -/
def Program.Memory.watched (m : Memory ω) (deeds : List Vault.Deed) :
    Memory (List Vault.Deed × List (String × List String) × ω) :=
  ⟨m.cache, m.memo, deeds, [], m.outside⟩

/-- The two states of a run with a token given: without and with a list. The chain is not exhausted,
no other token is kept, no command was run, and all that was sent was sent to fetch secrets. -/
structure Settings.Beside (s : Settings) (out : Outside ω) (token : String) (m : Memory ω)
    (m' : Memory (List Vault.Deed × List (String × List String) × ω)) : Prop where
  memo : m.memo = none
  cache : Vault.Keeps token m.cache
  watched : ∃ deeds, m' = m.watched deeds ∧
    (deeds = [] ∨ ∃ v, s.vault? out (.ofToken token) = .ok (some v) ∧ v.Fetches token deeds)

namespace Vault

/-- The vault as a source of a run, with the chain of the environment. -/
def ambient (v : Vault ω) (env : Environment) : Source (Memory ω) :=
  (v.within Memory.outsideCell
    (Ambient.credential (v.outside.within Memory.outsideCell) Memory.memoCell env)).source
    Memory.cacheCell

theorem ask_ambient {env : Environment} {token : String}
    (htoken : env.nonEmpty? "AZURE_ACCESS_TOKEN" = some token) (v : Vault ω) {m : Memory ω}
    (hmemo : m.memo = none) (hcache : Keeps token m.cache) (name : String) :
    (v.ambient env).ask name m = ((v.lookupWith name token m.outside).1,
      ⟨some ⟨token, none⟩, m.memo, (v.lookupWith name token m.outside).2⟩) := by
  have hgives := Ambient.gives_credential (v.outside.within Memory.outsideCell) htoken hmemo
  have hlookup := lookup_given (v := v) Memory.lawful_outsideCell hgives hcache name m.outside
  have hset : Memory.outsideCell.set m.outside m = m := rfl
  have hget : Memory.cacheCell.get m = m.cache := rfl
  rw [hset] at hlookup
  simp only [ambient, source, Cell.step, hget, hlookup]
  rfl

end Vault

namespace Settings

variable {s : Settings} {out : Outside ω} {env : Environment} {token : String}

/-- A lookup in the vault finds the same with a list as without one, and only adds to the list what
it has sent. -/
theorem Beside.ask {v : Vault ω} (htoken : env.nonEmpty? "AZURE_ACCESS_TOKEN" = some token)
    (hv : s.vault? out (.ofToken token) = .ok (some v)) {m : Memory ω}
    {m' : Memory (List Vault.Deed × List (String × List String) × ω)}
    (h : s.Beside out token m m') (name : String) :
    ((v.ambient env).ask name m).1 = ((v.listed.noted.ambient env).ask name m').1 ∧
      s.Beside out token ((v.ambient env).ask name m).2
        ((v.listed.noted.ambient env).ask name m').2 := by
  obtain ⟨hmemo, hcache, deeds, rfl, hdeeds⟩ := h
  have hto : v.listed.url = v.url := rfl
  have hback : v.url = v.listed.url := rfl
  have hfetches : v.listed.Fetches token deeds := by
    rcases hdeeds with rfl | ⟨u, hu, hfetches⟩
    · exact .nil
    · cases hv.symm.trans hu
      exact hfetches.of_url hto
  obtain ⟨more, hnoted, hmore⟩ := v.listed.lookupWith_noted name token hfetches ([], m.outside)
  rw [v.lookupWith_listed] at hnoted
  have hwatched := Vault.ask_ambient htoken v.listed.noted (m := m.watched deeds) hmemo hcache name
  have houtside : (m.watched deeds).outside = (deeds, [], m.outside) := rfl
  rw [houtside, hnoted] at hwatched
  rw [Vault.ask_ambient htoken v hmemo hcache, hwatched]
  exact ⟨rfl, hmemo, Vault.keeps_given token, more, rfl, .inr ⟨v, hv, hmore.of_url hback⟩⟩

theorem alike_registryWith {σ σ' : Type} {states : σ → σ' → Prop} (s : Settings)
    (env : Environment) :
    Registry.Alike (fun _ _ => Eq) states (s.registryWith env none) (s.registryWith env none) := by
  have htable (t : Table) (name : String) (w : σ) (w' : σ') (hw : states w w') :
      ((Source.ofTable t).ask name w).1 = ((Source.ofTable t).ask name w').1 ∧
        states ((Source.ofTable t).ask name w).2 ((Source.ofTable t).ask name w').2 :=
    ⟨rfl, hw⟩
  exact ((Registry.alike_empty.register .vars (htable (s.varsTable env))).register .secrets
    (htable (s.secretsTable env))).register .env (htable env)

theorem alike_ambient (htoken : env.nonEmpty? "AZURE_ACCESS_TOKEN" = some token)
    {r : Registry (Memory ω)} (hr : s.ambient out env = .ok r) :
    ∃ r', s.ambient out.listing.noting env = .ok r' ∧
      r.Alike (fun _ _ => Eq) (s.Beside out token) r' := by
  rcases s.vault?_cases with ⟨e, herror⟩ | hnone | ⟨url, hsome⟩
  · rw [ambient, registry, herror] at hr
    cases hr
  · rw [ambient, registry, hnone] at hr
    cases hr
    refine ⟨s.registryWith env none, ?_, s.alike_registryWith env⟩
    rw [ambient, registry, hnone]
    rfl
  · rw [ambient, registry, hsome] at hr
    cases hr
    have hv := hsome ω out (.ofToken token)
    refine ⟨_, ?_, (s.alike_registryWith env).register .kv fun name m m' h => h.ask htoken hv name⟩
    rw [ambient, registry, hsome]
    rfl

end Settings

/-! ## What is sent -/

namespace Vault

/-- What was sent with a token given: rounds of requests, each for the secret of a name. -/
structure SecretsOnly (v : Vault ω) (token : String) (deeds : List Deed) : Prop where
  rounds : v.Fetches token deeds
  /-- A round begins with the request for the secret, which carries the token. Where a response
  points from there, the token may be lost, but no other one takes its place. -/
  carried : ∀ name trail x, Fetched v name token trail x →
    ∀ q more, trail.filterMap Deed.request? = q :: more →
      request? v.url name token = some q ∧ Http.bearers q.headers = [token] ∧
      ∀ p ∈ more, Http.bearers p.headers = [token] ∨ Http.bearers p.headers = []
  /-- Nothing else is done, and none of the requests is one for a token. -/
  sent : ∀ deed ∈ deeds, ∃ q x, deed = .sent q x ∧
    (Http.bearers q.headers = [token] ∨ Http.bearers q.headers = []) ∧
    (∀ c : ClientSecret, c.request? ≠ some q) ∧ ∀ i : ManagedIdentity, i.request? ≠ some q

variable {v : Vault ω} {token : String} {deeds : List Deed}

theorem Fetches.exists_fetched (h : v.Fetches token deeds) {deed : Deed} (hd : deed ∈ deeds) :
    ∃ name trail x, Fetched v name token trail x ∧ deed ∈ trail := by
  induction h with
  | nil => cases hd
  | fetched _ hf ih =>
      rcases List.mem_append.mp hd with hd | hd
      · exact ih hd
      · exact ⟨_, _, _, hf, hd⟩

theorem Fetches.secretsOnly (h : v.Fetches token deeds) : v.SecretsOnly token deeds := by
  refine ⟨h, fun name trail x hf => hf.carries.2.2, ?_⟩
  intro deed hd
  obtain ⟨name, trail, y, hf, hd⟩ := h.exists_fetched hd
  obtain ⟨-, hasked, hcarried⟩ := hf.carries
  cases deed with
  | asked issued => exact absurd hd (hasked issued)
  | sent q x =>
      have hq : q ∈ trail.filterMap Deed.request? := List.mem_filterMap.mpr ⟨_, hd, rfl⟩
      have hreading := hf.reading q hq
      refine ⟨q, x, rfl, ?_, hreading.ne_clientSecret, hreading.ne_managedIdentity⟩
      obtain ⟨first, more, hrequests⟩ := List.exists_cons_of_ne_nil (List.ne_nil_of_mem hq)
      obtain ⟨-, hfirst, hmore⟩ := hcarried first more hrequests
      rw [hrequests] at hq
      rcases List.mem_cons.mp hq with rfl | hq
      · exact .inl hfirst
      · exact hmore q hq

end Vault

/-! ## Runs -/

namespace Program

/-- A change of the world outside. -/
def Memory.elsewhere (change : ω → ω) (m : Memory ω) : Memory ω :=
  { m with outside := change m.outside }

/-- With a token in the environment, whatever settings, templates, lookups and world there are, no
command is ever run, and nothing is sent but requests for secrets with this token and what responses
make of them, none of which is a request for a token. The lists in which this stands change nothing
of a run. And the chains of two environments that agree on its variables, up to blank ones, do the
same and give the same under every sequence of calls. -/
theorem token_given (out : Outside ω) :
    (∀ (env : Environment) (token : String) (s : Settings) (r : Registry (Memory ω)),
      env.nonEmpty? "AZURE_ACCESS_TOKEN" = some token → s.ambient out env = .ok r →
      ∃ watched, s.ambient out.listing.noting env = .ok watched ∧
        ∀ (events : List (Event Registry.Question ω)) (w : ω), ∃ replies m deeds,
          Event.run r.reply Memory.elsewhere events { outside := w } = (replies, m) ∧
          Event.run watched.reply
            (fun change => Memory.elsewhere (Prod.map id (Prod.map id change))) events
            { outside := ([], [], w) } = (replies, ⟨m.cache, m.memo, deeds, [], m.outside⟩) ∧
          (deeds = [] ∨
            ∃ v, s.vault? out (.ofToken token) = .ok (some v) ∧ v.SecretsOnly token deeds)) ∧
    (∀ env env' : Environment, (∀ name ∈ Ambient.variableNames, env.Agree env' name) →
      Ambient.sources out env = Ambient.sources out env' ∧
      ∀ (events : List (Event Http.Client ω)) (memo : Chain.Memo) (w : ω),
        Event.run (Chain.issue (Ambient.sources out.listing.noting env))
          (fun change => Prod.map id (Prod.map id (Prod.map id change))) events (memo, [], [], w) =
        Event.run (Chain.issue (Ambient.sources out.listing.noting env'))
          (fun change => Prod.map id (Prod.map id (Prod.map id change))) events
          (memo, [], [], w)) := by
  constructor
  · intro env token s r htoken hr
    obtain ⟨watched, hwatched, halike⟩ := Settings.alike_ambient htoken hr
    refine ⟨watched, hwatched, ?_⟩
    intro events w
    have hstart : s.Beside out token { outside := w } { outside := ([], [], w) } :=
      ⟨rfl, nofun, [], rfl, .inl rfl⟩
    have hlift (change : ω → ω) (m : Memory ω) m' (h : s.Beside out token m m') :
        s.Beside out token (m.elsewhere change)
          (m'.elsewhere (Prod.map id (Prod.map id change))) := by
      obtain ⟨hmemo, hcache, deeds, rfl, hdeeds⟩ := h
      exact ⟨hmemo, hcache, deeds, rfl, hdeeds⟩
    have hask question m m' (h : s.Beside out token m m') := halike.reply_eq question h
    obtain ⟨hreplies, hend⟩ := Event.run_alike hask hlift events hstart
    obtain ⟨-, -, deeds, hm, hdeeds⟩ := hend
    refine ⟨_, _, deeds, rfl, Prod.ext hreplies.symm hm, ?_⟩
    rcases hdeeds with hnil | ⟨v, hv, hfetches⟩
    · exact .inl hnil
    · exact .inr ⟨v, hv, hfetches.secretsOnly⟩
  · intro env env' h
    refine ⟨Ambient.sources_eq_of_agree h out, ?_⟩
    intro events memo w
    rw [Ambient.sources_eq_of_agree h out.listing.noting]

/-- A vault that never has the time. -/
def busy : Outside Nat :=
  { Outside.isolated 0 with send := fun _ _ clock => (.ok ⟨503, none, .ok .empty⟩, clock) }

def busySettings : Settings :=
  .ofLayer none { vaultUrl := some "https://kv1.vault.azure.net", maxRetries := some 1 }

def givenEnvironment : Environment := Table.ofPairs [("AZURE_ACCESS_TOKEN", "t")]

def blankedEnvironment : Environment :=
  Table.ofPairs [("AZURE_ACCESS_TOKEN", "t"), ("AZURE_CLIENT_ID", "")]

def busyEvents : List (Event Registry.Question Nat) :=
  [.ask (.substitute "${kv:A:d}"), .elsewhere (· + 1), .ask (.lookup .kv "B")]

/-- Both lookups are made twice, and all four requests carry the token. -/
theorem token_given_busy :
    (∃ watched deeds, busySettings.ambient busy.listing.noting givenEnvironment = .ok watched ∧
      (Event.run watched.reply
        (fun change => Memory.elsewhere (Prod.map id (Prod.map id change))) busyEvents
        { outside := ([], [], 0) }).2.outside = (deeds, [], 401) ∧
      deeds.length = 4 ∧ ∃ v : Vault Nat, v.SecretsOnly "t" deeds) ∧
    Ambient.sources busy givenEnvironment = Ambient.sources busy blankedEnvironment := by
  have htoken : givenEnvironment.nonEmpty? "AZURE_ACCESS_TOKEN" = some "t" := by decide +kernel
  have hformed : (busySettings.ambient busy givenEnvironment).toOption.isSome = true := by
    decide +kernel
  have hend : (busySettings.ambient busy.listing.noting givenEnvironment).toOption.map
      (fun watched => (Event.run watched.reply
        (fun change => Memory.elsewhere (Prod.map id (Prod.map id change))) busyEvents
        { outside := ([], [], 0) }).2.outside.map List.length Prod.snd) = some (4, 401) := by
    decide +kernel
  have hagree : ∀ name ∈ Ambient.variableNames, givenEnvironment.Agree blankedEnvironment name := by
    unfold Environment.Agree Environment.Blank
    decide +kernel
  obtain ⟨hgiven, hblank⟩ := token_given busy
  refine ⟨?_, (hblank _ _ hagree).1⟩
  cases hr : busySettings.ambient busy givenEnvironment with
  | error e =>
      rw [hr] at hformed
      cases hformed
  | ok r =>
      obtain ⟨watched, hwatched, hrun⟩ := hgiven _ _ _ r htoken hr
      obtain ⟨replies, m, deeds, -, hlisted, hdeeds⟩ := hrun busyEvents 0
      simp only [hwatched, Except.toOption, Option.map_some, hlisted, Prod.map_apply,
        Option.some.injEq, Prod.mk.injEq] at hend
      obtain ⟨hlength, hclock⟩ := hend
      refine ⟨watched, deeds, hwatched, by rw [hlisted, hclock], hlength, ?_⟩
      rcases hdeeds with rfl | ⟨v, -, hsecrets⟩
      · cases hlength
      · exact ⟨v, hsecrets⟩

end Program
end Placeholder
