import Placeholder.Proofs.Credential.Lifetime
import Placeholder.Proofs.Outside
import Placeholder.Proofs.Program.Outcome

/-!
# Crashes of a run

A run crashes in one way only. The crash is traced back from the run over its registry, its vault
and the chain of credentials to the answer that has been read, which is an overlong one.
-/
namespace Placeholder

/-! ## Credentials -/

/-- The answer of a token endpoint or of the tool, and the state in which it is read. -/
inductive TokenAnswer {ω : Type} (out : Outside ω) : ByteArray → ω → Prop
  | response {client : Http.Client} {q : Option Http.Request} {w w' : ω} {r : Http.Response}
      {body : ByteArray}
      (hq : (∃ c : ClientSecret, q = c.request?) ∨ ∃ m : ManagedIdentity, q = m.request?)
      (hx : out.exchange client q w = (.ok r, w')) (hr : r.ok = true) (hb : r.body = .ok body) :
      TokenAnswer out body w'
  | output {w w' : ω} {o : CommandOutput}
      (hc : out.command "az" AzureCli.arguments w = (.ok o, w')) (he : o.exit = some 0) :
      TokenAnswer out o.stdout w'

/-- The crash of a token answer that would outlive the clock. -/
structure Outlived {ω : Type} (out : Outside ω) (c : Crash) : Prop where
  overflow : c = .clockOverflow
  answered : ∃ body w, TokenAnswer out body w ∧
    Credential.OverlongBody (out.now w) (out.epoch w) body

/-- The credential crashes on overlong answers only. -/
def Credential.Faithful {σ ω : Type} (out : Outside ω) (c : Credential σ) : Prop :=
  ∀ client s crash s', c.issue client s = (.error (.crash crash), s') → Outlived out crash

section Sources

variable {ω : Type} {out : Outside ω}

theorem Credential.ask_outlived {name : String} {client : Http.Client} {q : Option Http.Request}
    {w w' : ω} {c : Crash}
    (hq : (∃ c : ClientSecret, q = c.request?) ∨ ∃ m : ManagedIdentity, q = m.request?)
    (h : Credential.ask out name client q w = (.error (.crash c), w')) : Outlived out c := by
  obtain ⟨x, w₁, hx⟩ : ∃ x w₁, out.exchange client q w = (x, w₁) := ⟨_, _, rfl⟩
  simp only [ask, hx] at h
  cases x with
  | error fault => cases h
  | ok r =>
      obtain ⟨hc, rfl, hr, body, hb, hl⟩ := tokenOfResponse_eq_crash_iff.mp h
      exact ⟨hc, body, _, .response hq hx hr hb, hl⟩

theorem Ambient.faithful_sources (env : Environment) :
    ∀ c ∈ Ambient.sources out env, c.Faithful out := by
  intro c hc
  simp only [sources, List.mem_append, Option.mem_toList, Option.map_eq_some_iff, List.mem_cons,
    List.not_mem_nil, or_false] at hc
  rcases hc with (⟨token, _, rfl⟩ | ⟨secret, _, rfl⟩) | rfl | rfl
  · intro client w crash w' h
    cases h
  · intro client w crash w' h
    simp only [ClientSecret.credential] at h
    exact Credential.ask_outlived (.inl ⟨secret, rfl⟩) h
  · intro client w crash w' h
    simp only [ManagedIdentity.credential] at h
    exact Credential.ask_outlived (.inr ⟨managedIdentity env, rfl⟩) h
  · intro client w crash w' h
    obtain ⟨x, w₁, hx⟩ : ∃ x w₁, out.command "az" AzureCli.arguments w = (x, w₁) := ⟨_, _, rfl⟩
    simp only [AzureCli.credential, hx] at h
    cases x with
    | error fault => cases fault <;> cases h
    | ok o =>
        obtain ⟨hissued, rfl⟩ := Prod.mk.inj h
        obtain ⟨hcrash, he, hl⟩ := AzureCli.tokenOfOutput_eq_crash_iff.mp hissued
        exact ⟨hcrash, _, _, .output hx he, hl⟩

end Sources

namespace Chain

variable {σ ω : Type} {out : Outside ω} {sources : List (Credential σ)}

theorem tryAll_outlived (hsources : ∀ c ∈ sources, c.Faithful out) {client : Http.Client}
    {s s' : σ} {c : Crash} (h : tryAll client sources s = (.crash c, s')) : Outlived out c := by
  induction sources generalizing s with
  | nil => cases h
  | cons first rest ih =>
      obtain ⟨x, s₁, hx⟩ : ∃ x s₁, first.issue client s = (x, s₁) := ⟨_, _, rfl⟩
      rw [tryAll, hx] at h
      rcases x with (e | crash) | t
      · obtain ⟨trial, s₂, ht⟩ : ∃ trial s₂, tryAll client rest s₁ = (trial, s₂) := ⟨_, _, rfl⟩
        simp only [ht] at h
        -- What the rest comes to is what the chain comes to; only the list of failures grows.
        cases trial with
        | token t => cases h
        | failed failures => cases h
        | crash crash =>
            cases h
            exact ih (fun d hd => hsources d (List.mem_cons_of_mem first hd)) ht
      · cases h
        exact hsources first List.mem_cons_self client s _ _ hx
      · cases h

theorem faithful_credential (hsources : ∀ c ∈ sources, c.Faithful out) (memo : Cell σ Memo) :
    (credential memo sources).Faithful out := by
  intro client s crash s' h
  simp only [credential, Cell.step] at h
  obtain ⟨hissued, -⟩ := Prod.mk.inj h
  cases hm : memo.get s with
  | some why =>
      rw [hm] at hissued
      cases hissued
  | none =>
      obtain ⟨trial, s₁, ht⟩ : ∃ trial s₁, tryAll client sources s = (trial, s₁) := ⟨_, _, rfl⟩
      simp only [hm, issue, ht] at hissued
      cases trial with
      | token t => cases hissued
      | crash c =>
          cases hissued
          exact tryAll_outlived hsources ht
      | failed failures =>
          simp only at hissued
          split at hissued <;> cases hissued

end Chain

/-! ## The vault and its registry -/

/-- The source crashes on overlong answers only. -/
def Source.Faithful {σ ω : Type} (out : Outside ω) (source : Source σ) : Prop :=
  ∀ name s c s', source.ask name s = (.error (.crash c), s') → Outlived out c

def Registry.Faithful {σ ω : Type} (out : Outside ω) (r : Registry σ) : Prop :=
  ∀ kind source, r.source? kind = some source → source.Faithful out

section Vault

variable {σ ω : Type} {out : Outside ω}

theorem Vault.bearer_outlived {v : Vault σ} (hv : v.credential.Faithful out) {c : Crash}
    {s s' : Vault.Cache × σ} (h : v.bearer s = (.error (.crash c), s')) : Outlived out c := by
  obtain ⟨cache, w⟩ := s
  simp only [bearer] at h
  split at h
  · cases h
  · obtain ⟨x, w₁, hx⟩ : ∃ x w₁, v.credential.issue v.client w = (x, w₁) := ⟨_, _, rfl⟩
    rw [hx] at h
    rcases x with (e | crash) | t
    · cases h
    · cases h
      exact hv v.client w _ _ hx
    · cases h

theorem Vault.faithful_source {v : Vault σ} (hv : v.credential.Faithful out)
    (cache : Cell σ Vault.Cache) : (v.source cache).Faithful out := by
  intro name s c s' h
  have hcrash : (v.lookup name (cache.get s, s)).1 = .error (.crash c) := congrArg Prod.fst h
  obtain ⟨n, _, hlookup, _⟩ := v.lookup_eq_attempt name (cache.get s, s)
  obtain ⟨course, s₁, hcourse⟩ := v.exists_attempted name (v.begun name (cache.get s, s) n)
  rw [hlookup] at hcrash
  obtain rfl := (hcourse.tells.crash c).mp hcrash
  cases hcourse with
  | unissued hb => exact v.bearer_outlived hv hb

theorem Source.faithful_ofTable (t : Table) : (Source.ofTable t : Source σ).Faithful out := by
  intro name s c s' h
  cases h

theorem Registry.Faithful.register {r : Registry σ} (hr : r.Faithful out) (kind : Kind)
    {source : Source σ} (hsource : source.Faithful out) : (r.register kind source).Faithful out := by
  intro k found h
  rw [source?_register] at h
  split at h
  · cases h
    exact hsource
  · exact hr k found h

theorem Registry.faithful_empty : (Registry.empty : Registry σ).Faithful out := by
  intro kind source h
  cases h

theorem Settings.faithful_registryWith (s : Settings) (env : Environment)
    {vault : Option (Source σ)} (hvault : ∀ source ∈ vault, source.Faithful out) :
    (s.registryWith env vault).Faithful out := by
  have htable (t : Table) : (Source.ofTable t : Source σ).Faithful out :=
    Source.faithful_ofTable t
  have hfixed := ((Registry.faithful_empty.register .vars (htable (s.varsTable env))).register
    .secrets (htable (s.secretsTable env))).register .env (htable env)
  cases vault with
  | none => exact hfixed
  | some source => exact hfixed.register .kv (hvault source rfl)

/-- The vault that settings give asks the credential that it is given. -/
theorem Settings.credential_vault? {s : Settings} {outer : Outside σ} {credential : Credential σ}
    {v : Vault σ} (h : s.vault? outer credential = .ok (some v)) : v.credential = credential := by
  unfold vault? at h
  split at h
  · cases h
  · cases h
  · next text _ =>
      cases hurl : Vault.address text with
      | error e =>
          rw [hurl] at h
          cases h
      | ok url =>
          rw [hurl] at h
          cases h
          rfl

theorem Settings.faithful_registry {s : Settings} {outer : Outside σ} {cache : Cell σ Vault.Cache}
    {credential : Credential σ} (hcredential : credential.Faithful out) {env : Environment}
    {r : Registry σ} (h : s.registry outer cache credential env = .ok r) : r.Faithful out := by
  cases hv : s.vault? outer credential with
  | error e =>
      rw [registry, hv] at h
      cases h
  | ok vault =>
      rw [registry, hv] at h
      cases h
      refine s.faithful_registryWith env fun source hsource => ?_
      obtain ⟨v, rfl, rfl⟩ := Option.map_eq_some_iff.mp hsource
      exact v.faithful_source (s.credential_vault? hv ▸ hcredential) cache

theorem Registry.Faithful.render {r : Registry σ} (hr : r.Faithful out) {template : String}
    {s s' : σ} {c : Crash} (h : r.render template s = (.error (.crash c), s')) :
    Outlived out c := by
  rcases Registry.render_stop h with ⟨_, hstop, _⟩ | ⟨_, kind, source, name, _, _, hstop, hsource, hask⟩
  · cases hstop
  · cases hstop
    exact hr kind source hsource name _ _ _ hask

end Vault

/-! ## Runs -/

theorem Outlived.of_within {σ ω : Type} {cell : Cell σ ω} (hcell : cell.Lawful)
    {out : Outside ω} {c : Crash} (h : Outlived (out.within cell) c) : Outlived out c := by
  obtain ⟨hc, body, s, hanswer, hbody⟩ := h
  refine ⟨hc, body, cell.get s, ?_, hbody⟩
  cases hanswer with
  | @response client q s₁ _ r _ hq hx hr hb =>
      obtain ⟨x, w, hw⟩ : ∃ x w, out.exchange client q (cell.get s₁) = (x, w) := ⟨_, _, rfl⟩
      rw [out.exchange_within hcell, hw] at hx
      cases hx
      rw [hcell.get_set]
      exact .response hq hw hr hb
  | @output s₁ _ o hcommand he =>
      obtain ⟨x, w, hx⟩ : ∃ x w, out.command "az" AzureCli.arguments (cell.get s₁) = (x, w) :=
        ⟨_, _, rfl⟩
      simp only [Outside.within, hx] at hcommand
      cases hcommand
      rw [hcell.get_set]
      exact .output hx he

namespace Program

variable {ω : Type} {out : Outside ω} {s : Start} {o : ProcessOptions}

theorem Memory.lawful_outsideCell : (outsideCell : Cell (Memory ω) ω).Lawful :=
  ⟨fun _ _ => rfl, fun _ => rfl, fun _ _ _ => rfl⟩

theorem faithful_registry {r : Registry (Memory ω)} (h : registry out s o = .ok r) :
    r.Faithful (out.within Memory.outsideCell) := by
  unfold registry at h
  cases ht : settings s o with
  | error e =>
      rw [ht] at h
      cases h
  | ok t =>
      rw [ht] at h
      exact Settings.faithful_registry
        (Chain.faithful_credential (Ambient.faithful_sources s.environment) Memory.memoCell) h

theorem rendering_outlived {m m' : Memory ω} {c : Crash}
    (h : rendering out s o m = (.error (.crash c), m')) : Outlived out c := by
  unfold rendering at h
  cases hr : registry out s o with
  | error e =>
      rw [hr] at h
      cases h
  | ok r =>
      cases ht : template s o.input with
      | error e =>
          simp only [hr, ht] at h
          cases h
      | ok text =>
          simp only [hr, ht] at h
          exact Outlived.of_within Memory.lawful_outsideCell ((faithful_registry hr).render h)

/-- A run that ends by a crash has read an overlong answer, and says which crash it was. -/
theorem process_crashed {w : ω} (h : (process out s o w).1.exit = 101) :
    (process out s o w).1 = crashed s .clockOverflow ∧ Outlived out .clockOverflow := by
  rcases rendering_cases out s o w with ⟨e, hfails⟩ | ⟨c, hc⟩ | ⟨ρ, hrenders⟩
  · rw [hfails.process_eq] at h
    cases h
  · obtain ⟨m, hrendering⟩ : ∃ m, rendering out s o { outside := w } =
        (.error (.crash c), m) := ⟨_, Prod.ext hc rfl⟩
    have houtlived := rendering_outlived hrendering
    obtain rfl := houtlived.overflow
    rw [process_eq, hc]
    exact ⟨rfl, houtlived⟩
  · rw [hrenders.process_eq] at h
    rcases putOut_cases s o ρ with ⟨hended, _⟩ | ⟨hfailed, _⟩
    · cases h.symm.trans hended
    · cases h.symm.trans hfailed

/-- An answer is a token, a credential error or a crash, and a crash only when its lifetime, though
it fits a word, reaches past the end of the clock. Nothing else that is read crashes a run. -/
theorem crash_only_of_overlong (out : Outside ω) (s : Start) (o : ProcessOptions) (w : ω) :
    (∀ name now epoch answer x, Credential.tokenOf name now epoch answer = x ↔
      Credential.Reads name now epoch answer x) ∧
    (∀ body answer epoch seconds, Json.ofBytes? body = some answer →
      Credential.lifetime? epoch answer = some seconds → seconds < UInt64.size) ∧
    (∀ name client r c w₁ w₂,
      Credential.tokenOfResponse out name client r w₁ = (.error (.crash c), w₂) ↔
        c = .clockOverflow ∧ w₂ = w₁ ∧ r.ok = true ∧ ∃ body, r.body = .ok body ∧
          Credential.OverlongBody (out.now w₁) (out.epoch w₁) body) ∧
    (∀ program now epoch output c,
      AzureCli.tokenOfOutput program now epoch output = .error (.crash c) ↔
        c = .clockOverflow ∧ output.exit = some 0 ∧
          Credential.OverlongBody now epoch output.stdout) ∧
    ((process out s o w).1.exit = 101 →
      (process out s o w).1 = crashed s .clockOverflow ∧
        ∃ body w', TokenAnswer out body w' ∧
          Credential.OverlongBody (out.now w') (out.epoch w') body) := by
  refine ⟨fun _ _ _ _ _ => Credential.tokenOf_eq_iff_reads,
    fun _ _ _ _ => Credential.lifetime?_lt,
    fun _ _ _ _ _ _ => Credential.tokenOfResponse_eq_crash_iff,
    fun _ _ _ _ _ => AzureCli.tokenOfOutput_eq_crash_iff, ?_⟩
  intro h
  obtain ⟨hcrashed, houtlived⟩ := process_crashed h
  exact ⟨hcrashed, houtlived.answered⟩

/-- A run over a template whose only token has a fallback. -/
def optional : Start where
  words := ["process", "-i", "t", "--keyvault-url", "https://v.vault.azure.net"]
  environ := []
  files := { directory := [], contents := [(["t"], "${kv:A:d}".toUTF8)] }

def optionalOptions : ProcessOptions where
  input := "t"
  output := none
  environment := none
  config := none
  layer := { vaultUrl := some "https://v.vault.azure.net" }
  report := false

theorem exit_optional : (process Vault.endless optional optionalOptions 0).1.exit = 101 := by
  decide +kernel

/-- What the tool says about a lifetime is enough to end this run as well. -/
theorem optional_endless :
    Template.segments "${kv:A:d}" = [.token ⟨.kv, "A", .fallback "d"⟩] ∧
      (process Vault.endless optional optionalOptions 0).1.exit = 101 :=
  ⟨by decide +kernel, exit_optional⟩

/-- The answer of that tool has ended the run: its lifetime fits a word but outlives the clock. -/
theorem crash_only_of_overlong_optional :
    (process Vault.endless optional optionalOptions 0).1.exit = 101 ∧
      ∃ body w' answer seconds, TokenAnswer Vault.endless body w' ∧
        Json.ofBytes? body = some answer ∧
        Credential.lifetime? (Vault.endless.epoch w') answer = some seconds ∧
        AccessToken.lastSecond < Vault.endless.now w' / 1000 + seconds ∧
        seconds < UInt64.size := by
  obtain ⟨_, hword, _, _, hcrash⟩ :=
    crash_only_of_overlong Vault.endless optional optionalOptions 0
  obtain ⟨_, body, w', hread, answer, hbody, _, seconds, _, hlifetime, hlast⟩ :=
    hcrash exit_optional
  exact ⟨exit_optional, body, w', answer, seconds, hread, hbody, hlifetime, hlast,
    hword body answer _ seconds hbody hlifetime⟩

end Program
end Placeholder
