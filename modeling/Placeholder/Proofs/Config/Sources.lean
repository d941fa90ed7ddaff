import Placeholder.Config.Sources
import Placeholder.Proofs.Outside
import Placeholder.Proofs.Program.Outcome
import Placeholder.Proofs.Table.Led
import Placeholder.Proofs.Vault.Name

/-!
# What settings make of an environment

Settings give a registry unless they misname their vault (`Settings.Misnames`), and the registry
reads each variable of the environment under the name that its kind asks for (`Settings.Serves`).
`registry_of_settings` puts the two together.
-/
namespace Placeholder

/-- A text at which a vault can be: a URL with a path to go along. The host of a URL is read by
`Url.Host.ofText?`, which knows only part of the tables for domains beyond ASCII. -/
def Vault.IsAddress (text : String) : Prop :=
  ∃ url, Url.ofText? text = some url ∧ url.isName = false

theorem Vault.isAddress_iff {text : String} :
    Vault.IsAddress text ↔ ∃ url, Vault.address text = .ok url := by
  constructor
  · rintro ⟨url, hurl, hname⟩
    refine ⟨url, ?_⟩
    simp only [Vault.address, hurl, hname, Bool.false_eq_true, if_false]
  · rintro ⟨url, hok⟩
    unfold Vault.address at hok
    split at hok
    · cases hok
    · next read hread =>
        split at hok
        · cases hok
        · next hname => exact ⟨read, hread, by simpa using hname⟩

namespace Settings

/-- A vault is wanted, and an address or a name tells where it is. -/
def NamesVault (s : Settings) : Prop :=
  s.vaultSource = .azureKeyvault ∧ (s.vaultUrl ≠ none ∨ s.vaultName ≠ none)

/-- A vault is wanted, but none can be where the settings tell. The name is looked at only where no
address is given. -/
def Misnames (s : Settings) : Prop :=
  s.vaultSource = .azureKeyvault ∧
    ((∃ text, s.vaultUrl = some text ∧ ¬ Vault.IsAddress text) ∨
      (s.vaultUrl = none ∧ ∃ name, s.vaultName = some name ∧ Vault.Name.check name ≠ .ok ()))

variable {ω : Type} {s : Settings}

/-! ## The vault -/

theorem vaultTarget_of_url {text : String} (hsource : s.vaultSource = .azureKeyvault)
    (hurl : s.vaultUrl = some text) : s.vaultTarget = .ok (some text) := by
  simp only [vaultTarget, hsource, hurl]

theorem vaultTarget_of_name {name : String} (hsource : s.vaultSource = .azureKeyvault)
    (hurl : s.vaultUrl = none) (hname : s.vaultName = some name) :
    s.vaultTarget = (Vault.Name.url name).map some := by
  simp only [vaultTarget, hsource, hurl, hname]

theorem vaultTarget_of_unnamed (h : ¬ s.NamesVault) : s.vaultTarget = .ok none := by
  cases hsource : s.vaultSource with
  | none => simp only [vaultTarget, hsource]
  | azureKeyvault =>
      cases hurl : s.vaultUrl with
      | some text => exact absurd ⟨hsource, .inl (by simp [hurl])⟩ h
      | none =>
          cases hname : s.vaultName with
          | some name => exact absurd ⟨hsource, .inr (by simp [hname])⟩ h
          | none => simp only [vaultTarget, hsource, hurl, hname]

variable (out : Outside ω) (credential : Credential ω)

theorem Misnames.vault? (h : s.Misnames) : ∃ e, s.vault? out credential = .error e := by
  obtain ⟨hsource, ⟨text, hurl, hbad⟩ | ⟨hurl, name, hname, hbad⟩⟩ := h
  · cases haddress : Vault.address text with
    | ok url => exact absurd (Vault.isAddress_iff.mpr ⟨url, haddress⟩) hbad
    | error e =>
        refine ⟨e, ?_⟩
        simp only [Settings.vault?, vaultTarget_of_url hsource hurl, haddress]
        rfl
  · cases hcheck : Vault.Name.check name with
    | ok u => exact absurd hcheck hbad
    | error e =>
        refine ⟨e, ?_⟩
        simp only [Settings.vault?, vaultTarget_of_name hsource hurl hname, Vault.Name.url, hcheck]
        rfl

/-- A name that passes the check leads to an address, so nothing is left that could fail. -/
theorem vault?_of_namesVault (hnames : s.NamesVault) (h : ¬ s.Misnames) :
    ∃ v, s.vault? out credential = .ok (some v) := by
  have haddressed : ∃ text url, s.vaultTarget = .ok (some text) ∧ Vault.address text = .ok url := by
    obtain ⟨hsource, hgiven⟩ := hnames
    cases hurl : s.vaultUrl with
    | some text =>
        by_cases haddress : Vault.IsAddress text
        · obtain ⟨url, hok⟩ := Vault.isAddress_iff.mp haddress
          exact ⟨text, url, vaultTarget_of_url hsource hurl, hok⟩
        · exact absurd ⟨hsource, .inl ⟨text, hurl, haddress⟩⟩ h
    | none =>
        obtain ⟨name, hname⟩ : ∃ name, s.vaultName = some name := by
          apply Option.ne_none_iff_exists'.mp
          exact hgiven.resolve_left fun hne => hne hurl
        by_cases hcheck : Vault.Name.check name = .ok ()
        · have hpasses := Vault.Name.check_eq_ok_iff.mp hcheck
          refine ⟨_, _, ?_, Vault.Name.address_of_passes hpasses⟩
          rw [vaultTarget_of_name hsource hurl hname, Vault.Name.url_eq_ok hpasses]
          rfl
        · exact absurd ⟨hsource, .inr ⟨hurl, name, hname, hcheck⟩⟩ h
  obtain ⟨text, url, htarget, haddress⟩ := haddressed
  simp only [Settings.vault?, htarget, haddress]
  exact ⟨_, rfl⟩

theorem vault?_of_unnamed (h : ¬ s.NamesVault) : s.vault? out credential = .ok none := by
  simp only [Settings.vault?, vaultTarget_of_unnamed h]

/-! ## The registry -/

/-- The variable of the environment that a name of `vars` stands for. -/
def varsVariable (s : Settings) (name : String) : String :=
  match s.varsSource with
  | .github => s.varsLead ++ name
  | .env => name

/-- What the registry of settings does for an environment. Asked for a variable it never fails. -/
structure Serves (s : Settings) (env : Environment) (r : Registry ω) : Prop where
  kinds : ∀ kind, r.has kind = true ↔ kind ≠ .kv ∨ s.NamesVault
  vars : ∀ name ≠ "", ∀ w, r.lookup .vars name w = (.ok (env.get? (s.varsVariable name)), w)
  secrets : ∀ name ≠ "", ∀ w,
    r.lookup .secrets name w = (.ok (env.get? (s.secretsLead ++ name)), w)
  env : ∀ name ≠ "", ∀ w, r.lookup .env name w = (.ok (env.get? name), w)

theorem get?_varsTable (s : Settings) (env : Environment) {name : String} (hname : name ≠ "") :
    (s.varsTable env).get? name = env.get? (s.varsVariable name) := by
  unfold varsTable varsVariable
  cases s.varsSource with
  | github => exact Table.get?_ofLed_entries hname s.varsLead env
  | env => rfl

theorem has_registryWith (s : Settings) (env : Environment) (vault : Option (Source ω))
    (kind : Kind) : (s.registryWith env vault).has kind = true ↔ kind ≠ .kv ∨ vault ≠ none := by
  cases vault with
  | none => cases kind <;> simp [registryWith, Registry.has, Registry.empty]
  | some source => cases kind <;> simp [registryWith, Registry.has, Registry.empty]

theorem serves_registryWith (s : Settings) (env : Environment) {vault : Option (Source ω)}
    (hvault : vault ≠ none ↔ s.NamesVault) : s.Serves env (s.registryWith env vault) := by
  constructor
  · intro kind
    rw [has_registryWith, hvault]
  · intro name hname w
    rw [← s.get?_varsTable env hname]
    cases vault with
    | none => rfl
    | some source => rfl
  · intro name hname w
    rw [← Table.get?_ofLed_entries hname]
    cases vault with
    | none => rfl
    | some source => rfl
  · intro name hname w
    cases vault with
    | none => rfl
    | some source => rfl

section Registry

variable (s : Settings) (out : Outside ω) (cache : Cell ω Vault.Cache) (credential : Credential ω)
  (env : Environment)

theorem registry_cases :
    (s.Misnames ∧ ∃ e, s.registry out cache credential env = .error e) ∨
      (¬ s.Misnames ∧ ∃ r, s.registry out cache credential env = .ok r ∧ s.Serves env r) := by
  by_cases hbad : s.Misnames
  · obtain ⟨e, hv⟩ := hbad.vault? out credential
    refine .inl ⟨hbad, e, ?_⟩
    simp only [registry, hv]
    rfl
  · right
    refine ⟨hbad, ?_⟩
    by_cases hnames : s.NamesVault
    · obtain ⟨v, hv⟩ := vault?_of_namesVault out credential hnames hbad
      refine ⟨s.registryWith env (some (v.source cache)), ?_, ?_⟩
      · simp only [registry, hv]
        rfl
      · exact s.serves_registryWith env (by simp [hnames])
    · refine ⟨s.registryWith env none, ?_, ?_⟩
      · simp only [registry, vault?_of_unnamed out credential hnames]
        rfl
      · exact s.serves_registryWith env (by simp [hnames])

theorem registry_ne_vaultName {text : String} (hurl : s.vaultUrl = some text)
    (name reason : String) :
    s.registry out cache credential env ≠ .error (.vaultName name reason) := by
  intro herror
  cases hsource : s.vaultSource with
  | none =>
      have hunnamed : ¬ s.NamesVault := by
        rintro ⟨hwanted, -⟩
        cases hsource.symm.trans hwanted
      simp only [registry, vault?_of_unnamed out credential hunnamed] at herror
      cases herror
  | azureKeyvault =>
      have htarget := vaultTarget_of_url hsource hurl
      cases haddress : Vault.address text with
      | ok url =>
          simp only [registry, Settings.vault?, htarget, haddress] at herror
          cases herror
      | error e =>
          obtain ⟨other, rfl⟩ := Vault.error_of_address haddress
          simp only [registry, Settings.vault?, htarget, haddress] at herror
          cases herror

/-- An address hides the name: whatever the name is, the registry is the same. -/
theorem registry_of_url {text : String} (hurl : s.vaultUrl = some text) (name : Option String) :
    ({ s with vaultName := name } : Settings).registry out cache credential env =
      s.registry out cache credential env := by
  have htarget : ({ s with vaultName := name } : Settings).vaultTarget = s.vaultTarget := by
    cases hsource : s.vaultSource with
    | none => simp only [vaultTarget, hsource]
    | azureKeyvault => simp only [vaultTarget, hsource, hurl]
  simp only [registry, Settings.vault?, htarget]
  rfl

/-- The registry of settings fails exactly where they misname their vault; an address hides a bad
name. Else it has the kinds that the settings ask for, and these answer out of the environment. -/
theorem registry_of_settings :
    ((∃ e, s.registry out cache credential env = .error e) ↔ s.Misnames) ∧
      (∀ text, s.vaultUrl = some text → ∀ name reason,
        s.registry out cache credential env ≠ .error (.vaultName name reason)) ∧
      (∀ text, s.vaultUrl = some text → ∀ name,
        ({ s with vaultName := name } : Settings).registry out cache credential env =
          s.registry out cache credential env) ∧
      ∀ r, s.registry out cache credential env = .ok r → s.Serves env r := by
  refine ⟨?_, fun text hurl => s.registry_ne_vaultName out cache credential env hurl,
    fun text hurl => s.registry_of_url out cache credential env hurl, ?_⟩
  · rcases s.registry_cases out cache credential env with ⟨hbad, herror⟩ | ⟨hgood, r, hr, -⟩
    · exact iff_of_true herror hbad
    · refine iff_of_false ?_ hgood
      rintro ⟨e, he⟩
      cases hr.symm.trans he
  · intro r hr
    rcases s.registry_cases out cache credential env with ⟨-, e, he⟩ | ⟨-, r', hr', hserves⟩
    · cases hr.symm.trans he
    · cases hr.symm.trans hr'
      exact hserves

end Registry

/-- Settings that name a vault. One lead is a part of the other. -/
def team : Settings where
  environment := none
  varsSource := .github
  secretsSource := .env
  vaultSource := .azureKeyvault
  vaultName := some "team"
  vaultUrl := none
  varsLead := "V_"
  secretsLead := "V_V_"
  timeoutSeconds := 30
  maxRetries := 2

def teamVariables : Environment := ⟨[("V_A", "1"), ("V_V_A", "2"), ("A", "3")], by decide⟩

/-- A variable may stand for names of several kinds. The name of the vault is looked at, and a name
that is too short is refused. -/
theorem registry_of_settings_team :
    let out : Outside (Vault.Cache × Nat) := (Outside.isolated 0).within .snd
    let credential : Credential (Vault.Cache × Nat) := Credential.ofToken "t"
    (∃ r, team.registry out .fst credential teamVariables = .ok r ∧ r.has .kv = true ∧
        r.lookup .vars "V_A" (none, 0) = (.ok (some "2"), none, 0) ∧
        r.lookup .secrets "A" (none, 0) = (.ok (some "2"), none, 0) ∧
        r.lookup .env "V_" (none, 0) = (.ok none, none, 0)) ∧
      ∃ e, ({ team with vaultName := some "t" } : Settings).registry out .fst credential
        teamVariables = .error e := by
  intro out credential
  obtain ⟨herror, -, -, hserves⟩ :=
    registry_of_settings team out .fst credential teamVariables
  have hgood : ¬ team.Misnames := by
    rintro ⟨-, ⟨text, hurl, -⟩ | ⟨-, name, hname, hbad⟩⟩
    · cases hurl
    · cases hname
      exact hbad rfl
  constructor
  · cases hr : team.registry out .fst credential teamVariables with
    | error e => exact absurd (herror.mp ⟨e, hr⟩) hgood
    | ok r =>
        have h := hserves r hr
        refine ⟨r, rfl, ?_, ?_, ?_, ?_⟩
        · exact (h.kinds .kv).mpr (.inr ⟨rfl, .inr (by decide)⟩)
        · exact h.vars "V_A" (by decide) _
        · exact h.secrets "A" (by decide) _
        · exact h.env "V_" (by decide) _
  · obtain ⟨herror, -⟩ := registry_of_settings { team with vaultName := some "t" } out .fst
      credential teamVariables
    refine herror.mpr ⟨rfl, .inr ⟨rfl, "t", rfl, ?_⟩⟩
    intro hok
    cases hok

end Settings
end Placeholder
