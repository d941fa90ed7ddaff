import Placeholder.Program.Run
import Placeholder.Proofs.Files.Written
import Placeholder.Proofs.Substitution.Stops

/-!
# How a run ends

Before anything is put out a run goes through its stages, and the first one that fails (`Fails`)
decides how it ends: by the error of this stage, with nothing put out and every file as it was. A
run that ends well has rendered its template (`Renders`) and has put out this text and nothing else.
-/
namespace Placeholder

/-! ## Errors before the template is read -/

theorem ConfigFile.error_of_load {fs : Files} {path : String} {e : RunError}
    (h : load fs path = .error e) : ∃ reason, e = .config reason := by
  unfold load parse at h
  split at h
  · split at h
    · cases h
    · cases h
      exact ⟨_, rfl⟩
  · cases h
    exact ⟨_, rfl⟩

theorem ConfigFile.error_of_discover {fs : Files} {u : UserDirectories} {given : Option String}
    {e : RunError} (h : discover fs u given = .error e) : ∃ reason, e = .config reason := by
  unfold discover at h
  simp only at h
  split at h
  · next path _ =>
      cases hload : load fs path with
      | error e =>
          rw [hload] at h
          cases h
          exact error_of_load hload
      | ok file =>
          rw [hload] at h
          cases h
  · cases h

theorem Vault.Name.error_of_url {name : String} {e : RunError} (h : url name = .error e) :
    ∃ reason, e = .vaultName name reason := by
  unfold url check at h
  cases hfault : fault? name with
  | none =>
      rw [hfault] at h
      cases h
  | some fault =>
      rw [hfault] at h
      cases h
      exact ⟨_, rfl⟩

theorem Settings.error_of_vaultTarget {s : Settings} {e : RunError}
    (h : s.vaultTarget = .error e) : ∃ name reason, e = .vaultName name reason := by
  unfold vaultTarget at h
  split at h
  · cases h
  · cases h
  · rename_i name _ _ _
    cases hurl : Vault.Name.url name with
    | error e' =>
        rw [hurl] at h
        cases h
        exact ⟨name, Vault.Name.error_of_url hurl⟩
    | ok url =>
        rw [hurl] at h
        cases h
  · cases h

theorem Vault.error_of_address {text : String} {e : RunError} (h : address text = .error e) :
    ∃ reason, e = .config reason := by
  unfold address at h
  split at h
  · cases h
    exact ⟨_, rfl⟩
  · split at h
    · cases h
      exact ⟨_, rfl⟩
    · cases h

/-- Settings give no registry when they do not tell where their vault is, or no vault can be
there. -/
theorem Settings.ambient_eq_error_iff {ω : Type} {t : Settings} {out : Outside ω}
    {env : Environment} {e : RunError} : t.ambient out env = .error e ↔
      t.vaultTarget = .error e ∨
        ∃ address, t.vaultTarget = .ok (some address) ∧ Vault.address address = .error e := by
  unfold ambient registry vault?
  cases htarget : t.vaultTarget with
  | error e' => simp [Except.map]
  | ok target =>
      cases target with
      | none => simp [Except.map]
      | some address => cases haddress : Vault.address address <;> simp [Except.map, haddress]

namespace Program

variable {ω : Type} {out : Outside ω} {s : Start} {o : ProcessOptions} {w : ω} {e : RunError}

/-! ## Stages -/

/-- The first stage that fails, of all before the first output, and its error. Each stage is
reached when those before it have succeeded. -/
inductive Fails (out : Outside ω) (s : Start) (o : ProcessOptions) (w : ω) : RunError → Prop
  /-- The config file is not found or not understood. -/
  | config {reason : String} (hc : config s o = .error (.config reason)) :
      Fails out s o w (.config reason)
  /-- The settings name a vault whose name is not allowed. -/
  | vaultName {path : Option String} {file : ConfigFile} {name reason : String}
      (hc : config s o = .ok (path, file))
      (hv : (Settings.resolve file o.environment o.layer).vaultTarget =
        .error (.vaultName name reason)) : Fails out s o w (.vaultName name reason)
  /-- The settings give an address at which no vault can be. -/
  | vaultAddress {path : Option String} {file : ConfigFile} {address reason : String}
      (hc : config s o = .ok (path, file))
      (hv : (Settings.resolve file o.environment o.layer).vaultTarget = .ok (some address))
      (ha : Vault.address address = .error (.config reason)) : Fails out s o w (.config reason)
  /-- The template cannot be read. -/
  | template {r : Registry (Memory ω)} {fault : FileFault}
      (hr : registry out s o = .ok r)
      (ht : s.files.readText o.input = .error fault) : Fails out s o w (.io fault.message)
  /-- A token of the template aborts the substitution. -/
  | substitution {r : Registry (Memory ω)} {text : String} {e : RunError} {m : Memory ω}
      (hr : registry out s o = .ok r) (ht : s.files.readText o.input = .ok text)
      (hs : r.render text { outside := w } = (.error (.error e), m)) (he : e.abort = true) :
      Fails out s o w e

/-- All stages succeed, and this is what the template is rendered to. -/
structure Renders (out : Outside ω) (s : Start) (o : ProcessOptions) (w : ω) (ρ : Rendering) :
    Prop where
  rendered : ∃ (r : Registry (Memory ω)) (text : String) (m : Memory ω),
    registry out s o = .ok r ∧ s.files.readText o.input = .ok text ∧
      r.render text { outside := w } = (.ok ρ, m)

theorem registry_of_config {path : Option String} {file : ConfigFile}
    (h : config s o = .ok (path, file)) : registry out s o =
      (Settings.resolve file o.environment o.layer).ambient out s.environment := by
  rw [registry, settings, h]
  rfl

theorem registry_of_config_error (h : config s o = .error e) : registry out s o = .error e := by
  rw [registry, settings, h]
  rfl

theorem fails_of_registry (h : registry out s o = .error e) : Fails out s o w e := by
  cases hc : config s o with
  | error e' =>
      obtain ⟨reason, rfl⟩ := ConfigFile.error_of_discover hc
      cases h.symm.trans (registry_of_config_error hc)
      exact .config hc
  | ok found =>
      obtain ⟨path, file⟩ := found
      rw [registry_of_config hc] at h
      rcases Settings.ambient_eq_error_iff.mp h with hv | ⟨address, hv, ha⟩
      · obtain ⟨name, reason, rfl⟩ := Settings.error_of_vaultTarget hv
        exact .vaultName hc hv
      · obtain ⟨reason, rfl⟩ := Vault.error_of_address ha
        exact .vaultAddress hc hv ha

theorem rendering_of_registry (h : registry out s o = .error e) :
    (rendering out s o { outside := w }).1 = .error (.error e) := by
  rw [rendering, h]

theorem Fails.rendering_eq (h : Fails out s o w e) :
    (rendering out s o { outside := w }).1 = .error (.error e) := by
  cases h with
  | config hc => exact rendering_of_registry (registry_of_config_error hc)
  | vaultName hc hv =>
      refine rendering_of_registry ((registry_of_config hc).trans ?_)
      exact Settings.ambient_eq_error_iff.mpr (.inl hv)
  | vaultAddress hc hv ha =>
      refine rendering_of_registry ((registry_of_config hc).trans ?_)
      exact Settings.ambient_eq_error_iff.mpr (.inr ⟨_, hv, ha⟩)
  | @template r fault hr ht =>
      have htemplate : Program.template s o.input = .error (.io fault.message) := by
        rw [Program.template, ht]
      simp only [rendering, hr, htemplate]
  | @substitution r text _ m hr ht hs he =>
      have htemplate : Program.template s o.input = .ok text := by rw [Program.template, ht]
      simp only [rendering, hr, htemplate, hs]

theorem Renders.rendering_eq {ρ : Rendering} (h : Renders out s o w ρ) :
    (rendering out s o { outside := w }).1 = .ok ρ := by
  obtain ⟨r, text, m, hr, ht, hs⟩ := h.rendered
  have htemplate : template s o.input = .ok text := by rw [template, ht]
  unfold rendering
  simp only [hr, htemplate, hs]

/-- A run fails at one of its stages, or a source crashes, or all stages succeed. -/
theorem rendering_cases (out : Outside ω) (s : Start) (o : ProcessOptions) (w : ω) :
    (∃ e, Fails out s o w e) ∨
      (∃ c, (rendering out s o { outside := w }).1 = .error (.crash c)) ∨
        ∃ ρ, Renders out s o w ρ := by
  cases hr : registry out s o with
  | error e => exact .inl ⟨e, fails_of_registry hr⟩
  | ok r =>
      cases ht : s.files.readText o.input with
      | error fault => exact .inl ⟨_, .template hr ht⟩
      | ok text =>
          obtain ⟨x, m, hs⟩ : ∃ x m, r.render text { outside := w } = (x, m) := ⟨_, _, rfl⟩
          cases x with
          | ok ρ => exact .inr (.inr ⟨ρ, r, text, m, hr, ht, hs⟩)
          | error stop =>
              rcases Registry.render_stop hs with ⟨e, rfl, he⟩ | ⟨c, _, _, _, _, _, rfl, _⟩
              · exact .inl ⟨e, .substitution hr ht hs he⟩
              · have htemplate : template s o.input = .ok text := by rw [template, ht]
                refine .inr (.inl ⟨c, ?_⟩)
                unfold rendering
                simp only [hr, htemplate, hs]

theorem renders_of_rendering {ρ : Rendering}
    (h : (rendering out s o { outside := w }).1.toOption = some ρ) :
    Renders out s o w ρ := by
  rcases rendering_cases out s o w with ⟨e, hfails⟩ | ⟨c, hc⟩ | ⟨ρ', hrenders⟩
  · rw [hfails.rendering_eq] at h
    cases h
  · rw [hc] at h
    cases h
  · rw [hrenders.rendering_eq] at h
    cases h
    exact hrenders

/-! ## Ends -/

theorem process_eq (out : Outside ω) (s : Start) (o : ProcessOptions) (w : ω) :
    (process out s o w).1 = match (rendering out s o { outside := w }).1 with
      | .ok ρ => putOut (colours s.environment) s o ρ
      | .error (.error e) => failed (colours s.environment) s "" e
      | .error (.crash c) => crashed s c :=
  rfl

theorem Fails.process_eq (h : Fails out s o w e) :
    (process out s o w).1 = ⟨1, "", errorText (colours s.environment) e, s.files⟩ := by
  rw [Program.process_eq, h.rendering_eq]
  simp only [failed, String.empty_append]

theorem Fails.unique {e' : RunError} (h : Fails out s o w e) (h' : Fails out s o w e') :
    e' = e := by
  have hstop := h'.rendering_eq.symm.trans h.rendering_eq
  cases hstop
  rfl

theorem Renders.process_eq {ρ : Rendering} (h : Renders out s o w ρ) :
    (process out s o w).1 = putOut (colours s.environment) s o ρ := by
  rw [Program.process_eq, h.rendering_eq]

/-- What a run that ends well has put out: the text as its output, or in a file beside the line
that says so. No other file has changed. A special file has been handed the text, whatever it makes
of it, and where it is the output of the run the text shows there, ahead of that line. -/
structure PutsOut (s : Start) (o : ProcessOptions) (ρ : Rendering) (finish : Finish) : Prop where
  toOutput : o.output = none → finish.stdout = ρ.output ∧ finish.files = s.files
  toFile : ∀ path, o.output = some path →
    ∃ place, s.files.locate true path = .ok place ∧
      (∀ other, other ≠ place → finish.files.entry? other = s.files.entry? other) ∧
      (s.files.Ordinary place → finish.files.read path = .ok ρ.output.toUTF8 ∧
        finish.stdout = successText (colours s.environment) o.input path) ∧
      ∀ d, s.files.entry? place = some (.device d) →
        finish.files.entry? place = some (.device (d.handed ρ.output.toUTF8)) ∧
          finish.stdout = (if d.outlet = some .stdout then ρ.output else "") ++
            successText (colours s.environment) o.input path

theorem putOut_cases (s : Start) (o : ProcessOptions) (ρ : Rendering) :
    (putOut (colours s.environment) s o ρ).exit = 0 ∧
        PutsOut s o ρ (putOut (colours s.environment) s o ρ) ∨
      (putOut (colours s.environment) s o ρ).exit = 1 ∧
        ∃ path fault, o.output = some path ∧ s.files.write path ρ.output.toUTF8 = .error fault := by
  unfold putOut
  cases ho : o.output with
  | none => exact .inl ⟨rfl, fun _ => ⟨rfl, rfl⟩, fun path h => by cases ho.symm.trans h⟩
  | some path =>
      cases hw : s.files.write path ρ.output.toUTF8 with
      | error fault =>
          simp only [hw]
          exact .inr ⟨rfl, path, fault, rfl, hw⟩
      | ok files =>
          simp only [hw]
          refine .inl ⟨trivial, fun h => (by cases ho.symm.trans h), fun path' h => ?_⟩
          cases ho.symm.trans h
          obtain ⟨place, hplace, hothers, hfile, hdevice⟩ := Files.written hw
          refine ⟨place, hplace, hothers, fun hordinary => ⟨hfile hordinary, ?_⟩,
            fun d hd => ⟨hdevice d hd, ?_⟩⟩
          · rw [Files.outlet?_of_ordinary hplace hordinary]
            exact String.empty_append
          · rw [Files.outlet?_of_device hplace hd]

/-- A run whose stages do not all succeed ends by the error of the first that fails, says nothing
else and leaves every file as it was. One that ends well has put out the rendered template and no
more. Any other error comes from the file that was to be written at the end. -/
theorem process_outcome (out : Outside ω) (s : Start) (o : ProcessOptions) (w : ω) :
    (∀ e, Fails out s o w e →
      (process out s o w).1 = ⟨1, "", errorText (colours s.environment) e, s.files⟩ ∧
        ∀ e', Fails out s o w e' → e' = e) ∧
    ((process out s o w).1.exit = 0 →
      ∃ ρ, Renders out s o w ρ ∧ PutsOut s o ρ (process out s o w).1) ∧
    ((process out s o w).1.exit = 1 →
      (∃ e, Fails out s o w e) ∨
        ∃ ρ path fault, Renders out s o w ρ ∧ o.output = some path ∧
          s.files.write path ρ.output.toUTF8 = .error fault) := by
  refine ⟨fun e h => ⟨h.process_eq, fun _ => h.unique⟩, ?_, ?_⟩
  · intro hexit
    rcases rendering_cases out s o w with ⟨e, h⟩ | ⟨c, hc⟩ | ⟨ρ, h⟩
    · rw [h.process_eq] at hexit
      cases hexit
    · rw [Program.process_eq, hc] at hexit
      cases hexit
    · rw [h.process_eq] at hexit ⊢
      rcases putOut_cases s o ρ with ⟨_, hputs⟩ | ⟨hfailed, _⟩
      · exact ⟨ρ, h, hputs⟩
      · cases hexit.symm.trans hfailed
  · intro hexit
    rcases rendering_cases out s o w with hfails | ⟨c, hc⟩ | ⟨ρ, h⟩
    · exact .inl hfails
    · rw [Program.process_eq, hc] at hexit
      cases hexit
    · rw [h.process_eq] at hexit
      rcases putOut_cases s o ρ with ⟨hended, _⟩ | ⟨_, path, fault, ho, hw⟩
      · cases hexit.symm.trans hended
      · exact .inr ⟨ρ, path, fault, h, ho, hw⟩

/-- A template without tokens. -/
def plain : Start where
  words := []
  environ := []
  files := { directory := [], contents := [(["t"], "x".toUTF8)] }

def optionsTo (path : String) : ProcessOptions := ⟨"t", some path, none, none, {}, false⟩

/-- These runs end well and say so. But the text of the one is gone, and the other shows it ahead of
the line that should stand alone. -/
theorem process_discarding :
    let discarded := (process (.isolated 0) plain (optionsTo "/dev/null") 0).1
    let shown := (process (.isolated 0) plain (optionsTo "/dev/stdout") 0).1
    (Renders (.isolated 0) plain (optionsTo "/dev/null") 0 ⟨[.literal "x"]⟩ ∧
      discarded.exit = 0 ∧ (discarded.files.readText "/dev/null").toOption = some "") ∧
    Renders (.isolated 0) plain (optionsTo "/dev/stdout") 0 ⟨[.literal "x"]⟩ ∧ shown.exit = 0 ∧
      shown.stdout = "x" ++ successText false "t" "/dev/stdout" := by
  refine ⟨⟨renders_of_rendering ?_, ?_, ?_⟩, renders_of_rendering ?_, ?_, ?_⟩
  all_goals decide +kernel

end Program
end Placeholder
