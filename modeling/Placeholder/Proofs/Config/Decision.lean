import Placeholder.Proofs.Config.Layers
import Placeholder.Proofs.Program.Outcome

/-!
# The settings of a run

`ConfigFile.Found` says which config file a run goes by, and `Program.settings_decided` what comes
of it: the run has settings unless the file that was chosen is of no use, and then each of them is
decided by the layers of the run.
-/
namespace Placeholder

namespace ConfigFile

/-- The config file that a run goes by. A path that is given is taken whatever is there; without one
it is the first of the two usual places that holds a regular file. -/
inductive Chosen (fs : Files) (u : UserDirectories) : Option String → Option String → Prop
  | given (path : String) : Chosen fs u (some path) (some path)
  | beside (h : fs.isFile localPath = true) : Chosen fs u none (some localPath)
  | user (hlocal : fs.isFile localPath = false) (h : fs.isFile (userPath u) = true) :
      Chosen fs u none (some (userPath u))
  | nothing (hlocal : fs.isFile localPath = false) (huser : fs.isFile (userPath u) = false) :
      Chosen fs u none none

/-- There is a text at the path, and it is understood as this config file. -/
def Reads (fs : Files) (path : String) (file : ConfigFile) : Prop :=
  ∃ text, fs.readText path = .ok text ∧ parse text = .ok file

/-- The chosen file, read; the empty config where none is chosen. -/
inductive Found (fs : Files) (u : UserDirectories) (given : Option String) :
    Option String → ConfigFile → Prop
  | read {path : String} {file : ConfigFile} (hpath : Chosen fs u given (some path))
      (hfile : Reads fs path file) : Found fs u given (some path) file
  | nothing (hnone : Chosen fs u given none) : Found fs u given none {}

variable {fs : Files} {u : UserDirectories} {given : Option String}

theorem load_eq_ok_iff {path : String} {file : ConfigFile} :
    load fs path = .ok file ↔ Reads fs path file := by
  unfold load Reads
  cases fs.readText path with
  | ok text => simp
  | error fault => simp

theorem Chosen.unique {path path' : Option String} (h : Chosen fs u given path)
    (h' : Chosen fs u given path') : path = path' := by
  cases h with
  | given path =>
      cases h'
      rfl
  | beside hlocal =>
      cases h' with
      | beside => rfl
      | user hother => cases hlocal.symm.trans hother
      | nothing hother => cases hlocal.symm.trans hother
  | user hlocal huser =>
      cases h' with
      | beside hother => cases hlocal.symm.trans hother
      | user => rfl
      | nothing _ hother => cases huser.symm.trans hother
  | nothing hlocal huser =>
      cases h' with
      | beside hother => cases hlocal.symm.trans hother
      | user _ hother => cases huser.symm.trans hother
      | nothing => rfl

/-- Which file is chosen, and what is done with it. -/
theorem discover_cases (fs : Files) (u : UserDirectories) (given : Option String) :
    (∃ path, Chosen fs u given (some path) ∧
      discover fs u given = (load fs path).map fun c => (some path, c)) ∨
      (Chosen fs u given none ∧ discover fs u given = .ok (none, {})) := by
  cases given with
  | some path => exact .inl ⟨path, .given path, rfl⟩
  | none =>
      cases hlocal : fs.isFile localPath with
      | true =>
          refine .inl ⟨localPath, .beside hlocal, ?_⟩
          simp only [discover, Option.none_or, List.find?_cons, hlocal]
      | false =>
          cases huser : fs.isFile (userPath u) with
          | true =>
              refine .inl ⟨userPath u, .user hlocal huser, ?_⟩
              simp only [discover, Option.none_or, List.find?_cons, hlocal, huser]
          | false =>
              refine .inr ⟨.nothing hlocal huser, ?_⟩
              simp only [discover, Option.none_or, List.find?_cons, List.find?_nil, hlocal, huser]

theorem found_of_discover {path : Option String} {file : ConfigFile}
    (h : discover fs u given = .ok (path, file)) : Found fs u given path file := by
  rcases discover_cases fs u given with ⟨chosen, hchosen, hdiscover⟩ | ⟨hnone, hdiscover⟩
  · cases hload : load fs chosen with
    | ok read =>
        rw [hdiscover, hload] at h
        cases h
        exact .read hchosen (load_eq_ok_iff.mp hload)
    | error e =>
        rw [hdiscover, hload] at h
        cases h
  · rw [hdiscover] at h
    cases h
    exact .nothing hnone

/-- Nothing stands in for a chosen file that cannot be read or understood. -/
theorem discover_error_iff : (∃ e, discover fs u given = .error e) ↔
    ∃ path, Chosen fs u given (some path) ∧ ¬ ∃ file, Reads fs path file := by
  constructor
  · rintro ⟨e, h⟩
    rcases discover_cases fs u given with ⟨path, hpath, hdiscover⟩ | ⟨-, hdiscover⟩
    · refine ⟨path, hpath, ?_⟩
      rintro ⟨file, hfile⟩
      rw [hdiscover, load_eq_ok_iff.mpr hfile] at h
      cases h
    · cases hdiscover.symm.trans h
  · rintro ⟨path, hpath, hunusable⟩
    rcases discover_cases fs u given with ⟨path', hpath', hdiscover⟩ | ⟨hnone, -⟩
    · cases hpath.unique hpath'
      cases hload : load fs path with
      | ok file => exact absurd ⟨file, load_eq_ok_iff.mp hload⟩ hunusable
      | error e =>
          refine ⟨e, ?_⟩
          rw [hdiscover, hload]
          rfl
    · cases hpath.unique hnone

end ConfigFile

namespace Program

theorem settings_error_iff (s : Start) (o : ProcessOptions) : (∃ e, settings s o = .error e) ↔
    ∃ path, ConfigFile.Chosen s.files (userDirectories s) o.config (some path) ∧
      ¬ ∃ file, ConfigFile.Reads s.files path file := by
  rw [← ConfigFile.discover_error_iff]
  change (∃ e, (config s o).map _ = .error e) ↔ ∃ e, config s o = .error e
  cases config s o with
  | ok found => exact iff_of_false (fun ⟨_, h⟩ => by cases h) (fun ⟨_, h⟩ => by cases h)
  | error e => exact iff_of_true ⟨e, rfl⟩ ⟨e, rfl⟩

theorem found_of_settings {s : Start} {o : ProcessOptions} {t : Settings}
    (h : settings s o = .ok t) :
    ∃ path file, ConfigFile.Found s.files (userDirectories s) o.config path file ∧
      t = Settings.resolve file o.environment o.layer := by
  unfold settings at h
  cases hconfig : config s o with
  | ok found =>
      rw [hconfig] at h
      cases h
      exact ⟨found.1, found.2, ConfigFile.found_of_discover hconfig, rfl⟩
  | error e =>
      rw [hconfig] at h
      cases h

/-- The settings of a run are decided field by field. There are none exactly when the chosen config
file is of no use. Else each is the one of the highest layer that sets it. A field that is set in
one layer changes no other setting, and layers may be grouped at will. -/
theorem settings_decided (s : Start) (o : ProcessOptions) :
    ((∃ e, settings s o = .error e) ↔
        ∃ path, ConfigFile.Chosen s.files (userDirectories s) o.config (some path) ∧
          ¬ ∃ file, ConfigFile.Reads s.files path file) ∧
      (∀ t, settings s o = .ok t →
        ∃ path file, ConfigFile.Found s.files (userDirectories s) o.config path file ∧
          t.environment = o.environment ∧
          ∀ f : Field, f.inSettings t =
            f.decided (Settings.layers file o.environment o.layer)) ∧
      (∀ (f g : Field) (v : f.Value), g ≠ f → ∀ (place : Place) file environment cli,
        g.inSettings (Settings.resolve (place.change (f.set · v) file cli).1 environment
            (place.change (f.set · v) file cli).2) =
          g.inSettings (Settings.resolve file environment cli)) ∧
      (∀ a b c : Layer, (a.above b).above c = a.above (b.above c)) ∧
      (∀ a : Layer, a.above {} = a ∧ ({} : Layer).above a = a) ∧
      ∀ (g : Grouping) environment (f : Field),
        f.inSettings (Settings.ofLayer environment g.laid) = f.decided g.layers := by
  refine ⟨settings_error_iff s o, ?_, ?_, Layer.above_assoc,
    fun a => ⟨a.above_empty, a.empty_above⟩, ?_⟩
  · intro t h
    obtain ⟨path, file, hfound, rfl⟩ := found_of_settings h
    exact ⟨path, file, hfound, rfl, Settings.inSettings_resolve⟩
  · intro f g v hne place file environment cli
    exact place.inSettings_change (f.set · v) g fun l => Field.inLayer_set_of_ne hne l v
  · intro g environment f
    rw [f.inSettings_ofLayer, g.laid_eq, f.inLayer_laid, Field.decided]

/-- A run beside a config file with defaults and a section. -/
def prod : Start where
  words := []
  environ := []
  files := { directory := [], contents := [(["manifest-subst.toml"],
    "defaults.vars_prefix = \"X_\"\nenvironments.prod.timeout_secs = 0\n".toUTF8)] }

def prodOptions : ProcessOptions where
  input := "t"
  output := none
  environment := some "prod"
  config := none
  layer := { maxRetries := some 7 }
  report := false

/-- Each layer decides one of these settings. A path that is given does not lead back to the file
that is there. -/
theorem settings_decided_prod :
    (∃ t path file, settings prod prodOptions = .ok t ∧ t.varsLead = "X_" ∧
        t.timeoutSeconds = 1 ∧ t.maxRetries = 7 ∧
        ConfigFile.Found prod.files (userDirectories prod) none path file ∧
        ∀ f : Field, f.inSettings t =
          f.decided (Settings.layers file (some "prod") prodOptions.layer)) ∧
      ∃ e, settings prod { prodOptions with config := some "none.toml" } = .error e := by
  constructor
  · have hfields : (settings prod prodOptions).toOption.map
        (fun t => (t.varsLead, t.timeoutSeconds, t.maxRetries)) = some ("X_", 1, 7) := by
      decide +kernel
    obtain ⟨t, ht, hvalues⟩ := Option.map_eq_some_iff.mp hfields
    obtain ⟨hvars, htimeout, hretries⟩ : t.varsLead = "X_" ∧ t.timeoutSeconds = 1 ∧
        t.maxRetries = 7 := by simpa using hvalues
    cases hsettings : settings prod prodOptions with
    | error e =>
        rw [hsettings] at ht
        cases ht
    | ok t' =>
        rw [hsettings] at ht
        cases ht
        obtain ⟨-, hdecided, -⟩ := settings_decided prod prodOptions
        obtain ⟨path, file, hfound, -, hall⟩ := hdecided t hsettings
        exact ⟨t, path, file, rfl, hvars, htimeout, hretries, hfound, hall⟩
  · have hmissing : (prod.files.readText "none.toml").toOption = none := by decide +kernel
    obtain ⟨herror, -⟩ := settings_decided prod { prodOptions with config := some "none.toml" }
    refine herror.mpr ⟨"none.toml", .given _, ?_⟩
    rintro ⟨file, text, htext, -⟩
    rw [htext] at hmissing
    cases hmissing

end Program
end Placeholder
