import Placeholder.Config.Settings

/-!
# Settings field by field

Each of the nine settings is decided on its own: by the highest layer that sets it, else by a value
of its own (`Field.decided`). How the layers of a run are grouped while they are laid over each
other makes no difference: `Grouping.laid_eq`.
-/
namespace Placeholder

/-! ## Fields -/

/-- One of the nine settings that a layer may set. -/
inductive Field where
  | varsSource
  | secretsSource
  | vaultSource
  | vaultName
  | vaultUrl
  | varsLead
  | secretsLead
  | timeoutSeconds
  | maxRetries
  deriving DecidableEq, Repr

namespace Field

/-- What a layer may set the field to. -/
abbrev Value : Field → Type
  | varsSource | secretsSource => SourceMode
  | vaultSource => VaultMode
  | vaultName | vaultUrl | varsLead | secretsLead => String
  | timeoutSeconds | maxRetries => Nat

/-- What the field can be in the settings of a run. -/
abbrev Setting : Field → Type
  | varsSource | secretsSource => SourceMode
  | vaultSource => VaultMode
  | vaultName | vaultUrl => Option String
  | varsLead | secretsLead => String
  | timeoutSeconds | maxRetries => Nat

def inLayer (l : Layer) : (f : Field) → Option f.Value
  | varsSource => l.varsSource
  | secretsSource => l.secretsSource
  | vaultSource => l.vaultSource
  | vaultName => l.vaultName
  | vaultUrl => l.vaultUrl
  | varsLead => l.varsLead
  | secretsLead => l.secretsLead
  | timeoutSeconds => l.timeoutSeconds
  | maxRetries => l.maxRetries

def set (l : Layer) : (f : Field) → f.Value → Layer
  | varsSource, v => { l with varsSource := some v }
  | secretsSource, v => { l with secretsSource := some v }
  | vaultSource, v => { l with vaultSource := some v }
  | vaultName, v => { l with vaultName := some v }
  | vaultUrl, v => { l with vaultUrl := some v }
  | varsLead, v => { l with varsLead := some v }
  | secretsLead, v => { l with secretsLead := some v }
  | timeoutSeconds, v => { l with timeoutSeconds := some v }
  | maxRetries, v => { l with maxRetries := some v }

def inSettings (s : Settings) : (f : Field) → f.Setting
  | varsSource => s.varsSource
  | secretsSource => s.secretsSource
  | vaultSource => s.vaultSource
  | vaultName => s.vaultName
  | vaultUrl => s.vaultUrl
  | varsLead => s.varsLead
  | secretsLead => s.secretsLead
  | timeoutSeconds => s.timeoutSeconds
  | maxRetries => s.maxRetries

/-- The setting where no layer says anything. -/
def builtIn : (f : Field) → f.Setting
  | varsSource | secretsSource => .github
  | vaultSource => .azureKeyvault
  | vaultName | vaultUrl => none
  | varsLead => "VARS_"
  | secretsLead => "SECRETS_"
  | timeoutSeconds => 30
  | maxRetries => 2

/-- The setting that the value of the deciding layer gives. An empty name or address of a vault
unsets it, and a timeout of zero is one second. -/
def taken : (f : Field) → f.Value → f.Setting
  | vaultName, v | vaultUrl, v => if v = "" then none else some v
  | timeoutSeconds, v => if v = 0 then 1 else v
  | varsSource, v | secretsSource, v => v
  | vaultSource, v => v
  | varsLead, v | secretsLead, v => v
  | maxRetries, v => v

/-- The setting that layers give together: the first one that sets the field decides. -/
def decided (layers : List Layer) (f : Field) : f.Setting :=
  ((layers.findSome? f.inLayer).map f.taken).getD f.builtIn

variable (f : Field)

@[simp] theorem inLayer_above (upper lower : Layer) :
    f.inLayer (upper.above lower) = (f.inLayer upper).or (f.inLayer lower) := by
  cases f <;> rfl

@[simp] theorem inLayer_empty : f.inLayer {} = none := by
  cases f <;> rfl

theorem inLayer_set_of_ne {f g : Field} (h : g ≠ f) (l : Layer) (v : f.Value) :
    g.inLayer (f.set l v) = g.inLayer l := by
  cases f <;> cases g <;> first | rfl | exact absurd rfl h

theorem filter_nonEmpty (v : Option String) :
    v.filter Settings.nonEmpty = (v.map fun t => if t = "" then none else some t).getD none := by
  cases v with
  | none => rfl
  | some t =>
      by_cases ht : t = ""
      · subst ht
        rfl
      · have hfull : Settings.nonEmpty t = true := by simp [Settings.nonEmpty, ht]
        simp [Option.filter, hfull, ht]

theorem getD_timeout (v : Option Nat) :
    (v.map fun n => max n 1).getD 30 = (v.map fun n => if n = 0 then 1 else n).getD 30 := by
  cases v with
  | none => rfl
  | some n =>
      change max n 1 = if n = 0 then 1 else n
      split <;> omega

/-- The settings of a layer, field by field. -/
theorem inSettings_ofLayer (environment : Option String) (l : Layer) :
    f.inSettings (Settings.ofLayer environment l) = ((f.inLayer l).map f.taken).getD f.builtIn := by
  have hplain {α : Type} (v : Option α) (d : α) : v.getD d = (v.map fun x => x).getD d := by
    cases v <;> rfl
  cases f with
  | varsSource => exact hplain l.varsSource _
  | secretsSource => exact hplain l.secretsSource _
  | vaultSource => exact hplain l.vaultSource _
  | vaultName => exact filter_nonEmpty l.vaultName
  | vaultUrl => exact filter_nonEmpty l.vaultUrl
  | varsLead => exact hplain l.varsLead _
  | secretsLead => exact hplain l.secretsLead _
  | timeoutSeconds => exact getD_timeout l.timeoutSeconds
  | maxRetries => exact hplain l.maxRetries _

end Field

/-! ## Layers laid over each other -/

/-- Layers from the top, laid over each other. -/
def Layer.laid (layers : List Layer) : Layer := layers.foldr Layer.above {}

theorem Layer.laid_append (upper lower : List Layer) :
    Layer.laid (upper ++ lower) = (Layer.laid upper).above (Layer.laid lower) := by
  induction upper with
  | nil => exact (Layer.empty_above _).symm
  | cons l upper ih =>
      change l.above (Layer.laid (upper ++ lower)) =
        (l.above (Layer.laid upper)).above (Layer.laid lower)
      rw [ih, Layer.above_assoc]

theorem Field.inLayer_laid (f : Field) (layers : List Layer) :
    f.inLayer (Layer.laid layers) = layers.findSome? f.inLayer := by
  induction layers with
  | nil => exact f.inLayer_empty
  | cons l layers ih =>
      change f.inLayer (l.above (Layer.laid layers)) = _
      rw [f.inLayer_above, ih, List.findSome?_cons]
      cases f.inLayer l with
      | none => rfl
      | some v => rfl

/-- A way to lay layers over each other, some of them before others. -/
inductive Grouping where
  | nothing
  | layer (l : Layer)
  | stack (upper lower : Grouping)

namespace Grouping

/-- The layers from the top. -/
def layers : Grouping → List Layer
  | nothing => []
  | layer l => [l]
  | stack upper lower => upper.layers ++ lower.layers

/-- The one layer that comes of them. -/
def laid : Grouping → Layer
  | nothing => {}
  | layer l => l
  | stack upper lower => upper.laid.above lower.laid

theorem laid_eq (g : Grouping) : g.laid = Layer.laid g.layers := by
  induction g with
  | nothing => rfl
  | layer l => exact (Layer.above_empty l).symm
  | stack upper lower ihUpper ihLower => rw [laid, layers, Layer.laid_append, ihUpper, ihLower]

end Grouping

/-! ## The layers of a run -/

namespace Settings

/-- The layers of a run from the top; an environment without a section adds none. -/
def layers (file : ConfigFile) (environment : Option String) (cli : Layer) : List Layer :=
  cli :: (environment.bind file.environment?).toList ++ [file.defaults]

variable {file : ConfigFile} {environment : Option String} {cli : Layer}

theorem layered_eq : layered file environment cli = Layer.laid (layers file environment cli) := by
  cases hsection : environment.bind file.environment? with
  | none => simp [layered, environmentLayer, layers, Layer.laid, hsection]
  | some l => simp [layered, environmentLayer, layers, Layer.laid, hsection]

/-- Each setting of a run is decided by the layers of the run. -/
theorem inSettings_resolve (f : Field) :
    f.inSettings (resolve file environment cli) = f.decided (layers file environment cli) := by
  rw [resolve, f.inSettings_ofLayer, layered_eq, f.inLayer_laid, Field.decided]

-- An empty address hides the one below it, and a timeout of zero is one second.
example (below : Layer) :
    (resolve { defaults := { below with vaultUrl := some "https://v.example" } } none
      { vaultUrl := some "", timeoutSeconds := some 0 }).vaultUrl = none ∧
    (resolve { defaults := { below with vaultUrl := some "https://v.example" } } none
      { vaultUrl := some "", timeoutSeconds := some 0 }).timeoutSeconds = 1 :=
  ⟨rfl, rfl⟩

end Settings

/-! ## Changes to one layer -/

/-- A layer of a run that can be changed on its own. -/
inductive Place where
  | commandLine
  | environment (name : String)
  | defaults

namespace Place

/-- The sections with one of them changed; one that is missing is added. -/
def alter (name : String) (change : Layer → Layer) : List (String × Layer) → List (String × Layer)
  | [] => [(name, change {})]
  | e :: rest => if e.1 = name then (name, change e.2) :: rest else e :: alter name change rest

theorem lookup_alter (name other : String) (change : Layer → Layer)
    (sections : List (String × Layer)) :
    (alter name change sections).lookup other =
      if other = name then some (change ((sections.lookup name).getD {}))
      else sections.lookup other := by
  induction sections with
  | nil =>
      by_cases h : other = name
      · simp [alter, h]
      · have hne : (other == name) = false := beq_eq_false_iff_ne.mpr h
        simp [alter, List.lookup_cons, h, hne]
  | cons e rest ih =>
      obtain ⟨n, l⟩ := e
      by_cases hn : n = name
      · subst hn
        by_cases h : other = n
        · subst h
          simp [alter]
        · have hne : (other == n) = false := beq_eq_false_iff_ne.mpr h
          simp [alter, List.lookup_cons, h, hne]
      · have hname : (name == n) = false := beq_eq_false_iff_ne.mpr (Ne.symm hn)
        by_cases h : other = n
        · subst h
          simp [alter, hn]
        · have hne : (other == n) = false := beq_eq_false_iff_ne.mpr h
          simp only [alter, hn, if_false, List.lookup_cons, hne, hname, ih]

/-- The config file and the command line with one layer changed. -/
def change (place : Place) (alteration : Layer → Layer) (file : ConfigFile) (cli : Layer) :
    ConfigFile × Layer :=
  match place with
  | commandLine => (file, alteration cli)
  | environment name =>
    ({ file with environments := alter name alteration file.environments }, cli)
  | defaults => ({ file with defaults := alteration file.defaults }, cli)

end Place

variable {file file' : ConfigFile} {environment : Option String} {cli cli' : Layer}

theorem Field.decided_layers (f : Field) :
    f.decided (Settings.layers file environment cli) =
      (((f.inLayer cli).or ((f.inLayer (Settings.environmentLayer file environment)).or
        (f.inLayer file.defaults))).map f.taken).getD f.builtIn := by
  rw [decided, ← f.inLayer_laid, ← Settings.layered_eq, Settings.layered, f.inLayer_above,
    f.inLayer_above]

/-- A setting depends on nothing but what the layers say about it. -/
theorem Field.inSettings_congr (f : Field) (hcli : f.inLayer cli' = f.inLayer cli)
    (hsection : f.inLayer (Settings.environmentLayer file' environment) =
      f.inLayer (Settings.environmentLayer file environment))
    (hdefaults : f.inLayer file'.defaults = f.inLayer file.defaults) :
    f.inSettings (Settings.resolve file' environment cli') =
      f.inSettings (Settings.resolve file environment cli) := by
  rw [Settings.inSettings_resolve, Settings.inSettings_resolve, f.decided_layers, f.decided_layers,
    hcli, hsection, hdefaults]

theorem Place.environmentLayer_alter (name : String) (alteration : Layer → Layer) (f : Field)
    (h : ∀ l, f.inLayer (alteration l) = f.inLayer l) :
    f.inLayer (Settings.environmentLayer
        { file with environments := Place.alter name alteration file.environments } environment) =
      f.inLayer (Settings.environmentLayer file environment) := by
  cases environment with
  | none => rfl
  | some other =>
      change f.inLayer (((Place.alter name alteration file.environments).lookup other).getD {}) =
        f.inLayer ((file.environments.lookup other).getD {})
      rw [Place.lookup_alter]
      by_cases hother : other = name
      · subst hother
        rw [if_pos rfl, Option.getD_some, h]
      · rw [if_neg hother]

/-- A change to one layer that leaves a field alone there leaves the setting alone. -/
theorem Place.inSettings_change (place : Place) (alteration : Layer → Layer) (f : Field)
    (h : ∀ l, f.inLayer (alteration l) = f.inLayer l) :
    f.inSettings (Settings.resolve (place.change alteration file cli).1 environment
        (place.change alteration file cli).2) =
      f.inSettings (Settings.resolve file environment cli) := by
  cases place with
  | commandLine => exact f.inSettings_congr (h cli) rfl rfl
  | environment name =>
      exact f.inSettings_congr rfl (Place.environmentLayer_alter name alteration f h) rfl
  | defaults => exact f.inSettings_congr rfl rfl (h file.defaults)

end Placeholder
