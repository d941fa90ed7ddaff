import Placeholder.Config.Layer
import Placeholder.Text

/-!
# Arguments

The words of a command line as a command. Words are read from left to right; help and version are
given as soon as they are asked for, and the first fault ends the reading. What fits together is
checked at the end.
-/
namespace Placeholder.Program

/-! ## Switches -/

structure Switch where
  long : String
  short : Option Char := none
  valued : Bool := true
  /-- The values that it takes. -/
  accepts : String → Bool := fun _ => true

/-- Why no command is run. -/
inductive Ending where
  | help
  | version
  | misuse
  deriving DecidableEq, Repr

/-- What one level of the command line may hold. -/
structure Grammar where
  switches : List Switch
  /-- The version may be asked for. -/
  versioned : Bool := false
  /-- The words that begin the next level. -/
  commands : List String := []

/-- What one level of the command line held. -/
structure Reading where
  /-- Switches by their long name, with their values. -/
  given : List (String × String) := []
  words : List String := []
  /-- The command that follows, and the words after it. -/
  command : Option (String × List String) := none

/-- A switch as a word mentions it. -/
inductive Mention where
  | flag (s : Switch)
  | value (s : Switch) (value : String)
  /-- The value is the next word. -/
  | pending (s : Switch)
  | ending (e : Ending)

namespace Grammar

def ofLong (g : Grammar) (name : String) (value : Option String) : Mention :=
  match g.switches.find? fun s => s.long == name, value with
  | some s, some v => if s.valued then .value s v else .ending .misuse
  | some s, none => if s.valued then .pending s else .flag s
  | none, none =>
    if name = "help" then .ending .help
    else if name = "version" && g.versioned then .ending .version
    else .ending .misuse
  | none, some _ => .ending .misuse

/-- The switches of a word with one hyphen. One that takes a value takes the rest of the word. -/
def ofShorts (g : Grammar) : List Char → List Mention
  | [] => []
  | c :: rest =>
    match g.switches.find? fun s => s.short == some c with
    | some s =>
      if !s.valued then .flag s :: ofShorts g rest
      else
        match rest with
        | [] => [.pending s]
        | '=' :: value => [.value s (String.ofList value)]
        | value => [.value s (String.ofList value)]
    | none =>
      if c = 'h' then [.ending .help]
      else if c = 'V' && g.versioned then [.ending .version]
      else [.ending .misuse]

/-- The switches that a word mentions; none for a word that is no switch. -/
def mentions? (g : Grammar) (word : String) : Option (List Mention) :=
  match word.toList with
  | '-' :: '-' :: name =>
    let value : Option String :=
      match name.dropWhile (· ≠ '=') with
      | _ :: v => some (String.ofList v)
      | [] => none
    some [g.ofLong (String.ofList (name.takeWhile (· ≠ '='))) value]
  | ['-'] => none
  | '-' :: shorts => some (g.ofShorts shorts)
  | _ => none

end Grammar

namespace Reading

/-- Takes a switch; twice is once too often. -/
def give (r : Reading) (s : Switch) (value : String) : Except Ending Reading :=
  if (r.given.lookup s.long).isSome || !s.accepts value then .error .misuse
  else .ok { r with given := r.given ++ [(s.long, value)] }

/-- Takes the switches that a word mentions; within, the one that waits for its value. -/
def takeMentions (r : Reading) : List Mention → Except Ending (Reading × Option Switch)
  | [] => .ok (r, none)
  | .flag s :: rest => (r.give s "").bind fun r => takeMentions r rest
  | .value s v :: rest => (r.give s v).bind fun r => takeMentions r rest
  | .pending s :: _ => .ok (r, some s)
  | .ending e :: _ => .error e

def read (g : Grammar) (r : Reading) (waiting : Option Switch) :
    List String → Except Ending Reading
  | [] => if waiting.isSome then .error .misuse else .ok r
  | word :: rest =>
    match waiting with
    | some s =>
      if (g.mentions? word).isSome then .error .misuse
      else (r.give s word).bind fun r => read g r none rest
    | none =>
      if g.commands.contains word then .ok { r with command := some (word, rest) }
      else if word = "--" then .ok { r with words := r.words ++ rest }
      else
        match g.mentions? word with
        | some mentions =>
          (r.takeMentions mentions).bind fun (r, waiting) => read g r waiting rest
        | none => read g { r with words := r.words ++ [word] } none rest

def has (r : Reading) (name : String) : Bool := (r.given.lookup name).isSome

def value? (r : Reading) (name : String) : Option String := r.given.lookup name

end Reading

/-! ## Commands -/

structure ProcessOptions where
  input : String
  output : Option String
  environment : Option String
  config : Option String
  layer : Layer
  report : Bool

inductive Command where
  | process (o : ProcessOptions)
  | scan (file : String)

/-- The number of retries is below this. -/
def retryLimit : Nat := UInt32.size

def retries? (s : String) : Option Nat :=
  match s.toList with
  | '-' :: '+' :: _ => none
  | '-' :: digits => Text.naturalBelow? 1 (String.ofList digits)
  | _ => Text.naturalBelow? retryLimit s

def seconds? (s : String) : Option Nat := (Text.naturalBelow? UInt64.size s).filter (1 ≤ ·)

def isPath (s : String) : Bool := !s.isEmpty

def levelSwitches : List Switch :=
  [{ long := "verbose", short := some 'v', valued := false },
    { long := "quiet", short := some 'q', valued := false }]

def processGrammar : Grammar where
  switches := levelSwitches ++
    [{ long := "input", short := some 'i', accepts := isPath },
      { long := "output", short := some 'o', accepts := isPath },
      { long := "vars-source", accepts := fun s => (SourceMode.ofName? s).isSome },
      { long := "secrets-source", accepts := fun s => (SourceMode.ofName? s).isSome },
      { long := "kv-source", accepts := fun s => (VaultMode.ofName? s).isSome },
      { long := "environment", short := some 'e' },
      { long := "keyvault-name" },
      { long := "keyvault-url" },
      { long := "config", short := some 'c', accepts := isPath },
      { long := "timeout", accepts := fun s => (seconds? s).isSome },
      { long := "max-retries", accepts := fun s => (retries? s).isSome },
      { long := "report", valued := false }]

def scanGrammar : Grammar where
  switches := levelSwitches

def topGrammar : Grammar where
  switches := levelSwitches
  versioned := true
  commands := ["process", "scan", "help"]

/-- Verbose and quiet exclude each other, on each level. -/
def consistent (r : Reading) : Bool := !(r.has "verbose" && r.has "quiet")

def layerOf (r : Reading) : Layer where
  varsSource := (r.value? "vars-source").bind SourceMode.ofName?
  secretsSource := (r.value? "secrets-source").bind SourceMode.ofName?
  vaultSource := (r.value? "kv-source").bind VaultMode.ofName?
  vaultName := r.value? "keyvault-name"
  vaultUrl := r.value? "keyvault-url"
  timeoutSeconds := (r.value? "timeout").bind seconds?
  maxRetries := (r.value? "max-retries").bind retries?

def processCommand (words : List String) : Except Ending Command :=
  (Reading.read processGrammar {} none words).bind fun r =>
    match r.value? "input" with
    | some input =>
      if r.words.isEmpty && consistent r then
        .ok (.process
          { input, output := r.value? "output", environment := r.value? "environment"
            config := r.value? "config", layer := layerOf r, report := r.has "report" })
      else .error .misuse
    | none => .error .misuse

def scanCommand (words : List String) : Except Ending Command :=
  (Reading.read scanGrammar {} none words).bind fun r =>
    match r.words with
    | [file] => if isPath file && consistent r then .ok (.scan file) else .error .misuse
    | _ => .error .misuse

/-- What asking for help ends in: help on a command, if it is one. -/
def helpEnding : List String → Ending
  | [] => .help
  | [command] => if topGrammar.commands.contains command then .help else .misuse
  | _ => .misuse

def Command.ofWords (words : List String) : Except Ending Command :=
  (Reading.read topGrammar {} none words).bind fun r =>
    if !r.words.isEmpty then .error .misuse
    else
      let command :=
        match r.command with
        | some ("process", rest) => processCommand rest
        | some ("scan", rest) => scanCommand rest
        | some (_, rest) => .error (helpEnding rest)
        | none => .error .misuse
      command.bind fun command => if consistent r then .ok command else .error .misuse

end Placeholder.Program
