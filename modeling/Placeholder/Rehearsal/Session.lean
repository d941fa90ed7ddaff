import Placeholder.Config.Sources
import Placeholder.Credential.Ambient
import Placeholder.Rehearsal.World
import Placeholder.Substitution

/-!
# Sessions

A session takes steps in a world of its own: it makes sources and credentials, puts sources into
registries, asks them and substitutes templates. Sources and credentials made once may be used
again under their names, and then share what they remember.
-/
namespace Placeholder.Rehearsal

inductive CredentialPlan where
  | token (token : String)
  | clientSecret (c : ClientSecret)
  | managedIdentity (m : ManagedIdentity)
  | azureCli (program : String)
  | scripted (name : String) (grants : List Grant)
  | chain (sources : List CredentialPlan)
  | ambient (env : Environment)
  /-- The one made before under this name. -/
  | made (id : String)
  deriving Inhabited

inductive SourcePlan where
  | table (t : Table)
  | mock (manner : Manner)
  | scripted (name : String) (answers : List (Except FetchError (Option String)))
  | vault (url : String) (credential : CredentialPlan) (limit maxRetries : Nat)

/-- A source: one made before, or a new one, which may get a name. -/
inductive SourceChoice where
  | made (id : String)
  | new (id : Option String) (plan : SourcePlan)

/-- A step, in most cases with the registry it works on. -/
inductive Step where
  | register (registry : String) (kind : Kind) (source : SourceChoice)
  | registerTable (registry : String) (kind : Kind) (t : Table)
  | define (source : SourceChoice)
  | vault (url : String)
  | fork (registry copy : String)
  | state (registry : String)
  | has (registry : String) (kind : Kind)
  | lookup (registry : String) (kind : Kind) (name : String)
  | sourceLookup (id name : String)
  | log (id : String)
  | substitute (registry template : String)
  | report (registry template : String)
  | credential (id : String) (plan : CredentialPlan)
  | chainNames (plan : CredentialPlan)
  | issue (plan : CredentialPlan) (proxied : Bool)
  | build (registry : String) (settings : Settings) (env : Environment)
      (credential : Option CredentialPlan)

inductive Reply where
  | nothing
  | truth (b : Bool)
  /-- The sources of a registry. -/
  | summary (text : String)
  | named (name : String)
  | address (url : String)
  | state (kinds : List Kind) (summary : String)
  | answer (a : Answer)
  | log (names : List String)
  | substituted (template : String) (result : Except Stop Substituted)
  | rendered (result : Except Stop Rendering)
  | names (names : List String)
  | token (t : AccessToken) (fresh : Bool)
  | failed (f : Failure)
  | refused (e : RunError)
  /-- Nothing was made under this name. -/
  | unknown (id : String)

structure Session where
  world : World
  registries : List (String × Registry World) := []
  sources : List (String × Source World) := []
  /-- The places of the logs of mocks. -/
  logs : List (String × Nat) := []
  credentials : List (String × Credential World) := []
  made : Nat := 0

namespace Session

def registry (s : Session) (name : String) : Registry World :=
  (s.registries.lookup name).getD .empty

def setRegistry (s : Session) (name : String) (r : Registry World) : Session :=
  { s with registries := (name, r) :: s.registries }

def unknownCredential (id : String) : Credential World :=
  ⟨id, fun _ w => (.error (Credential.failed ""), w)⟩

mutual

def makeCredential (known : List (String × Credential World)) :
    CredentialPlan → World → Credential World × World
  | .token token, w => (Credential.ofToken token, w)
  | .clientSecret c, w => (c.credential World.outside, w)
  | .managedIdentity m, w => (m.credential World.outside, w)
  | .azureCli program, w => (AzureCli.credential World.outside program, w)
  | .scripted name grants, w =>
    (scriptedCredential name w.grants.length, { w with grants := w.grants ++ [⟨grants⟩] })
  | .chain plans, w =>
    let (sources, w) := makeCredentials known plans w
    let (memo, w) := w.addMemo
    (Chain.credential memo sources, w)
  | .ambient env, w =>
    let (memo, w) := w.addMemo
    (Ambient.credential World.outside memo env, w)
  | .made id, w => ((known.lookup id).getD (unknownCredential id), w)

def makeCredentials (known : List (String × Credential World)) :
    List CredentialPlan → World → List (Credential World) × World
  | [], w => ([], w)
  | plan :: rest, w =>
    let (c, w) := makeCredential known plan w
    let (cs, w) := makeCredentials known rest w
    (c :: cs, w)

end

def credential (s : Session) (plan : CredentialPlan) : Credential World × Session :=
  let (c, world) := makeCredential s.credentials plan s.world
  (c, { s with world })

def source (s : Session) : SourcePlan → Except RunError (Source World × Session)
  | .table t => .ok (.ofTable t, s)
  | .mock manner =>
    let i := s.world.logs.length
    .ok (mock manner i, { s with world := { s.world with logs := s.world.logs ++ [[]] } })
  | .scripted name answers =>
    let i := s.world.answers.length
    let world := { s.world with answers := s.world.answers ++ [⟨answers⟩] }
    .ok (scriptedSource name i, { s with world })
  | .vault text plan limit maxRetries =>
    (Vault.address text).map fun url =>
      let (credential, s) := s.credential plan
      let (cache, world) := s.world.addCache
      let retry : Retry := { maxRetries, initialDelay := 1, jitter := .zero false }
      let vault : Vault World := { outside := World.outside, url, credential, retry, limit }
      (vault.source cache, { s with world })

def label (s : Session) (id : Option String) : String := id.getD ("p" ++ toString s.made)

/-- The source that is chosen; a new one is kept under its label. -/
def choose (s : Session) : SourceChoice → Except Reply (Source World × Session)
  | .made id =>
    match s.sources.lookup id with
    | some source => .ok (source, s)
    | none => .error (.unknown id)
  | .new id plan =>
    match s.source plan with
    | .error e => .error (.refused e)
    | .ok (source, t) =>
      let name := s.label id
      let source := labelled name source
      let logs :=
        match plan with
        | .mock _ => (name, s.world.logs.length) :: t.logs
        | _ => t.logs
      .ok (source, { t with sources := (name, source) :: t.sources, logs, made := t.made + 1 })

def chainNames (s : Session) : CredentialPlan → List String
  | .chain plans => (makeCredentials s.credentials plans s.world).1.map Credential.name
  | .ambient env => (Ambient.sources World.outside env).map Credential.name
  | _ => []

/-- Runs a lookup in the world of the session. -/
def inWorld {α : Type} (s : Session) (f : World → α × World) : α × Session :=
  let (a, world) := f s.world
  (a, { s with world })

def take (s : Session) : Step → Reply × Session
  | .register name kind choice =>
    match s.choose choice with
    | .error reply => (reply, s)
    | .ok (source, s) =>
      let r := (s.registry name).register kind source
      (.summary r.summary, s.setRegistry name r)
  | .registerTable name kind t =>
    let r := (s.registry name).register kind (.ofTable t)
    (.summary r.summary, s.setRegistry name r)
  | .define choice =>
    match s.choose choice with
    | .error reply => (reply, s)
    | .ok (source, s) => (.named source.name, s)
  | .vault text =>
    match Vault.address text with
    | .error e => (.refused e, s)
    | .ok url => (.address url.text, s)
  | .fork name copy => (.nothing, s.setRegistry copy (s.registry name))
  | .state name =>
    let r := s.registry name
    (.state r.kinds r.summary, s)
  | .has name kind => (.truth ((s.registry name).has kind), s)
  | .lookup name kind key =>
    let (a, s) := s.inWorld ((s.registry name).lookup kind key)
    (.answer a, s)
  | .sourceLookup id key =>
    match s.sources.lookup id with
    | none => (.unknown id, s)
    | some source =>
      let (a, s) := s.inWorld (source.ask key)
      (.answer a, s)
  | .log id =>
    match (s.logs.lookup id).bind fun i => s.world.logs[i]? with
    | some names => (.log names, s)
    | none => (.unknown id, s)
  | .substitute name template =>
    let (result, s) := s.inWorld ((s.registry name).substitute template)
    (.substituted template result, s)
  | .report name template =>
    let (result, s) := s.inWorld ((s.registry name).render template)
    (.rendered result, s)
  | .credential id plan =>
    let (c, s) := s.credential plan
    (.named c.name, { s with credentials := (id, c) :: s.credentials })
  | .chainNames plan => (.names (s.chainNames plan), s)
  | .issue plan proxied =>
    let (c, s) := s.credential plan
    let (result, s) := s.inWorld (c.issue { proxied })
    match result with
    | .ok t => (.token t (t.freshAt s.world.now), s)
    | .error f => (.failed f, s)
  | .build name settings env plan =>
    let (c, s) := s.credential (plan.getD (.ambient env))
    let (cache, world) := s.world.addCache
    match settings.registry World.outside cache c env with
    | .error e => (.refused e, s)
    | .ok r => (.summary r.summary, { s with world }.setRegistry name r)

/-- Takes a step and tells what was asked meanwhile. -/
def step (s : Session) (step : Step) : Reply × Trace × Session :=
  let (reply, s) := { s with world := { s.world with trace := {} } }.take step
  (reply, s.world.trace.inOrder, s)

end Session
end Placeholder.Rehearsal
