import Placeholder.Credential

/-!
# The credential of a command line tool

A tool to which somebody has logged in prints a token. It is stopped when it takes too long.
-/
namespace Placeholder.AzureCli

def arguments : List String :=
  ["account", "get-access-token", "--resource", Credential.vaultResource, "--output", "json"]

/-- The time that the tool has, in milliseconds. -/
def limit : Nat := 20000

def name : String := "azure-cli"

def tokenOfOutput (program : String) (now epoch : Nat) (o : CommandOutput) :
    Except Failure AccessToken :=
  if o.exit = some 0 then
    match Json.ofBytes? o.stdout with
    | some answer => Credential.tokenOf name now epoch answer
    | none => .error (Credential.failed ("unexpected az output: " ++ detail))
  else
    .error (Credential.failed ("'" ++ program ++ " account get-access-token' failed: "
      ++ Text.trim (Text.ofUtf8 o.stderr.toList)))

def credential {ω : Type} (out : Outside ω) (program : String) : Credential ω :=
  ⟨name, fun _ w =>
    match out.command program arguments w with
    | (.error .timeout, w) => (.error (.error (.timeout limit)), w)
    | (.error (.unstarted fault), w) =>
      (.error (Credential.failed ("failed to run '" ++ program ++ "': " ++ fault.message)), w)
    | (.ok o, w) => (tokenOfOutput program (out.now w) (out.epoch w) o, w)⟩

end Placeholder.AzureCli
