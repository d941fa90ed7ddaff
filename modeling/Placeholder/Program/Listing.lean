import Placeholder.Program.Paint
import Placeholder.Substitution

/-!
# Listings

What the program tells of the tokens of a template: which there are, and what became of each. Names
are told, values never.
-/
namespace Placeholder.Program

variable (colours : Bool)

def line (s : String) : String := s ++ "\n"

def outcomeText : Outcome → String
  | .resolved => paint colours .green "resolved"
  | .defaulted => paint colours .yellow "default"
  | .verbatim => paint colours .dim "left as-is"

def kindText (kind : Kind) : String := paint colours .cyan kind.name

def reportLine (e : Kind × String × Outcome) : String :=
  line ("  " ++ kindText colours e.1 ++ ":" ++ e.2.1 ++ "  " ++ outcomeText colours e.2.2)

def report (r : Rendering) : String :=
  line (paint colours .boldCyan "Placeholders:") ++
    String.join (r.report.map (reportLine colours))

def column (n : Nat) : String := "".pushn ' ' (4 - (toString n).length) ++ toString n

/-- What happens to a token that has no value. -/
def marker (t : Token) : String :=
  match t.tail with
  | .required => paint colours .red "required"
  | .fallback text => "default: " ++ text
  | .plain => paint colours .dim "optional"

def tokenLine (p : Template.Placed) : String :=
  line ("  " ++ column p.start.line ++ "  " ++ kindText colours p.token.kind ++ ":" ++ p.token.name
    ++ "  " ++ marker colours p.token)

def listing (file template : String) : String :=
  let tokens := Template.scan template
  if tokens.isEmpty then
    line (paint colours .green "✓" ++ " No placeholders in '" ++ file ++ "'")
  else
    line (paint colours .cyan "→" ++ " " ++ toString tokens.length ++ " placeholder(s) in '"
        ++ file ++ "'")
      ++ String.join (tokens.map (tokenLine colours))

end Placeholder.Program
