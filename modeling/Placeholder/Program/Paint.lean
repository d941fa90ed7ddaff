/-!
# Painted text

Words in colours, for a terminal that shows them. Without colours the words stand as they are.
-/
namespace Placeholder.Program

inductive Paint where
  | red
  | boldRed
  | green
  | yellow
  | cyan
  | boldCyan
  | dim
  deriving DecidableEq, Repr

/-- The code that a terminal knows the paint by. -/
def Paint.code : Paint → String
  | red => "31"
  | boldRed => "1;31"
  | green => "32"
  | yellow => "33"
  | cyan => "36"
  | boldCyan => "1;36"
  | dim => "2"

def paint (colours : Bool) (p : Paint) (s : String) : String :=
  if colours then "\x1b[" ++ p.code ++ "m" ++ s ++ "\x1b[0m" else s

end Placeholder.Program
