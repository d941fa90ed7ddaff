/-!
# Prepared answers

A list of answers that are given one after the other; the last one is given again and again.
-/
namespace Placeholder

/-- The answers still to be given. -/
structure Playback (α : Type) where
  answers : List α
  deriving Repr

namespace Playback

/-- The next answer and the rest; none only when there never was one. -/
def next? {α : Type} (p : Playback α) : Option (α × Playback α) :=
  match p.answers with
  | [] => none
  | [a] => some (a, ⟨[a]⟩)
  | a :: rest => some (a, ⟨rest⟩)

end Playback
end Placeholder
