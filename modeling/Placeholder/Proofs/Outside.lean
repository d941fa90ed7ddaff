import Placeholder.Outside

/-!
# The world as a part of a state

What lies outside of a run does the same whether it stands alone or is a part of a larger state: it
answers as it would alone, and only its part of the state changes.
-/
namespace Placeholder

/-- A part that can be replaced without regard to the rest. -/
structure Cell.Lawful {σ α : Type} (cell : Cell σ α) : Prop where
  get_set : ∀ a s, cell.get (cell.set a s) = a
  set_get : ∀ s, cell.set (cell.get s) s = s
  set_set : ∀ a b s, cell.set a (cell.set b s) = cell.set a s

def Cell.fst {α β : Type} : Cell (α × β) α := ⟨Prod.fst, fun a s => (a, s.2)⟩

def Cell.snd {α β : Type} : Cell (α × β) β := ⟨Prod.snd, fun b s => (s.1, b)⟩

theorem Cell.lawful_snd {α β : Type} : (Cell.snd : Cell (α × β) β).Lawful :=
  ⟨fun _ _ => rfl, fun _ => rfl, fun _ _ _ => rfl⟩

namespace Outside

variable {σ ω : Type} {cell : Cell σ ω} {client : Http.Client}

theorem send_within (out : Outside ω) (q : Http.Request) (s : σ) :
    (out.within cell).send client q s =
      ((out.send client q (cell.get s)).1, cell.set (out.send client q (cell.get s)).2 s) :=
  rfl

theorem follow_within (hcell : cell.Lawful) (out : Outside ω) (left : Nat) (q : Http.Request)
    (s : σ) : (out.within cell).follow client left q s =
      ((out.follow client left q (cell.get s)).1,
        cell.set (out.follow client left q (cell.get s)).2 s) := by
  induction left generalizing q s with
  | zero =>
      rw [follow, follow, send_within]
      obtain ⟨x, w⟩ := out.send client q (cell.get s)
      cases x with
      | error fault => rfl
      | ok r => cases hr : q.redirected? r <;> simp only [hr]
  | succ left ih =>
      rw [follow, follow, send_within]
      obtain ⟨x, w⟩ := out.send client q (cell.get s)
      cases x with
      | error fault => rfl
      | ok r =>
          cases hr : q.redirected? r with
          | none => simp only [hr]
          | some next => simp only [hr, ih, hcell.get_set, hcell.set_set]

theorem exchange_within (hcell : cell.Lawful) (out : Outside ω) (q : Option Http.Request) (s : σ) :
    (out.within cell).exchange client q s =
      ((out.exchange client q (cell.get s)).1,
        cell.set (out.exchange client q (cell.get s)).2 s) := by
  cases q with
  | none => simp only [exchange, hcell.set_get]
  | some q => exact out.follow_within hcell redirectLimit q s

theorem body_within (hcell : cell.Lawful) (out : Outside ω) (r : Http.Response) (s : σ) :
    (out.within cell).body client r s =
      ((out.body client r (cell.get s)).1, cell.set (out.body client r (cell.get s)).2 s) := by
  simp only [body]
  split
  · rw [hcell.set_get]
  · rfl
  · rw [hcell.set_get]

end Outside
end Placeholder
