import Placeholder.Proofs.Substitution.FastPath

/-!
# Questions to a registry

A registry is asked to substitute or to render a template, or for the value of a name. Registries
that answer the same for each name have the same reply to every question (`Alike.reply_eq`), and a
registry is like another one if its sources are, one by one (`Alike.register`).
-/
namespace Placeholder

namespace Registry

inductive Question where
  | substitute (template : String)
  | render (template : String)
  | lookup (kind : Kind) (name : String)

inductive Reply where
  | substituted (x : Except Stop Substituted)
  | rendered (x : Except Stop Rendering)
  | found (x : Answer)

variable {ω ω' : Type}

def reply (r : Registry ω) : Question → ω → Reply × ω
  | .substitute template, w => Prod.map .substituted id (r.substitute template w)
  | .render template, w => Prod.map .rendered id (r.render template w)
  | .lookup kind name, w => Prod.map .found id (r.lookup kind name w)

variable {states : ω → ω' → Prop} {r : Registry ω} {r' : Registry ω'}

theorem Alike.substitute_eq (h : Alike (fun _ _ => Eq) states r r') (template : String) {w : ω}
    {w' : ω'} (hw : states w w') :
    (r'.substitute template w').1 = (r.substitute template w).1 ∧
      states (r.substitute template w).2 (r'.substitute template w').2 := by
  obtain ⟨hresult, hnext⟩ := h.render_eq template hw
  rw [Registry.substitute_eq, Registry.substitute_eq, hresult]
  split
  · exact ⟨rfl, hw⟩
  · exact ⟨rfl, hnext⟩

theorem Alike.reply_eq (h : Alike (fun _ _ => Eq) states r r') (question : Question) {w : ω}
    {w' : ω'} (hw : states w w') : (r.reply question w).1 = (r'.reply question w').1 ∧
      states (r.reply question w).2 (r'.reply question w').2 := by
  cases question with
  | substitute template =>
      obtain ⟨hresult, hnext⟩ := h.substitute_eq template hw
      exact ⟨congrArg Reply.substituted hresult.symm, hnext⟩
  | render template =>
      obtain ⟨hresult, hnext⟩ := h.render_eq template hw
      exact ⟨congrArg Reply.rendered hresult.symm, hnext⟩
  | lookup kind name =>
      obtain ⟨hresult, hnext⟩ := h.lookup_eq kind name hw
      exact ⟨congrArg Reply.found hresult.symm, hnext⟩

/-! ## Registries that are alike -/

theorem alike_empty : Alike (fun _ _ => Eq) states empty empty := by
  constructor
  · intro kind
    rfl
  · intro kind s s' hs
    cases hs

theorem Alike.register (h : Alike (fun _ _ => Eq) states r r') (kind : Kind) {source : Source ω}
    {source' : Source ω'}
    (hsource : ∀ name w w', states w w' → (source.ask name w).1 = (source'.ask name w').1 ∧
      states (source.ask name w).2 (source'.ask name w').2) :
    Alike (fun _ _ => Eq) states (r.register kind source) (r'.register kind source') := by
  constructor
  · intro k
    simp only [has, source?_register]
    split
    · rfl
    · exact h.kinds k
  · intro k s s' hs hs' name w w' hw
    rw [source?_register] at hs hs'
    split at hs
    · next hk =>
        rw [if_pos hk] at hs'
        cases hs
        cases hs'
        obtain ⟨hx, hnext⟩ := hsource name w w' hw
        rw [hx]
        exact ⟨Answer.alike_refl _, hnext⟩
    · next hk =>
        rw [if_neg hk] at hs'
        exact h.answers k s s' hs hs' name w w' hw

end Registry

end Placeholder
