import Placeholder.Proofs.Substitution.Pure
import Placeholder.Proofs.Substitution.Questions
import Placeholder.Proofs.Template.Gathered

/-!
# Registries out of registrations

A registry comes of a row of registrations, of which the last one of each kind is in force. What a
template is rendered to depends on the sources of the kinds that it names and on nothing else
(`render_congr`), and only these are asked (`render_keeps`). So rows of registrations that agree on
these kinds are as good as each other: `render_of_registrations`.
-/
namespace Placeholder

/-- The same source, which notes under which number it is registered and what it is asked for. -/
def Source.numbered {ω : Type} (i : Nat) (s : Source ω) : Source (List (Nat × String) × ω) :=
  ⟨s.name, fun name (log, w) =>
    let (answer, w) := s.ask name w
    (answer, log ++ [(i, name)], w)⟩

namespace Registry

variable {ω : Type}

/-- The registry after these registrations, made one after the other. -/
def ofRegistrations (calls : List (Kind × Source ω)) : Registry ω :=
  calls.foldl (fun r call => r.register call.1 call.2) empty

/-- The source that was registered last for a kind. -/
def lastFor (calls : List (Kind × Source ω)) (kind : Kind) : Option (Source ω) :=
  calls.reverse.lookup kind

@[simp] theorem ofRegistrations_nil : (ofRegistrations [] : Registry ω) = empty := rfl

theorem ofRegistrations_concat (calls : List (Kind × Source ω)) (kind : Kind)
    (source : Source ω) :
    ofRegistrations (calls ++ [(kind, source)]) = (ofRegistrations calls).register kind source := by
  rw [ofRegistrations, List.foldl_append]
  rfl

theorem source?_ofRegistrations (calls : List (Kind × Source ω)) (k : Kind) :
    (ofRegistrations calls).source? k = lastFor calls k := by
  induction calls using List.reverseRecOn with
  | nil => rfl
  | append_singleton calls call ih =>
      obtain ⟨kind, source⟩ := call
      rw [ofRegistrations_concat, source?_register, ih, lastFor, lastFor, List.reverse_append,
        List.reverse_singleton, List.singleton_append, List.lookup_cons]
      by_cases h : k = kind
      · rw [if_pos h, beq_iff_eq.mpr h]
      · rw [if_neg h, beq_eq_false_iff_ne.mpr h]

/-! ## The kinds that a template names -/

section Named

variable {r r' : Registry ω} {template : String}

theorem renderSegments_congr {segments : List Segment}
    (h : ∀ t, .token t ∈ segments → r'.source? t.kind = r.source? t.kind) (w : ω) :
    r'.renderSegments segments w = r.renderSegments segments w := by
  induction segments generalizing w with
  | nil => rfl
  | cons s rest ih =>
      have hrest := ih fun t ht => h t (List.mem_cons_of_mem s ht)
      cases s with
      | literal text => rw [renderSegments_literal, renderSegments_literal, hrest]
      | token t =>
          have ht := resolve_congr (h t List.mem_cons_self) w
          rcases hx : r.resolve t w with ⟨x, w₁⟩
          rw [hx] at ht
          cases x with
          | error stop =>
              rw [renderSegments_of_resolve_error hx, renderSegments_of_resolve_error ht]
          | ok piece => rw [renderSegments_of_resolve hx, renderSegments_of_resolve ht, hrest]

/-- Registries with the same sources for the kinds of a template render it the same. -/
theorem render_congr
    (h : ∀ q ∈ Template.scan template, r'.source? q.token.kind = r.source? q.token.kind) (w : ω) :
    r'.render template w = r.render template w := by
  have hsegments : ∀ t, .token t ∈ Template.segments template →
      r'.source? t.kind = r.source? t.kind := by
    intro t ht
    obtain ⟨q, hq, rfl⟩ := Template.exists_mem_scan ht
    exact h q hq
  rw [render_eq, render_eq, renderSegments_congr hsegments]

theorem recorded_congr {kind : Kind} (h : r'.source? kind = r.source? kind) :
    r'.recorded.source? kind = r.recorded.source? kind := by
  simp only [recorded, h]

theorem resolve_keeps {P : ω → Prop} {t : Token}
    (h : ∀ s, r.source? t.kind = some s → ∀ w, P w → P (s.ask t.name w).2) {w : ω} (hw : P w) :
    P (r.resolve t w).2 := by
  unfold resolve
  cases hs : r.source? t.kind with
  | none => exact hw
  | some s => exact h s hs w hw

theorem renderSegments_keeps {P : ω → Prop} {segments : List Segment}
    (h : ∀ t, .token t ∈ segments → ∀ s, r.source? t.kind = some s →
      ∀ w, P w → P (s.ask t.name w).2) {w : ω} (hw : P w) :
    P (r.renderSegments segments w).2 := by
  induction segments generalizing w with
  | nil => exact hw
  | cons s rest ih =>
      have hrest {w : ω} := @ih (fun t ht => h t (List.mem_cons_of_mem s ht)) w
      cases s with
      | literal text =>
          rw [renderSegments_literal]
          exact hrest hw
      | token t =>
          have hnext := resolve_keeps (h t List.mem_cons_self) hw
          rcases hx : r.resolve t w with ⟨x, w₁⟩
          rw [hx] at hnext
          cases x with
          | error stop =>
              rw [renderSegments_of_resolve_error hx]
              exact hnext
          | ok piece =>
              rw [renderSegments_of_resolve hx]
              exact hrest hnext

/-- What holds of the state stays so, if the sources of the kinds of a template keep it when they
are asked for its names. -/
theorem render_keeps {P : ω → Prop}
    (h : ∀ q ∈ Template.scan template, ∀ s, r.source? q.token.kind = some s →
      ∀ w, P w → P (s.ask q.token.name w).2) {w : ω} (hw : P w) :
    P (r.render template w).2 := by
  rw [render_eq]
  refine renderSegments_keeps ?_ hw
  intro t ht
  obtain ⟨q, hq, rfl⟩ := Template.exists_mem_scan ht
  exact h q hq

end Named

/-! ## Who is asked -/

/-- The registration of this number, counted from zero, is one for the kind, and none after it is. -/
structure InForce (calls : List (Kind × Source ω)) (i : Nat) (kind : Kind) : Prop where
  registered : ∃ source, calls[i]? = some (kind, source)
  last : ∀ j call, i < j → calls[j]? = some call → call.1 ≠ kind

theorem inForce_concat (calls : List (Kind × Source ω)) (kind : Kind) (source : Source ω) :
    InForce (calls ++ [(kind, source)]) calls.length kind := by
  constructor
  · exact ⟨source, List.getElem?_concat_length⟩
  · intro j call hj hcall
    have hlt := (List.getElem?_eq_some_iff.mp hcall).1
    rw [List.length_append, List.length_singleton] at hlt
    omega

theorem InForce.concat {calls : List (Kind × Source ω)} {i : Nat} {k : Kind}
    (h : InForce calls i k) {kind : Kind} (hne : kind ≠ k) (source : Source ω) :
    InForce (calls ++ [(kind, source)]) i k := by
  obtain ⟨found, hfound⟩ := h.registered
  have hi := (List.getElem?_eq_some_iff.mp hfound).1
  constructor
  · exact ⟨found, by rw [List.getElem?_append_left hi, hfound]⟩
  · intro j call hj hcall
    rcases Nat.lt_or_ge j calls.length with hlt | hge
    · rw [List.getElem?_append_left hlt] at hcall
      exact h.last j call hj hcall
    · rw [List.getElem?_append_right hge] at hcall
      obtain rfl := List.mem_singleton.mp (List.mem_of_getElem? hcall)
      exact hne

/-- The same registrations, with sources that note under which number they are asked and for what. -/
def numbered (calls : List (Kind × Source ω)) :
    List (Kind × Source (List (Nat × String) × ω)) :=
  calls.mapIdx fun i call => (call.1, call.2.numbered i)

theorem numbered_concat (calls : List (Kind × Source ω)) (kind : Kind) (source : Source ω) :
    numbered (calls ++ [(kind, source)]) =
      numbered calls ++ [(kind, source.numbered calls.length)] :=
  List.mapIdx_concat

/-- In a registry of numbered sources each is the one that is in force. -/
theorem source?_numbered {calls : List (Kind × Source ω)} {k : Kind}
    {s : Source (List (Nat × String) × ω)}
    (h : (ofRegistrations (numbered calls)).source? k = some s) :
    ∃ (i : Nat) (source : Source ω), InForce calls i k ∧ s = source.numbered i := by
  induction calls using List.reverseRecOn with
  | nil => cases h
  | append_singleton calls call ih =>
      obtain ⟨kind, source⟩ := call
      rw [numbered_concat, ofRegistrations_concat, source?_register] at h
      split at h
      · next hk =>
          cases h
          exact ⟨calls.length, source, hk ▸ inForce_concat calls kind source, rfl⟩
      · next hk =>
          obtain ⟨i, found, hfound, rfl⟩ := ih h
          exact ⟨i, found, hfound.concat (Ne.symm hk) source, rfl⟩

theorem alike_numbered (calls : List (Kind × Source ω)) :
    Alike (fun _ _ => Eq) (fun w s => s.2 = w) (ofRegistrations calls)
      (ofRegistrations (numbered calls)) := by
  induction calls using List.reverseRecOn with
  | nil => exact alike_empty
  | append_singleton calls call ih =>
      obtain ⟨kind, source⟩ := call
      rw [numbered_concat, ofRegistrations_concat, ofRegistrations_concat]
      refine ih.register kind ?_
      rintro name w ⟨log, w'⟩ rfl
      exact ⟨rfl, rfl⟩

/-- A rendering asks only sources that are in force, for the names that its template has with their
kinds. -/
theorem asked_of_numbered {calls : List (Kind × Source ω)} {template : String} {w w' : ω}
    {x : Except Stop Rendering} {log : List (Nat × String)}
    (h : (ofRegistrations (numbered calls)).render template ([], w) = (x, log, w')) :
    ∀ i name, (i, name) ∈ log →
      ∃ q ∈ Template.scan template, q.token.name = name ∧ InForce calls i q.token.kind := by
  let Kept (s : List (Nat × String) × ω) : Prop := ∀ i name, (i, name) ∈ s.1 →
    ∃ q ∈ Template.scan template, q.token.name = name ∧ InForce calls i q.token.kind
  have hkept : Kept ((ofRegistrations (numbered calls)).render template ([], w)).2 := by
    refine render_keeps ?_ ?_
    · intro q hq s hs state hstate i name hmem
      obtain ⟨j, source, hforce, rfl⟩ := source?_numbered hs
      rcases List.mem_append.mp hmem with hold | hnew
      · exact hstate i name hold
      · cases List.mem_singleton.mp hnew
        exact ⟨q, hq, rfl, hforce⟩
    · intro i name hmem
      cases hmem
  rw [h] at hkept
  exact hkept

/-! ## Rows of registrations -/

/-- How a registry has come about does not matter. Where two rows of registrations leave the same
source, or none, for each kind that a template names, it is rendered and substituted the same, with
the same lookups and into the same state: whatever the order of the registrations, however many were
replaced and whatever stands for other kinds. And nobody else is asked: sources that note under which
number they are registered render it the same, and all they note are names of the template, asked
of the last registration of their kind. -/
theorem render_of_registrations {template : String} {calls calls' : List (Kind × Source ω)}
    (h : ∀ q ∈ Template.scan template, lastFor calls' q.token.kind = lastFor calls q.token.kind)
    (w : ω) :
    let r := ofRegistrations calls
    let r' := ofRegistrations calls'
    r'.render template w = r.render template w ∧
    r'.substitute template w = r.substitute template w ∧
    r'.recorded.render template ([], w) = r.recorded.render template ([], w) ∧
    ∀ x log w', (ofRegistrations (numbered calls)).render template ([], w) = (x, log, w') →
      r.render template w = (x, w') ∧ ∀ i name, (i, name) ∈ log →
        ∃ q ∈ Template.scan template, q.token.name = name ∧ InForce calls i q.token.kind := by
  intro r r'
  have hsources : ∀ q ∈ Template.scan template,
      r'.source? q.token.kind = r.source? q.token.kind := by
    intro q hq
    rw [source?_ofRegistrations, source?_ofRegistrations, h q hq]
  have hrender := render_congr hsources w
  refine ⟨hrender, ?_, render_congr (fun q hq => recorded_congr (hsources q hq)) ([], w), ?_⟩
  · rw [substitute_eq, substitute_eq, hrender]
  · intro x log w' hrun
    have hstart : (([] : List (Nat × String)), w).2 = w := rfl
    obtain ⟨hresult, hstate⟩ := (alike_numbered calls).render_eq template hstart
    rw [hrun] at hresult hstate
    exact ⟨Prod.ext hresult.symm hstate.symm, asked_of_numbered hrun⟩

/-- Of three registrations only the last is asked, though the one of another kind would fail. -/
theorem render_of_registrations_replaced :
    let old : Source Unit := .ofTable (.ofPairs [("A", "0")])
    let new : Source Unit := .ofTable (.ofPairs [("A", "1")])
    let down : Source Unit := ⟨"down", fun name w => (.error (.crash (.forbidden name)), w)⟩
    let calls := [(Kind.vars, old), (Kind.kv, down), (Kind.vars, new)]
    let text := "a${vars:A}${secrets:S:d}"
    (ofRegistrations [(Kind.vars, new)]).render text () = (ofRegistrations calls).render text () ∧
      (ofRegistrations (numbered calls)).render text ([], ()) =
        (.ok ⟨[.literal "a", .token ⟨.vars, "A", .plain⟩ .resolved "1",
          .token ⟨.secrets, "S", .fallback "d"⟩ .verbatim "${secrets:S:d}"]⟩, [(2, "A")], ()) ∧
      ∃ q ∈ Template.scan text, q.token.name = "A" ∧ InForce calls 2 q.token.kind := by
  intro old new down calls text
  have hlast : ∀ q ∈ Template.scan text,
      lastFor [(Kind.vars, new)] q.token.kind = lastFor calls q.token.kind := by
    have hscan : Template.scan text = [⟨⟨.vars, "A", .plain⟩, ⟨1, 1⟩⟩,
        ⟨⟨.secrets, "S", .fallback "d"⟩, ⟨10, 1⟩⟩] := by
      decide +kernel
    intro q hq
    rw [hscan] at hq
    rcases List.mem_cons.mp hq with rfl | hq
    · rfl
    · rw [List.mem_singleton.mp hq]
      rfl
  have hrun : (ofRegistrations (numbered calls)).render text ([], ()) =
      (.ok ⟨[.literal "a", .token ⟨.vars, "A", .plain⟩ .resolved "1",
        .token ⟨.secrets, "S", .fallback "d"⟩ .verbatim "${secrets:S:d}"]⟩, [(2, "A")], ()) := by
    decide +kernel
  obtain ⟨hrender, -, -, hasked⟩ := render_of_registrations hlast ()
  exact ⟨hrender, hrun, (hasked _ _ _ hrun).2 2 "A" List.mem_cons_self⟩

end Registry
end Placeholder
