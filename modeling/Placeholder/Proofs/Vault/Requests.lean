import Placeholder.Credential.ClientSecret
import Placeholder.Credential.ManagedIdentity
import Placeholder.Proofs.Vault.TokenCache

/-!
# Requests for secrets

A request for a secret reads, and has no headers but those of an authorization. What a response
sends the client to is so too. By either of these it is none of the requests for a token: an
application posts its secret, and an identity of a machine is told of in a header.
-/
namespace Placeholder

namespace Http

theorem name_of_mem_userHeaders {url : Url} {header : String × String}
    (h : header ∈ userHeaders url) : header.1 = "authorization" := by
  unfold userHeaders at h
  split at h
  · cases h
  · next a _ =>
      split at h
      · cases h
      · next username _ =>
          generalize (if a.password.isEmpty then none else percentDecoded? a.password) = password
            at h
          dsimp only at h
          split at h
          · cases h
          · rw [List.mem_singleton.mp h]

namespace Request

/-- A request that reads, with no headers but those of an authorization. -/
structure Reading (q : Request) : Prop where
  method : q.method = .get
  headers : ∀ header ∈ q.headers, header.1 = "authorization"

variable {q next : Request} {r : Response}

theorem headers_of? {method : Method} {url : Url} {headers : List (String × String)}
    {body : String} (h : of? method url headers body = some q) :
    q.method = method ∧ q.headers = userHeaders url ++ headers := by
  unfold of? at h
  split at h
  · cases h
    exact ⟨rfl, rfl⟩
  · cases h

theorem Reading.redirected (h : q.Reading) (hq : q.redirected? r = some next) : next.Reading := by
  have hpost : decide (q.method = .post) = false := by
    rw [h.method]
    rfl
  unfold redirected? at hq
  split at hq
  · obtain ⟨url, -, rfl⟩ := Option.map_eq_some_iff.mp hq
    rw [hpost, Bool.false_and, if_neg Bool.false_ne_true]
    refine ⟨h.method, ?_⟩
    intro header hmem
    dsimp only at hmem
    split at hmem
    · exact h.headers header hmem
    · exact h.headers header (List.mem_filter.mp hmem).1
  · cases hq

theorem Reading.ne_clientSecret (h : q.Reading) (c : ClientSecret) : c.request? ≠ some q := by
  intro hc
  obtain ⟨url, -, hof⟩ := Option.bind_eq_some_iff.mp hc
  have hmethod := (headers_of? hof).1
  rw [h.method] at hmethod
  cases hmethod

theorem Reading.ne_managedIdentity (h : q.Reading) (m : ManagedIdentity) :
    m.request? ≠ some q := by
  intro hm
  obtain ⟨url, -, hof⟩ := Option.bind_eq_some_iff.mp hm
  have hheaders := (headers_of? hof).2
  have hnone : ∀ header ∈ m.headers, header.1 = "authorization" := by
    intro header hmem
    apply h.headers
    rw [hheaders]
    exact List.mem_append_right _ hmem
  have hidentity : "x-identity-header" ≠ "authorization" := by decide
  have hmetadata : "metadata" ≠ "authorization" := by decide
  unfold ManagedIdentity.headers at hnone
  split at hnone
  · exact hidentity (hnone _ (List.mem_singleton_self _))
  · exact hmetadata (hnone _ (List.mem_singleton_self _))

end Request
end Http

namespace Vault

variable {ω : Type} {v : Vault ω} {name bearer : String}

theorem reading_request? {vault : Url} {q : Http.Request}
    (h : request? vault name bearer = some q) : q.Reading := by
  obtain ⟨hmethod, hheaders⟩ := Http.Request.headers_of? h
  refine ⟨hmethod, ?_⟩
  intro header hmem
  rw [hheaders] at hmem
  rcases List.mem_append.mp hmem with huser | hbearer
  · exact Http.name_of_mem_userHeaders huser
  · rw [List.mem_singleton.mp hbearer]

theorem Trail.reading {q : Http.Request} {trail : List Deed}
    {x : Except TransportFault Http.Response} (h : Trail q trail x) (hq : q.Reading) :
    ∀ p ∈ trail.filterMap Deed.request?, p.Reading := by
  induction h with
  | last q x =>
      intro p hp
      rw [List.mem_singleton.mp hp]
      exact hq
  | lost q r =>
      intro p hp
      rw [List.mem_singleton.mp hp]
      exact hq
  | onward hnext _ ih =>
      intro p hp
      rcases List.mem_cons.mp hp with rfl | hp
      · exact hq
      · exact ih (hq.redirected hnext) p hp

theorem Fetched.reading {trail : List Deed} {x : Answer} (h : Fetched v name bearer trail x) :
    ∀ p ∈ trail.filterMap Deed.request?, p.Reading := by
  cases h with
  | unformed hq =>
      intro p hp
      exact absurd hp List.not_mem_nil
  | unanswered hq ht => exact ht.reading (reading_request? hq)
  | answered hq ht hx => exact ht.reading (reading_request? hq)

end Vault
end Placeholder
