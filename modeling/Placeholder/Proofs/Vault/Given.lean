import Placeholder.Proofs.Vault.TokenCache

/-!
# Vaults with a token given beforehand

A credential that always has the same token without an end, and does nothing to have it, may as well
not be there. A lookup is then the request with that token, made again as the vault allows (`lookup_given`).
`lookupWith_noted` says what may stand in a list of what is sent, and `lookupWith_listed` that a list
of commands stays as it is.
-/
namespace Placeholder

/-- Attempts at a fetch that only changes a part of the state. -/
theorem Retry.attempts_within {σ ω α : Type} {cell : Cell σ ω} (hcell : cell.Lawful) (r : Retry)
    {pause : Nat → ω → ω} {fetch : ω → Except Failure α × ω} {wide : σ → Except Failure α × σ}
    (hfetch : ∀ s, wide s = ((fetch (cell.get s)).1, cell.set (fetch (cell.get s)).2 s))
    (left k : Nat) (s : σ) :
    r.attempts (fun ms s => cell.set (pause ms (cell.get s)) s) wide left k s =
      ((r.attempts pause fetch left k (cell.get s)).1,
        cell.set (r.attempts pause fetch left k (cell.get s)).2 s) := by
  have hboth s' w (h : s' = cell.set w s) : (wide s').1 = (fetch w).1 ∧
      (wide s').2 = cell.set (fetch w).2 s := by
    rw [hfetch, h, hcell.get_set, hcell.set_set]
    exact ⟨rfl, rfl⟩
  have hpause ms s' w (h : s' = cell.set w s) :
      cell.set (pause ms (cell.get s')) s' = cell.set (pause ms w) s := by
    rw [h, hcell.get_set, hcell.set_set]
  obtain ⟨hresult, hend⟩ := r.attempts_alike (fun s' w => s' = cell.set w s)
    (fun s' w => s' = cell.set w s) hboth hpause left k (hcell.set_get s).symm
  exact Prod.ext hresult hend

namespace Vault

variable {σ ω : Type}

/-- The vault with another credential, seen from a state of which its own is a part. -/
def within (cell : Cell σ ω) (v : Vault ω) (credential : Credential σ) : Vault σ where
  outside := v.outside.within cell
  url := v.url
  credential := credential
  retry := v.retry
  limit := v.limit

/-- A lookup with a bearer token that is at hand. -/
def lookupWith (v : Vault ω) (name bearer : String) : ω → Answer × ω :=
  v.retry.run v.outside.pause (v.fetch name bearer)

section Within

variable {cell : Cell σ ω} (hcell : cell.Lawful) (v : Vault ω) (credential : Credential σ)

include hcell

theorem answer_within (r : Http.Response) (s : σ) : (v.within cell credential).answer r s =
    ((v.answer r (cell.get s)).1, cell.set (v.answer r (cell.get s)).2 s) := by
  by_cases hr : r.status = 404
  · rw [answer_of_notFound hr, answer_of_notFound hr, hcell.set_get]
  · obtain ⟨body, w, hread⟩ : ∃ body w, v.outside.body v.client r (cell.get s) = (body, w) :=
      ⟨_, _, rfl⟩
    have hwithin : (v.within cell credential).outside.body (v.within cell credential).client r s =
        (body, cell.set w s) := by
      have hbody : (v.outside.within cell).body v.client r s = _ :=
        v.outside.body_within hcell r s
      rw [hread] at hbody
      exact hbody
    simp only [answer, if_neg hr, hread, hwithin]
    split
    · cases body with
      | error fault => cases fault <;> rfl
      | ok bytes => cases hv : valueOf bytes <;> simp only [hv]
    · rfl

theorem fetch_within (name bearer : String) (s : σ) :
    (v.within cell credential).fetch name bearer s =
      ((v.fetch name bearer (cell.get s)).1, cell.set (v.fetch name bearer (cell.get s)).2 s) := by
  obtain ⟨x, w, hx⟩ :
      ∃ x w, v.outside.exchange v.client (request? v.url name bearer) (cell.get s) = (x, w) :=
    ⟨_, _, rfl⟩
  have hwithin : (v.within cell credential).outside.exchange (v.within cell credential).client
      (request? (v.within cell credential).url name bearer) s = (x, cell.set w s) := by
    have hexchange : (v.outside.within cell).exchange v.client (request? v.url name bearer) s = _ :=
      v.outside.exchange_within hcell (request? v.url name bearer) s
    rw [hx] at hexchange
    exact hexchange
  simp only [fetch, hx, hwithin]
  cases x with
  | error fault => rfl
  | ok r => simp only [v.answer_within hcell, hcell.get_set, hcell.set_set]

end Within

/-! ## A token given -/

/-- Whatever the world is, the credential has this token, which has no end, and does nothing. -/
def Gives (cell : Cell σ ω) (credential : Credential σ) (token : String) (s : σ) : Prop :=
  ∀ client w, credential.issue client (cell.set w s) = (.ok ⟨token, none⟩, cell.set w s)

/-- A cache that can only hold this token. -/
def Keeps (token : String) (cache : Cache) : Prop := ∀ t ∈ cache, t = ⟨token, none⟩

theorem keeps_given (token : String) : Keeps token (some ⟨token, none⟩) := by
  intro t ht
  exact (Option.mem_some_iff.mp ht).symm

variable {cell : Cell σ ω} {v : Vault ω} {credential : Credential σ} {token : String} {s : σ}
  {cache : Cache}

theorem bearer_given (h : Gives cell credential token s) (hcache : Keeps token cache) (w : ω) :
    (v.within cell credential).bearer (cache, cell.set w s) =
      (.ok token, some ⟨token, none⟩, cell.set w s) := by
  cases cache with
  | none =>
      have hissue := h (v.within cell credential).client w
      simp only [bearer, Option.filter_none]
      rw [show (v.within cell credential).credential = credential from rfl, hissue]
  | some t =>
      obtain rfl := hcache t rfl
      rfl

theorem attempt_given (hcell : cell.Lawful) (h : Gives cell credential token s)
    (hcache : Keeps token cache) (name : String) (w : ω) :
    (v.within cell credential).attempt name (cache, cell.set w s) =
      ((v.fetch name token w).1, some ⟨token, none⟩, cell.set (v.fetch name token w).2 s) := by
  simp only [attempt, bearer_given h hcache w, v.fetch_within hcell, hcell.get_set, hcell.set_set]

theorem attempts_given (hcell : cell.Lawful) (h : Gives cell credential token s)
    (hcache : Keeps token cache) (name : String) (left k : Nat) (w : ω) :
    v.retry.attempts (fun ms (cache, s) => (cache, (v.outside.within cell).pause ms s))
        ((v.within cell credential).attempt name) left k (cache, cell.set w s) =
      ((v.retry.attempts v.outside.pause (v.fetch name token) left k w).1, some ⟨token, none⟩,
        cell.set (v.retry.attempts v.outside.pause (v.fetch name token) left k w).2 s) := by
  have hboth (m : Cache × σ) w (hm : Keeps token m.1 ∧ m.2 = cell.set w s) :
      ((v.within cell credential).attempt name m).1 = (v.fetch name token w).1 ∧
      ((v.within cell credential).attempt name m).2 =
        (some ⟨token, none⟩, cell.set (v.fetch name token w).2 s) := by
    have hattempt := attempt_given (v := v) hcell h hm.1 name w
    rw [← hm.2] at hattempt
    rw [hattempt]
    exact ⟨rfl, rfl⟩
  have hpause ms (m : Cache × σ) w (hm : m = (some ⟨token, none⟩, cell.set w s)) :
      Keeps token m.1 ∧
        (v.outside.within cell).pause ms m.2 = cell.set (v.outside.pause ms w) s := by
    subst hm
    refine ⟨keeps_given token, ?_⟩
    simp only [Outside.within, hcell.get_set, hcell.set_set]
  have hstart : Keeps token (cache, cell.set w s).1 ∧ (cache, cell.set w s).2 = cell.set w s :=
    ⟨hcache, rfl⟩
  exact Prod.ext_iff.mpr (v.retry.attempts_alike
    (fun (m : Cache × σ) w => Keeps token m.1 ∧ m.2 = cell.set w s)
    (fun m w => m = (some ⟨token, none⟩, cell.set w s)) hboth hpause left k hstart)

theorem lookup_given (hcell : cell.Lawful) (h : Gives cell credential token s)
    (hcache : Keeps token cache) (name : String) (w : ω) :
    (v.within cell credential).lookup name (cache, cell.set w s) =
      ((v.lookupWith name token w).1, some ⟨token, none⟩,
        cell.set (v.lookupWith name token w).2 s) :=
  attempts_given hcell h hcache name v.retry.maxRetries 0 w

/-! ## Deeds -/

/-- A list of deeds that is made up of what was sent for secrets with one token. -/
inductive Fetches (v : Vault ω) (bearer : String) : List Deed → Prop
  | nil : Fetches v bearer []
  | fetched {deeds trail : List Deed} {name : String} {x : Answer} (h : Fetches v bearer deeds)
      (hf : Fetched v name bearer trail x) : Fetches v bearer (deeds ++ trail)

/-- Of the vault only its address has a say in what is sent. -/
theorem Fetched.of_url {v : Vault ω} {u : Vault σ} (hurl : u.url = v.url) {name bearer : String}
    {trail : List Deed} {x : Answer} (h : Fetched v name bearer trail x) :
    Fetched u name bearer trail x := by
  cases h with
  | unformed hq => exact .unformed (hurl ▸ hq)
  | unanswered hq ht => exact .unanswered (hurl ▸ hq) ht
  | answered hq ht hx => exact .answered (hurl ▸ hq) ht hx

theorem Fetches.of_url {v : Vault ω} {u : Vault σ} (hurl : u.url = v.url) {bearer : String}
    {deeds : List Deed} (h : Fetches v bearer deeds) : Fetches u bearer deeds := by
  induction h with
  | nil => exact .nil
  | fetched _ hf ih => exact .fetched ih (hf.of_url hurl)

theorem lookupWith_noted (v : Vault ω) (name bearer : String) {deeds : List Deed}
    (hdeeds : Fetches v bearer deeds) (w : ω) :
    ∃ more, v.noted.lookupWith name bearer (deeds, w) =
      ((v.lookupWith name bearer w).1, more, (v.lookupWith name bearer w).2) ∧
      Fetches v bearer more := by
  have hboth (m : List Deed × ω) w (hm : Fetches v bearer m.1 ∧ m.2 = w) :
      (v.noted.fetch name bearer m).1 = (v.fetch name bearer w).1 ∧
      Fetches v bearer (v.noted.fetch name bearer m).2.1 ∧
      (v.noted.fetch name bearer m).2.2 = (v.fetch name bearer w).2 := by
    obtain ⟨hsent, rfl⟩ := hm
    obtain ⟨trail, hf, heq⟩ := v.fetch_noted name bearer m.1 m.2
    rw [show v.noted.fetch name bearer m = _ from heq]
    exact ⟨rfl, .fetched hsent hf, rfl⟩
  have hpause ms (m : List Deed × ω) w (hm : Fetches v bearer m.1 ∧ m.2 = w) :
      Fetches v bearer (v.noted.outside.pause ms m).1 ∧
      (v.noted.outside.pause ms m).2 = v.outside.pause ms w := by
    obtain ⟨hsent, rfl⟩ := hm
    exact ⟨hsent, rfl⟩
  have hstart : Fetches v bearer (deeds, w).1 ∧ (deeds, w).2 = w := ⟨hdeeds, rfl⟩
  obtain ⟨hresult, hmore, hend⟩ := v.retry.attempts_alike
    (fun (m : List Deed × ω) w => Fetches v bearer m.1 ∧ m.2 = w)
    (fun m w => Fetches v bearer m.1 ∧ m.2 = w) hboth hpause v.retry.maxRetries 0 hstart
  exact ⟨_, Prod.ext hresult (Prod.ext rfl hend), hmore⟩

end Vault

/-! ## Commands -/

/-- The world outside with a list of the commands that were run in it. -/
def Outside.listing {ω : Type} (out : Outside ω) : Outside (List (String × List String) × ω) :=
  { out.within Cell.snd with
    command := fun program arguments (commands, w) =>
      let (o, w) := out.command program arguments w
      (o, commands ++ [(program, arguments)], w) }

variable {ω : Type}

/-- Requests are followed by sending alone. -/
theorem Outside.follow_congr {out out' : Outside ω} (h : out.send = out'.send)
    (client : Http.Client) (left : Nat) (q : Http.Request) (w : ω) :
    out.follow client left q w = out'.follow client left q w := by
  induction left generalizing q w with
  | zero =>
      rw [follow, follow, h]
      obtain ⟨x, w'⟩ := out'.send client q w
      cases x with
      | error fault => rfl
      | ok r => cases hr : q.redirected? r <;> simp only [hr]
  | succ left ih =>
      rw [follow, follow, h]
      obtain ⟨x, w'⟩ := out'.send client q w
      cases x with
      | error fault => rfl
      | ok r => cases hr : q.redirected? r <;> simp only [hr, ih]

theorem Outside.exchange_congr {out out' : Outside ω} (h : out.send = out'.send)
    (client : Http.Client) (q : Option Http.Request) (w : ω) :
    out.exchange client q w = out'.exchange client q w := by
  cases q with
  | none => rfl
  | some q => exact follow_congr h client redirectLimit q w

namespace Vault

/-- The vault with a list of the commands that are run for it. -/
def listed (v : Vault ω) : Vault (List (String × List String) × ω) where
  outside := v.outside.listing
  url := v.url
  credential := v.credential.within .snd
  retry := v.retry
  limit := v.limit

theorem fetch_listed (v : Vault ω) (name bearer : String)
    (s : List (String × List String) × ω) : v.listed.fetch name bearer s =
      (v.within Cell.snd v.listed.credential).fetch name bearer s := by
  have hsend : v.listed.outside.send = (v.outside.within Cell.snd).send := rfl
  unfold fetch
  rw [Outside.exchange_congr hsend]
  rfl

/-- Fetching runs no command. -/
theorem lookupWith_listed (v : Vault ω) (name bearer : String)
    (commands : List (String × List String)) (w : ω) :
    v.listed.lookupWith name bearer (commands, w) =
      ((v.lookupWith name bearer w).1, commands, (v.lookupWith name bearer w).2) := by
  have hfetch (s : List (String × List String) × ω) : v.listed.fetch name bearer s =
      ((v.fetch name bearer (Cell.snd.get s)).1,
        Cell.snd.set (v.fetch name bearer (Cell.snd.get s)).2 s) := by
    rw [fetch_listed, v.fetch_within Cell.lawful_snd]
  exact v.retry.attempts_within Cell.lawful_snd hfetch v.retry.maxRetries 0 (commands, w)

end Vault
end Placeholder
