import Placeholder.Proofs.Url.Host
import Placeholder.Vault
import Placeholder.Vault.Name

/-!
# The address of a named vault

A name that passes the check is a label of a host, so the address made of it is a URL of that host
and nothing else: `Vault.address_of_name`. A vault that is named can always be asked.
-/
namespace Placeholder.Vault.Name

open Url (IsLabel isLabelChar)

variable {name : String}

/-! ## The check -/

/-- What the check asks of a name. -/
structure Passes (name : String) : Prop where
  size : 3 ≤ name.utf8ByteSize ∧ name.utf8ByteSize ≤ 24
  spelling : wellSpelled name.toList = true
  hyphens : doublesHyphen name.toList = false

theorem fault?_eq_none_iff : fault? name = none ↔ Passes name := by
  constructor
  · intro h
    unfold fault? at h
    split at h
    · cases h
    · next hsize =>
        split at h
        · cases h
        · next hspelling =>
            split at h
            · cases h
            · next hhyphens =>
                refine ⟨?_, by simpa using hspelling, by simpa using hhyphens⟩
                simp only [Bool.or_eq_true, decide_eq_true_eq] at hsize
                omega
  · intro h
    obtain ⟨hlow, hhigh⟩ := h.size
    have hsize : (decide (name.utf8ByteSize < 3) || decide (24 < name.utf8ByteSize)) = false := by
      simp only [Bool.or_eq_false_iff, decide_eq_false_iff_not]
      omega
    simp [fault?, hsize, h.spelling, h.hyphens]

theorem check_eq_ok_iff : check name = .ok () ↔ Passes name := by
  rw [← fault?_eq_none_iff]
  unfold check
  cases fault? name with
  | none => simp
  | some fault => simp

theorem url_eq_ok (h : Passes name) :
    Name.url name = .ok ("https://" ++ name ++ "." ++ domain ++ "/") := by
  rw [Name.url, check_eq_ok_iff.mpr h]
  rfl

/-! ## The label -/

theorem hyphen_of_toLower {c : Char} (hc : isLabelChar c = true) (h : c.toLower = '-') :
    c = '-' := by
  have htable := Url.of_isHostChar (fun c => c.toLower != '-' || c == '-') (by decide +kernel)
    (Url.isHostChar_of_isLabelChar hc)
  simpa [h] using htable

theorem doublesHyphen_cons {cs : List Char} (h : doublesHyphen cs = true) (c : Char) :
    doublesHyphen (c :: cs) = true := by
  unfold doublesHyphen
  split
  · rfl
  · next heq =>
      cases heq
      exact h
  · next heq => cases heq

/-- An encoded label has two hyphens after its first two characters. -/
theorem not_encoded_of_hyphens {cs : List Char} (hchars : ∀ c ∈ cs, isLabelChar c = true)
    (hhyphens : doublesHyphen cs = false) (tail : List Char) :
    cs.map Char.toLower ≠ 'x' :: 'n' :: '-' :: '-' :: tail := by
  intro hencoded
  obtain ⟨x, _, rfl, -, hencoded⟩ := List.map_eq_cons_iff.mp hencoded
  obtain ⟨n, _, rfl, -, hencoded⟩ := List.map_eq_cons_iff.mp hencoded
  obtain ⟨a, _, rfl, ha, hencoded⟩ := List.map_eq_cons_iff.mp hencoded
  obtain ⟨b, rest, rfl, hb, -⟩ := List.map_eq_cons_iff.mp hencoded
  obtain rfl := hyphen_of_toLower (hchars a (by simp)) ha
  obtain rfl := hyphen_of_toLower (hchars b (by simp)) hb
  have hdoubled : doublesHyphen (x :: n :: '-' :: '-' :: rest) = true :=
    doublesHyphen_cons (doublesHyphen_cons rfl n) x
  rw [hdoubled] at hhyphens
  cases hhyphens

theorem Passes.isLabel (h : Passes name) : IsLabel name.toList := by
  have hspelling := h.spelling
  have hhyphens := h.hyphens
  cases hname : name.toList with
  | nil =>
      rw [hname] at hspelling
      cases hspelling
  | cons c rest =>
      rw [hname] at hspelling hhyphens
      simp only [wellSpelled, Bool.and_eq_true] at hspelling
      obtain ⟨⟨hfirst, hinner⟩, -⟩ := hspelling
      have hchars : ∀ d ∈ c :: rest, isLabelChar d = true := by
        intro d hd
        rcases List.mem_cons.mp hd with rfl | hd
        · simp [isLabelChar, Char.isAlphanum, hfirst]
        · exact List.all_eq_true.mp hinner d hd
      exact ⟨List.cons_ne_nil _ _, hchars, not_encoded_of_hyphens hchars hhyphens⟩

/-! ## The address -/

/-- The labels of the host of a vault with this name. -/
def labels (name : String) : List (List Char) :=
  [name.toList, "vault".toList, "azure".toList, "net".toList]

theorem intercalate_labels (name : String) :
    String.ofList (['.'].intercalate (labels name)) = name ++ "." ++ domain := by
  apply String.toList_inj.mp
  simp [labels, domain, List.intercalate_cons_cons, List.intercalate_singleton]

theorem Passes.isLabel_labels (h : Passes name) : ∀ cs ∈ labels name, IsLabel cs := by
  have hfixed (cs : List Char) (hne : cs ≠ []) (hchars : cs.all isLabelChar = true)
      (hhyphens : doublesHyphen cs = false) : IsLabel cs := by
    have hlabel := List.all_eq_true.mp hchars
    exact ⟨hne, hlabel, not_encoded_of_hyphens hlabel hhyphens⟩
  intro cs hcs
  simp only [labels, List.mem_cons, List.not_mem_nil, or_false] at hcs
  rcases hcs with rfl | rfl | rfl | rfl
  · exact h.isLabel
  · exact hfixed _ (by decide) (by decide) (by decide)
  · exact hfixed _ (by decide) (by decide) (by decide)
  · exact hfixed _ (by decide) (by decide) (by decide)

/-- The URL of a vault with this name: its host and the root. -/
def vaultUrl (name : String) : Url :=
  ⟨"https", some { host := .domain (String.ofList (Url.domainOf (labels name))) }, .segments [""],
    none, none⟩

/-- A name that passes leads to a URL, which is the one of its host. -/
theorem address_of_passes (h : Passes name) :
    address ("https://" ++ name ++ "." ++ domain ++ "/") = .ok (vaultUrl name) := by
  have hend : Url.EndsInLetters (labels name) := ⟨'n', "et".toList, rfl, rfl⟩
  have hchars : ∀ c ∈ ['.'].intercalate (labels name), Url.isHostChar c = true := fun c hc =>
    Url.isHostChar_of_mem_intercalate (fun cs hcs => (h.isLabel_labels cs hcs).chars) hc
  have hfull : ['.'].intercalate (labels name) ≠ [] := by
    simp [labels, List.intercalate_cons_cons]
  have hurl := Url.ofText?_host hfull hchars (Url.Host.ofText?_labels h.isLabel_labels hend)
  rw [intercalate_labels, ← String.append_assoc, ← String.append_assoc] at hurl
  simp only [address, hurl]
  rfl

end Placeholder.Vault.Name
