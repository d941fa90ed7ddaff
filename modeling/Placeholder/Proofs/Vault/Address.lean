import Placeholder.Vault
import Placeholder.Proofs.Template.Grammar
import Placeholder.Proofs.Url.Percent

/-!
# Addresses of secrets

A secret stands under its vault in one segment after `secrets`. The segment holds the name of the
secret, unless the name is `Altered` on the way into a path: marks for directories are taken for
what they mark, and tabs and line breaks are left out. Of all other names no two have the same
address.
-/
namespace Placeholder

namespace Url.Path

/-! ## Marks for directories -/

section Dots

variable {c : Percent.Class}

theorem plainDots_cons {x : Char} (h : x ≠ '%') (rest : List Char) :
    plainDots (x :: rest) = x :: plainDots rest := by
  rw [plainDots]
  all_goals
    intro _ hx
    exact absurd hx h

/-- The digits of an encoded byte are those of a dot for the byte of a dot only. -/
theorem plainDots_byte {b : UInt8} (hb : b ≠ 46) (rest : List Char) :
    plainDots (Percent.byte b ++ rest) = Percent.byte b ++ plainDots rest := by
  have hlt := b.toNat_lt
  have hhigh := Percent.hexDigit_mem (n := b.toNat / 16) (by omega)
  have hlow := Percent.hexDigit_mem (n := b.toNat % 16) (by omega)
  have hdigit : Percent.hexDigit (b.toNat / 16) = '2' → Percent.hexDigit (b.toNat % 16) ≠ 'E' := by
    intro htwo hE
    have hhigh := Percent.hexDigit_inj (b.toNat / 16) (by omega) 2 (by omega) htwo
    have hlow := Percent.hexDigit_inj (b.toNat % 16) (by omega) 14 (by omega) hE
    exact hb (UInt8.toNat_inj.mp (show b.toNat = 46 by omega))
  have hne {x : Char} (hx : x ∈ Percent.digits) : x ≠ '%' ∧ x ≠ 'e' := by
    constructor
    all_goals
      rintro rfl
      exact absurd hx (by decide)
  simp only [Percent.byte, List.cons_append, List.nil_append]
  rw [plainDots, plainDots_cons (hne hhigh).1, plainDots_cons (hne hlow).1]
  · intro _ _ h
    exact (hne hlow).2 (List.cons.inj (List.cons.inj h).2).1
  · intro _ _ h
    exact hdigit (List.cons.inj h).1 (List.cons.inj (List.cons.inj h).2).1

theorem plainDots_encodeBytes (hc : Percent.Reversible c) (hdot : c 46 = false)
    (bs : List UInt8) :
    plainDots (Percent.encodeBytes c bs) = Percent.encodeBytes c bs := by
  induction bs with
  | nil => rfl
  | cons b bs ih =>
      have hcons : Percent.encodeBytes c (b :: bs) =
          Percent.encodeByte c b ++ Percent.encodeBytes c bs := List.flatMap_cons
      rw [hcons]
      unfold Percent.encodeByte
      split
      · next hmark =>
          have hb : b ≠ 46 := by
            rintro rfl
            cases hdot.symm.trans hmark
          rw [plainDots_byte hb, ih]
      · next hplain =>
          have hx : Char.ofNat b.toNat ≠ '%' := by
            intro hx
            have hlt := hc.ascii b (Bool.eq_false_iff.mpr hplain)
            have hb : b.toNat = 37 := (Percent.toNat_char hlt).symm.trans (congrArg Char.toNat hx)
            obtain rfl : b = 37 := UInt8.toNat_inj.mp hb
            exact hplain hc.percent
          rw [List.singleton_append, plainDots_cons hx, ih]

/-- What is encoded is a text of dots only if it was one before. -/
theorem eq_of_plainDots (hc : Percent.Reversible c) (hdot : c 46 = false) {s dots : String}
    (hd : Http.percentDecoded? dots = some dots)
    (h : plainDots (Percent.encode c s).toList = dots.toList) : s = dots := by
  rw [Percent.encode, String.toList_ofList, plainDots_encodeBytes hc hdot] at h
  have hs : Percent.encode c s = dots := by
    rw [Percent.encode, h, String.ofList_toList]
  have hdecoded := Percent.percentDecoded?_encode hc s
  rw [hs, hd] at hdecoded
  exact (Option.some.inj hdecoded).symm

theorem isDot_encode (hc : Percent.Reversible c) (hdot : c 46 = false) {s : String}
    (h : s ≠ ".") : isDot (Percent.encode c s) = false := by
  refine beq_eq_false_iff_ne.mpr fun hs => h (eq_of_plainDots hc hdot ?_ hs)
  decide +kernel

theorem isDoubleDot_encode (hc : Percent.Reversible c) (hdot : c 46 = false) {s : String}
    (h : s ≠ "..") : isDoubleDot (Percent.encode c s) = false := by
  refine beq_eq_false_iff_ne.mpr fun hs => h (eq_of_plainDots hc hdot ?_ hs)
  decide +kernel

end Dots

/-! ## Segments added to a path -/

/-- The directory to which segments are added: the path without its final slash. -/
def folder (segments : List String) : List String :=
  if dropFinalSlash segments = [""] then [] else dropFinalSlash segments

theorem segmentsText_append (ss ts : List String) :
    segmentsText (ss ++ ts) = segmentsText ss ++ segmentsText ts := by
  simp only [segmentsText, List.map_append, String.join_append]

theorem dropFinalSlash_concat (ss : List String) (s : String) :
    dropFinalSlash (ss ++ [s]) = if s = "" ∧ ss ≠ [] then ss else ss ++ [s] := by
  unfold dropFinalSlash
  by_cases hs : s = ""
  · subst hs
    cases ss <;> simp
  · simp only [List.reverse_append, List.reverse_singleton, List.singleton_append, hs, false_and,
      if_false]
    split
    · next h => exact absurd (List.cons.inj h).1 hs
    · rfl

/-- Of a path no more than one slash is left out, unless it is the path of two slashes. -/
theorem segmentsText_folder {ss : List String} (h : ss ≠ ["", ""]) :
    segmentsText ss = segmentsText (folder ss) ++ if ss.getLast? = some "" then "/" else "" := by
  have hempty : segmentsText [""] = "/" := by decide
  rcases List.eq_nil_or_concat ss with rfl | ⟨init, s, rfl⟩
  · rfl
  · rw [List.concat_eq_append] at h ⊢
    rw [folder, dropFinalSlash_concat, segmentsText_append, List.getLast?_concat]
    -- A path ends with a slash when its last segment is empty.
    by_cases hs : s = ""
    · subst hs
      by_cases hinit : init = []
      · subst hinit
        decide
      · have hroot : init ≠ [""] := by
          rintro rfl
          exact h rfl
        simp [hinit, hroot, hempty]
    · have hroot : init ++ [s] ≠ [""] := by
        intro hone
        exact hs (by simpa using congrArg List.getLast? hone)
      simp [hs, hroot, segmentsText_append]

/-! ## One segment -/

/-- The bytes that are encoded in a segment which is added to a URL. -/
def added (form : Form) : Percent.Class :=
  if form = .other then Percent.segment else Percent.specialSegment

theorem added_reversible (form : Form) : Percent.Reversible (added form) := by
  unfold added
  split
  · exact Percent.segment_reversible
  · exact Percent.specialSegment_reversible

theorem added_dot (form : Form) : added form 46 = false := by
  cases form <;> decide +kernel

theorem added_mark {form : Form} {x : Char} (h : isSlash form x = true ∨ endsPath x = true) :
    x ∉ '%' :: Percent.digits ∧ added form (UInt8.ofNat x.toNat) = true := by
  simp only [isSlash, endsPath, Bool.or_eq_true, Bool.and_eq_true, beq_iff_eq] at h
  rcases h with (rfl | ⟨hform, rfl⟩) | rfl | rfl
  · cases form <;> decide +kernel
  · cases form with
    | other => cases hform
    | web => decide +kernel
    | file => decide +kernel
  · cases form <;> decide +kernel
  · cases form <;> decide +kernel

/-- A name that a segment can hold as it is: it marks no directory, and all of it is written. -/
structure Plain (name : String) : Prop where
  not_dot : name ≠ "."
  not_doubleDot : name ≠ ".."
  written : ∀ x ∈ name.toList, isWritten x = true

instance (name : String) : Decidable (Plain name) :=
  decidable_of_iff (name ≠ "." ∧ name ≠ ".." ∧ name.toList.all isWritten = true)
    ⟨fun ⟨hdot, hdoubleDot, h⟩ => ⟨hdot, hdoubleDot, List.all_eq_true.mp h⟩,
      fun ⟨hdot, hdoubleDot, h⟩ => ⟨hdot, hdoubleDot, List.all_eq_true.mpr h⟩⟩

/-- The segment is not empty and stands for this name; nothing in it ends a segment or a path, and
it marks no directory. -/
structure StandsFor (form : Form) (segment name : String) : Prop where
  ne_empty : segment ≠ ""
  decoded : Http.percentDecoded? segment = some name
  closed : ∀ x ∈ segment.toList, isSlash form x = false ∧ endsPath x = false
  not_dot : isDot segment = false
  not_doubleDot : isDoubleDot segment = false

theorem standsFor_encode {form : Form} {name : String} (hempty : name ≠ "")
    (hdot : name ≠ ".") (hdoubleDot : name ≠ "..") :
    StandsFor form (Percent.encode (added form) name) name where
  ne_empty := by
    intro h
    have hdecoded := Percent.percentDecoded?_encode (added_reversible form) name
    have hnone : Http.percentDecoded? "" = some "" := by decide +kernel
    rw [h, hnone] at hdecoded
    exact hempty (Option.some.inj hdecoded).symm
  decoded := Percent.percentDecoded?_encode (added_reversible form) name
  closed x hx := by
    have hmark : ¬ (isSlash form x = true ∨ endsPath x = true) := by
      intro h
      obtain ⟨hplain, hadded⟩ := added_mark h
      exact Percent.not_mem_encode (added_reversible form) hplain hadded name hx
    simpa using hmark
  not_dot := isDot_encode (added_reversible form) (added_dot form) hdot
  not_doubleDot := isDoubleDot_encode (added_reversible form) (added_dot form) hdoubleDot

theorem filter_isWritten {name : String} (h : ∀ x ∈ name.toList, isWritten x = true) :
    String.ofList (name.toList.filter isWritten) = name := by
  rw [List.filter_eq_self.mpr h, String.ofList_toList]

theorem push_secrets (form : Form) (ss : List String) :
    push (added form) (dropFinalSlash ss) "secrets" = folder ss ++ ["secrets"] := by
  have henter (directory : List String) : enter directory true
      (Percent.encodeChars (added form) ("secrets".toList.filter isWritten)) =
        directory ++ ["secrets"] := by
    have hs : Percent.encodeChars (added form) ("secrets".toList.filter isWritten) = "secrets" := by
      cases form <;> decide +kernel
    have hdots : isDoubleDot "secrets" = false ∧ isDot "secrets" = false := by decide +kernel
    rw [hs, enter, hdots.1, hdots.2]
    rfl
  rw [push, if_neg (by decide), henter]
  rfl

/-- The path that a name is added to, with what becomes of the name. -/
theorem push_name {form : Form} {ss : List String} {name : String} (hdot : name ≠ ".")
    (hdoubleDot : name ≠ "..") :
    push (added form) (ss ++ ["secrets"]) name = enter (ss ++ ["secrets"]) true
      (Percent.encode (added form) (String.ofList (name.toList.filter isWritten))) := by
  have hroot : ss ++ ["secrets"] ≠ [""] := by
    intro h
    exact absurd (congrArg List.getLast? h) (by simp)
  rw [push, if_neg (by simp [hdot, hdoubleDot]), if_neg hroot]
  rfl

theorem push_plain {form : Form} {ss : List String} {name : String} (h : Plain name) :
    push (added form) (ss ++ ["secrets"]) name =
      ss ++ ["secrets", Percent.encode (added form) name] := by
  rw [push_name h.not_dot h.not_doubleDot, filter_isWritten h.written, enter,
    isDoubleDot_encode (added_reversible form) (added_dot form) h.not_doubleDot,
    isDot_encode (added_reversible form) (added_dot form) h.not_dot]
  simp

/-- Only a plain name comes to stand in a segment of its own. -/
theorem plain_of_push {form : Form} {ss : List String} {name segment : String}
    (h : push (added form) (ss ++ ["secrets"]) name = ss ++ ["secrets", segment])
    (hs : StandsFor form segment name) : Plain name := by
  have hsplit : ss ++ ["secrets", segment] = ss ++ ["secrets"] ++ [segment] := by
    rw [List.append_assoc]
    rfl
  rw [hsplit] at h
  by_cases hdots : name = "." ∨ name = ".."
  · rw [push, if_pos (by simpa using hdots)] at h
    exact absurd (congrArg List.length h) (by simp)
  · obtain ⟨hdot, hdoubleDot⟩ := not_or.mp hdots
    rw [push_name hdot hdoubleDot, enter] at h
    split at h
    · exact absurd (congrArg List.length h) (by simp)
    · split at h
      · exact absurd (List.cons.inj (List.append_cancel_left h)).1.symm hs.ne_empty
      · have hdecoded := hs.decoded
        rw [← (List.cons.inj (List.append_cancel_left h)).1,
          Percent.percentDecoded?_encode (added_reversible form)] at hdecoded
        have hkept := congrArg String.toList (Option.some.inj hdecoded)
        rw [String.toList_ofList] at hkept
        exact ⟨hdot, hdoubleDot, List.filter_eq_self.mp hkept⟩

end Url.Path

instance (cs : List Char) : Decidable (IsName cs) :=
  decidable_of_iff (cs ≠ [] ∧ cs.all (fun c => decide (c ≠ ':' ∧ c ≠ '!' ∧ c ≠ '}')) = true)
    ⟨fun ⟨hne, h⟩ => ⟨hne, fun c hc => of_decide_eq_true (List.all_eq_true.mp h c hc)⟩,
      fun ⟨hne, h⟩ => ⟨hne, List.all_eq_true.mpr fun c hc => decide_eq_true (h c hc)⟩⟩

/-! ## Addresses -/

namespace Url

theorem path_addSegments {u : Url} {ss : List String} (hu : u.path = .segments ss)
    (name : String) : (u.addSegments ["secrets", name]).path =
      .segments (Path.push (Path.added u.form) (Path.folder ss ++ ["secrets"]) name) := by
  simp only [addSegments, hu, List.foldl_cons, List.foldl_nil]
  rw [← Path.push_secrets u.form ss]
  rfl

theorem addSegments_eq (u : Url) (names : List String) :
    u.addSegments names = { u with path := (u.addSegments names).path } := by
  obtain ⟨scheme, authority, path, query, fragment⟩ := u
  cases path <;> rfl

end Url

namespace Vault

/-- The query of the vault with the version of its interface at the end. -/
def versioned (query : Option String) : String :=
  if query.getD "" = "" then "api-version=7.4" else query.getD "" ++ "&" ++ "api-version=7.4"

theorem secretUrl_eq (u : Url) (name : String) :
    secretUrl u name =
      { u with path := (u.addSegments ["secrets", name]).path, query := versioned u.query } := by
  have hform : Percent.form [("api-version", apiVersion)] = "api-version=7.4" := by decide +kernel
  rw [secretUrl, Url.addSegments_eq, Url.addQuery, hform, versioned]
  simp only [String.isEmpty_iff]

theorem request?_eq {u : Url} {name bearer : String} {q : Http.Request}
    (h : request? u name bearer = some q) :
    q.url.path = (secretUrl u name).path ∧ q.url.query = (secretUrl u name).query ∧
      q.url.scheme = u.scheme ∧ q.url.host? = u.host? ∧ q.url.port? = u.port? := by
  rw [request?, Http.Request.of?] at h
  split at h
  · cases h
    rw [secretUrl_eq]
    refine ⟨rfl, rfl, rfl, ?_, ?_⟩
    · cases hu : u.authority <;> simp [Url.host?, hu]
    · cases hu : u.authority <;> simp [Url.port?, hu]
  · cases h

theorem target_secretUrl {u : Url} {ss : List String} (hu : u.path = .segments ss) {name : String}
    (h : Url.Path.Plain name) : (secretUrl u name).target =
      Url.Path.segmentsText (Url.Path.folder ss) ++ "/secrets/" ++
        Percent.encode (Url.Path.added u.form) name ++ "?" ++ versioned u.query := by
  have htext (segment : String) :
      Url.Path.segmentsText ["secrets", segment] = "/secrets/" ++ segment := by
    simp [Url.Path.segmentsText, ← String.append_assoc]
  rw [secretUrl_eq, Url.path_addSegments hu, Url.Path.push_plain h]
  simp only [Url.target, Url.Path.text, Url.queryText, Url.Path.segmentsText_append, htext,
    Option.map_some, Option.getD_some, String.append_assoc]

/-- Names that are plain have different addresses, unless they are the same. -/
theorem target_inj {u : Url} {ss : List String} (hu : u.path = .segments ss) {a b : String}
    (ha : Url.Path.Plain a) (hb : Url.Path.Plain b)
    (h : (secretUrl u a).target = (secretUrl u b).target) : a = b := by
  rw [target_secretUrl hu ha, target_secretUrl hu hb] at h
  have hlists := congrArg String.toList h
  simp only [String.toList_append, List.append_cancel_right_eq, List.append_cancel_left_eq] at hlists
  exact (Percent.encode_inj (Url.Path.added_reversible u.form)).mp (String.toList_inj.mp hlists)

/-! ## Names of tokens -/

theorem not_isName_of_address {text : String} {u : Url} (h : address text = .ok u) :
    u.isName = false := by
  unfold address at h
  split at h
  · cases h
  · split at h
    · cases h
    · next hname =>
        cases h
        exact Bool.eq_false_iff.mpr hname

/-- A secret is requested in the folder of the vault, in the one segment after `secrets` that stands
for its name, when the name is plain, and nowhere of the kind when it is not. Plain names that
differ are requested at addresses that differ. -/
theorem secret_address {u : Url} (hu : u.isName = false) :
    ∃ ss, u.path = .segments ss ∧
      (ss ≠ ["", ""] → u.path.text = Url.Path.segmentsText (Url.Path.folder ss) ++
        if ss.getLast? = some "" then "/" else "") ∧
      (∀ name, IsName name.toList →
        ((∃ segment, Url.Path.StandsFor u.form segment name ∧
          (secretUrl u name).path = .segments (Url.Path.folder ss ++ ["secrets", segment])) ↔
            Url.Path.Plain name)) ∧
      (∀ name, (secretUrl u name).query = some (versioned u.query)) ∧
      (∀ name bearer q, request? u name bearer = some q →
        q.url.path = (secretUrl u name).path ∧ q.url.query = (secretUrl u name).query ∧
          q.url.scheme = u.scheme ∧ q.url.host? = u.host? ∧ q.url.port? = u.port?) ∧
      (∀ a b, Url.Path.Plain a → Url.Path.Plain b →
        (secretUrl u a).target = (secretUrl u b).target → a = b) := by
  obtain ⟨ss, hss⟩ : ∃ ss, u.path = .segments ss := by
    unfold Url.isName at hu
    split at hu
    · cases hu
    · exact ⟨_, ‹_›⟩
  refine ⟨ss, hss, ?_, ?_, ?_, fun _ _ _ => request?_eq, fun _ _ => target_inj hss⟩
  · intro h
    rw [hss]
    exact Url.Path.segmentsText_folder h
  · intro name hname
    rw [secretUrl_eq, Url.path_addSegments hss]
    constructor
    · rintro ⟨segment, hstands, hpath⟩
      exact Url.Path.plain_of_push (Url.Path.segments.inj hpath) hstands
    · intro hplain
      have hempty : name ≠ "" := by
        rintro rfl
        exact hname.ne_nil rfl
      exact ⟨_, Url.Path.standsFor_encode hempty hplain.not_dot hplain.not_doubleDot,
        congrArg Url.Path.segments (Url.Path.push_plain hplain)⟩
  · intro name
    rw [secretUrl_eq]

/-- A vault at the root of its host. -/
def rootUrl : Url :=
  ⟨"https", some { host := .domain "kv1.vault.azure.net" }, .segments [""], none, none⟩

theorem address_root : address "https://kv1.vault.azure.net" = .ok rootUrl := by
  have h : (address "https://kv1.vault.azure.net").toOption = some rootUrl := by decide +kernel
  cases hu : address "https://kv1.vault.azure.net" with
  | error e =>
      rw [hu] at h
      cases h
  | ok u =>
      rw [hu] at h
      rw [Option.some.inj h]

/-- A name with a slash, a blank and dots stays within its segment. -/
theorem secret_address_plain :
    Url.Path.Plain "../a b" ∧ ∃ segment, Url.Path.StandsFor rootUrl.form segment "../a b" ∧
      (secretUrl rootUrl "../a b").path = .segments ["secrets", segment] := by
  have hname : IsName "../a b".toList := by decide
  have hplain : Url.Path.Plain "../a b" := by decide
  obtain ⟨ss, hss, _, hnames, _⟩ := secret_address (not_isName_of_address address_root)
  obtain ⟨segment, hstands, hpath⟩ := (hnames "../a b" hname).mpr hplain
  obtain rfl : [""] = ss := Url.Path.segments.inj hss
  exact ⟨hplain, segment, hstands, hpath⟩

/-- A name with a tab is requested under the address of another name, a name of dots at no address
of its own, and both together leave the directory of secrets. -/
theorem secretUrl_altered :
    (IsName "A\tB".toList ∧ IsName "AB".toList ∧ secretUrl rootUrl "A\tB" = secretUrl rootUrl "AB") ∧
      (IsName ".".toList ∧ (secretUrl rootUrl ".").path = .segments ["secrets"]) ∧
      (IsName ".\t.".toList ∧ (secretUrl rootUrl ".\t.").path = .segments [""]) := by
  decide +kernel

end Vault
end Placeholder
