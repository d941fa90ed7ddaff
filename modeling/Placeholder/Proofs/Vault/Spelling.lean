import Placeholder.Proofs.Text.Cut
import Placeholder.Proofs.Vault.Name

/-!
# The names that a vault may have

The check of a name is made of three tests, one on bytes, one on characters and one on neighbours.
`Vault.Name.check_accepts` says that together they accept the names that are `Admissible` and no
others, and that an address made of such a name is that of its host.
-/
namespace Placeholder.Vault.Name

variable {name : String} {c : Char} {cs : List Char}

/-! ## Characters -/

/-- A letter of ASCII. -/
def IsLetter (c : Char) : Prop := ('A' ≤ c ∧ c ≤ 'Z') ∨ ('a' ≤ c ∧ c ≤ 'z')

/-- A digit of ASCII. -/
def IsDigit (c : Char) : Prop := '0' ≤ c ∧ c ≤ '9'

theorem isAlpha_iff : c.isAlpha = true ↔ IsLetter c := by
  have hupper : c.isUpper = true ↔ 'A' ≤ c ∧ c ≤ 'Z' := decide_eq_true_iff
  have hlower : c.isLower = true ↔ 'a' ≤ c ∧ c ≤ 'z' :=
    (Bool.and_eq_true_iff).trans (and_congr decide_eq_true_iff decide_eq_true_iff)
  rw [IsLetter, ← hupper, ← hlower]
  exact Bool.or_eq_true_iff

theorem isAlphanum_iff : c.isAlphanum = true ↔ IsLetter c ∨ IsDigit c := by
  have hdigit : c.isDigit = true ↔ IsDigit c :=
    (Bool.and_eq_true_iff).trans (and_congr decide_eq_true_iff decide_eq_true_iff)
  rw [← isAlpha_iff, ← hdigit]
  exact Bool.or_eq_true_iff

theorem isInner_iff : isInner c = true ↔ (IsLetter c ∨ IsDigit c) ∨ c = '-' := by
  rw [isInner, Bool.or_eq_true_iff, isAlphanum_iff, beq_iff_eq]

theorem doublesHyphen_iff : doublesHyphen cs = true ↔ ['-', '-'] <:+: cs := by
  induction cs with
  | nil => simp [doublesHyphen]
  | cons c rest ih =>
      rw [List.infix_cons_iff, ← ih]
      cases rest with
      | nil => simp [doublesHyphen]
      | cons d rest =>
          by_cases h : c = '-' ∧ d = '-'
          · obtain ⟨rfl, rfl⟩ := h
            simp [doublesHyphen]
          · have hhead : ¬ ['-', '-'] <+: c :: d :: rest := by
              simpa [List.cons_prefix_cons, eq_comm] using h
            have htail : doublesHyphen (c :: d :: rest) = doublesHyphen (d :: rest) := by
              rw [doublesHyphen]
              rintro rest' rfl heq
              cases heq
              exact h ⟨rfl, rfl⟩
            rw [htail]
            exact (or_iff_right hhead).symm

/-! ## Names -/

/-- What a vault may be named. -/
structure Admissible (name : String) : Prop where
  length : 3 ≤ name.length ∧ name.length ≤ 24
  chars : ∀ c ∈ name.toList, (IsLetter c ∨ IsDigit c) ∨ c = '-'
  first : ∃ c rest, name.toList = c :: rest ∧ IsLetter c
  last : ∃ before c, name.toList = before ++ [c] ∧ (IsLetter c ∨ IsDigit c)
  hyphens : ¬ ['-', '-'] <:+: name.toList

theorem wellSpelled_iff : wellSpelled cs = true ↔
    (∀ c ∈ cs, (IsLetter c ∨ IsDigit c) ∨ c = '-') ∧ (∃ c rest, cs = c :: rest ∧ IsLetter c) ∧
      ∃ before c, cs = before ++ [c] ∧ (IsLetter c ∨ IsDigit c) := by
  cases cs with
  | nil => simp [wellSpelled]
  | cons c rest =>
      have hinner : rest.all isInner = true ↔ ∀ d ∈ rest, (IsLetter d ∨ IsDigit d) ∨ d = '-' := by
        rw [List.all_eq_true]
        exact forall₂_congr fun d _ => isInner_iff
      have hlast : (c :: rest).getLast?.any Char.isAlphanum = true ↔
          ∃ before d, c :: rest = before ++ [d] ∧ (IsLetter d ∨ IsDigit d) := by
        simp only [Option.any_eq_true, List.getLast?_eq_some_iff, isAlphanum_iff]
        constructor
        · rintro ⟨d, ⟨before, heq⟩, hd⟩
          exact ⟨before, d, heq, hd⟩
        · rintro ⟨before, d, heq, hd⟩
          exact ⟨d, ⟨before, heq⟩, hd⟩
      rw [wellSpelled, Bool.and_eq_true, Bool.and_eq_true, isAlpha_iff, hinner, hlast, and_assoc]
      constructor
      · rintro ⟨hfirst, hrest, hend⟩
        refine ⟨?_, ⟨c, rest, rfl, hfirst⟩, hend⟩
        intro d hd
        rcases List.mem_cons.mp hd with rfl | hd
        · exact .inl (.inl hfirst)
        · exact hrest d hd
      · rintro ⟨hall, ⟨_, _, heq, hfirst⟩, hend⟩
        cases heq
        exact ⟨hfirst, fun d hd => hall d (List.mem_cons_of_mem c hd), hend⟩

theorem lt_of_isInner (h : isInner c = true) : c.toNat < 128 :=
  Url.lt_of_isHostChar (Url.isHostChar_of_isLabelChar h)

/-- A text of characters of ASCII has as many bytes as characters. -/
theorem utf8Size_eq_length (h : ∀ c ∈ cs, c.toNat < 128) : Text.utf8Size cs = cs.length := by
  induction cs with
  | nil => rfl
  | cons c rest ih =>
      have hc : c.utf8Size = 1 := by
        apply Char.utf8Size_eq_one_iff.mpr
        apply UInt32.le_iff_toNat_le.mpr
        exact Nat.le_of_lt_succ (h c List.mem_cons_self)
      have hrest := ih fun d hd => h d (List.mem_cons_of_mem c hd)
      change c.utf8Size + Text.utf8Size rest = rest.length + 1
      omega

theorem size_of_chars (h : ∀ c ∈ name.toList, (IsLetter c ∨ IsDigit c) ∨ c = '-') :
    name.utf8ByteSize = name.length := by
  rw [← Text.utf8Size_toList, ← String.length_toList]
  exact utf8Size_eq_length fun c hc => lt_of_isInner (isInner_iff.mpr (h c hc))

theorem passes_iff_admissible : Passes name ↔ Admissible name := by
  constructor
  · intro h
    obtain ⟨hchars, hfirst, hlast⟩ := wellSpelled_iff.mp h.spelling
    refine ⟨?_, hchars, hfirst, hlast, ?_⟩
    · rw [← size_of_chars hchars]
      exact h.size
    · rw [← doublesHyphen_iff, h.hyphens]
      exact Bool.false_ne_true
  · intro h
    refine ⟨?_, wellSpelled_iff.mpr ⟨h.chars, h.first, h.last⟩, ?_⟩
    · rw [size_of_chars h.chars]
      exact h.length
    · apply Bool.eq_false_iff.mpr
      rw [ne_eq, doublesHyphen_iff]
      exact h.hyphens

/-- No character of an admissible name is one that a URL or a domain gives a meaning to. -/
theorem Admissible.plain (h : Admissible name) :
    ∀ c ∈ name.toList, c.toNat < 128 ∧ c ∉ ['\n', '\r', '.', '/', '@', ':'] := by
  intro c hc
  have hinner := isInner_iff.mpr (h.chars c hc)
  refine ⟨lt_of_isInner hinner, ?_⟩
  intro hmem
  simp only [List.mem_cons, List.not_mem_nil, or_false] at hmem
  rcases hmem with rfl | rfl | rfl | rfl | rfl | rfl <;> cases hinner

/-! ## Addresses -/

theorem url_eq_ok_iff {text : String} : Name.url name = .ok text ↔
    Admissible name ∧ text = "https://" ++ name ++ "." ++ domain ++ "/" := by
  rw [← passes_iff_admissible]
  by_cases h : Passes name
  · rw [url_eq_ok h, Except.ok.injEq, eq_comm]
    exact (and_iff_right h).symm
  · have hcheck : ∃ e, check name = .error e := by
      cases hx : check name with
      | error e => exact ⟨e, rfl⟩
      | ok u => exact absurd (check_eq_ok_iff.mp hx) h
    obtain ⟨e, he⟩ := hcheck
    rw [Name.url, he]
    simp [Except.map, h]

/-- The host of a vault as a URL holds it, in small letters. -/
def smallHost (name : String) : String :=
  String.ofList (name.toList.map Char.toLower) ++ "." ++ domain

theorem toList_smallHost (name : String) :
    (smallHost name).toList = Url.domainOf (labels name) := by
  have hsmall : domain.toList.map Char.toLower = domain.toList := by decide
  have hwritten : ['.'].intercalate (labels name) = (name ++ "." ++ domain).toList := by
    rw [← intercalate_labels, String.toList_ofList]
  rw [Url.domainOf, ← Url.map_toLower_intercalate, hwritten]
  simp [smallHost, hsmall]

theorem ofText?_of_passes (h : Passes name) :
    Url.ofText? ("https://" ++ name ++ "." ++ domain ++ "/") = some (vaultUrl name) := by
  have haddress := address_of_passes h
  unfold address at haddress
  split at haddress
  · cases haddress
  · next url hurl =>
      split at haddress
      · cases haddress
      · cases haddress
        exact hurl

theorem pieces_smallHost (h : Passes name) : Text.pieces (· == '.') (smallHost name).toList =
    [name.toList.map Char.toLower, "vault".toList, "azure".toList, "net".toList] := by
  have hne : labels name ≠ [] := List.cons_ne_nil _ _
  rw [toList_smallHost, Url.pieces_domainOf hne h.isLabel_labels]
  rfl

/-- The check accepts the admissible names, in which no character is beyond ASCII or means anything
to a URL. There is an address for these names and no others, with one error for the rest. It holds
the name as it is written, and its host, which a URL keeps in small letters, is the name as one
label and the domain of all vaults, without user, port or path. -/
theorem check_accepts (name : String) :
    (check name = .ok () ↔ Admissible name) ∧
      (Admissible name →
        ∀ c ∈ name.toList, c.toNat < 128 ∧ c ∉ ['\n', '\r', '.', '/', '@', ':']) ∧
      ((∃ text, Name.url name = .ok text) ↔ check name = .ok ()) ∧
      (∀ e, Name.url name = .error e ↔ check name = .error e) ∧
      (∀ text, Name.url name = .ok text →
        text = "https://" ++ name ++ "." ++ domain ++ "/" ∧
          Url.ofText? text = some
            ⟨"https", some ⟨"", "", .domain (smallHost name), none⟩, .segments [""], none, none⟩ ∧
          Text.pieces (· == '.') (smallHost name).toList =
            [name.toList.map Char.toLower, "vault".toList, "azure".toList, "net".toList]) ∧
      ∀ other text, Name.url name = .ok text → Name.url other = .ok text → name = other := by
  refine ⟨check_eq_ok_iff.trans passes_iff_admissible, Admissible.plain, ?_, ?_, ?_, ?_⟩
  · rw [check_eq_ok_iff, passes_iff_admissible]
    constructor
    · rintro ⟨text, htext⟩
      exact (url_eq_ok_iff.mp htext).1
    · intro h
      exact ⟨_, url_eq_ok_iff.mpr ⟨h, rfl⟩⟩
  · intro e
    rw [Name.url]
    cases check name <;> simp [Except.map]
  · intro text htext
    obtain ⟨h, rfl⟩ := url_eq_ok_iff.mp htext
    have hpasses := passes_iff_admissible.mpr h
    refine ⟨rfl, ?_, pieces_smallHost hpasses⟩
    rw [ofText?_of_passes hpasses, vaultUrl, ← toList_smallHost, String.ofList_toList]
  · intro other text htext hother
    have heq := (url_eq_ok_iff.mp htext).2.symm.trans (url_eq_ok_iff.mp hother).2
    apply String.toList_inj.mp
    simpa using congrArg String.toList heq

end Placeholder.Vault.Name
