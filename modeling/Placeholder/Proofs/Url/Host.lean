import Placeholder.Proofs.Text.Lines
import Placeholder.Proofs.Url.Percent
import Placeholder.Url

/-!
# URLs of plain hosts

A host whose labels are made of letters, digits and hyphens is read off a URL label by label, as it
is written but for capitals: `Domain.ofText?_labels` for the host, `ofText?_host` for the URL.
-/
namespace Placeholder

namespace Text

theorem takeWhile_stop {p : Char → Bool} {cs : List Char} (h : ∀ c ∈ cs, p c = true) {x : Char}
    (hx : p x = false) (rest : List Char) : (cs ++ x :: rest).takeWhile p = cs := by
  rw [List.takeWhile_append_of_pos h, List.takeWhile_cons_of_neg (by simp [hx]), List.append_nil]

theorem dropWhile_stop {p : Char → Bool} {cs : List Char} (h : ∀ c ∈ cs, p c = true) {x : Char}
    (hx : p x = false) (rest : List Char) : (cs ++ x :: rest).dropWhile p = x :: rest := by
  rw [List.dropWhile_append_of_pos h, List.dropWhile_cons_of_neg (by simp [hx])]

end Text

namespace Url

/-! ## Characters -/

def isLabelChar (c : Char) : Bool := c.isAlphanum || c == '-'

def isHostChar (c : Char) : Bool := isLabelChar c || c == '.'

theorem lt_of_isAlphanum {c : Char} (h : c.isAlphanum = true) : c.toNat < 128 := by
  have hbelow (high : Char) (hhigh : high.toNat < 128) (hc : c.val ≤ high.val) : c.toNat < 128 :=
    Nat.lt_of_le_of_lt (UInt32.le_iff_toNat_le.mp hc) hhigh
  rcases Bool.or_eq_true_iff.mp h with hletter | hdigit
  · rcases Bool.or_eq_true_iff.mp hletter with hupper | hlower
    · exact hbelow 'Z' (by decide) (of_decide_eq_true hupper).2
    · exact hbelow 'z' (by decide) (of_decide_eq_true ((Bool.and_eq_true _ _).mp hlower).2)
  · exact Nat.lt_of_le_of_lt (Char.isDigit_iff_toNat.mp hdigit).2 (by decide)

theorem lt_of_isHostChar {c : Char} (h : isHostChar c = true) : c.toNat < 128 := by
  simp only [isHostChar, isLabelChar, Bool.or_eq_true, beq_iff_eq] at h
  rcases h with (h | rfl) | rfl
  · exact lt_of_isAlphanum h
  · decide
  · decide

/-- What a look at the table of ASCII shows for every character of hosts. -/
theorem of_isHostChar (P : Char → Bool)
    (h : ∀ n < 128, isHostChar (Char.ofNat n) = true → P (Char.ofNat n) = true) {c : Char}
    (hc : isHostChar c = true) : P c = true := by
  have hofNat := h c.toNat (lt_of_isHostChar hc)
  rw [Char.ofNat_toNat] at hofNat
  exact hofNat hc

variable {c : Char}

theorem isHostChar_of_isLabelChar (h : isLabelChar c = true) : isHostChar c = true := by
  rw [isHostChar, h, Bool.true_or]

theorem isHostChar_of_isAlpha (h : c.isAlpha = true) : isHostChar c = true := by
  simp [isHostChar, isLabelChar, Char.isAlphanum, h]

/-- A character of hosts is no blank and no mark of a URL. -/
def isUnmarked (c : Char) : Bool :=
  decide (0x20 < c.toNat) && Path.isWritten c && !endsAuthority .web c && c != '@' && c != ':' &&
    c != '['

theorem isUnmarked_of_isHostChar (h : isHostChar c = true) : isUnmarked c = true :=
  of_isHostChar isUnmarked (by decide +kernel) h

theorem lower?_of_isHostChar (h : isHostChar c = true) : Domain.lower? c = some [c.toLower] := by
  have htable := of_isHostChar (fun c => Domain.lower? c == some [c.toLower]) (by decide +kernel) h
  exact beq_iff_eq.mp htable

theorem isLabelChar_toLower (h : isLabelChar c = true) : isLabelChar c.toLower = true := by
  have htable := of_isHostChar (fun c => !isLabelChar c || isLabelChar c.toLower)
    (by decide +kernel) (isHostChar_of_isLabelChar h)
  simpa [h] using htable

theorem not_isForbidden_of_isHostChar (h : isHostChar c = true) :
    Domain.isForbidden c = false := by
  have htable := of_isHostChar (fun c => !Domain.isForbidden c) (by decide +kernel) h
  simpa using htable

theorem ne_dot_of_isLabelChar (h : isLabelChar c = true) : (c == '.') = false := by
  apply beq_eq_false_iff_ne.mpr
  rintro rfl
  cases h

/-! ## Domains -/

/-- A label that a domain holds as it is, but for capitals: it does not pass for an encoded one. -/
structure IsLabel (cs : List Char) : Prop where
  nonempty : cs ≠ []
  chars : ∀ c ∈ cs, isLabelChar c = true
  not_encoded : ∀ rest, cs.map Char.toLower ≠ 'x' :: 'n' :: '-' :: '-' :: rest

theorem IsLabel.chars_lower {cs : List Char} (h : IsLabel cs) :
    ∀ c ∈ cs.map Char.toLower, isLabelChar c = true := by
  intro c hc
  obtain ⟨d, hd, rfl⟩ := List.mem_map.mp hc
  exact isLabelChar_toLower (h.chars d hd)

theorem IsLabel.label?_lower {cs : List Char} (h : IsLabel cs) :
    Domain.label? (cs.map Char.toLower) = some (cs.map Char.toLower) := by
  have hascii : (cs.map Char.toLower).all (fun c => c.toNat < 128) = true := by
    apply List.all_eq_true.mpr
    intro c hc
    exact decide_eq_true (lt_of_isHostChar (isHostChar_of_isLabelChar (h.chars_lower c hc)))
  unfold Domain.label?
  rw [if_pos hascii]
  split
  · next rest heq => exact absurd heq (h.not_encoded rest)
  · rfl

theorem isHostChar_of_mem_intercalate {labels : List (List Char)}
    (h : ∀ cs ∈ labels, ∀ c ∈ cs, isLabelChar c = true) {c : Char}
    (hc : c ∈ ['.'].intercalate labels) : isHostChar c = true := by
  induction labels with
  | nil => cases hc
  | cons cs rest ih =>
      have hlabel (hmem : c ∈ cs) : isHostChar c = true :=
        isHostChar_of_isLabelChar (h cs List.mem_cons_self c hmem)
      cases rest with
      | nil =>
          rw [List.intercalate_singleton] at hc
          exact hlabel hc
      | cons next rest =>
          rw [List.intercalate_cons_cons, List.append_assoc] at hc
          rcases List.mem_append.mp hc with hmem | hmem
          · exact hlabel hmem
          · rcases List.mem_cons.mp hmem with rfl | hmem
            · rfl
            · exact ih (fun r hr => h r (List.mem_cons_of_mem cs hr)) hmem

theorem mapM_of_some {α β : Type} {f : α → Option β} {g : α → β} {xs : List α}
    (h : ∀ x ∈ xs, f x = some (g x)) : xs.mapM f = some (xs.map g) := by
  induction xs with
  | nil => rfl
  | cons x xs ih =>
      have hrest := ih fun y hy => h y (List.mem_cons_of_mem x hy)
      simp [List.mapM_cons, h x List.mem_cons_self, hrest]

theorem map_toLower_intercalate (labels : List (List Char)) :
    (['.'].intercalate labels).map Char.toLower =
      ['.'].intercalate (labels.map (List.map Char.toLower)) := by
  induction labels with
  | nil => rfl
  | cons cs rest ih =>
      cases rest with
      | nil => simp only [List.map_cons, List.map_nil, List.intercalate_singleton]
      | cons next rest =>
          simp only [List.map_cons, List.intercalate_cons_cons, List.map_append] at ih ⊢
          rw [ih]
          rfl

/-- The domain that labels make, in small letters. -/
def domainOf (labels : List (List Char)) : List Char :=
  ['.'].intercalate (labels.map (List.map Char.toLower))

theorem domainOf_ne_nil {labels : List (List Char)} (hne : labels ≠ [])
    (h : ∀ cs ∈ labels, IsLabel cs) : domainOf labels ≠ [] := by
  cases labels with
  | nil => exact absurd rfl hne
  | cons cs rest =>
      have hcs := (h cs List.mem_cons_self).nonempty
      rw [domainOf, ← map_toLower_intercalate]
      intro hnil
      cases rest with
      | nil =>
          rw [List.intercalate_singleton] at hnil
          exact hcs (List.map_eq_nil_iff.mp hnil)
      | cons next rest =>
          rw [List.intercalate_cons_cons, List.append_assoc] at hnil
          exact hcs (List.append_eq_nil_iff.mp (List.map_eq_nil_iff.mp hnil)).1

theorem isHostChar_of_mem_domainOf {labels : List (List Char)} (h : ∀ cs ∈ labels, IsLabel cs)
    {c : Char} (hc : c ∈ domainOf labels) : isHostChar c = true := by
  apply isHostChar_of_mem_intercalate _ hc
  intro cs hcs
  obtain ⟨label, hlabel, rfl⟩ := List.mem_map.mp hcs
  exact (h label hlabel).chars_lower

theorem pieces_domainOf {labels : List (List Char)} (hne : labels ≠ [])
    (h : ∀ cs ∈ labels, IsLabel cs) :
    Text.pieces (· == '.') (domainOf labels) = labels.map (List.map Char.toLower) := by
  apply Text.pieces_intercalate (by rfl) (by simpa using hne)
  intro run hrun c hc
  obtain ⟨cs, hcs, rfl⟩ := List.mem_map.mp hrun
  exact ne_dot_of_isLabelChar ((h cs hcs).chars_lower c hc)

theorem Domain.ofText?_labels {labels : List (List Char)} (hne : labels ≠ [])
    (h : ∀ cs ∈ labels, IsLabel cs) :
    Domain.ofText? (String.ofList (['.'].intercalate labels)) =
      some (String.ofList (domainOf labels)) := by
  have hlower : (['.'].intercalate labels).mapM Domain.lower? =
      some ((['.'].intercalate labels).map fun c => [c.toLower]) := by
    apply mapM_of_some
    intro c hc
    exact lower?_of_isHostChar (isHostChar_of_mem_intercalate (fun cs hcs => (h cs hcs).chars) hc)
  have hflat : ((['.'].intercalate labels).map fun c => [c.toLower]).flatten = domainOf labels := by
    rw [domainOf, ← map_toLower_intercalate, ← List.flatMap_def, ← List.map_eq_flatMap]
  have hlabels : (labels.map (List.map Char.toLower)).mapM Domain.label? =
      some ((labels.map (List.map Char.toLower)).map id) := by
    apply mapM_of_some
    intro cs hcs
    obtain ⟨label, hlabel, rfl⟩ := List.mem_map.mp hcs
    exact (h label hlabel).label?_lower
  have hname : (".".intercalate ((labels.map (List.map Char.toLower)).map String.ofList)) =
      String.ofList (domainOf labels) := by
    apply String.toList_inj.mp
    rw [String.toList_intercalate, String.toList_ofList, List.map_map]
    simp only [Function.comp_def, String.toList_ofList, List.map_id']
    rfl
  have hallowed : (domainOf labels).any Domain.isForbidden = false := by
    apply List.any_eq_false.mpr
    intro c hc
    simp [not_isForbidden_of_isHostChar (isHostChar_of_mem_domainOf h hc)]
  have hfull : (String.ofList (domainOf labels)).isEmpty = false := by
    simp [domainOf_ne_nil hne h]
  simp only [Domain.ofText?, String.toList_ofList, hlower, Option.bind_some, hflat,
    pieces_domainOf hne h, hlabels, List.map_id, hname, hallowed, hfull, Bool.or_false,
    Bool.false_eq_true, if_false]

/-! ## Hosts -/

theorem Ipv4.part?_of_isAlpha {c : Char} (h : c.isAlpha = true) (rest : List Char) :
    Ipv4.part? (c.toLower :: rest) = none := by
  have htable := of_isHostChar
    (fun c => !c.isAlpha || c.toLower != '0' && (Ipv4.digitOf? 10 c.toLower).isNone)
    (by decide +kernel) (isHostChar_of_isAlpha h)
  simp only [h, Bool.not_true, Bool.false_or, Bool.and_eq_true, bne_iff_ne, ne_eq,
    Option.isNone_iff_eq_none] at htable
  unfold Ipv4.part?
  split
  · next heq => cases heq
  · next heq => exact absurd (List.cons.inj heq).1 htable.1
  · next heq => exact absurd (List.cons.inj heq).1 htable.1
  · next heq => exact absurd (List.cons.inj heq).1 htable.1
  · next heq => exact absurd (List.cons.inj heq).1 htable.1
  · simp [Ipv4.based?, htable.2]

/-- The last label of a host starts with a letter, so the host is no address in numbers. -/
def EndsInLetters (labels : List (List Char)) : Prop :=
  ∃ c rest, labels.getLast? = some (c :: rest) ∧ c.isAlpha = true

theorem Ipv4.endsInNumber_labels {labels : List (List Char)} (h : ∀ cs ∈ labels, IsLabel cs)
    (hend : EndsInLetters labels) :
    Ipv4.endsInNumber (String.ofList (domainOf labels)) = false := by
  obtain ⟨c, rest, hlast, hc⟩ := hend
  have hne : labels ≠ [] := by
    rintro rfl
    cases hlast
  obtain ⟨front, rfl⟩ := List.getLast?_eq_some_iff.mp hlast
  have hpieces := pieces_domainOf hne h
  have hparts : Ipv4.parts (String.ofList (domainOf (front ++ [c :: rest]))) =
      (front ++ [c :: rest]).map (List.map Char.toLower) := by
    unfold Ipv4.parts
    rw [String.toList_ofList, hpieces]
    simp only [List.map_append, List.map_cons, List.map_nil, List.reverse_append,
      List.reverse_cons, List.reverse_nil, List.nil_append, List.cons_append]
  have hdigit : (decide ('0' ≤ c.toLower) && decide (c.toLower ≤ '9')) = false := by
    have htable := of_isHostChar
      (fun c => !c.isAlpha || !(decide ('0' ≤ c.toLower) && decide (c.toLower ≤ '9')))
      (by decide +kernel) (isHostChar_of_isAlpha hc)
    simpa only [hc, Bool.not_true, Bool.false_or, Bool.not_eq_true'] using htable
  unfold Ipv4.endsInNumber
  rw [hparts]
  simp only [List.map_append, List.map_cons, List.map_nil, List.getLast?_append,
    List.getLast?_singleton, Option.some_or, List.all_cons, hdigit, Bool.false_and,
    Ipv4.part?_of_isAlpha hc, Option.isSome_none, Bool.or_false]

theorem decodeBytes_of_plain {bs : List UInt8} (h : ∀ b ∈ bs, b ≠ 37) :
    Percent.decodeBytes bs = bs := by
  induction bs with
  | nil => rfl
  | cons b bs ih =>
      rw [Percent.decodeBytes_cons (h b List.mem_cons_self),
        ih fun d hd => h d (List.mem_cons_of_mem b hd)]

theorem percentDecoded_of_isHostChar {cs : List Char} (h : ∀ c ∈ cs, isHostChar c = true) :
    String.fromUTF8? ⟨(Percent.decodeBytes (String.ofList cs).toUTF8.toList).toArray⟩ =
      some (String.ofList cs) := by
  have hplain : Percent.decodeBytes (String.ofList cs).toUTF8.toList =
      (String.ofList cs).toUTF8.toList := by
    apply decodeBytes_of_plain
    rw [Percent.bytes_ofList fun c hc => lt_of_isHostChar (h c hc)]
    intro b hb
    obtain ⟨c, hc, rfl⟩ := List.mem_map.mp hb
    have htable := of_isHostChar (fun c => UInt8.ofNat c.toNat != 37) (by decide +kernel) (h c hc)
    exact bne_iff_ne.mp htable
  rw [hplain, Percent.fromUTF8?_toList]

theorem Host.bracketed?_of_isHostChar {cs : List Char} (h : ∀ c ∈ cs, isHostChar c = true) :
    Host.bracketed? (String.ofList cs) = none := by
  unfold Host.bracketed?
  rw [String.toList_ofList]
  split
  · next rest =>
      have hbracket := h '[' List.mem_cons_self
      cases hbracket
  · rfl

/-- A host without a percent sign is read as it is. -/
theorem Host.ofText?_labels {labels : List (List Char)} (h : ∀ cs ∈ labels, IsLabel cs)
    (hend : EndsInLetters labels) :
    Host.ofText? (String.ofList (['.'].intercalate labels)) =
      some (.domain (String.ofList (domainOf labels))) := by
  have hne : labels ≠ [] := by
    obtain ⟨c, rest, hlast, -⟩ := hend
    rintro rfl
    cases hlast
  have hchars (c : Char) (hc : c ∈ ['.'].intercalate labels) : isHostChar c = true :=
    isHostChar_of_mem_intercalate (fun cs hcs => (h cs hcs).chars) hc
  simp only [Host.ofText?, Host.bracketed?_of_isHostChar hchars,
    percentDecoded_of_isHostChar hchars, Option.bind_some, Domain.ofText?_labels hne h, Ipv4.endsInNumber_labels h hend,
    Bool.false_eq_true, if_false]

/-! ## URLs -/

theorem significant_of_visible {cs : List Char} (h : ∀ c ∈ cs, 0x20 < c.toNat) :
    significant (String.ofList cs) = cs := by
  have hkept (ds : List Char) (hds : ∀ c ∈ ds, 0x20 < c.toNat) :
      ds.dropWhile (fun c => decide (c.toNat ≤ 0x20)) = ds := by
    cases ds with
    | nil => rfl
    | cons d ds =>
        apply List.dropWhile_cons_of_neg
        simpa using hds d List.mem_cons_self
  have hwritten : ∀ c ∈ cs, Path.isWritten c = true := by
    intro c hc
    have hvisible := h c hc
    simp only [Path.isWritten, Bool.and_eq_true, decide_eq_true_eq]
    refine ⟨⟨?_, ?_⟩, ?_⟩ <;> rintro rfl <;> exact absurd hvisible (by decide)
  simp only [significant, String.toList_ofList]
  rw [hkept cs h, hkept cs.reverse fun c hc => h c (List.mem_reverse.mp hc), List.reverse_reverse,
    List.filter_eq_self.mpr hwritten]

theorem splitPort_of_isHostChar {cs : List Char} (h : ∀ c ∈ cs, isHostChar c = true) :
    splitPort false cs = (cs, []) := by
  induction cs with
  | nil => rfl
  | cons c cs ih =>
      have hc := isUnmarked_of_isHostChar (h c List.mem_cons_self)
      simp only [isUnmarked, Bool.and_eq_true, bne_iff_ne] at hc
      obtain ⟨⟨-, hcolon⟩, hbracket⟩ := hc
      have hrest := ih fun d hd => h d (List.mem_cons_of_mem c hd)
      rw [splitPort]
      · simp [hbracket, hrest]
      · exact hcolon

theorem ofScheme_https : Form.ofScheme "https" = .web := by decide

theorem splitUser_of_isHostChar {cs : List Char} (h : ∀ c ∈ cs, isHostChar c = true) :
    splitUser cs = (none, cs) := by
  have hat : cs.contains '@' = false := by
    apply Bool.eq_false_iff.mpr
    intro hcontains
    cases h '@' (List.contains_iff_mem.mp hcontains)
  simp only [splitUser, hat, Bool.false_eq_true, if_false]

theorem readAuthority_host {cs : List Char} (hne : cs ≠ []) (h : ∀ c ∈ cs, isHostChar c = true)
    {host : Host} (hhost : Host.ofText? (String.ofList cs) = some host) :
    readAuthority "https" (cs ++ ['/']) =
      some ⟨"https", some { host }, .segments [""], none, none⟩ := by
  have hinside : ∀ c ∈ cs, (!endsAuthority .web c) = true := by
    intro c hc
    have hunmarked := isUnmarked_of_isHostChar (h c hc)
    simp only [isUnmarked, Bool.and_eq_true] at hunmarked
    exact hunmarked.1.1.1.2
  have hregion : (cs ++ ['/']).takeWhile (!endsAuthority .web ·) = cs :=
    Text.takeWhile_stop hinside (by decide) []
  have hrest : (cs ++ ['/']).dropWhile (!endsAuthority .web ·) = ['/'] :=
    Text.dropWhile_stop hinside (by decide) []
  have huser : readUser [] = ("", "") := by decide +kernel
  have hfull : cs.isEmpty = false := by simpa using hne
  have hpath : readPath "https" (some { host }) ['/'] =
      ⟨"https", some { host }, .segments [""], none, none⟩ := by
    have hraw : ['/'].takeWhile (!endsPath ·) = ['/'] := by decide
    have hend : ['/'].dropWhile (!endsPath ·) = [] := by decide
    have hroot : readSegments .web [] [] = [""] := by decide +kernel
    have hslash : isSlash .web '/' = true := by decide
    simp only [readPath, ofScheme_https, hraw, hend, hslash, if_true, hroot, reduceCtorEq, if_false]
    rfl
  have hport : readPort "https" [] = some none := rfl
  simp only [readAuthority, ofScheme_https, hregion, hrest, splitUser_of_isHostChar h,
    Option.getD_none, huser, splitPort_of_isHostChar h, hfull, readHost, hhost]
  simp only [reduceCtorEq, if_false, Bool.false_and, Bool.false_eq_true, List.drop_nil,
    List.takeWhile_nil, List.dropWhile_nil, List.nil_append, Option.bind_some, hport,
    Option.map_some, hpath]

theorem ofText?_host {cs : List Char} (hne : cs ≠ []) (h : ∀ c ∈ cs, isHostChar c = true)
    {host : Host} (hhost : Host.ofText? (String.ofList cs) = some host) :
    ofText? ("https://" ++ String.ofList cs ++ "/") =
      some ⟨"https", some { host }, .segments [""], none, none⟩ := by
  have htext : "https://" ++ String.ofList cs ++ "/" =
      String.ofList ('h' :: 't' :: 't' :: 'p' :: 's' :: ':' :: '/' :: '/' :: (cs ++ ['/'])) := by
    apply String.toList_inj.mp
    simp
  have hvisible : ∀ c ∈ 'h' :: 't' :: 't' :: 'p' :: 's' :: ':' :: '/' :: '/' :: (cs ++ ['/']),
      0x20 < c.toNat := by
    intro c hc
    simp only [List.mem_cons, List.mem_append, List.not_mem_nil, or_false] at hc
    rcases hc with rfl | rfl | rfl | rfl | rfl | rfl | rfl | rfl | hmem | rfl
    case inr.inr.inr.inr.inr.inr.inr.inr.inl =>
      have hunmarked := isUnmarked_of_isHostChar (h c hmem)
      simp only [isUnmarked, Bool.and_eq_true, decide_eq_true_eq] at hunmarked
      exact hunmarked.1.1.1.1.1
    all_goals decide
  have hslashes : ('/' :: '/' :: (cs ++ ['/'])).dropWhile (isSlash .web) = cs ++ ['/'] := by
    cases cs with
    | nil => exact absurd rfl hne
    | cons c cs =>
        have hunmarked := isUnmarked_of_isHostChar (h c List.mem_cons_self)
        simp only [isUnmarked, endsAuthority, Bool.and_eq_true, Bool.not_eq_true',
          Bool.or_eq_false_iff] at hunmarked
        have hslash : isSlash .web '/' = true := by decide
        simp [hslash, hunmarked.1.1.1.2.1]
  have hscheme :
      readScheme ('h' :: 't' :: 't' :: 'p' :: 's' :: ':' :: '/' :: '/' :: (cs ++ ['/'])) =
        some ("https", '/' :: '/' :: (cs ++ ['/'])) := rfl
  simp only [ofText?, htext, significant_of_visible hvisible, hscheme, Option.bind_some,
    readAbsolute, ofScheme_https, hslashes]
  exact readAuthority_host hne h hhost

end Url
end Placeholder
