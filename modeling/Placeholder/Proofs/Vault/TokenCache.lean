import Placeholder.Proofs.Vault.Diary

/-!
# The token that a vault keeps

A vault keeps the token that its credential has issued last, and no secret. `Entry.Dutiful` says
what that means for one attempt, and `token_custody` that all attempts of a run are so, whatever the
credential and the world do and however the clock goes.
-/
namespace Placeholder

/-! ## Bearer tokens in requests -/

namespace Http

/-- The bearer tokens that headers carry. -/
def bearers (headers : List (String × String)) : List String :=
  headers.filterMap fun header =>
    if header.1 = "authorization" then
      (Text.after? "Bearer ".toList header.2.toList).map String.ofList
    else none

theorem bearers_append (a b : List (String × String)) : bearers (a ++ b) = bearers a ++ bearers b :=
  List.filterMap_append

theorem bearers_bearer (bearer : String) :
    bearers [("authorization", "Bearer " ++ bearer)] = [bearer] := by
  have h : Text.after? "Bearer ".toList ("Bearer " ++ bearer).toList = some bearer.toList := by
    rw [String.toList_append]
    exact Text.after?_append _ _
  simp only [bearers, List.filterMap_cons, if_true, h, Option.map_some, String.ofList_toList,
    List.filterMap_nil]

/-- A user whom a URL names shows himself in another way. -/
theorem bearers_userHeaders (url : Url) : bearers (userHeaders url) = [] := by
  have basic (s : String) : bearers [("authorization", "Basic " ++ s)] = [] := by
    have h : Text.after? "Bearer ".toList ("Basic " ++ s).toList = none := by
      rw [String.toList_append]
      rfl
    simp only [bearers, List.filterMap_cons, if_true, h, Option.map_none, List.filterMap_nil]
  unfold userHeaders
  split
  · rfl
  · next a _ =>
      split
      · rfl
      · next username _ =>
          generalize (if a.password.isEmpty then none else percentDecoded? a.password) = password
          dsimp only
          split
          · rfl
          · exact basic _

theorem bearers_without_authorization (headers : List (String × String)) :
    bearers (Request.without ["authorization"] headers) = [] := by
  refine List.filterMap_eq_nil_iff.mpr ?_
  intro header hmem
  have hname : header.1 ≠ "authorization" := by
    simpa [Request.without] using (List.mem_filter.mp hmem).2
  exact if_neg hname

theorem bearers_without {names : List String} (h : "authorization" ∉ names)
    (headers : List (String × String)) :
    bearers (Request.without names headers) = bearers headers := by
  induction headers with
  | nil => rfl
  | cons header rest ih =>
      obtain ⟨name, value⟩ := header
      by_cases hn : name ∈ names
      · have hname : name ≠ "authorization" := fun he => h (he ▸ hn)
        have hdrop : Request.without names ((name, value) :: rest) = Request.without names rest := by
          simp [Request.without, hn]
        have hskip : bearers ((name, value) :: rest) = bearers rest := by
          simp only [bearers, List.filterMap_cons, if_neg hname]
        rw [hdrop, ih, hskip]
      · have hkeep : Request.without names ((name, value) :: rest) =
            (name, value) :: Request.without names rest := by
          simp [Request.without, hn]
        rw [hkeep, bearers, List.filterMap_cons, ← bearers, ih]
        rfl

namespace Request

variable {q next : Request} {r : Response}

/-- Going where a response points adds no token, and may drop one. -/
theorem bearers_redirected (h : q.redirected? r = some next) :
    bearers next.headers = bearers q.headers ∨ bearers next.headers = [] := by
  have hkept (same : Bool) :
      bearers (if same then q.headers else without ["authorization"] q.headers) =
        bearers q.headers ∨
      bearers (if same then q.headers else without ["authorization"] q.headers) = [] := by
    cases same with
    | true => exact .inl rfl
    | false => exact .inr (bearers_without_authorization q.headers)
  unfold redirected? at h
  split at h
  · obtain ⟨url, -, rfl⟩ := Option.map_eq_some_iff.mp h
    dsimp only
    split
    · rw [bearers_without (by decide)]
      exact hkept _
    · exact hkept _
  · cases h

end Request
end Http

namespace Vault

variable {ω : Type} {v : Vault ω} {name bearer : String}

theorem bearers_request? {vault : Url} {q : Http.Request}
    (h : request? vault name bearer = some q) : Http.bearers q.headers = [bearer] := by
  unfold request? Http.Request.of? at h
  split at h
  · obtain rfl := Option.some.inj h
    rw [Http.bearers_append, Http.bearers_userHeaders, Http.bearers_bearer, List.nil_append]
  · cases h

/-! ## Deeds -/

/-- The token that a deed brings. -/
def Deed.issued? : Deed → Option AccessToken
  | .asked (.ok t) => some t
  | _ => none

/-- The request that a deed is. -/
def Deed.request? : Deed → Option Http.Request
  | .sent q _ => some q
  | .asked _ => none

/-- The token that deeds have brought last, else the one held before. -/
def latest (held : Cache) (deeds : List Deed) : Cache :=
  deeds.foldl (fun held deed => deed.issued?.or held) held

theorem latest_append (held : Cache) (before after : List Deed) :
    latest held (before ++ after) = latest (latest held before) after :=
  List.foldl_append

/-- Going after a request brings no token, and no request on the way carries another one. -/
theorem Trail.carries {q : Http.Request} {trail : List Deed}
    {x : Except TransportFault Http.Response} (h : Trail q trail x) :
    (∀ held, latest held trail = held) ∧ (∀ y, .asked y ∉ trail) ∧
      ∃ more, trail.filterMap Deed.request? = q :: more ∧
        ∀ p ∈ more, Http.bearers p.headers = Http.bearers q.headers ∨ Http.bearers p.headers = [] := by
  induction h with
  | last q x => exact ⟨fun _ => rfl, by simp, [], rfl, by simp⟩
  | lost q r => exact ⟨fun _ => rfl, by simp, [], rfl, by simp⟩
  | @onward q next r deeds x hq _ ih =>
      obtain ⟨hheld, hasked, more, hmore, hcarry⟩ := ih
      refine ⟨hheld, by simpa using hasked, next :: more, ?_, ?_⟩
      · rw [List.filterMap_cons, hmore]
        rfl
      · have hnext := Http.Request.bearers_redirected hq
        intro p hp
        rcases List.mem_cons.mp hp with rfl | hp
        · exact hnext
        · rcases hcarry p hp with he | he
          · rw [he]
            exact hnext
          · exact .inr he

/-- A trail that comes to a response ends with it. -/
theorem Trail.getLast {q : Http.Request} {trail : List Deed} {r : Http.Response}
    (h : Trail q trail (.ok r)) : ∃ earlier p, trail = earlier ++ [.sent p (.ok r)] := by
  generalize hx : Except.ok r = x at h
  induction h with
  | last q x =>
      subst hx
      exact ⟨[], q, rfl⟩
  | lost q r => cases hx
  | @onward q next r' deeds x _ _ ih =>
      obtain ⟨earlier, p, rfl⟩ := ih hx
      exact ⟨.sent q (.ok r') :: earlier, p, rfl⟩

/-! ## Attempts -/

/-- The token is not there, or does not live for longer than the margin. -/
theorem spent_iff {held : Cache} {now : Nat} :
    Spent held now ↔ held = none ∨ ∃ t expiry, held = some t ∧ t.expiry? = some expiry ∧
      ¬ now + AccessToken.expiryMargin < expiry := by
  cases held with
  | none => simp [Spent]
  | some t =>
      obtain ⟨text, expiry?⟩ := t
      cases expiry? <;> simp [Spent, AccessToken.freshAt]

/-- What an attempt does when `held` is the token that was issued last before it. -/
structure Entry.Dutiful (v : Vault ω) (held : Cache) (e : Entry) : Prop where
  /-- The credential is asked when there is no token that lives for longer than the margin. -/
  asked_iff : (∃ issued, .asked issued ∈ e.deeds) ↔ held = none ∨
    ∃ t expiry, held = some t ∧ t.expiry? = some expiry ∧
      ¬ e.time + AccessToken.expiryMargin < expiry
  /-- It is asked once and before all else. -/
  asked_once : ∀ issued, .asked issued ∈ e.deeds →
    ∃ rest, e.deeds = .asked issued :: rest ∧ ∀ again, .asked again ∉ rest
  /-- The request carries the token issued last. On the way to other hosts it may be lost, but no
  other one takes its place. -/
  carried : ∀ q more, e.deeds.filterMap Deed.request? = q :: more →
    ∃ t, latest held e.deeds = some t ∧ request? v.url e.name t.text = some q ∧
      Http.bearers q.headers = [t.text] ∧
      ∀ p ∈ more, Http.bearers p.headers = [t.text] ∨ Http.bearers p.headers = []
  /-- Without a token nothing is sent, and the one held stays. -/
  unissued : ∀ f, .asked (.error f) ∈ e.deeds →
    e.deeds.filterMap Deed.request? = [] ∧ latest held e.deeds = held ∧ ∃ g, e.answer = .error g
  /-- A value stands in the last response of the attempt itself. -/
  value : ∀ value, e.answer = .ok (some value) →
    ∃ earlier q r, e.deeds = earlier ++ [.sent q (.ok r)] ∧ Holds r value

/-- What fetching does, whatever was done before it. -/
theorem Fetched.carries {trail : List Deed} {x : Answer} (h : Fetched v name bearer trail x) :
    (∀ held, latest held trail = held) ∧ (∀ y, .asked y ∉ trail) ∧
      ∀ q more, trail.filterMap Deed.request? = q :: more →
        request? v.url name bearer = some q ∧ Http.bearers q.headers = [bearer] ∧
        ∀ p ∈ more, Http.bearers p.headers = [bearer] ∨ Http.bearers p.headers = [] := by
  have trailed {q : Http.Request} {trail : List Deed} {x : Except TransportFault Http.Response}
      (hq : request? v.url name bearer = some q) (ht : Trail q trail x) :
      (∀ held, latest held trail = held) ∧ (∀ y, .asked y ∉ trail) ∧
        ∀ first more, trail.filterMap Deed.request? = first :: more →
          request? v.url name bearer = some first ∧ Http.bearers first.headers = [bearer] ∧
          ∀ p ∈ more, Http.bearers p.headers = [bearer] ∨ Http.bearers p.headers = [] := by
    obtain ⟨hheld, hasked, more, hmore, hcarry⟩ := ht.carries
    refine ⟨hheld, hasked, ?_⟩
    intro first others heq
    obtain ⟨rfl, rfl⟩ := List.cons.inj (hmore.symm.trans heq)
    rw [bearers_request? hq] at hcarry
    exact ⟨hq, bearers_request? hq, hcarry⟩
  cases h with
  | unformed hq => exact ⟨fun _ => rfl, by simp, by simp⟩
  | unanswered hq ht => exact trailed hq ht
  | answered hq ht hx => exact trailed hq ht

theorem Fetched.value {trail : List Deed} {x : Answer} (h : Fetched v name bearer trail x)
    {value : String} (hx : x = .ok (some value)) :
    ∃ earlier q r, trail = earlier ++ [.sent q (.ok r)] ∧ Holds r value := by
  cases h with
  | unformed hq => cases hx
  | unanswered hq ht => cases hx
  | answered hq ht htells =>
      obtain ⟨r, hr, hvalue⟩ := (htells.value value).mp hx
      cases hr
      obtain ⟨earlier, p, rfl⟩ := ht.getLast
      exact ⟨earlier, p, _, rfl, hvalue⟩

variable {held kept : Cache} {e : Entry}

theorem Entry.Written.kept_eq (h : e.Written v held kept) : kept = latest held e.deeds := by
  cases h with
  | refused hs => rfl
  | renewed hs hf => exact (hf.carries.1 _).symm
  | kept ht hf => exact (hf.carries.1 _).symm

theorem Entry.Written.dutiful (h : e.Written v held kept) : e.Dutiful v held := by
  cases h with
  | @refused _ name time f g hs =>
      refine ⟨?_, ?_, ?_, ?_, ?_⟩
      · exact ⟨fun _ => spent_iff.mp hs, fun _ => ⟨_, List.mem_singleton_self _⟩⟩
      · intro issued hi
        cases List.mem_singleton.mp hi
        exact ⟨[], rfl, by simp⟩
      · intro q more hq
        cases hq
      · intro _ _
        exact ⟨rfl, rfl, g, rfl⟩
      · intro value hx
        cases hx
  | @renewed _ name time t trail x hs hf =>
      obtain ⟨hheld, hasked, hcarry⟩ := hf.carries
      refine ⟨?_, ?_, ?_, ?_, ?_⟩
      · exact ⟨fun _ => spent_iff.mp hs, fun _ => ⟨_, List.mem_cons_self⟩⟩
      · intro issued hi
        rcases List.mem_cons.mp hi with he | hi
        · exact ⟨trail, by rw [he], hasked⟩
        · exact absurd hi (hasked issued)
      · intro q more hq
        exact ⟨t, hheld (some t), hcarry q more hq⟩
      · intro f hmem
        rcases List.mem_cons.mp hmem with he | hmem
        · cases he
        · exact absurd hmem (hasked _)
      · intro value hx
        obtain ⟨earlier, q, r, rfl, hvalue⟩ := hf.value hx
        exact ⟨.asked (.ok t) :: earlier, q, r, rfl, hvalue⟩
  | @kept name time t trail x ht hf =>
      obtain ⟨hheld, hasked, hcarry⟩ := hf.carries
      have hfresh : ¬ Spent (some t) time := fun hs => by simp [hs t rfl] at ht
      refine ⟨?_, ?_, ?_, ?_, fun value hx => hf.value hx⟩
      · exact ⟨fun ⟨y, hy⟩ => absurd hy (hasked y), fun hs => absurd (spent_iff.mpr hs) hfresh⟩
      · intro issued hi
        exact absurd hi (hasked issued)
      · intro q more hq
        exact ⟨t, hheld (some t), hcarry q more hq⟩
      · intro f hmem
        exact absurd hmem (hasked _)

/-! ## Runs -/

/-- All that was done in the attempts of a diary. -/
def Diary.deeds (diary : Diary) : List Deed := diary.flatMap Entry.deeds

variable {diary : Diary}

theorem Diary.Written.kept_eq (h : Diary.Written v held diary kept) :
    kept = latest held (Diary.deeds diary) := by
  induction h with
  | nil held => rfl
  | cons he _ ih =>
      rw [deeds, List.flatMap_cons, latest_append, ← he.kept_eq]
      exact ih

theorem Diary.Written.split {before after : Diary}
    (h : Diary.Written v held (before ++ after) kept) :
    Diary.Written v held before (latest held (Diary.deeds before)) ∧
      Diary.Written v (latest held (Diary.deeds before)) after kept := by
  induction before generalizing held with
  | nil => exact ⟨.nil held, h⟩
  | cons e rest ih =>
      cases h with
      | @cons _ between _ _ _ he hr =>
          have hdeeds : latest held (Diary.deeds (e :: rest)) =
              latest between (Diary.deeds rest) := by
            rw [deeds, List.flatMap_cons, latest_append, ← he.kept_eq]
            rfl
          obtain ⟨hbefore, hafter⟩ := ih hr
          rw [hdeeds]
          exact ⟨.cons he hbefore, hafter⟩

/-- A token that says nothing about its end is kept for good. -/
theorem Diary.Written.not_asked {t : AccessToken} (h : Diary.Written v (some t) diary kept)
    (ht : t.expiry? = none) : ∀ e ∈ diary, ∀ issued, .asked issued ∉ e.deeds := by
  have hfresh (time : Nat) : ¬ Spent (some t) time := by
    intro hs
    have hstale := hs t rfl
    simp [AccessToken.freshAt, ht] at hstale
  generalize hheld : some t = held at h
  -- By induction on the entries: the first one can only have kept the token, so the next one finds
  -- it again.
  induction h with
  | nil held => simp
  | @cons _ _ _ e _ he hr ih =>
      subst hheld
      cases he with
      | refused hs => exact absurd hs (hfresh _)
      | renewed hs hf => exact absurd hs (hfresh _)
      | kept hfr hf =>
          intro other hmem
          rcases List.mem_cons.mp hmem with rfl | hmem
          · exact hf.carries.2.1
          · exact ih rfl other hmem

/-- In a run of lookups, with changes of the world between them and retries within them, every
attempt is dutiful: the credential is asked when the token that it has issued last is missing or
ends within the margin, a request carries just that token, a credential that fails changes nothing,
and a value comes from the response at the end of its own attempt. A token without an end is never
replaced. The answers of the run are those of its attempts, and the diary in which all this stands
changes nothing. -/
theorem token_custody (v : Vault ω) (events : List (Event String ω)) (held : Cache) (w : ω) :
    ∃ answers kept diary w',
      Event.run v.lookup (Prod.map id) events (held, w) = (answers, kept, w') ∧
      Event.run v.recordedLookup (fun change => Prod.map id (Prod.map id change)) events
        (held, [], w) = (answers, kept, diary, w') ∧
      (∀ x ∈ answers, ∃ e ∈ diary, e.answer = x) ∧
      kept = latest held (Diary.deeds diary) ∧
      (∀ before e after, diary = before ++ e :: after →
        e.Dutiful v (latest held (Diary.deeds before))) ∧
      (∀ before after t, diary = before ++ after → latest held (Diary.deeds before) = some t →
        t.expiry? = none → ∀ e ∈ after, ∀ issued, .asked issued ∉ e.deeds) := by
  obtain ⟨answers, kept, diary, w', hplain, hrecorded, hwritten, hanswers⟩ :=
    v.run_recordedLookup_written events held [] w
  refine ⟨answers, kept, diary, w', hplain, hrecorded, hanswers, hwritten.kept_eq, ?_, ?_⟩
  · rintro before e after rfl
    cases hwritten.split.2 with
    | cons he hr => exact he.dutiful
  · rintro before after t rfl ht hend
    have hafter := hwritten.split.2
    rw [ht] at hafter
    exact hafter.not_asked hend

/-- A vault without secrets. Its credential issues tokens for a minute and a half, and from half a
minute on one without an end. -/
def brief : Vault Nat where
  outside :=
    { Outside.isolated 0 with send := fun _ _ clock => (.ok ⟨404, none, .ok .empty⟩, clock) }
  url := ⟨"https", some { host := .domain "v.vault.azure.net" }, .segments [], none, none⟩
  credential := ⟨"brief", fun _ clock =>
    (.ok (if clock < 30000 then ⟨"early", some (clock + 90000)⟩ else ⟨"lasting", none⟩), clock)⟩
  retry := {}
  limit := usualLimit

/-- Four lookups: the second one a moment before the margin begins, the third one in the next
moment, and the last one long after. -/
def briefEvents : List (Event String Nat) :=
  [.ask "A", .elsewhere (· + 29999), .ask "B", .elsewhere (· + 1), .ask "C",
    .elsewhere (· + 1000000000), .ask "D"]

/-- The margin begins between the second and the third lookup, and the last one asks for nothing. -/
theorem token_custody_brief :
    ∃ first second third fourth,
      (Event.run brief.recordedLookup (fun change => Prod.map id (Prod.map id change)) briefEvents
        (none, [], 0)).2.2.1 = [first, second, third, fourth] ∧
      second.time = 29999 ∧ (∀ issued, .asked issued ∉ second.deeds) ∧
      third.time = 30000 ∧ (∃ issued, .asked issued ∈ third.deeds) ∧
      fourth.deeds.filterMap Deed.request? ≠ [] ∧ ∀ issued, .asked issued ∉ fourth.deeds := by
  obtain ⟨answers, kept, diary, w', _, hrecorded, _, _, hduty, hlasting⟩ :=
    token_custody brief briefEvents none 0
  obtain ⟨first, second, third, fourth, hrun, hsecond, hthird, hfourth, hearly, hearly', hlast⟩ :
      ∃ first second third fourth,
        (Event.run brief.recordedLookup (fun change => Prod.map id (Prod.map id change)) briefEvents
          (none, [], 0)).2.2.1 = [first, second, third, fourth] ∧
        second.time = 29999 ∧ third.time = 30000 ∧
        fourth.deeds.filterMap Deed.request? ≠ [] ∧
        latest none (Diary.deeds [first]) = some ⟨"early", some 90000⟩ ∧
        latest none (Diary.deeds [first, second]) = some ⟨"early", some 90000⟩ ∧
        latest none (Diary.deeds [first, second, third]) = some ⟨"lasting", none⟩ :=
    ⟨_, _, _, _, rfl, rfl, rfl, by decide, rfl, rfl, rfl⟩
  have hdiary : diary = [first, second, third, fourth] := by rw [← hrun, hrecorded]
  refine ⟨first, second, third, fourth, hrun, hsecond, ?_, hthird, ?_, hfourth, ?_⟩
  · have hd := hduty [first] second [third, fourth] hdiary
    rw [hearly] at hd
    intro issued hmem
    have hdue := hd.asked_iff.mp ⟨issued, hmem⟩
    simp [hsecond, AccessToken.expiryMargin] at hdue
  · have hd := hduty [first, second] third [fourth] hdiary
    rw [hearly'] at hd
    exact hd.asked_iff.mpr (.inr ⟨_, 90000, rfl, rfl, by rw [hthird]; decide⟩)
  · exact hlasting [first, second, third] [fourth] _ hdiary hlast rfl fourth
      (List.mem_singleton_self fourth)

end Vault
end Placeholder
