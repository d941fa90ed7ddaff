import Placeholder.Kind
import Placeholder.Text

/-!
# Placeholder tokens

A token names a kind and a name, and may demand a value or carry a fallback. `Token.chars` writes
one and `Token.read?` reads one off the head of a text. `Token.chars_append_of_read?` says that
what was read is what would be written.
-/
namespace Placeholder

/-- What follows the name of a placeholder. -/
inductive Tail where
  /-- Nothing: without a value the placeholder stays as written. -/
  | plain
  /-- An exclamation mark: without a value the run stops. -/
  | required
  /-- A colon and a text that stands in for a missing value. -/
  | fallback (text : String)
  deriving DecidableEq, Repr

namespace Tail

def chars : Tail → List Char
  | plain => ['}']
  | required => ['!', '}']
  | fallback text => ':' :: text.toList ++ ['}']

/-- Reads a tail; an empty fallback is none. -/
def read? : List Char → Option (Tail × List Char)
  | '}' :: rest => some (plain, rest)
  | '!' :: '}' :: rest => some (required, rest)
  | ':' :: rest =>
    match Text.takeUntil ['}'] rest, Text.dropUntil ['}'] rest with
    | c :: text, _ :: rest => some (fallback (String.ofList (c :: text)), rest)
    | _, _ => none
  | _ => none

end Tail

/-- A placeholder: kind, name and tail. -/
structure Token where
  kind : Kind
  name : String
  tail : Tail
  deriving DecidableEq, Repr

namespace Token

def required (t : Token) : Bool :=
  match t.tail with
  | .required => true
  | _ => false

def fallback? (t : Token) : Option String :=
  match t.tail with
  | .fallback text => some text
  | _ => none

theorem fallback?_of_required {t : Token} (h : t.required = true) : t.fallback? = none := by
  cases ht : t.tail <;> simp_all [required, fallback?]

/-- The characters that end a name. -/
def nameStops : List Char := [':', '!', '}']

def chars (t : Token) : List Char :=
  '$' :: '{' :: (t.kind.name.toList ++ (':' :: (t.name.toList ++ t.tail.chars)))

def written (t : Token) : String := String.ofList t.chars

@[simp] theorem toList_written (t : Token) : t.written.toList = t.chars :=
  String.toList_ofList

def readKind? (cs : List Char) : Option (Kind × List Char) :=
  Kind.all.findSome? fun k => (Text.after? (k.name.toList ++ [':']) cs).map fun rest => (k, rest)

def readBody? (kind : Kind) (cs : List Char) : Option (Token × List Char) :=
  match Text.takeUntil nameStops cs with
  | [] => none
  | c :: name =>
    (Tail.read? (Text.dropUntil nameStops cs)).map fun (tail, rest) =>
      (⟨kind, String.ofList (c :: name), tail⟩, rest)

/-- Reads the token that starts at the head of a text, and the text after it. -/
def read? : List Char → Option (Token × List Char)
  | '$' :: '{' :: rest => (readKind? rest).bind fun (kind, rest) => readBody? kind rest
  | _ => none

end Token

/-! Reading undoes writing. -/

theorem Tail.chars_append_of_read? {cs rest : List Char} {tail : Tail}
    (h : read? cs = some (tail, rest)) : cs = tail.chars ++ rest := by
  unfold read? at h
  split at h
  · cases h; rfl
  · cases h; rfl
  · next body =>
    split at h
    · next c text brace after hTake hDrop =>
      cases h
      have hBody := Text.takeUntil_append_dropUntil ['}'] body
      rw [hTake, hDrop] at hBody
      have hBrace : brace = '}' := by
        have := List.head?_dropWhile_not (fun c => !(['}'] : List Char).contains c) body
        rw [show body.dropWhile _ = brace :: rest from hDrop] at this
        simpa using this
      subst hBrace
      simp [chars, ← hBody]
    · cases h
  · cases h

theorem Token.chars_append_of_readKind? {cs rest : List Char} {kind : Kind}
    (h : readKind? cs = some (kind, rest)) : cs = kind.name.toList ++ (':' :: rest) := by
  obtain ⟨k, _, hk⟩ := List.exists_of_findSome?_eq_some h
  obtain ⟨r, hr, he⟩ := Option.map_eq_some_iff.1 hk
  cases he
  simpa using Text.after?_eq_some_iff.1 hr

theorem Token.chars_append_of_read? {cs rest : List Char} {t : Token}
    (h : read? cs = some (t, rest)) : cs = t.chars ++ rest := by
  unfold read? at h
  split at h
  · next body =>
    obtain ⟨⟨kind, afterKind⟩, hKind, hBody⟩ := Option.bind_eq_some_iff.1 h
    have hk := chars_append_of_readKind? hKind
    change readBody? kind afterKind = _ at hBody
    unfold readBody? at hBody
    split at hBody
    · cases hBody
    · next c name hTake =>
      obtain ⟨⟨tail, after⟩, hTail, he⟩ := Option.map_eq_some_iff.1 hBody
      cases he
      have ht := Tail.chars_append_of_read? hTail
      have hName := Text.takeUntil_append_dropUntil nameStops afterKind
      rw [hTake, ht] at hName
      simp [chars, hk, ← hName]
  · cases h

theorem Token.length_lt_of_read? {cs rest : List Char} {t : Token}
    (h : read? cs = some (t, rest)) : rest.length < cs.length := by
  rw [chars_append_of_read? h]
  simp [chars]
  omega

end Placeholder
