import Placeholder.Http

/-!
# Reading percent-encoded text back

What is encoded with a class that encodes percent signs and all bytes beyond ASCII is read back as
it was, so the encoding of a text stands for no other. Marks of the class do not occur in it.
-/
namespace Placeholder.Percent

/-! ## Bytes of texts -/

theorem toList_loop (bs : ByteArray) (i : Nat) (r : List UInt8) :
    ByteArray.toList.loop bs i r = r.reverse ++ bs.data.toList.drop i := by
  fun_induction ByteArray.toList.loop bs i r with
  | case1 i r h ih =>
      have hi : i < bs.data.toList.length := h
      have hget : bs.get! i = bs.data.toList[i] := by
        cases bs
        exact getElem!_pos _ i h
      rw [ih, List.drop_eq_getElem_cons hi, hget]
      simp
  | case2 i r h =>
      have hi : bs.data.toList.length ≤ i := Nat.not_lt.mp h
      rw [List.drop_eq_nil_of_le hi, List.append_nil]

theorem toList_eq (bs : ByteArray) : bs.toList = bs.data.toList := by
  rw [ByteArray.toList, toList_loop]
  rfl

theorem fromUTF8?_toUTF8 (s : String) : String.fromUTF8? s.toUTF8 = some s :=
  (dif_pos s.isValidUTF8).trans rfl

/-- A text is what its bytes are read as. -/
theorem fromUTF8?_toList (s : String) : String.fromUTF8? ⟨s.toUTF8.toList.toArray⟩ = some s := by
  have hbytes : (⟨s.toUTF8.toList.toArray⟩ : ByteArray) = s.toUTF8 := by rw [toList_eq]
  rw [hbytes, fromUTF8?_toUTF8]

/-- The bytes of characters that are all in ASCII. -/
def asciiBytes (cs : List Char) : List UInt8 := cs.map fun c => UInt8.ofNat c.toNat

theorem utf8EncodeChar_ascii {c : Char} (h : c.toNat < 128) :
    String.utf8EncodeChar c = [UInt8.ofNat c.toNat] := by
  have hsize : c.utf8Size = 1 := Char.utf8Size_eq_one_iff.mpr (UInt32.le_iff_toNat_le.mpr
    (Nat.le_of_lt_succ h))
  rw [String.utf8EncodeChar_eq_singleton hsize]
  rfl

theorem bytes_ofList {cs : List Char} (h : ∀ c ∈ cs, c.toNat < 128) :
    (String.ofList cs).toUTF8.toList = asciiBytes cs := by
  have hbytes : (String.ofList cs).toUTF8.toList = cs.flatMap String.utf8EncodeChar := by
    rw [toList_eq, String.toUTF8_eq_toByteArray, String.toByteArray_ofList, List.utf8Encode,
      List.toList_data_toByteArray]
  rw [hbytes]
  clear hbytes
  induction cs with
  | nil => rfl
  | cons c cs ih =>
      rw [List.flatMap_cons, utf8EncodeChar_ascii (h c List.mem_cons_self),
        ih fun d hd => h d (List.mem_cons_of_mem c hd)]
      rfl

/-! ## Hexadecimal digits -/

def digits : List Char := "0123456789ABCDEF".toList

theorem hexDigit_mem {n : Nat} (h : n < 16) : hexDigit n ∈ digits := by
  revert n
  decide

theorem hexDigit_inj : ∀ m < 16, ∀ n < 16, hexDigit m = hexDigit n → m = n := by
  decide

theorem ascii_of_digit {x : Char} (h : x ∈ digits) : x.toNat < 128 := by
  have hall : digits.all (fun x => decide (x.toNat < 128)) = true := by decide
  exact of_decide_eq_true (List.all_eq_true.mp hall x h)

theorem hexValue?_hexDigit : ∀ n < 16,
    hexValue? (UInt8.ofNat (hexDigit n).toNat) = some (UInt8.ofNat n) := by
  decide

/-! ## Encoded bytes -/

/-- A class that encodes percent signs and all bytes beyond ASCII. -/
structure Reversible (c : Class) : Prop where
  percent : c 37 = true
  ascii : ∀ b, c b = false → b.toNat < 128

section Bytes

variable {c : Class}

theorem mem_byte {b : UInt8} {x : Char} (h : x ∈ byte b) :
    x = '%' ∨ x ∈ digits := by
  have hb := b.toNat_lt
  rcases List.mem_cons.mp h with rfl | h
  · exact .inl rfl
  · rcases List.mem_cons.mp h with rfl | h
    · exact .inr (hexDigit_mem (by omega))
    · obtain rfl := List.mem_singleton.mp h
      exact .inr (hexDigit_mem (by omega))

theorem toNat_char {b : UInt8} (h : b.toNat < 128) : (Char.ofNat b.toNat).toNat = b.toNat := by
  have hvalid : b.toNat.isValidChar := .inl (by omega)
  rw [Char.ofNat, dif_pos hvalid]
  rfl

theorem decodeBytes_cons {b : UInt8} (h : b ≠ 37) (rest : List UInt8) :
    decodeBytes (b :: rest) = b :: decodeBytes rest := by
  rw [decodeBytes]
  intro _ _ _ hb
  exact absurd hb h

theorem decodeBytes_byte (b : UInt8) (rest : List UInt8) :
    decodeBytes (asciiBytes (byte b) ++ rest) = b :: decodeBytes rest := by
  have hb := b.toNat_lt
  have hhigh := hexValue?_hexDigit (b.toNat / 16) (by omega)
  have hlow := hexValue?_hexDigit (b.toNat % 16) (by omega)
  have hvalue : UInt8.ofNat (b.toNat / 16) * 16 + UInt8.ofNat (b.toNat % 16) = b := by
    refine UInt8.toNat_inj.mp ?_
    simp only [UInt8.toNat_add, UInt8.toNat_mul, UInt8.toNat_ofNat', UInt8.reduceToNat]
    omega
  have hbytes : asciiBytes (byte b) ++ rest = 37 :: UInt8.ofNat (hexDigit (b.toNat / 16)).toNat ::
      UInt8.ofNat (hexDigit (b.toNat % 16)).toNat :: rest := rfl
  simp only [hbytes, decodeBytes, hhigh, hlow, hvalue]

theorem decodeBytes_encodeByte (hc : Reversible c) (b : UInt8) (rest : List UInt8) :
    decodeBytes (asciiBytes (encodeByte c b) ++ rest) = b :: decodeBytes rest := by
  unfold encodeByte
  split
  · exact decodeBytes_byte b rest
  -- A byte that stands for itself is no percent sign, so no digits are read after it.
  · next hplain =>
      have hlt := hc.ascii b (Bool.eq_false_iff.mpr hplain)
      have hb : b ≠ 37 := by
        rintro rfl
        exact hplain hc.percent
      have hbytes : asciiBytes [Char.ofNat b.toNat] ++ rest = b :: rest := by
        simp [asciiBytes, toNat_char hlt]
      rw [hbytes, decodeBytes_cons hb]

theorem decodeBytes_encodeBytes (hc : Reversible c) (bs : List UInt8) :
    decodeBytes (asciiBytes (encodeBytes c bs)) = bs := by
  induction bs with
  | nil => rfl
  | cons b bs ih =>
      have hbytes : asciiBytes (encodeBytes c (b :: bs)) =
          asciiBytes (encodeByte c b) ++ asciiBytes (encodeBytes c bs) := by
        simp [asciiBytes, encodeBytes]
      rw [hbytes, decodeBytes_encodeByte hc, ih]

theorem mem_encodeBytes (hc : Reversible c) {bs : List UInt8} {x : Char}
    (h : x ∈ encodeBytes c bs) :
    x = '%' ∨ x ∈ digits ∨
      ∃ b, c b = false ∧ b.toNat < 128 ∧ x = Char.ofNat b.toNat := by
  obtain ⟨b, _, hx⟩ := List.mem_flatMap.mp h
  unfold encodeByte at hx
  split at hx
  · exact (mem_byte hx).imp id .inl
  · next hplain =>
      have hb := Bool.eq_false_iff.mpr hplain
      exact .inr (.inr ⟨b, hb, hc.ascii b hb, List.mem_singleton.mp hx⟩)

theorem ascii_encodeBytes (hc : Reversible c) {bs : List UInt8} :
    ∀ x ∈ encodeBytes c bs, x.toNat < 128 := by
  intro x hx
  rcases mem_encodeBytes hc hx with rfl | hdigit | ⟨b, _, hb, rfl⟩
  · decide
  · exact ascii_of_digit hdigit
  · rwa [toNat_char hb]

end Bytes

/-! ## Encoded texts -/

section Texts

variable {c : Class}

theorem toUTF8_encode (hc : Reversible c) (s : String) :
    (encode c s).toUTF8.toList = asciiBytes (encodeBytes c s.toUTF8.toList) :=
  bytes_ofList (ascii_encodeBytes hc)

theorem percentDecoded?_encode (hc : Reversible c) (s : String) :
    Http.percentDecoded? (encode c s) = some s := by
  rw [Http.percentDecoded?, toUTF8_encode hc, decodeBytes_encodeBytes hc, fromUTF8?_toList]

theorem encode_inj (hc : Reversible c) {s t : String} : encode c s = encode c t ↔ s = t := by
  constructor
  · intro h
    have hdecoded := percentDecoded?_encode hc s
    rw [h, percentDecoded?_encode hc] at hdecoded
    exact (Option.some.inj hdecoded).symm
  · rintro rfl
    rfl

/-- A mark of the class does not occur in what is encoded, unless it is one that writes bytes. -/
theorem not_mem_encode (hc : Reversible c) {x : Char} (hx : x ∉ '%' :: digits)
    (hmark : c (UInt8.ofNat x.toNat) = true) (s : String) : x ∉ (encode c s).toList := by
  rw [encode, String.toList_ofList]
  intro h
  rcases mem_encodeBytes hc h with rfl | hdigit | ⟨b, hb, hlt, rfl⟩
  · exact hx List.mem_cons_self
  · exact hx (List.mem_cons_of_mem _ hdigit)
  · rw [toNat_char hlt, UInt8.ofNat_toNat, hb] at hmark
    cases hmark

end Texts

/-! ## Classes for segments -/

theorem ascii_of_controls {b : UInt8} (h : controls b = false) : b.toNat < 128 := by
  have hle : b ≤ 0x7e := by
    simp only [controls, Bool.or_eq_false_iff, decide_eq_false_iff_not] at h
    exact UInt8.not_lt.mp h.2
  exact Nat.lt_of_le_of_lt (UInt8.le_iff_toNat_le.mp hle) (by decide)

theorem controls_of_segment {b : UInt8} (h : segment b = false) : controls b = false := by
  simp only [segment, path, fragment, Bool.or_eq_false_iff] at h
  exact h.1.1.1

theorem segment_reversible : Reversible segment where
  percent := by decide +kernel
  ascii _ h := ascii_of_controls (controls_of_segment h)

theorem specialSegment_reversible : Reversible specialSegment where
  percent := by decide +kernel
  ascii _ h := ascii_of_controls (controls_of_segment (Bool.or_eq_false_iff.mp h).1)

end Placeholder.Percent
