import RuntimeTrail.Library.Json

/-!
# Lowercase hexadecimal

Bytes as text, two digits each, high half first.  Reading is strict: it takes lowercase
digits only, so that a text that is read is the one that was written.

* `encodeHex`, `decodeHex` — the latter names the first byte that is no digit;
* `decodeHex_encodeHex` — writing is undone by reading;
* `eq_encodeHex_of_decodeHex` — and of even length nothing else is read.
-/

namespace Library

/-- The two digits of a byte. -/
def hexPair (byte : UInt8) : List Char :=
  [hexDigit (byte >>> 4).toNat, hexDigit (byte &&& 0x0f).toNat]

/-- Bytes as lowercase digits. -/
def encodeHex (bytes : List UInt8) : List Char := bytes.flatMap hexPair

/-- The value of a digit; other bytes have none. -/
def hexDigitValue (byte : UInt8) : Option UInt8 :=
  if 0x30 ≤ byte ∧ byte ≤ 0x39 then some (byte - 0x30)
  else if 0x61 ≤ byte ∧ byte ≤ 0x66 then some (byte - 0x61 + 10)
  else none

/-- The bytes that pairs of digits write, or the first byte that is no digit. -/
def decodeHex : List UInt8 → Except UInt8 (List UInt8)
  | high :: low :: rest =>
    match hexDigitValue high, hexDigitValue low with
    | none, _ => .error high
    | some _, none => .error low
    | some h, some l => (decodeHex rest).map fun tail => ((h <<< 4) ||| l) :: tail
  | _ => .ok []

/-! ## Digits -/

/-- A digit, as the byte that encodes it. -/
def hexCode (n : Nat) : UInt8 := UInt8.ofNat (hexDigit n).toNat

/-- A byte's digits, as bytes of the text. -/
def hexCodes (byte : UInt8) : List UInt8 :=
  [hexCode (byte >>> 4).toNat, hexCode (byte &&& 0x0f).toNat]

theorem hexDigit_ascii : ∀ n < 16, (hexDigit n).toNat < 128 := by decide

theorem half_lt (byte : UInt8) : (byte >>> 4).toNat < 16 ∧ (byte &&& 0x0f).toNat < 16 := by
  have hbyte := byte.toNat_lt
  constructor
  · rw [UInt8.toNat_shiftRight, Nat.shiftRight_eq_div_pow]
    have hshift : (4 : UInt8).toNat % 8 = 4 := rfl
    rw [hshift]
    omega
  · rw [UInt8.toNat_and]
    exact Nat.lt_of_le_of_lt Nat.and_le_right (by decide)

/-- Each digit is read as its value. -/
theorem hexDigitValue_hexCode : ∀ n < 16, hexDigitValue (hexCode n) = some (UInt8.ofNat n) := by
  decide

/-- What is read as a value is the value's digit. -/
theorem hexCode_of_hexDigitValue {byte value : UInt8} (h : hexDigitValue byte = some value) :
    value.toNat < 16 ∧ hexCode value.toNat = byte := by
  have hall : ∀ n < 256, ∀ v ∈ hexDigitValue (UInt8.ofNat n),
      v.toNat < 16 ∧ hexCode v.toNat = UInt8.ofNat n := by decide +kernel
  have hbyte := hall byte.toNat byte.toNat_lt value
  rw [UInt8.ofNat_toNat] at hbyte
  exact hbyte h

/-- A byte is its halves joined. -/
theorem joined_halves (byte : UInt8) : ((byte >>> 4) <<< 4) ||| (byte &&& 0x0f) = byte := by
  have hall : ∀ n < 256,
      ((UInt8.ofNat n >>> 4) <<< 4) ||| (UInt8.ofNat n &&& 0x0f) = UInt8.ofNat n := by
    decide +kernel
  have hbyte := hall byte.toNat byte.toNat_lt
  rwa [UInt8.ofNat_toNat] at hbyte

/-- Joined halves come apart again. -/
theorem halves_joined {h l : UInt8} (hh : h.toNat < 16) (hl : l.toNat < 16) :
    ((h <<< 4) ||| l) >>> 4 = h ∧ ((h <<< 4) ||| l) &&& 0x0f = l := by
  have hall : ∀ m < 16, ∀ n < 16,
      ((UInt8.ofNat m <<< 4) ||| UInt8.ofNat n) >>> 4 = UInt8.ofNat m ∧
        ((UInt8.ofNat m <<< 4) ||| UInt8.ofNat n) &&& 0x0f = UInt8.ofNat n := by decide +kernel
  have hboth := hall h.toNat hh l.toNat hl
  rwa [UInt8.ofNat_toNat, UInt8.ofNat_toNat] at hboth

/-! ## Texts -/

theorem utf8EncodeChar_hexDigit {n : Nat} (hn : n < 16) :
    String.utf8EncodeChar (hexDigit n) = [hexCode n] := by
  have hle : (hexDigit n).val.toNat ≤ 0x7f := Nat.lt_succ_iff.mp (hexDigit_ascii n hn)
  rw [String.utf8EncodeChar, if_pos hle]
  rfl

/-- The text's bytes are the digits' own. -/
theorem utf8Bytes_encodeHex (bytes : List UInt8) :
    utf8Bytes (encodeHex bytes) = bytes.flatMap hexCodes := by
  rw [utf8Bytes, encodeHex, List.flatMap_assoc]
  congr 1
  funext byte
  obtain ⟨hhigh, hlow⟩ := half_lt byte
  rw [hexPair, List.flatMap_cons, List.flatMap_singleton, utf8EncodeChar_hexDigit hhigh,
    utf8EncodeChar_hexDigit hlow]
  rfl

theorem length_utf8Bytes_encodeHex (bytes : List UInt8) :
    (utf8Bytes (encodeHex bytes)).length = 2 * bytes.length := by
  rw [utf8Bytes_encodeHex]
  induction bytes with
  | nil => rfl
  | cons byte rest ih =>
    rw [List.flatMap_cons, List.length_append, ih, List.length_cons]
    change 2 + 2 * rest.length = 2 * (rest.length + 1)
    omega

/-- **Writing is undone by reading.** -/
theorem decodeHex_encodeHex (bytes : List UInt8) :
    decodeHex (utf8Bytes (encodeHex bytes)) = .ok bytes := by
  rw [utf8Bytes_encodeHex]
  induction bytes with
  | nil => rfl
  | cons byte rest ih =>
    obtain ⟨hhigh, hlow⟩ := half_lt byte
    rw [List.flatMap_cons, hexCodes, List.cons_append, List.singleton_append, decodeHex,
      hexDigitValue_hexCode _ hhigh, hexDigitValue_hexCode _ hlow, ih]
    simp only [Except.map, UInt8.ofNat_toNat, joined_halves]

theorem encodeHex_injective : Function.Injective encodeHex := by
  intro a b h
  have ha := decodeHex_encodeHex a
  rw [h, decodeHex_encodeHex] at ha
  exact (Except.ok.inj ha).symm

/-- What is read: nothing from less than two bytes, else a pair and what follows it. -/
theorem decodeHex_eq_ok {text bytes : List UInt8} (h : decodeHex text = .ok bytes) :
    (text.length < 2 ∧ bytes = []) ∨
      ∃ high low rest l r tail, text = high :: low :: rest ∧ hexDigitValue high = some l ∧
        hexDigitValue low = some r ∧ decodeHex rest = .ok tail ∧ bytes = ((l <<< 4) ||| r) :: tail := by
  unfold decodeHex at h
  split at h
  · rename_i high low rest
    split at h
    · cases h
    · cases h
    · rename_i l r hhigh hlow
      cases htail : decodeHex rest with
      | error byte =>
        rw [htail] at h
        cases h
      | ok tail =>
        rw [htail] at h
        exact Or.inr ⟨high, low, rest, l, r, tail, rfl, hhigh, hlow, htail, (Except.ok.inj h).symm⟩
  · rename_i hshort
    refine Or.inl ⟨?_, (Except.ok.inj h).symm⟩
    cases text with
    | nil => exact Nat.zero_lt_two
    | cons high tail =>
      cases tail with
      | nil => exact Nat.one_lt_two
      | cons low rest => exact (hshort high low rest rfl).elim

/-- A byte is read from every two. -/
theorem length_of_decodeHex {text bytes : List UInt8} (h : decodeHex text = .ok bytes) :
    bytes.length = text.length / 2 := by
  induction bytes generalizing text with
  | nil =>
    obtain ⟨hshort, -⟩ | ⟨high, low, rest, l, r, tail, -, -, -, -, hcons⟩ := decodeHex_eq_ok h
    · exact (Nat.div_eq_of_lt hshort).symm
    · cases hcons
  | cons byte bytes ih =>
    obtain ⟨-, hnil⟩ | ⟨high, low, rest, l, r, tail, rfl, -, -, htail, hcons⟩ := decodeHex_eq_ok h
    · cases hnil
    · obtain ⟨-, rfl⟩ := List.cons.inj hcons
      rw [List.length_cons, ih htail, List.length_cons, List.length_cons]
      omega

/-- What is read in pairs is what its bytes write. -/
theorem flatMap_hexCodes_of_decodeHex {text bytes : List UInt8} (heven : 2 ∣ text.length)
    (h : decodeHex text = .ok bytes) : text = bytes.flatMap hexCodes := by
  induction bytes generalizing text with
  | nil =>
    have hlength := length_of_decodeHex h
    rw [List.length_nil] at hlength
    exact List.eq_nil_of_length_eq_zero (by omega)
  | cons byte bytes ih =>
    obtain ⟨-, hnil⟩ | ⟨high, low, rest, l, r, tail, rfl, hhigh, hlow, htail, hcons⟩ :=
      decodeHex_eq_ok h
    · cases hnil
    · obtain ⟨rfl, rfl⟩ := List.cons.inj hcons
      have hrest : 2 ∣ rest.length := by
        rw [List.length_cons, List.length_cons] at heven
        omega
      obtain ⟨hl, hcode⟩ := hexCode_of_hexDigitValue hhigh
      obtain ⟨hr, hcode'⟩ := hexCode_of_hexDigitValue hlow
      obtain ⟨hleft, hright⟩ := halves_joined hl hr
      rw [List.flatMap_cons, hexCodes, hleft, hright, hcode, hcode', ← ih hrest htail]
      rfl

/-- In pairs, what is read is digits throughout. -/
theorem exists_decodeHex_iff {text : List UInt8} (heven : 2 ∣ text.length) :
    (∃ bytes, decodeHex text = .ok bytes) ↔ ∀ byte ∈ text, (hexDigitValue byte).isSome = true := by
  constructor
  · rintro ⟨bytes, h⟩ byte hbyte
    rw [flatMap_hexCodes_of_decodeHex heven h] at hbyte
    obtain ⟨source, -, hcode⟩ := List.mem_flatMap.mp hbyte
    obtain ⟨hhigh, hlow⟩ := half_lt source
    obtain rfl | hcode := List.mem_cons.mp hcode
    · rw [hexDigitValue_hexCode _ hhigh]
      rfl
    · rw [List.mem_singleton.mp hcode, hexDigitValue_hexCode _ hlow]
      rfl
  · intro h
    induction text using decodeHex.induct with
    | case1 high low rest hhigh =>
      have hsome := h high List.mem_cons_self
      rw [hhigh] at hsome
      cases hsome
    | case2 high low rest value hlow hhigh =>
      have hsome := h low (List.mem_cons_of_mem _ List.mem_cons_self)
      rw [hlow] at hsome
      cases hsome
    | case3 high low rest r l hlow hhigh ih =>
      have hrest : 2 ∣ rest.length := by
        rw [List.length_cons, List.length_cons] at heven
        omega
      obtain ⟨tail, htail⟩ := ih hrest fun byte hbyte =>
        h byte (List.mem_cons_of_mem _ (List.mem_cons_of_mem _ hbyte))
      exact ⟨_, by rw [decodeHex, hhigh, hlow, htail]; rfl⟩
    | case4 text hshort =>
      refine ⟨[], ?_⟩
      unfold decodeHex
      split
      · rename_i high low rest
        exact (hshort high low rest rfl).elim
      · rfl

/-- **Of even length nothing else is read.** -/
theorem eq_encodeHex_of_decodeHex {text : List Char} {bytes : List UInt8}
    (heven : 2 ∣ (utf8Bytes text).length) (h : decodeHex (utf8Bytes text) = .ok bytes) :
    text = encodeHex bytes :=
  utf8Bytes_injective
    ((flatMap_hexCodes_of_decodeHex heven h).trans (utf8Bytes_encodeHex bytes).symm)

end Library
