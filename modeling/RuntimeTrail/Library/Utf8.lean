import Mathlib.Data.List.Basic

/-!
# Texts as UTF-8 bytes

A text is a list of characters; its bytes are theirs, one character after the other.

* **round trip** — `decodeUtf8_utf8Bytes`, hence `utf8Bytes_injective`, and back,
  `utf8Bytes_of_decodeUtf8`;
* **single bytes** — `mem_utf8Bytes_iff`: a byte below 128 is in the bytes exactly
  when its character is in the text, so an ASCII separator is never part of another
  character;
* **lengths** — `length_utf8Bytes_of_ascii`.
-/

namespace Library

/-- The UTF-8 bytes of a text. -/
def utf8Bytes (text : List Char) : List UInt8 := text.flatMap String.utf8EncodeChar

/-- The text that bytes encode, if they are UTF-8. -/
def decodeUtf8 (bytes : List UInt8) : Option (List Char) :=
  bytes.toByteArray.utf8Decode?.map Array.toList

theorem decodeUtf8_utf8Bytes (text : List Char) : decodeUtf8 (utf8Bytes text) = some text := by
  have hdecode : (utf8Bytes text).toByteArray.utf8Decode? = some text.toArray :=
    List.utf8Decode?_utf8Encode
  rw [decodeUtf8, hdecode]
  rfl

/-- What decodes is the bytes of its text. -/
theorem utf8Bytes_of_decodeUtf8 {bytes : List UInt8} {text : List Char}
    (h : decodeUtf8 bytes = some text) : utf8Bytes text = bytes := by
  obtain ⟨chars, hchars, rfl⟩ := Option.map_eq_some_iff.mp h
  obtain ⟨text, hencoded⟩ := ByteArray.isSome_utf8Decode?_iff.mp (Option.isSome_of_eq_some hchars)
  have hbytes : bytes = utf8Bytes text := by
    have hdata := congrArg (fun array => array.data.toList) hencoded
    rwa [List.toList_data_toByteArray, List.utf8Encode, List.toList_data_toByteArray] at hdata
  rw [hencoded, List.utf8Decode?_utf8Encode] at hchars
  obtain rfl := Option.some.inj hchars
  exact hbytes.symm

theorem utf8Bytes_injective : Function.Injective utf8Bytes := by
  intro a b h
  have hdecode := congrArg decodeUtf8 h
  rw [decodeUtf8_utf8Bytes, decodeUtf8_utf8Bytes] at hdecode
  exact Option.some.inj hdecode

@[simp]
theorem utf8Bytes_eq_nil_iff {text : List Char} : utf8Bytes text = [] ↔ text = [] :=
  ⟨fun h => utf8Bytes_injective h, fun h => by rw [h]; rfl⟩

theorem utf8Bytes_append (a b : List Char) : utf8Bytes (a ++ b) = utf8Bytes a ++ utf8Bytes b :=
  List.flatMap_append

/-- A byte below 128 encodes itself and is part of no other character. -/
theorem mem_utf8EncodeChar_iff {byte : UInt8} (hbyte : byte.toNat < 128) (c : Char) :
    byte ∈ String.utf8EncodeChar c ↔ c.toNat = byte.toNat := by
  have hhigh : ∀ n : Nat, 128 ≤ n → n < 256 → byte ≠ UInt8.ofNat n := by
    rintro n hn hlt rfl
    rw [UInt8.toNat_ofNat_of_lt' hlt] at hbyte
    omega
  have hscalar : c.val.toNat < 0x110000 := by
    have hvalid := c.valid
    rcases hvalid with h | ⟨-, h⟩
    · exact Nat.lt_trans h (by decide)
    · exact h
  change _ ↔ c.val.toNat = byte.toNat
  unfold String.utf8EncodeChar
  dsimp only
  split
  · rename_i hascii
    rw [List.mem_singleton]
    constructor
    · rintro rfl
      exact (UInt8.toNat_ofNat_of_lt' (Nat.lt_of_le_of_lt hascii (by decide))).symm
    · intro h
      rw [h, UInt8.ofNat_toNat]
  · rename_i hwide
    have hne : ¬ c.val.toNat = byte.toNat := fun h => by omega
    simp only [hne, iff_false]
    split
    · simp only [List.mem_cons, List.not_mem_nil, or_false, not_or]
      exact ⟨hhigh _ (by omega) (by omega), hhigh _ (by omega) (by omega)⟩
    · split
      · simp only [List.mem_cons, List.not_mem_nil, or_false, not_or]
        exact ⟨hhigh _ (by omega) (by omega), hhigh _ (by omega) (by omega),
          hhigh _ (by omega) (by omega)⟩
      · simp only [List.mem_cons, List.not_mem_nil, or_false, not_or]
        exact ⟨hhigh _ (by omega) (by omega), hhigh _ (by omega) (by omega),
          hhigh _ (by omega) (by omega), hhigh _ (by omega) (by omega)⟩

/-- **ASCII separators are told from everything else.** -/
theorem mem_utf8Bytes_iff {byte : UInt8} (hbyte : byte.toNat < 128) {text : List Char} :
    byte ∈ utf8Bytes text ↔ ∃ c ∈ text, c.toNat = byte.toNat := by
  simp only [utf8Bytes, List.mem_flatMap, mem_utf8EncodeChar_iff hbyte]

/-- An ASCII text has one byte a character. -/
theorem length_utf8Bytes_of_ascii {text : List Char} (h : ∀ c ∈ text, c.toNat < 128) :
    (utf8Bytes text).length = text.length := by
  induction text with
  | nil => rfl
  | cons c text ih =>
    obtain ⟨hc, htext⟩ := List.forall_mem_cons.mp h
    have hsize : (String.utf8EncodeChar c).length = 1 := by
      have hle : c.val.toNat ≤ 0x7f := Nat.lt_succ_iff.mp hc
      rw [String.utf8EncodeChar, if_pos hle]
      rfl
    rw [utf8Bytes, List.flatMap_cons, List.length_append, hsize, List.length_cons, Nat.add_comm]
    exact congrArg (· + 1) (ih htext)

end Library
