import Mathlib.Algebra.Order.Ring.Nat
import Mathlib.Data.List.Basic

/-!
# Fixed-width little-endian words

A word is written as exactly `width` bytes, least significant first.  Reading is
the left inverse below `256 ^ width` (`readLe_writeLe`) and the right inverse on
every byte string of that width (`writeLe_readLe`), so the two are a bijection.
A byte array read as a list is its data (`toList_eq_data`).
-/

namespace Library

/-- The `width` little-endian bytes of a word; higher bits are dropped. -/
def writeLe : Nat → Nat → List UInt8
  | 0, _ => []
  | width + 1, word => UInt8.ofNat (word % 256) :: writeLe width (word / 256)

/-- The word a little-endian byte string holds. -/
def readLe : List UInt8 → Nat
  | [] => 0
  | byte :: bytes => byte.toNat + 256 * readLe bytes

@[simp] theorem length_writeLe (width word : Nat) : (writeLe width word).length = width := by
  induction width generalizing word with
  | zero => rfl
  | succ width ih => rw [writeLe, List.length_cons, ih]

theorem readLe_lt (bytes : List UInt8) : readLe bytes < 256 ^ bytes.length := by
  induction bytes with
  | nil => simp [readLe]
  | cons byte bytes ih =>
    have hbyte : byte.toNat < 256 := byte.toNat_lt
    rw [readLe, List.length_cons, Nat.pow_succ]
    omega

/-- Reading back what was written, for a word that fits. -/
theorem readLe_writeLe {width word : Nat} (h : word < 256 ^ width) :
    readLe (writeLe width word) = word := by
  induction width generalizing word with
  | zero => simp_all [readLe, writeLe]
  | succ width ih =>
    have hrest : word / 256 < 256 ^ width := by
      rw [Nat.pow_succ] at h
      exact Nat.div_lt_of_lt_mul (by rw [Nat.mul_comm]; exact h)
    have hlow : (UInt8.ofNat (word % 256)).toNat = word % 256 := by
      rw [UInt8.toNat_ofNat']
      exact Nat.mod_eq_of_lt (Nat.mod_lt _ (by decide))
    rw [writeLe, readLe, ih hrest, hlow]
    exact Nat.mod_add_div word 256

/-- Writing back what was read. -/
theorem writeLe_readLe (bytes : List UInt8) : writeLe bytes.length (readLe bytes) = bytes := by
  induction bytes with
  | nil => rfl
  | cons byte bytes ih =>
    have hbyte : byte.toNat < 256 := byte.toNat_lt
    have hlow : (byte.toNat + 256 * readLe bytes) % 256 = byte.toNat := by omega
    have hhigh : (byte.toNat + 256 * readLe bytes) / 256 = readLe bytes := by omega
    rw [List.length_cons, readLe, writeLe, hlow, hhigh, ih, UInt8.ofNat_toNat]

/-! ## Byte arrays as lists -/

theorem toList_loop (bytes : ByteArray) (i : Nat) (front : List UInt8) :
    ByteArray.toList.loop bytes i front = front.reverse ++ bytes.data.toList.drop i := by
  fun_induction ByteArray.toList.loop bytes i front with
  | case1 i front h ih =>
    have hi : i < bytes.data.size := h
    have hlist : i < bytes.data.toList.length := by simpa using h
    have hget : bytes.get! i = bytes.data.toList[i] := by
      rw [Array.getElem_toList]
      exact getElem!_pos bytes.data i hi
    rw [ih, hget, List.reverse_cons, List.append_assoc, List.singleton_append,
      ← List.drop_eq_getElem_cons]
  | case2 i front h => rw [List.drop_eq_nil_of_le (by simpa using h), List.append_nil]

theorem toList_eq_data (bytes : ByteArray) : bytes.toList = bytes.data.toList := toList_loop bytes 0 []

/-- The UTF-8 bytes of a text are its own. -/
theorem utf8_injective {a b : String} (h : a.toUTF8.toList = b.toUTF8.toList) : a = b := by
  rw [toList_eq_data, toList_eq_data, Array.toList_inj] at h
  exact String.toByteArray_inj.mp (ByteArray.ext h)

theorem length_utf8 (text : String) : text.toUTF8.toList.length = text.utf8ByteSize := by
  rw [toList_eq_data, Array.length_toList]
  rfl

end Library
