import Mathlib.Algebra.Order.Group.Nat
import Mathlib.Data.String.Basic
import Mathlib.Tactic.IntervalCases

/-!
# How long a print is

The size in bytes of what a formatter writes: a number is as long as its word lets it
be, and a quoted text at most ten times as long as the text.

* **numbers** — `printWord`, `printInt`: the decimal print of a machine word, bounded by
  `utf8ByteSize_printWord_le` and `utf8ByteSize_printInt_le`;
* **texts** — `debugText`: a text between quotes with its characters escaped, bounded by
  `utf8ByteSize_debugText_le`.
-/

namespace Library

/-! ## Bytes of a list of characters -/

/-- Characters of one byte each take a byte each. -/
theorem utf8Len_eq_length {l : List Char} (h : ∀ c ∈ l, c.utf8Size = 1) :
    String.utf8Len l = l.length := by
  induction l with
  | nil => rfl
  | cons c l ih =>
    rw [String.utf8Len_cons, ih fun d hd => h d (List.mem_cons_of_mem _ hd),
      h c List.mem_cons_self, List.length_cons]

/-- There are at least as many bytes as characters. -/
theorem length_le_utf8Len (l : List Char) : l.length ≤ String.utf8Len l := by
  induction l with
  | nil => exact Nat.zero_le _
  | cons c l ih =>
    rw [String.utf8Len_cons, List.length_cons]
    exact Nat.add_le_add ih c.utf8Size_pos

/-- A digit takes one byte, whatever its base. -/
theorem utf8Size_digitChar (digit : Nat) : (Nat.digitChar digit).utf8Size = 1 := by
  rcases Nat.lt_or_ge digit 16 with hlt | hge
  · interval_cases digit <;> rfl
  · obtain ⟨rest, rfl⟩ := Nat.exists_eq_add_of_le' hge
    simp only [Nat.digitChar, Nat.reduceEqDiff, if_false]
    rfl

theorem utf8Size_of_mem_toDigits {base : Nat} (hbase : 1 < base) (number : Nat) :
    ∀ c ∈ Nat.toDigits base number, c.utf8Size = 1 := by
  induction number using Nat.strong_induction_on with
  | _ number ih =>
    intro c hc
    rcases Nat.lt_or_ge number base with hlt | hge
    · rw [Nat.toDigits_of_lt_base hlt, List.mem_singleton] at hc
      exact hc ▸ utf8Size_digitChar number
    · rw [Nat.toDigits_of_base_le hbase hge, List.mem_append, List.mem_singleton] at hc
      have hsmaller : number / base < number := Nat.div_lt_self (by omega) hbase
      rcases hc with hc | hc
      · exact ih (number / base) hsmaller c hc
      · exact hc ▸ utf8Size_digitChar (number % base)

/-- A number below the power takes at most as many bytes as the power has digits. -/
theorem utf8Len_toDigits_le {base number digits : Nat} (hbase : 1 < base) (hdigits : 0 < digits)
    (h : number < base ^ digits) : String.utf8Len (Nat.toDigits base number) ≤ digits := by
  rw [utf8Len_eq_length (utf8Size_of_mem_toDigits hbase number)]
  exact (Nat.length_toDigits_le_iff hbase hdigits).mpr h

/-! ## Numbers -/

/-- An unsigned word of this many bits, in decimal. -/
def printWord (bits number : Nat) : String := toString (number % 2 ^ bits)

/-- A signed word of this many bits, in decimal. -/
def printInt (bits : Nat) (number : Int) : String := toString (number.bmod (2 ^ bits))

theorem utf8ByteSize_toString_le {number digits : Nat} (hdigits : 0 < digits)
    (h : number < 10 ^ digits) : (toString number).utf8ByteSize ≤ digits := by
  rw [Nat.toString_eq_ofList_toDigits, String.utf8ByteSize_ofList]
  exact utf8Len_toDigits_le (by decide) hdigits h

theorem utf8ByteSize_printWord_le {bits digits : Nat} (hdigits : 0 < digits)
    (h : 2 ^ bits ≤ 10 ^ digits) (number : Nat) : (printWord bits number).utf8ByteSize ≤ digits :=
  utf8ByteSize_toString_le hdigits ((Nat.mod_lt _ (Nat.two_pow_pos bits)).trans_le h)

/-- A sign, and the digits of the word's size. -/
theorem utf8ByteSize_printInt_le {bits digits : Nat} (hdigits : 0 < digits)
    (h : 2 ^ bits < 10 ^ digits) (number : Int) :
    (printInt bits number).utf8ByteSize ≤ digits + 1 := by
  have hpos : 0 < 2 ^ bits := Nat.two_pow_pos bits
  have hlow := @Int.le_bmod number (2 ^ bits) hpos
  have hhigh := @Int.bmod_lt number (2 ^ bits) hpos
  unfold printInt
  generalize 2 ^ bits = size at h hpos hlow hhigh ⊢
  cases hword : number.bmod size with
  | ofNat magnitude =>
    rw [hword, Int.ofNat_eq_natCast] at hhigh
    have hle := @utf8ByteSize_toString_le magnitude digits hdigits (by omega)
    exact hle.trans (Nat.le_succ _)
  | negSucc magnitude =>
    rw [hword] at hlow
    have hle := @utf8ByteSize_toString_le (magnitude + 1) digits hdigits (by omega)
    have hsign : ("-" : String).utf8ByteSize = 1 := by decide
    change ("-" ++ toString (magnitude + 1)).utf8ByteSize ≤ digits + 1
    rw [String.utf8ByteSize_append]
    omega

/-! ## Texts -/

/-- How a debug print writes a character of a text; `printable` are those it leaves as they are. -/
def debugChar (printable : Char → Bool) (c : Char) : List Char :=
  if c = '\x00' then ['\x5c', '0']
  else if c = '\t' then ['\x5c', 't']
  else if c = '\r' then ['\x5c', 'r']
  else if c = '\n' then ['\x5c', 'n']
  else if c = '\x22' then ['\x5c', '\x22']
  else if c = '\x5c' then ['\x5c', '\x5c']
  else if printable c then [c]
  else '\x5c' :: 'u' :: '\x7b' :: (Nat.toDigits 16 c.toNat ++ ['\x7d'])

/-- The debug print of a text, between its quotes. -/
def debugText (printable : Char → Bool) (text : String) : String :=
  String.ofList ('\x22' :: (text.toList.flatMap (debugChar printable) ++ ['\x22']))

/-- The longest escape is a code point of six hexadecimal digits. -/
theorem utf8Len_debugChar_le (printable : Char → Bool) (c : Char) :
    String.utf8Len (debugChar printable c) ≤ 10 := by
  have hcode : c.toNat < 16 ^ 6 := by
    rcases c.valid with h | h <;> · change c.val.toNat < _; omega
  have hdigits := @utf8Len_toDigits_le 16 c.toNat 6 (by decide) (by decide) hcode
  have hchar := c.utf8Size_le_four
  unfold debugChar
  split_ifs
  case neg =>
    simp only [String.utf8Len_cons, String.utf8Len_append, String.utf8Len_nil]
    have hmarks : '\x5c'.utf8Size + 'u'.utf8Size + '\x7b'.utf8Size + '\x7d'.utf8Size = 4 := by
      decide
    omega
  all_goals
    first
      | decide
      | (simp only [String.utf8Len_cons, String.utf8Len_nil]; omega)

/-- **A quoted text is at most ten times as long as the text**, and its two quotes. -/
theorem utf8ByteSize_debugText_le (printable : Char → Bool) (text : String) :
    (debugText printable text).utf8ByteSize ≤ 10 * text.utf8ByteSize + 2 := by
  have hescaped : ∀ l : List Char,
      String.utf8Len (l.flatMap (debugChar printable)) ≤ 10 * l.length := by
    intro l
    induction l with
    | nil => exact Nat.zero_le _
    | cons c l ih =>
      rw [List.flatMap_cons, String.utf8Len_append, List.length_cons]
      have := utf8Len_debugChar_le printable c
      omega
  have hchars : text.toList.length ≤ text.utf8ByteSize := by
    have := length_le_utf8Len text.toList
    rwa [← String.utf8ByteSize_ofList, String.ofList_toList] at this
  have hquotes : '\x22'.utf8Size = 1 := by decide
  have := hescaped text.toList
  rw [debugText, String.utf8ByteSize_ofList]
  simp only [String.utf8Len_cons, String.utf8Len_append, String.utf8Len_nil, hquotes]
  omega

end Library
