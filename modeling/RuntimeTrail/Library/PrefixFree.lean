import RuntimeTrail.Library.Bytes

/-!
# Encodings told apart in front of anything

An encoding is prefix-free when a value written in front of any bytes can be told
from any other value written in front of any others.  What is concatenated from
prefix-free encodings is one again, so a description made of words, length-prefixed
strings and marked optional fields names what it describes.

* **basic encodings** — `PrefixFree.ofWidth`, `prefixFree_writeLe`,
  `prefixFree_lengthPrefixed`;
* **putting them together** — `PrefixFree.append`, `PrefixFree.slot`,
  `PrefixFree.on`, `PrefixFree.weaken`;
* **what it is for** — `PrefixFree.injective`.
-/

namespace Library

universe u v

/-- Accepted values are told apart by their bytes, whatever follows them. -/
def PrefixFree {α : Type u} (Accepts : α → Prop) (encode : α → List UInt8) : Prop :=
  ∀ ⦃a b : α⦄ ⦃rest rest' : List UInt8⦄, Accepts a → Accepts b →
    encode a ++ rest = encode b ++ rest' → a = b ∧ rest = rest'

/-- The bytes of an optional value: its own behind a mark, or the mark of its absence. -/
def slot {α : Type u} (present absent : UInt8) (encode : α → List UInt8) : Option α → List UInt8
  | some a => present :: encode a
  | none => [absent]

/-- Bytes behind a word that says how many they are. -/
def lengthPrefixed (width : Nat) (bytes : List UInt8) : List UInt8 :=
  writeLe width bytes.length ++ bytes

namespace PrefixFree

variable {α : Type u} {γ : Type v} {Accepts : α → Prop} {encode : α → List UInt8}

/-- A prefix-free encoding is injective. -/
theorem injective (h : PrefixFree Accepts encode) {a b : α} (ha : Accepts a) (hb : Accepts b)
    (heq : encode a = encode b) : a = b :=
  (@h a b [] [] ha hb (by rw [heq])).1

/-- Fewer values are told apart as well. -/
theorem weaken (h : PrefixFree Accepts encode) {Fewer : α → Prop}
    (hfewer : ∀ a, Fewer a → Accepts a) : PrefixFree Fewer encode :=
  fun a b _ _ ha hb heq => h (hfewer a ha) (hfewer b hb) heq

/-- An injective encoding of one width is prefix-free. -/
theorem ofWidth {width : Nat} (hwidth : ∀ a, Accepts a → (encode a).length = width)
    (hinjective : ∀ a b, Accepts a → Accepts b → encode a = encode b → a = b) :
    PrefixFree Accepts encode := by
  intro a b rest rest' ha hb heq
  obtain ⟨hencode, hrest⟩ := List.append_inj heq ((hwidth a ha).trans (hwidth b hb).symm)
  exact ⟨hinjective a b ha hb hencode, hrest⟩

/-- Two encodings, one behind the other. -/
theorem append {AcceptsRight : γ → Prop} {encodeRight : γ → List UInt8}
    (h : PrefixFree Accepts encode) (hright : PrefixFree AcceptsRight encodeRight) :
    PrefixFree (fun p : α × γ => Accepts p.1 ∧ AcceptsRight p.2)
      fun p => encode p.1 ++ encodeRight p.2 := by
  rintro ⟨a, c⟩ ⟨b, d⟩ rest rest' ⟨ha, hc⟩ ⟨hb, hd⟩ heq
  rw [List.append_assoc, List.append_assoc] at heq
  obtain ⟨rfl, hbehind⟩ := h ha hb heq
  obtain ⟨rfl, hrest⟩ := hright hc hd hbehind
  exact ⟨rfl, hrest⟩

/-- What is determined by a part that is encoded prefix-free. -/
theorem on (h : PrefixFree Accepts encode) {f : γ → α}
    (hf : ∀ c d, f c = f d → c = d) :
    PrefixFree (fun c => Accepts (f c)) fun c => encode (f c) := by
  intro c d rest rest' hc hd heq
  obtain ⟨hsame, hrest⟩ := h hc hd heq
  exact ⟨hf c d hsame, hrest⟩

/-- An optional value between two marks. -/
theorem slot (h : PrefixFree Accepts encode) {present absent : UInt8} (hmarks : present ≠ absent) :
    PrefixFree (fun o : Option α => ∀ a ∈ o, Accepts a) (Library.slot present absent encode) := by
  intro o o' rest rest' ho ho' heq
  cases o with
  | none =>
    cases o' with
    | none => exact ⟨rfl, (List.cons.inj heq).2⟩
    | some b => exact absurd (List.cons.inj heq).1.symm hmarks
  | some a =>
    cases o' with
    | none => exact absurd (List.cons.inj heq).1 hmarks
    | some b =>
      obtain ⟨rfl, hrest⟩ := h (ho a rfl) (ho' b rfl) (List.cons.inj heq).2
      exact ⟨rfl, hrest⟩

end PrefixFree

/-- Words of one width. -/
theorem prefixFree_writeLe (width : Nat) :
    PrefixFree (fun word => word < 256 ^ width) (writeLe width) := by
  refine PrefixFree.ofWidth (fun word _ => length_writeLe width word) fun a b ha hb heq => ?_
  rw [← readLe_writeLe ha, heq, readLe_writeLe hb]

/-- Byte strings whose length is a word. -/
theorem prefixFree_lengthPrefixed (width : Nat) :
    PrefixFree (fun bytes : List UInt8 => bytes.length < 256 ^ width) (lengthPrefixed width) := by
  intro a b rest rest' ha hb heq
  rw [lengthPrefixed, lengthPrefixed, List.append_assoc, List.append_assoc] at heq
  obtain ⟨hlength, hbehind⟩ := prefixFree_writeLe width ha hb heq
  exact List.append_inj hbehind hlength

end Library
