import ListingSnapshot.Identifier.Segment
import ListingSnapshot.Proofs.Text.Digits
import Mathlib.Algebra.Group.Nat.Defs
import Mathlib.Data.List.Basic

/-!
# Segments and the numbers they denote

A segment is a run of digits of any length, and what it denotes is the number that its digits are
written for in the decimal system. Blocks have 64-bit heights, so a segment is that of a block just
if its number fits; zeros in front do not count. Of all segments that denote one number a single one
is without superfluous zeros in front, and it is the one that is written for this number.

## Main definitions

* `Segment.IsPlain`: a segment without a superfluous zero in front.

## Main results

* `Segment.value_eq`: the number of a segment in the decimal system.
* `Segment.block?_eq_some_iff`: the block of a segment is that of the number it denotes.
* `Segment.block?_ofUInt64`: the segment that is written for a block denotes that block.
* `Segment.ofUInt64_eq_iff`: the plain segments are those that are written for numbers.
* `Segment.decimal_reading`: which runs of digits are read as which 64-bit numbers.
-/

namespace ListingSnapshot.Segment

variable {s t : Segment}

/-! ### Segments and runs of digits -/

theorem chars_injective : Function.Injective chars := by
  intro s t h
  cases s
  cases t
  cases h
  rfl

theorem text_injective : Function.Injective text :=
  fun _ _ h => chars_injective (String.ofList_injective h)

theorem isDigitRun (s : Segment) : IsDigitRun s.chars := by
  refine ⟨s.ne_nil, fun c hc => ?_⟩
  have h := s.isDigit c hc
  simp only [Char.isDigit, Bool.and_eq_true, decide_eq_true_eq] at h
  exact h

theorem exists_of_isDigitRun {run : List Char} (h : IsDigitRun run) :
    ∃ s : Segment, s.chars = run := by
  refine ⟨⟨run, h.1, fun c hc => ?_⟩, rfl⟩
  simp only [Char.isDigit, Bool.and_eq_true, decide_eq_true_eq]
  exact h.2 c hc

/-! ### The number of a segment -/

/-- A decimal digit has the value that its distance from `0` tells. -/
theorem digit?_of_isDigit {c : Char} (h : c.isDigit = true) :
    Numeral.digit? c.toNat = some (c.toNat - '0'.toNat) := by
  simp only [Char.isDigit, Bool.and_eq_true, decide_eq_true_eq] at h
  have h1 : 48 ≤ c.toNat := UInt32.le_iff_toNat_le.mp h.1
  have h2 : c.toNat ≤ 57 := UInt32.le_iff_toNat_le.mp h.2
  rw [Numeral.digit?, if_pos ⟨h1, h2⟩]
  rfl

theorem figures_eq (s : Segment) : s.figures = s.chars.map fun c => c.toNat - '0'.toNat :=
  List.filterMap_eq_map_iff_forall_eq_some.mpr fun c hc => digit?_of_isDigit (s.isDigit c hc)

/-- The number that a segment denotes is that of its digits in the decimal system. -/
theorem value_eq (s : Segment) : s.value = Nat.ofDigitChars 10 s.chars 0 := by
  rw [value, Numeral.value, figures_eq, List.foldl_map, Nat.ofDigitChars_eq_foldl]

theorem value_ofUInt64 (n : UInt64) : (ofUInt64 n).value = n.toNat := by
  rw [value_eq]
  exact Nat.ofDigitChars_ten_toDigits

/-- Zeros in front of a segment leave its number as it is. -/
theorem value_eq_of_zeros {zeros : Nat} (h : t.chars = List.replicate zeros '0' ++ s.chars) :
    t.value = s.value := by
  rw [value_eq, value_eq, h, Nat.ofDigitChars_append, Nat.ofDigitChars_replicate_zero, Nat.mul_zero]

/-! ### The block of a segment -/

/-- To read digit after digit within 64 bits comes to the same as to look at the number of all of
them, whatever their count. -/
theorem block?_eq (s : Segment) : s.block? = Block.ofNat? s.value := by
  rw [block?, Numeral.bounded?_eq, ← value]
  split
  · rfl
  · next h => exact (if_neg h).symm

/-- The block of a segment, whatever its length: that of the number denoted. -/
theorem block?_eq_some_iff {b : Block} : s.block? = some b ↔ s.value = b.height.toNat := by
  rw [block?_eq, Block.ofNat?_eq_some_iff]

theorem block?_eq_none_iff : s.block? = none ↔ 2 ^ 64 ≤ s.value := by
  rw [block?_eq, Block.ofNat?_eq_none_iff]
  exact Iff.rfl

/-- The segment that is written for a block denotes that block. -/
@[simp] theorem block?_ofUInt64 (b : Block) : (ofUInt64 b.height).block? = some b :=
  block?_eq_some_iff.mpr (value_ofUInt64 b.height)

theorem text_ofUInt64 (b : Block) : (ofUInt64 b.height).text = b.text :=
  rfl

theorem map_height_block? (s : Segment) :
    (s.block?.map fun block => block.height.toNat) =
      if s.value < 2 ^ 64 then some s.value else none := by
  cases h : s.block? with
  | none => exact (if_neg (Nat.not_lt.mpr (block?_eq_none_iff.mp h))).symm
  | some block =>
    have hvalue := block?_eq_some_iff.mp h
    rw [Option.map_some, if_pos (hvalue ▸ block.height.toNat_lt), hvalue]

/-! ### Zeros in front -/

/-- The segment has no superfluous zero in front: it is zero, or does not begin with one. -/
def IsPlain (s : Segment) : Prop :=
  s.text = "0" ∨ s.chars.head? ≠ some '0'

instance : DecidablePred IsPlain :=
  fun s => inferInstanceAs (Decidable (s.text = "0" ∨ s.chars.head? ≠ some '0'))

theorem isPlain_ofUInt64 (n : UInt64) : (ofUInt64 n).IsPlain := by
  by_cases hn : n = 0
  · subst hn
    exact Or.inl rfl
  · refine Or.inr (head?_toDigits_ne fun hzero => hn ?_)
    exact UInt64.toNat_inj.mp hzero

/-- The segment that is written for the number of another one is the same segment only if that is
plain. -/
theorem ofUInt64_eq_iff {n : UInt64} (h : s.value = n.toNat) : ofUInt64 n = s ↔ s.IsPlain := by
  constructor
  · rintro rfl
    exact isPlain_ofUInt64 n
  · intro hplain
    have hzero (hhead : s.chars.head? = some '0') : s.chars = ['0'] :=
      String.ofList_injective (hplain.resolve_right (not_not_intro hhead))
    apply chars_injective
    calc (ofUInt64 n).chars
        = Nat.toDigits 10 s.value := by rw [h]; rfl
      _ = s.chars := by rw [value_eq, toDigits_ofDigitChars s.isDigitRun hzero]

/-! ### Runs of digits as 64-bit numbers -/

/-- Digits remain a segment when zeros are put in front of them, and are read as before. -/
theorem exists_padded (s : Segment) (zeros : Nat) :
    ∃ padded, ofChars? (List.replicate zeros '0' ++ s.chars) = some padded ∧
      padded.block? = s.block? := by
  obtain ⟨padded, hpadded⟩ := exists_of_isDigitRun (s.isDigitRun.replicate_append zeros)
  refine ⟨padded, ofChars?_eq_some_iff.mpr hpadded, ?_⟩
  rw [block?_eq, block?_eq, value_eq_of_zeros hpadded]

/-- **Segments as 64-bit numbers.** Every nonempty run of digits is a segment. It is read as a
64-bit number just if the number that it denotes in the decimal system is below `2 ^ 64`, and then
as this number; zeros in front of it change nothing in that, however many they are. What is written
for a 64-bit number is a segment and is read as that number. Of the segments that are read as some
number, the one that is written for it is the one without a superfluous zero in front. -/
theorem decimal_reading :
    (∀ run, IsDigitRun run →
      let number := Nat.ofDigitChars 10 run 0
      ∃ s, ofChars? run = some s ∧
        (s.block?.map fun block => block.height.toNat) =
          (if number < 2 ^ 64 then some number else none) ∧
        ∀ zeros, ∃ padded, ofChars? (List.replicate zeros '0' ++ run) = some padded ∧
          padded.block? = s.block?) ∧
    (∀ n : UInt64, ofChars? (ofUInt64 n).text.toList = some (ofUInt64 n) ∧
      (ofUInt64 n).block? = some ⟨n⟩) ∧
    ∀ (s : Segment) (n : UInt64), s.block? = some ⟨n⟩ → (ofUInt64 n = s ↔ s.IsPlain) := by
  refine ⟨fun run hrun => ?_, fun n => ⟨?_, block?_ofUInt64 ⟨n⟩⟩,
    fun s n h => ofUInt64_eq_iff (block?_eq_some_iff.mp h)⟩
  · obtain ⟨s, rfl⟩ := exists_of_isDigitRun hrun
    refine ⟨s, ofChars?_chars s, ?_, s.exists_padded⟩
    rw [← value_eq]
    exact s.map_height_block?
  · rw [text, String.toList_ofList, ofChars?_chars]

/-- The greatest 64-bit number is read with zeros in front, too; the number behind it is not, with
any zeros in front. -/
theorem decimal_reading_greatest :
    ∃ s t, ofChars? "00018446744073709551615".toList = some s ∧
      s.block? = some ⟨18446744073709551615⟩ ∧ ofUInt64 18446744073709551615 ≠ s ∧
      ofChars? "18446744073709551616".toList = some t ∧
      ∀ zeros, ∃ padded, ofChars? (List.replicate zeros '0' ++ t.chars) = some padded ∧
        padded.block? = none := by
  obtain ⟨hruns, _, hplain⟩ := decimal_reading
  obtain ⟨s, hs, hgreatest, _⟩ := hruns "00018446744073709551615".toList
    (isDigitRun ⟨_, by decide, List.all_eq_true.mp (by decide)⟩)
  obtain ⟨t, ht, hnext, hpadded⟩ := hruns "18446744073709551616".toList
    (isDigitRun ⟨_, by decide, List.all_eq_true.mp (by decide)⟩)
  rw [if_pos (by decide +kernel)] at hgreatest
  rw [if_neg (by decide +kernel), Option.map_eq_none_iff] at hnext
  obtain ⟨block, hblock, hheight⟩ := Option.map_eq_some_iff.mp hgreatest
  obtain rfl : block = ⟨18446744073709551615⟩ := Block.ext_toNat (hheight.trans (by decide +kernel))
  have hzeros : ¬s.IsPlain := by
    rw [IsPlain, text, ofChars?_eq_some_iff.mp hs]
    decide +kernel
  refine ⟨s, t, hs, hblock, mt (hplain s _ hblock).mp hzeros, ht, fun zeros => ?_⟩
  obtain ⟨padded, hread, hsame⟩ := hpadded zeros
  exact ⟨padded, ofChars?_eq_some_iff.mp ht ▸ hread, hsame.trans hnext⟩

end ListingSnapshot.Segment
