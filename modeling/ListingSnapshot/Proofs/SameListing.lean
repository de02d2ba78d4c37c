import ListingSnapshot.Proofs.Identifier.Grammar
import ListingSnapshot.Proofs.Pinning
import Mathlib.Logic.Relation
import Mathlib.Tactic.TFAE

/-!
# The identity of a listing

Whether two identifiers are of the same listing is decided by the digits that their coordinates are
written with, and so it is the same question for the live identifiers, for their texts and for the
snapshots at any block. Whether a snapshot is current is decided by the number that its last segment
denotes. So zeros in front make another identifier of the same snapshot, on which nothing else is
reported but its own text.

## Main results

* `Identifier.sameListing_tfae`: the same listing, in other words.
* `Identifier.atBlock_eq_self_iff`: a snapshot that is pinned to its own block.
* `Listing.currency_respelled`: the currency of two spellings of a snapshot.
* `Identifier.sameListing_identity`: identity and spelling.
-/

namespace ListingSnapshot

namespace Identifier

/-! ### The same listing -/

theorem equivalence_sameListing : Equivalence fun a b : Identifier => a.sameListing b = true := by
  simp only [sameListing_iff]
  exact eq_equivalence.comap current

/-- A snapshot at a block is known by the listing that it is taken of. -/
theorem atBlock_eq_atBlock_iff {a b : Identifier} (block : Block) :
    a.atBlock block = b.atBlock block ↔ a.current = b.current :=
  ⟨congrArg current, congrArg (atBlock · block)⟩

/-- Identifiers of the same listing are those with the same live one, which can be told from its
text, and those that become equal when they are pinned to some block, or to any. -/
theorem sameListing_tfae (a b : Identifier) :
    [a.sameListing b = true, a.current = b.current, a.current.text = b.current.text,
      ∃ block, a.atBlock block = b.atBlock block,
      ∀ block, a.atBlock block = b.atBlock block].TFAE := by
  tfae_have 1 ↔ 2 := sameListing_iff
  tfae_have 3 ↔ 2 := text_injective.eq_iff
  tfae_have 2 → 5 := fun h block => (atBlock_eq_atBlock_iff block).mpr h
  tfae_have 5 → 4 := fun h => ⟨⟨0⟩, h ⟨0⟩⟩
  tfae_have 4 → 2 := fun ⟨block, h⟩ => (atBlock_eq_atBlock_iff block).mp h
  tfae_finish

theorem eq_iff_sameListing {a b : Identifier} : a = b ↔ a.sameListing b = true ∧
    a.snapshot?.map Segment.text = b.snapshot?.map Segment.text := by
  rw [sameListing_iff, (Option.map_injective Segment.text_injective).eq_iff]
  constructor
  · rintro rfl
    exact ⟨rfl, rfl⟩
  · rintro ⟨hcurrent, hsnapshot⟩
    cases a
    cases b
    cases hcurrent
    cases hsnapshot
    rfl

/-! ### Pinning a snapshot to its own block -/

section OwnBlock

variable {id : Identifier} {block : Block}

theorem exists_of_snapshotBlock? (h : id.snapshotBlock? = some block) :
    ∃ s, id.snapshot? = some s ∧ s.value = block.height.toNat := by
  obtain ⟨s, hs, hblock⟩ := Option.bind_eq_some_iff.mp h
  exact ⟨s, hs, Segment.block?_eq_some_iff.mp hblock⟩

theorem isHistorical_of_snapshotBlock? (h : id.snapshotBlock? = some block) :
    id.isHistorical = true := by
  obtain ⟨s, hs, _⟩ := exists_of_snapshotBlock? h
  exact Option.isSome_of_eq_some hs

theorem sameListing_atBlock (id : Identifier) (block : Block) :
    (id.atBlock block).sameListing id = true :=
  sameListing_iff.mpr (id.current_atBlock block)

/-- A snapshot that is pinned to its own block stays as it is, unless there are superfluous zeros in
front of the segment of the block. -/
theorem atBlock_eq_self_iff (h : id.snapshotBlock? = some block) :
    id.atBlock block = id ↔ ∀ s ∈ id.snapshot?, s.IsPlain := by
  obtain ⟨s, hs, hvalue⟩ := exists_of_snapshotBlock? h
  have hmem : (∀ t ∈ id.snapshot?, t.IsPlain) ↔ s.IsPlain := by
    rw [hs]
    exact ⟨fun h => h s rfl, fun h t ht => Option.some.inj ht ▸ h⟩
  rw [hmem, ← Segment.ofUInt64_eq_iff hvalue, eq_iff_sameListing, hs]
  rw [and_iff_right (id.sameListing_atBlock block)]
  exact (Option.map_injective Segment.text_injective).eq_iff.trans (Option.some.injEq _ _).to_iff

end OwnBlock

end Identifier

/-! ### Reports on two spellings -/

namespace Listing

section Respelled

variable {a b : Identifier} (events : List Event)

theorem snapshot?_of_text (id : Identifier) :
    (Listing.mk id.text events).snapshot? = if id.isHistorical then some id else none := by
  have hid : (Listing.mk id.text events).identifier? = some id :=
    Identifier.parse?_eq_some_iff.mpr rfl
  rw [snapshot?, hid, Option.filter_some]

theorem isHistorical_of_text (id : Identifier) :
    (Listing.mk id.text events).isHistorical = id.isHistorical := by
  rw [isHistorical, snapshot?_of_text]
  cases id.isHistorical <;> rfl

variable (hhistorical : a.isHistorical = b.isHistorical)

include hhistorical

theorem currentId?_respelled (hcurrent : a.current = b.current) :
    (Listing.mk a.text events).currentId? = (Listing.mk b.text events).currentId? := by
  rw [currentId?, currentId?, snapshot?_of_text, snapshot?_of_text, hhistorical]
  cases b.isHistorical with
  | false => rfl
  | true => simp only [if_true, Option.map_some, hcurrent]

/-- How it is settled whether a snapshot is current depends on the block, but not on how the segment
of the block is written. -/
theorem currency_respelled (hblock : a.snapshotBlock? = b.snapshotBlock?) (policy : Policy) :
    (Listing.mk a.text events).currency policy = (Listing.mk b.text events).currency policy := by
  have hlatest : (Listing.mk a.text events).latestBlock? =
      (Listing.mk b.text events).latestBlock? := rfl
  rw [currency, currency, snapshot?_of_text, snapshot?_of_text, hhistorical, hlatest]
  cases b.isHistorical with
  | false => rfl
  | true => simp only [if_true, hblock]

end Respelled

/-- What is settled alike is answered alike, as far as there is an answer. -/
theorem toOption_isCurrent_congr {policy : Policy} {listing listing' : Listing}
    (h : listing.currency policy = listing'.currency policy) :
    (listing.isCurrent policy).toOption = (listing'.isCurrent policy).toOption := by
  rw [isCurrent, isCurrent, h]
  cases listing'.currency policy <;> rfl

end Listing

/-! ### Identity and spelling -/

namespace Identifier

/-- **The identity of a listing.** To be of the same listing is an equivalence of identifiers. It
comes to the same as having equal live identifiers, equal texts of these, or equal snapshots at some
block or at any. Identifiers are equal if besides that their snapshot segments are written alike. A
snapshot of a block that is pinned to this block is one of the same listing and of the same block,
and it is the same identifier unless the segment has a superfluous zero in front. In any case the
two listings with these identifiers and one log have the same standing in their reports. -/
theorem sameListing_identity :
    (Equivalence fun a b : Identifier => a.sameListing b = true) ∧
      (∀ a b : Identifier,
        [a.sameListing b = true, a.current = b.current, a.current.text = b.current.text,
          ∃ block, a.atBlock block = b.atBlock block,
          ∀ block, a.atBlock block = b.atBlock block].TFAE ∧
        (a = b ↔ a.sameListing b = true ∧
          a.snapshot?.map Segment.text = b.snapshot?.map Segment.text)) ∧
      ∀ (id : Identifier) (block : Block), id.snapshotBlock? = some block →
        id.isHistorical = true ∧ (id.atBlock block).sameListing id = true ∧
          (id.atBlock block).snapshotBlock? = some block ∧
          (id.atBlock block = id ↔ ∀ s ∈ id.snapshot?, s.IsPlain) ∧
          ∀ policy events,
            let report := Listing.resolve policy ⟨id.text, events⟩
            let pinned := Listing.resolve policy ⟨(id.atBlock block).text, events⟩
            pinned.historical = report.historical ∧ pinned.currentId? = report.currentId? ∧
              pinned.isCurrent? = report.isCurrent? ∧
              pinned.latestBlock? = report.latestBlock? := by
  refine ⟨equivalence_sameListing, fun a b => ⟨sameListing_tfae a b, eq_iff_sameListing⟩,
    fun id block h => ?_⟩
  have hhistorical : (id.atBlock block).isHistorical = id.isHistorical :=
    (isHistorical_of_snapshotBlock? h).symm
  have hblock : (id.atBlock block).snapshotBlock? = id.snapshotBlock? :=
    (id.snapshotBlock?_atBlock block).trans h.symm
  refine ⟨isHistorical_of_snapshotBlock? h, id.sameListing_atBlock block,
    id.snapshotBlock?_atBlock block, atBlock_eq_self_iff h, fun policy events => ?_⟩
  dsimp only [Listing.resolve]
  refine ⟨?_, Listing.currentId?_respelled events hhistorical (id.current_atBlock block),
    Listing.toOption_isCurrent_congr
      (Listing.currency_respelled events hhistorical hblock policy), rfl⟩
  rw [Listing.isHistorical_of_text, Listing.isHistorical_of_text, hhistorical]

/-- A snapshot of the block 7 with two zeros in front of it is another identifier than the one that
it is pinned to, and is current as that is. -/
theorem sameListing_identity_leading_zeros :
    ∃ id : Identifier, id.text = "01-2-3-007" ∧ id.snapshotBlock? = some ⟨7⟩ ∧
      (id.atBlock ⟨7⟩).text = "01-2-3-7" ∧ id.atBlock ⟨7⟩ ≠ id ∧
      (id.atBlock ⟨7⟩).sameListing id = true ∧
      (Listing.resolve .reject ⟨(id.atBlock ⟨7⟩).text, [⟨⟨7⟩, none⟩]⟩).isCurrent? =
        (Listing.resolve .reject ⟨id.text, [⟨⟨7⟩, none⟩]⟩).isCurrent? := by
  let digits (cs : List Char) (hne : cs ≠ []) (h : cs.all Char.isDigit = true) : Segment :=
    ⟨cs, hne, List.all_eq_true.mp h⟩
  let id : Identifier := ⟨digits ['0', '1'] (by decide) (by decide), .ofUInt64 2, .ofUInt64 3,
    some (digits ['0', '0', '7'] (by decide) (by decide))⟩
  have hblock : id.snapshotBlock? = some ⟨7⟩ := by decide +kernel
  obtain ⟨_, _, hpinned⟩ := sameListing_identity
  obtain ⟨_, hsame, _, hself, hreports⟩ := hpinned id ⟨7⟩ hblock
  obtain ⟨_, _, hcurrent, _⟩ := hreports .reject [⟨⟨7⟩, none⟩]
  have hplain : ¬∀ s ∈ id.snapshot?, s.IsPlain := by decide +kernel
  exact ⟨id, by decide +kernel, hblock, by decide +kernel, mt hself.mp hplain, hsame, hcurrent⟩

end Identifier

end ListingSnapshot
