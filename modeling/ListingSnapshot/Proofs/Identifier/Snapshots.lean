import ListingSnapshot.Proofs.Identifier.Pieces

/-!
# Snapshots and the listing they are taken of

An identifier of a snapshot is that of the live listing with one more segment behind it. Pinning to
a block writes that segment anew, and going back to the live listing takes it away; neither touches
the coordinates, whatever digits they are written with.

## Main results

* `Identifier.text_eq_current_text_append`: the string form of a snapshot.
* `Identifier.text_atBlock`, `Identifier.snapshotBlock?_atBlock`: pinning.
* `Identifier.sameListing_iff`: identifiers of the same listing are those with the same live one.
-/

namespace ListingSnapshot

namespace Identifier

/-! ### Texts of snapshots -/

/-- A snapshot is written as the live listing, with a dash and the segment of the block behind. -/
theorem text_eq_current_text_append {id : Identifier} {block : Segment}
    (h : id.snapshot? = some block) : id.text = id.current.text ++ "-" ++ block.text := by
  obtain ⟨network, contract, index, snapshot?⟩ := id
  subst h
  simp [text, chars, current, separator, Segment.text, String.ofList_append,
    String.append_assoc]

theorem current_eq_self {id : Identifier} (h : id.isHistorical = false) : id.current = id := by
  rw [isHistorical, Option.isSome_eq_false_iff, Option.isNone_iff_eq_none] at h
  rw [current, ← h]

/-! ### Pinning -/

section Pinning

variable (id : Identifier) (block : Block)

@[simp] theorem current_current : id.current.current = id.current :=
  rfl

@[simp] theorem current_atBlock : (id.atBlock block).current = id.current :=
  rfl

@[simp] theorem snapshotBlock?_atBlock : (id.atBlock block).snapshotBlock? = some block :=
  Segment.block?_ofUInt64 block

theorem text_atBlock : (id.atBlock block).text = id.current.text ++ "-" ++ block.text := by
  rw [← Segment.text_ofUInt64]
  exact text_eq_current_text_append rfl

end Pinning

/-! ### The same listing -/

/-- Identifiers of the same listing are those with the same live one. -/
theorem sameListing_iff {a b : Identifier} :
    a.sameListing b = true ↔ a.current = b.current := by
  simp [sameListing, current]

end Identifier

end ListingSnapshot
