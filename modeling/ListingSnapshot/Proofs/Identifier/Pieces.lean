import ListingSnapshot.Identifier.Basic
import ListingSnapshot.Proofs.Identifier.Segments

/-!
# Identifiers and their string forms

The string form of an identifier is that of its segments, with a dash between any two. There is no
dash in a segment, so cutting the string at its dashes gives the segments back; and whatever is read
from a string is written as that string again.

## Main definitions

* `Identifier.pieces`: what stands between the dashes.

## Main results

* `Identifier.splitOn_chars`: cutting at the dashes.
* `Identifier.parse_eq_ok_iff`: reading is the inverse of writing.
-/

namespace ListingSnapshot

/-! ### Cutting at the dashes -/

theorem Segment.separator_notMem_chars (s : Segment) : Identifier.separator ∉ s.chars := by
  intro h
  exact absurd (s.isDigit _ h) (by decide)

namespace Identifier

/-- What stands between the dashes of the string form. -/
def pieces (id : Identifier) : List (List Char) :=
  id.network.chars :: id.contract.chars :: id.index.chars ::
    (id.snapshot?.map Segment.chars).toList

theorem intercalate_pieces (id : Identifier) : [separator].intercalate id.pieces = id.chars := by
  obtain ⟨network, contract, index, snapshot?⟩ := id
  cases snapshot? <;> simp [pieces, chars]

theorem separator_notMem_of_mem_pieces {id : Identifier} {piece : List Char}
    (h : piece ∈ id.pieces) : separator ∉ piece := by
  simp only [pieces, List.mem_cons, Option.mem_toList, Option.map_eq_some_iff] at h
  rcases h with rfl | rfl | rfl | ⟨s, _, rfl⟩
  all_goals exact Segment.separator_notMem_chars _

theorem splitOn_chars (id : Identifier) : id.chars.splitOn separator = id.pieces := by
  rw [← intercalate_pieces]
  exact List.splitOn_intercalate separator (fun _ => separator_notMem_of_mem_pieces)
    (List.cons_ne_nil _ _)

/-! ### Reading -/

theorem segmentAt_eq_ok_iff {position : Nat} {piece : List Char} {s : Segment} :
    segmentAt position piece = .ok s ↔ s.chars = piece := by
  rw [← Segment.ofChars?_eq_some_iff]
  unfold segmentAt
  cases Segment.ofChars? piece <;> simp

@[simp] theorem segmentAt_chars (position : Nat) (s : Segment) :
    segmentAt position s.chars = .ok s :=
  segmentAt_eq_ok_iff.mpr rfl

/-- Pieces are read as the segments that they spell. -/
theorem segmentsFrom_eq_ok_iff {position : Nat} {pieces : List (List Char)}
    {segments : List Segment} :
    segmentsFrom position pieces = .ok segments ↔ segments.map Segment.chars = pieces := by
  induction pieces generalizing position segments with
  | nil => cases segments <;> simp [segmentsFrom, pure, Except.pure]
  | cons piece pieces ih =>
    rw [segmentsFrom_cons_eq_ok_iff]
    constructor
    · rintro ⟨segment, others, hsegment, hothers, rfl⟩
      rw [List.map_cons, segmentAt_eq_ok_iff.mp hsegment, ih.mp hothers]
    · intro h
      obtain ⟨segment, others, rfl, hsegment, hothers⟩ := List.map_eq_cons_iff.mp h
      exact ⟨segment, others, segmentAt_eq_ok_iff.mpr hsegment, ih.mpr hothers, rfl⟩

/-- The segments in order. -/
def segments (id : Identifier) : List Segment :=
  id.network :: id.contract :: id.index :: id.snapshot?.toList

theorem map_chars_segments (id : Identifier) : id.segments.map Segment.chars = id.pieces := by
  obtain ⟨network, contract, index, snapshot?⟩ := id
  cases snapshot? <;> rfl

theorem ofSegments?_segments (id : Identifier) : ofSegments? id.segments = some id := by
  obtain ⟨network, contract, index, snapshot?⟩ := id
  cases snapshot? <;> rfl

/-- Three or four segments are those of an identifier. -/
theorem exists_segments_eq {segments : List Segment}
    (h : segments.length = 3 ∨ segments.length = 4) :
    ∃ id : Identifier, id.segments = segments := by
  rcases h with h | h
  · obtain ⟨network, contract, index, rfl⟩ := List.length_eq_three.mp h
    exact ⟨⟨network, contract, index, none⟩, rfl⟩
  · obtain ⟨network, others, rfl⟩ := List.exists_cons_of_length_eq_add_one h
    obtain ⟨contract, index, block, rfl⟩ := List.length_eq_three.mp (Nat.succ.inj h)
    exact ⟨⟨network, contract, index, some block⟩, rfl⟩

theorem length_pieces (id : Identifier) : id.pieces.length = 3 ∨ id.pieces.length = 4 := by
  obtain ⟨network, contract, index, snapshot?⟩ := id
  cases snapshot?
  · exact Or.inl rfl
  · exact Or.inr rfl

theorem toList_text (id : Identifier) : id.text.toList = id.chars :=
  String.toList_ofList

theorem parse_text (id : Identifier) : parse id.text = .ok id := by
  have hpieces : id.text.toList.splitOn separator = id.pieces := by
    rw [toList_text, splitOn_chars]
  refine parse_of_segmentsFrom ?_ ?_ id.ofSegments?_segments
  · rw [hpieces]
    exact id.length_pieces
  · rw [hpieces, segmentsFrom_eq_ok_iff, map_chars_segments]

/-- If the pieces of a text are those of an identifier, the text is its string form. -/
theorem text_eq_of_splitOn {id : Identifier} {text : String}
    (h : text.toList.splitOn separator = id.pieces) : id.text = text := by
  rw [Identifier.text, ← intercalate_pieces, ← h, List.intercalate_splitOn, String.ofList_toList]

/-- Segments that were read from as many pieces as an identifier has are those of an identifier. -/
theorem exists_of_segmentsFrom {text : String} {segments : List Segment}
    (hlen : (text.toList.splitOn separator).length = 3 ∨
      (text.toList.splitOn separator).length = 4)
    (h : segmentsFrom 0 (text.toList.splitOn separator) = .ok segments) :
    ∃ id, id.segments = segments ∧ parse text = .ok id ∧ id.text = text := by
  have hmap := segmentsFrom_eq_ok_iff.mp h
  obtain ⟨id, rfl⟩ : ∃ id : Identifier, id.segments = segments := by
    refine exists_segments_eq ?_
    rwa [← hmap, List.length_map] at hlen
  refine ⟨id, rfl, parse_of_segmentsFrom hlen h id.ofSegments?_segments, text_eq_of_splitOn ?_⟩
  rw [← hmap, map_chars_segments]

theorem text_eq_of_parse {id : Identifier} {text : String} (h : parse text = .ok id) :
    id.text = text := by
  by_cases hlen : (text.toList.splitOn separator).length = 3 ∨
      (text.toList.splitOn separator).length = 4
  · cases hs : segmentsFrom 0 (text.toList.splitOn separator) with
    | error e =>
      rw [parse_of_segmentsFrom_error hlen hs] at h
      cases h
    | ok segments =>
      obtain ⟨id', _, hid, htext⟩ := exists_of_segmentsFrom hlen hs
      rw [hid] at h
      obtain rfl := Except.ok.inj h
      exact htext
  · rw [parse_of_length hlen] at h
    cases h

/-- Reading is the inverse of writing. -/
theorem parse_eq_ok_iff {text : String} {id : Identifier} : parse text = .ok id ↔ id.text = text :=
  ⟨text_eq_of_parse, fun h => h ▸ parse_text id⟩

theorem parse?_eq_some_iff {text : String} {id : Identifier} :
    parse? text = some id ↔ id.text = text := by
  rw [← parse_eq_ok_iff, parse?]
  cases parse text <;> simp [Except.toOption]

end Identifier

end ListingSnapshot
