import ListingSnapshot.Proofs.Identifier.Pieces
import Mathlib.Tactic.SplitIfs

/-!
# Which texts are identifiers

Reading looks at the number of pieces first and then at the pieces in order. So there are three
outcomes: a wrong number is reported whatever the pieces are; of the pieces that are no runs of
digits the first one is reported, with its place; and a text without either fault is the string
form of the identifier that is read from it.

## Main results

* `Identifier.exists_segmentsFrom_eq_error`: the first piece that is no run of digits is reported.
* `Identifier.exists_parse_eq_ok`: a text that follows the grammar is read.
* `Identifier.parse_grammar`: reading and writing are inverse, and the errors of reading.
-/

namespace ListingSnapshot

namespace Identifier

/-! ### Pieces of a text -/

/-- There is one more piece than there are marks between them. -/
theorem length_splitOn (mark : Char) (cs : List Char) :
    (cs.splitOn mark).length = cs.count mark + 1 := by
  induction cs with
  | nil => rfl
  | cons c cs ih =>
    rw [List.splitOn_cons_eq_if_modifyHead, List.count_cons]
    split_ifs
    · rw [List.length_cons, ih]
    · rw [List.length_modifyHead, ih, Nat.add_zero]

/-! ### Pieces that are no segments -/

theorem segmentAt_eq_error {position : Nat} {piece : List Char} (h : ¬IsDigitRun piece) :
    segmentAt position piece = .error (.invalidSegment position (String.ofList piece)) := by
  have hnone : Segment.ofChars? piece = none := by
    rw [Option.eq_none_iff_forall_ne_some]
    intro s hs
    rw [Segment.ofChars?_eq_some_iff] at hs
    exact h (hs ▸ s.isDigitRun)
  rw [segmentAt, hnone]

/-- Of pieces that are not all runs of digits, the first that is none is reported, with its
place. -/
theorem exists_segmentsFrom_eq_error {pieces : List (List Char)} (position : Nat)
    (h : ¬∀ piece ∈ pieces, IsDigitRun piece) :
    ∃ i piece, pieces[i]? = some piece ∧ ¬IsDigitRun piece ∧
      (∀ earlier ∈ pieces.take i, IsDigitRun earlier) ∧
      segmentsFrom position pieces =
        .error (.invalidSegment (position + i) (String.ofList piece)) := by
  induction pieces generalizing position with
  | nil => exact absurd (List.forall_mem_nil _) h
  | cons piece pieces ih =>
    by_cases hpiece : IsDigitRun piece
    · -- The piece is read, and the first bad one is that of the others.
      obtain ⟨s, rfl⟩ := Segment.exists_of_isDigitRun hpiece
      obtain ⟨i, bad, hi, hbad, hearlier, herror⟩ :=
        ih (position + 1) fun hall => h (List.forall_mem_cons.mpr ⟨hpiece, hall⟩)
      refine ⟨i + 1, bad, hi, hbad, List.forall_mem_cons.mpr ⟨hpiece, hearlier⟩, ?_⟩
      rw [segmentsFrom, segmentAt_chars, herror, Nat.add_right_comm]
      rfl
    · refine ⟨0, piece, rfl, hpiece, List.forall_mem_nil _, ?_⟩
      rw [segmentsFrom, segmentAt_eq_error hpiece]
      rfl

/-- Pieces that are runs of digits are read. -/
theorem exists_segmentsFrom_eq_ok {pieces : List (List Char)} (position : Nat)
    (h : ∀ piece ∈ pieces, IsDigitRun piece) :
    ∃ segments, segmentsFrom position pieces = .ok segments := by
  simp only [segmentsFrom_eq_ok_iff]
  induction pieces with
  | nil => exact ⟨[], rfl⟩
  | cons piece pieces ih =>
    rw [List.forall_mem_cons] at h
    obtain ⟨s, rfl⟩ := Segment.exists_of_isDigitRun h.1
    obtain ⟨segments, rfl⟩ := ih h.2
    exact ⟨s :: segments, rfl⟩

/-! ### The outcomes of reading -/

theorem isHistorical_iff_length (id : Identifier) :
    id.isHistorical = true ↔ id.pieces.length = 4 := by
  obtain ⟨network, contract, index, snapshot?⟩ := id
  cases snapshot? <;> simp [isHistorical, pieces]

section Parse

variable {text : String} (hlen : (text.toList.splitOn separator).length = 3 ∨
  (text.toList.splitOn separator).length = 4)

include hlen

theorem exists_parse_eq_error
    (h : ¬∀ piece ∈ text.toList.splitOn separator, IsDigitRun piece) :
    ∃ i piece, (text.toList.splitOn separator)[i]? = some piece ∧ ¬IsDigitRun piece ∧
      (∀ earlier ∈ (text.toList.splitOn separator).take i, IsDigitRun earlier) ∧
      parse text = .error (.invalidSegment i (String.ofList piece)) := by
  obtain ⟨i, piece, hi, hbad, hearlier, herror⟩ := exists_segmentsFrom_eq_error 0 h
  rw [Nat.zero_add] at herror
  exact ⟨i, piece, hi, hbad, hearlier, parse_of_segmentsFrom_error hlen herror⟩

/-- A text that follows the grammar is read, as the identifier whose string form it is. -/
theorem exists_parse_eq_ok (h : ∀ piece ∈ text.toList.splitOn separator, IsDigitRun piece) :
    ∃ id, parse text = .ok id ∧ id.text = text ∧
      (id.isHistorical = true ↔ (text.toList.splitOn separator).length = 4) := by
  obtain ⟨segments, hsegments⟩ := exists_segmentsFrom_eq_ok 0 h
  obtain ⟨id, _, hid, htext⟩ := exists_of_segmentsFrom hlen hsegments
  refine ⟨id, hid, htext, ?_⟩
  rw [isHistorical_iff_length, ← splitOn_chars, ← toList_text, htext]

/-- Segments that were read are enough for an identifier, so that the length of the text is never
complained of after the pieces have been looked at. -/
theorem isSome_ofSegments? {segments : List Segment}
    (h : segmentsFrom 0 (text.toList.splitOn separator) = .ok segments) :
    (ofSegments? segments).isSome := by
  obtain ⟨id, rfl, _⟩ := exists_of_segmentsFrom hlen h
  rw [ofSegments?_segments]
  rfl

end Parse

theorem text_injective : Function.Injective text := by
  intro a b h
  exact Except.ok.inj ((parse_text a).symm.trans (h ▸ parse_text b))

/-- **The grammar of identifiers.** A text with neither three nor four pieces between its dashes is
reported with the number of them. Of the pieces of another text, the first that is no run of digits
is reported. If all are runs of digits, reading succeeds with an identifier whose string form is the
text, a snapshot if there are four pieces; the segments that were read always suffice. Conversely
every identifier, however its segments were made, is read from its string form, which therefore
tells identifiers apart. -/
theorem parse_grammar :
    (∀ text : String,
      let pieces := text.toList.splitOn '-'
      pieces.length = text.toList.count '-' + 1 ∧
      (pieces.length ≠ 3 → pieces.length ≠ 4 →
        parse text = .error (.segmentCount pieces.length)) ∧
      (pieces.length = 3 ∨ pieces.length = 4 →
        ((¬∀ piece ∈ pieces, IsDigitRun piece) →
          ∃ i piece, pieces[i]? = some piece ∧ ¬IsDigitRun piece ∧
            (∀ earlier ∈ pieces.take i, IsDigitRun earlier) ∧
            parse text = .error (.invalidSegment i (String.ofList piece))) ∧
        ((∀ piece ∈ pieces, IsDigitRun piece) →
          ∃ id, parse text = .ok id ∧ id.text = text ∧
            (id.isHistorical = true ↔ pieces.length = 4)) ∧
        ∀ segments, segmentsFrom 0 pieces = .ok segments → (ofSegments? segments).isSome)) ∧
    (∀ id : Identifier, parse id.text = .ok id) ∧
    Function.Injective Identifier.text := by
  refine ⟨fun text => ⟨length_splitOn '-' text.toList, ?_, ?_⟩, parse_text, text_injective⟩
  · intro h3 h4
    exact parse_of_length fun h => h.elim h3 h4
  · intro hlen
    exact ⟨exists_parse_eq_error hlen, exists_parse_eq_ok hlen, fun _ => isSome_ofSegments? hlen⟩

/-- The number of pieces is checked before any of them, and of two bad pieces the first is
reported. -/
example : parse "1-x" = .error (.segmentCount 2) ∧
    parse "1-x-" = .error (.invalidSegment 1 "x") := by
  decide +kernel

end Identifier

end ListingSnapshot
