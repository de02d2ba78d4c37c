import ListingSnapshot.Stream.Record
import Mathlib.Data.List.DropRight

/-!
# The records of a text

A source hands out its bytes in chunks, and the lines are assembled byte by byte. What comes of it
does not depend on the chunks: the records are the pieces of the whole text between line feeds,
without the blanks at their ends and without those pieces that are blank.

## Main definitions

* `Record.pieces`: the bytes of the records of a text.
* `Source.cut`: what stands between the line feeds of a source.

## Main results

* `Intake.pieces_chunk`: the lines assembled so far are the pieces between the line feeds so far.
* `Source.records_eq`: the records of a source are those on what stands between its line feeds.
* `Source.map_bytes_records`: the records of a source are those of all that it hands out.
-/

namespace ListingSnapshot

/-! ### Assembling lines -/

namespace Intake

/-- Taking in bytes cuts them at their line feeds; what stands in front of the first of them
continues the pending line. -/
theorem pieces_chunk (intake : Intake) (bytes : Bytes) :
    (intake.chunk bytes).closed ++ [(intake.chunk bytes).pending.reverse] =
      intake.closed ++ (bytes.splitOn Text.lineFeed).modifyHead (intake.pending.reverse ++ ·) := by
  induction bytes generalizing intake with
  | nil => simp [chunk]
  | cons b bytes ih =>
    have hstep : intake.chunk (b :: bytes) = (intake.byte b).chunk bytes := rfl
    rw [hstep, ih, List.splitOn_cons_eq_if_modifyHead]
    by_cases hb : b = Text.lineFeed
    · simp only [byte, hb, closed, ↓reduceIte, List.reverse_nil, List.nil_append, beq_self_eq_true,
        List.modifyHead_cons, List.reverse_cons, List.append_assoc, List.cons_append,
        List.append_nil]
      exact congrArg _ (congrArg _ (congrFun List.modifyHead_id _))
    · simp [byte, hb, closed, List.modifyHead_modifyHead, Function.comp_def]

theorem pieces_empty_chunk (bytes : Bytes) :
    (empty.chunk bytes).closed ++ [(empty.chunk bytes).pending.reverse] =
      bytes.splitOn Text.lineFeed := by
  rw [pieces_chunk]
  exact congrFun List.modifyHead_id _

end Intake

/-! ### Records -/

namespace Record

/-- A line without the blanks at its ends. -/
def trimmed (line : Bytes) : Bytes :=
  (line.dropWhile (· ∈ [0x09, 0x0A, 0x0C, 0x0D, 0x20])).rdropWhile
    (· ∈ [0x09, 0x0A, 0x0C, 0x0D, 0x20])

theorem strip_isBlank (line : Bytes) : Text.strip isBlank line = trimmed line := by
  have h : isBlank = fun b => decide (b ∈ [0x09, 0x0A, 0x0C, 0x0D, 0x20]) := by
    funext b
    simp [isBlank, Bool.or_assoc]
  rw [Text.strip, Text.stripEnd, trimmed, List.rdropWhile, h]

/-- What stands on the lines of a text between the blanks, line after line, without the lines that
are blank. -/
def pieces (text : Bytes) : List Bytes :=
  ((text.splitOn Text.lineFeed).map trimmed).filter fun piece => !piece.isEmpty

theorem ofLines_append (first : Nat) (lines others : List Bytes) :
    ofLines first (lines ++ others) =
      ofLines first lines ++ ofLines (first + lines.length) others := by
  induction lines generalizing first with
  | nil => rfl
  | cons line lines ih =>
    rw [List.cons_append, ofLines, ih, ofLines, List.append_assoc, List.length_cons,
      Nat.add_right_comm, Nat.add_assoc first]

/-- An empty line behind the others is blank. -/
theorem ofLines_concat_nil (first : Nat) (lines : List Bytes) :
    ofLines first (lines ++ [[]]) = ofLines first lines := by
  rw [ofLines_append]
  exact List.append_nil _

theorem map_bytes_ofLines (first : Nat) (lines : List Bytes) :
    (ofLines first lines).map bytes = (lines.map trimmed).filter fun piece => !piece.isEmpty := by
  induction lines generalizing first with
  | nil => rfl
  | cons line lines ih =>
    rw [ofLines, List.map_append, ih, ofLine?, strip_isBlank]
    by_cases h : (trimmed line).isEmpty <;> simp [h]

end Record

namespace Source

/-- What stands between the line feeds; what is behind the last of them is lost if the source breaks
off. -/
def cut (source : Source) : List Bytes :=
  match source.fault? with
  | none => source.chunks.flatten.splitOn Text.lineFeed
  | some _ => (source.chunks.flatten.splitOn Text.lineFeed).dropLast

theorem closed_intake (source : Source) :
    source.intake.closed = (source.chunks.flatten.splitOn Text.lineFeed).dropLast := by
  rw [intake_eq, ← Intake.pieces_empty_chunk, List.dropLast_concat]

/-- The records are those on what stands between the line feeds: if nothing is behind the last of
them, that is no record. -/
theorem records_eq (source : Source) : source.records = Record.ofLines 1 source.cut := by
  obtain ⟨chunks, fault?⟩ := source
  cases fault? with
  | some reason => exact congrArg (Record.ofLines 1) (closed_intake _)
  | none =>
    simp only [records, lines, cut, intake_eq, Intake.all, ← Intake.pieces_empty_chunk]
    generalize Intake.empty.chunk chunks.flatten = intake
    by_cases h : intake.pending.isEmpty
    · simp [List.isEmpty_iff.mp h, Record.ofLines_concat_nil]
    · simp [h]

/-- Wherever the chunks end, the records are the pieces of the whole. -/
theorem map_bytes_records (chunks : List Bytes) :
    (Source.mk chunks none).records.map Record.bytes = Record.pieces chunks.flatten := by
  rw [records_eq, Record.map_bytes_ofLines]
  rfl

end Source

end ListingSnapshot
