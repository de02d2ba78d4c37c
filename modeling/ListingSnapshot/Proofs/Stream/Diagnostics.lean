import ListingSnapshot.Proofs.Stream.Padding
import ListingSnapshot.Proofs.Stream.RoundTrip
import ListingSnapshot.Proofs.Wire.Diagnostics

/-!
# Diagnostics point into the record

The error in the report on a record ends in a line and a column. A record is read by itself, without
the lines around it and without the blanks at its ends, and that is what the two are about: so the
line is always the first, and the column is one of the record.

## Main results

* `Record.mem_records`: the bytes of a record are not empty, and there is no line feed among them.
* `Record.exists_error?_report`: the error in the report on a record that is no listing.
* `Run.ofSource_diagnostics`: the errors in the reports of a run.
-/

namespace ListingSnapshot

/-! ### Messages with a place -/

theorem Json.Diagnostic.message_of_position? {e : Diagnostic} {column : Nat}
    (h : e.position? = some ⟨1, column⟩) :
    e.message = e.cause.message ++ " at line 1 column " ++ toString column := by
  have hplace : " at line " ++ (toString 1 ++ " column ") = " at line 1 column " := rfl
  rw [message, h, ← hplace]
  simp only [String.append_assoc]

/-! ### Records -/

theorem Source.lineFeed_notMem_of_mem_cut {source : Source} {line : Bytes}
    (h : line ∈ source.cut) : Text.lineFeed ∉ line := by
  rw [cut] at h
  split at h
  · exact Text.lineFeed_notMem_of_mem_splitOn h
  · exact Text.lineFeed_notMem_of_mem_splitOn ((List.dropLast_sublist _).subset h)

namespace Record

theorem trimmed_sublist (line : Bytes) : (trimmed line).Sublist line :=
  (List.rdropWhile_prefix _ _).sublist.trans (List.dropWhile_suffix _).sublist

theorem mem_records {source : Source} {record : Record} (h : record ∈ source.records) :
    record.bytes ≠ [] ∧ Text.lineFeed ∉ record.bytes := by
  have hmem : record.bytes ∈ source.records.map bytes := List.mem_map_of_mem h
  rw [Source.records_eq, map_bytes_ofLines, List.mem_filter, List.mem_map] at hmem
  obtain ⟨⟨line, hline, htrimmed⟩, hne⟩ := hmem
  refine ⟨fun hnil => by simp [hnil] at hne, fun hfeed => ?_⟩
  rw [← htrimmed] at hfeed
  exact Source.lineFeed_notMem_of_mem_cut hline ((trimmed_sublist line).subset hfeed)

theorem exists_error?_report {source : Source} {record : Record} (h : record ∈ source.records)
    {e : Json.Diagnostic} (hlisting : record.listing = .error e) (policy : Policy) :
    ∃ column, 1 ≤ column ∧ column ≤ record.bytes.length ∧ (record.report policy).error? =
      some (e.cause.message ++ " at line 1 column " ++ toString column) := by
  obtain ⟨hne, hfeed⟩ := mem_records h
  obtain ⟨column, hone, hlast, hposition⟩ := Listing.exists_column hne hfeed hlisting
  refine ⟨column, hone, hlast, ?_⟩
  rw [report, hlisting, ← Json.Diagnostic.message_of_position? hposition]
  rfl

end Record

/-! ### The run -/

namespace Run

/-- **Diagnostics point into the record.** Whatever the source and the sink are like, the complete
lines that a run writes are the reports on the first records of the source, and those on all of them
if the sink has no limit. If a record is no listing, the error in its report says what is wrong and
then names a place, which is on line one and in a column of the record: at least the first, and at
most the one with the number of its bytes. -/
theorem ofSource_diagnostics (policy : Policy) (source : Source) (room? : Option (Nat × String))
    (flushFault? : Option String) :
    let run := ofSource policy source ⟨[], room?, flushFault?⟩
    let reports := source.records.map (Record.report policy)
    run.lines <+: reports.map Report.bytes ∧
      (room? = none → run.lines = reports.map Report.bytes) ∧
      ∀ record ∈ source.records, ∀ e, Json.decode Listing.reader record.bytes = .error e →
        ∃ column, 1 ≤ column ∧ column ≤ record.bytes.length ∧ (record.report policy).error? =
          some (e.cause.message ++ " at line 1 column " ++ toString column) := by
  intro run reports
  refine ⟨complete_prefix_map_report policy source room? flushFault?, ?_,
    fun record hrecord e hlisting => Record.exists_error?_report hrecord hlisting policy⟩
  rintro rfl
  rw [lines, written_of_room?_eq_none, replies, Report.splitOn_flatMap_line, List.dropLast_concat]

/-- What is wrong with an empty object is shown in one of its two columns. -/
theorem ofSource_diagnostics_empty_object :
    let source := Source.mk [Utf8.encode "\x7b\x7d\n".toList] none
    let record : Record := ⟨1, Utf8.encode "\x7b\x7d".toList⟩
    record ∈ source.records ∧
      ∃ e column, Json.decode Listing.reader record.bytes = .error e ∧ 1 ≤ column ∧ column ≤ 2 ∧
        (record.report .reject).error? =
          some (e.cause.message ++ " at line 1 column " ++ toString column) := by
  intro source record
  have hrecord : record ∈ source.records := by decide +kernel
  have hnone : (Json.decode Listing.reader record.bytes).toOption = none := by decide +kernel
  cases hlisting : Json.decode Listing.reader record.bytes with
  | ok listing =>
    rw [hlisting] at hnone
    cases hnone
  | error e =>
    obtain ⟨_, _, hdiagnostics⟩ := ofSource_diagnostics .reject source none none
    obtain ⟨column, hone, hlast, herror⟩ := hdiagnostics record hrecord e hlisting
    exact ⟨hrecord, e, column, rfl, hone, hlast, herror⟩

/-- A record that breaks the grammar, one that ends too early, one with a number for a text, one
that lacks a member, one that has it twice, and one with an event that is none. -/
example :
    let lines := ["?", " \x7b\"id\":\"\"", "[5]", "\x7b\x7d", "\x7b\"id\":\"\",\"id\":\"\"\x7d",
      "[\"\",[\x7b\x7d]]"]
    let source := Source.mk (lines.map fun line => Utf8.encode (line ++ "\n").toList) none
    source.records.map (fun record => (record.report .reject).error?) =
      ["expected value at line 1 column 1", "EOF while parsing an object at line 1 column 8",
        "invalid type: integer `5`, expected a string at line 1 column 2",
        "missing field `id` at line 1 column 2", "duplicate field `id` at line 1 column 13",
        "missing field `blockNumber` at line 1 column 7"].map some := by
  decide +kernel

end Run

end ListingSnapshot
