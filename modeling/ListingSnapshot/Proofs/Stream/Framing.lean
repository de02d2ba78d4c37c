import ListingSnapshot.Proofs.Json.Printed
import ListingSnapshot.Proofs.Stream.Demand

/-!
# Reports in step with records

With a source that does not break off and a sink without a limit nothing stops a run: it writes the
report on each record of the text in turn, a line to each, and comes to its end with a summary that
counts just these reports. What a report says is decided by the bytes of its record alone.

## Main definitions

* `Report.ofPiece`: the report on a piece of text.
* `Progress.answered`: how far a run has come with one more record, if the sink takes everything.

## Main results

* `Progress.foldlM_reply`: without a limit every reply goes through.
* `Report.splitOn_flatMap_line`: reports on lines can be told apart.
* `Run.ofSource_unlimited`: the run over a text.
-/

namespace ListingSnapshot

/-! ### Reports on pieces of text -/

/-- The identifier text in a piece of text that is no listing: the last member `id`, if the text is
an object with one that is a string. -/
def Report.salvagedId (piece : Bytes) : String :=
  match (Json.document? piece).bind (·.member? "id") with
  | some (.string id) => id
  | _ => ""

/-- The report on a piece of text, whatever lines it stands between. -/
def Report.ofPiece (policy : Policy) (piece : Bytes) : Report :=
  match Json.decode Listing.reader piece with
  | .ok listing => listing.resolve policy
  | .error e => .rejected (salvagedId piece) e.message

theorem Report.ofPiece_of_ok {piece : Bytes} {listing : Listing} (policy : Policy)
    (h : Json.decode Listing.reader piece = .ok listing) :
    ofPiece policy piece = listing.resolve policy := by
  rw [ofPiece, h]

theorem Report.ofPiece_of_error {piece : Bytes} {e : Json.Diagnostic} (policy : Policy)
    (h : Json.decode Listing.reader piece = .error e) :
    ofPiece policy piece = .rejected (salvagedId piece) e.message := by
  rw [ofPiece, h]

theorem Record.givenId_eq (record : Record) : record.givenId = Report.salvagedId record.bytes := by
  unfold givenId Report.salvagedId
  cases hd : Json.document? record.bytes with
  | none => rfl
  | some tree =>
    cases hm : tree.member? "id" with
    | none => simp [hm]
    | some id => cases id <;> simp [hm, Json.Tree.string?]

theorem Record.report_eq (policy : Policy) (record : Record) :
    record.report policy = Report.ofPiece policy record.bytes := by
  rw [report, givenId_eq]
  rfl

theorem Source.map_report_records (policy : Policy) (chunks : List Bytes) :
    (Source.mk chunks none).records.map (Record.report policy) =
      (Record.pieces chunks.flatten).map (Report.ofPiece policy) := by
  rw [← map_bytes_records, List.map_map]
  exact List.map_congr_left fun record _ => record.report_eq policy

/-! ### Summaries -/

namespace Summary

/-- Recording reports adds their number to the first count, and to each of the others the number
of those with its outcome. -/
theorem foldl_record (reports : List Report) (summary : Summary) :
    reports.foldl record summary =
      ⟨summary.processed + reports.length,
        summary.current + reports.countP (·.isCurrent? = some true),
        summary.stale + reports.countP (·.isCurrent? = some false),
        summary.failed + reports.countP (·.isCurrent? = none)⟩ := by
  induction reports generalizing summary with
  | nil => rfl
  | cons report reports ih =>
    rw [List.foldl_cons, ih]
    simp only [List.length_cons, List.countP_cons]
    rcases h : report.isCurrent? with - | - | - <;>
      simp [record, h, Nat.add_assoc, Nat.add_comm 1]

theorem ofReports_eq (reports : List Report) :
    ofReports reports =
      ⟨reports.length, reports.countP (·.isCurrent? = some true),
        reports.countP (·.isCurrent? = some false), reports.countP (·.isCurrent? = none)⟩ := by
  simp [ofReports, foldl_record, empty]

/-- Every report has one of the three outcomes. -/
theorem length_eq_countP (reports : List Report) :
    reports.length = reports.countP (·.isCurrent? = some true) +
      reports.countP (·.isCurrent? = some false) + reports.countP (·.isCurrent? = none) := by
  induction reports with
  | nil => rfl
  | cons report reports ih =>
    simp only [List.length_cons, List.countP_cons, ih]
    rcases report.isCurrent? with - | - | - <;> simp <;> omega

end Summary

/-! ### Replies that go through -/

namespace Progress

/-- The progress with one more reply, when the sink takes all of it. -/
def answered (policy : Policy) (progress : Progress) (record : Record) : Progress where
  sink :=
    { progress.sink with
      pieces := [Text.lineFeed] :: (record.report policy).bytes :: progress.sink.pieces }
  summary := progress.summary.record (record.report policy)
  log := (record.logEntry? policy).toList ++ progress.log

theorem reply_eq_ok {policy : Policy} {progress : Progress} (h : progress.sink.room? = none)
    (record : Record) : progress.reply policy record = .ok (progress.answered policy record) := by
  obtain ⟨⟨pieces, room?, flushFault?⟩, summary, log⟩ := progress
  subst h
  rfl

/-- Without a limit every reply goes through. -/
theorem foldlM_reply {policy : Policy} {progress : Progress} (h : progress.sink.room? = none)
    (records : List Record) :
    records.foldlM (reply policy) progress = .ok (records.foldl (answered policy) progress) := by
  induction records generalizing progress with
  | nil => rfl
  | cons record records ih =>
    rw [List.foldlM_cons, reply_eq_ok h, List.foldl_cons, ← ih (by exact h)]
    rfl

theorem flushFault?_foldl_answered (policy : Policy) (progress : Progress)
    (records : List Record) :
    (records.foldl (answered policy) progress).sink.flushFault? = progress.sink.flushFault? := by
  induction records generalizing progress with
  | nil => rfl
  | cons record records ih => rw [List.foldl_cons, ih]; rfl

theorem summary_foldl_answered (policy : Policy) (progress : Progress) (records : List Record) :
    (records.foldl (answered policy) progress).summary =
      (records.map (Record.report policy)).foldl Summary.record progress.summary := by
  induction records generalizing progress with
  | nil => rfl
  | cons record records ih => rw [List.foldl_cons, ih]; rfl

theorem written_foldl_answered (policy : Policy) (progress : Progress) (records : List Record) :
    (records.foldl (answered policy) progress).sink.written =
      progress.sink.written ++
        records.flatMap fun record => (record.report policy).bytes ++ [Text.lineFeed] := by
  induction records generalizing progress with
  | nil => simp
  | cons record records ih =>
    rw [List.foldl_cons, ih]
    simp [answered, Sink.written]

end Progress

/-! ### Lines of reports -/

namespace Report

/-- The report as a line. -/
def line (report : Report) : Bytes :=
  report.bytes ++ [Text.lineFeed]

/-- Cutting lines of reports at the line feeds gives the reports back, and nothing behind the last
of them. -/
theorem splitOn_flatMap_line (reports : List Report) :
    (reports.flatMap line).splitOn Text.lineFeed = reports.map bytes ++ [[]] := by
  induction reports with
  | nil => rfl
  | cons report reports ih =>
    rw [List.flatMap_cons, line, List.append_assoc, List.singleton_append,
      List.splitOn_append_cons_self_of_not_mem report.lineFeed_notMem_bytes, ih]
    rfl

end Report

/-! ### The run -/

namespace Run

theorem ofSource_of_fault?_eq_none (policy : Policy) (chunks : List Bytes) :
    ofSource policy ⟨chunks, none⟩ .unlimited =
      finished ((Source.mk chunks none).records.foldl (Progress.answered policy)
        (.start .unlimited)) := by
  have hreplies : (Source.mk chunks none).records.foldlM (Progress.reply policy)
      (.start .unlimited) = .ok _ :=
    Progress.foldlM_reply rfl _
  have hf := Progress.flushFault?_foldl_answered policy (.start .unlimited)
    (Source.mk chunks none).records
  simp only [ofSource_eq, hreplies]
  rw [hf]
  rfl

/-- A run that nothing stops writes the reports on the pieces of the text. -/
theorem written_unlimited (policy : Policy) (chunks : List Bytes) :
    (ofSource policy ⟨chunks, none⟩ .unlimited).written =
      ((Record.pieces chunks.flatten).map (Report.ofPiece policy)).flatMap Report.line := by
  rw [ofSource_of_fault?_eq_none, finished, Progress.written_foldl_answered,
    ← Source.map_report_records, List.flatMap_map]
  rfl

/-- A run that nothing stops counts the reports on the pieces of the text. -/
theorem outcome_unlimited (policy : Policy) (chunks : List Bytes) :
    (ofSource policy ⟨chunks, none⟩ .unlimited).outcome =
      .ok (.ofReports ((Record.pieces chunks.flatten).map (Report.ofPiece policy))) := by
  rw [ofSource_of_fault?_eq_none, finished, Progress.summary_foldl_answered,
    Source.map_report_records]
  rfl

/-- **A report for each record.** With a source that hands out all its bytes and a sink that takes
everything, a run comes to its end whatever the bytes are. It writes the reports on the pieces of
the text in their order, a line to each. No report has a control in it, so the lines can be told
apart; and the summary counts the reports by their outcomes. -/
theorem ofSource_unlimited (policy : Policy) (chunks : List Bytes) :
    let reports := (Record.pieces chunks.flatten).map (Report.ofPiece policy)
    let run := ofSource policy ⟨chunks, none⟩ .unlimited
    run.written = reports.flatMap (fun report => report.bytes ++ [Text.lineFeed]) ∧
      (∀ report ∈ reports, ∀ b ∈ report.bytes, 0x20 ≤ b) ∧
      run.written.splitOn Text.lineFeed = reports.map Report.bytes ++ [[]] ∧
      ∃ summary, run.outcome = .ok summary ∧
        summary.processed = reports.length ∧
        summary.processed = summary.current + summary.stale + summary.failed ∧
        summary.current = reports.countP (·.isCurrent? = some true) ∧
        summary.stale = reports.countP (·.isCurrent? = some false) ∧
        summary.failed = reports.countP (·.isCurrent? = none) := by
  intro reports run
  have hwritten : run.written = reports.flatMap Report.line := written_unlimited policy chunks
  have hsummary : run.outcome = .ok (Summary.ofReports reports) := outcome_unlimited policy chunks
  refine ⟨hwritten, ?_, ?_, _, hsummary, ?_⟩
  · exact fun report _ b hb => UInt8.le_iff_toNat_le.mpr (report.le_of_mem_bytes b hb)
  · rw [hwritten, Report.splitOn_flatMap_line]
  · rw [Summary.ofReports_eq]
    exact ⟨rfl, Summary.length_eq_countP reports, rfl, rfl, rfl⟩

end Run

end ListingSnapshot
