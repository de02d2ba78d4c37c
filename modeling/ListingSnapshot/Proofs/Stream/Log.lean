import ListingSnapshot.Proofs.Resolution
import ListingSnapshot.Proofs.Stream.Cutoff
import Mathlib.Data.List.Forall2

/-!
# What a run leaves on record

The log of a run that comes to its end can be told from the text, line after line, and agrees with
the reports: what is left on record about a line shows the same findings, or the same error, as the
report on it. Most lines leave nothing.

An entry is put on record before the report is written. So the invariant of the proof is about the
summary and the log alone, and holds as long as the sink takes what is written
(`Progress.summary_and_log_of_reply`).

## Main definitions

* `Log.Shown`: an entry as it is shown.
* `Log.Tells`: what is told of a line, in terms of the report on it.
* `Log.ofLine`: what a reply leaves on record about a line.

## Main results

* `Progress.summary_and_log_of_foldlM_reply`: the log and the summary of replies that went through.
* `Log.Tells.eq_shown`, `Log.exists_tells`: what is told of a line is what a reply leaves.
* `Run.log_ofSource`: the log of a run that comes to its end.
-/

namespace ListingSnapshot

/-! ### What replying to a listing leaves on record -/

namespace Listing

variable {listing : Listing} {policy : Policy}

theorem logEntry?_of_not_isHistorical (policy : Policy) (h : listing.isHistorical = false) :
    listing.logEntry? policy = none := by
  rw [Listing.logEntry?, currency, snapshot?_eq_none h]

/-- A snapshot with a log leaves on record what its report says. -/
theorem logEntry?_of_latestBlock? {latest : Block} {answer : Bool}
    (h : listing.isHistorical = true) (hl : (listing.resolve policy).latestBlock? = some latest)
    (ha : (listing.resolve policy).isCurrent? = some answer) :
    listing.logEntry? policy = some (.reconciled listing.id latest answer) := by
  obtain ⟨id, hid⟩ := Option.isSome_iff_exists.mp h
  have hcurrency : listing.currency policy =
      .compared latest (decide (id.snapshotBlock? = some latest)) := by
    rw [currency, hid, show listing.latestBlock? = some latest from hl]
  rw [isCurrent?_resolve, isCurrent, hcurrency] at ha
  rw [Listing.logEntry?, hcurrency, ← Option.some.inj ha]

theorem logEntry?_of_events_eq_nil (policy : Policy) (h : listing.isHistorical = true)
    (he : listing.events = []) : listing.logEntry? policy =
      match policy with
      | .reject => some (.emptyLog listing.id)
      | .stale => none
      | .current => none := by
  obtain ⟨id, hid⟩ := Option.isSome_iff_exists.mp h
  have hl : listing.latestBlock? = none := latestBlock?_eq_none_iff.mpr he
  rw [Listing.logEntry?, currency, hid, hl]
  cases policy <;> rfl

end Listing

/-! ### Entries as they are shown -/

namespace Log

/-- How much an entry matters, what it says, and its particulars by name. -/
structure Shown where
  level : Level
  message : String
  fields : List (String × String)
deriving DecidableEq

/-- The entry as it is shown. -/
def Entry.shown (entry : Entry) : Shown :=
  ⟨entry.level, entry.message, entry.fields⟩

/-- What is shown of all that is left on record about what stands on a line between the blanks. This
is nothing, unless it is no listing, or a snapshot that is compared with the latest block of its log
or rejected for having none. The particulars are those of the report. -/
inductive Tells (policy : Policy) (number : Nat) (piece : Bytes) : List Shown → Prop
  | blank (h : piece = []) : Tells policy number piece []
  | undecodable {e : Json.Diagnostic} {error : String} (h : piece ≠ [])
      (hd : Json.decode Listing.reader piece = .error e)
      (he : (Report.ofPiece policy piece).error? = some error) :
      Tells policy number piece
        [⟨.warn, "Skipping undecodable listing", [("line", toString number), ("error", error)]⟩]
  | live {listing : Listing} (hd : Json.decode Listing.reader piece = .ok listing)
      (h : listing.isHistorical = false) : Tells policy number piece []
  | compared {listing : Listing} {latest : Block} {answer : Bool}
      (hd : Json.decode Listing.reader piece = .ok listing) (h : listing.isHistorical = true)
      (hevents : listing.events ≠ [])
      (hl : (Report.ofPiece policy piece).latestBlock? = some latest)
      (ha : (Report.ofPiece policy piece).isCurrent? = some answer) :
      Tells policy number piece
        [⟨.debug, "Reconciled listing snapshot",
          [("id", (Report.ofPiece policy piece).id), ("latest", latest.text),
            ("current", if answer then "true" else "false")]⟩]
  | rejected {listing : Listing} (hd : Json.decode Listing.reader piece = .ok listing)
      (h : listing.isHistorical = true) (hevents : listing.events = []) (hp : policy = .reject) :
      Tells policy number piece
        [⟨.warn, "Snapshot listing has no events", [("id", (Report.ofPiece policy piece).id)]⟩]
  | assumed {listing : Listing} (hd : Json.decode Listing.reader piece = .ok listing)
      (h : listing.isHistorical = true) (hevents : listing.events = []) (hp : policy ≠ .reject) :
      Tells policy number piece []

/-- What replying to the record on a line leaves on record, if there is one. -/
def ofLine (policy : Policy) (number : Nat) (line : Bytes) : List Entry :=
  ((Record.ofLine? number line).bind (Record.logEntry? policy)).toList

section Line

variable {policy : Policy} {number : Nat} {line : Bytes}

theorem ofLine_of_trimmed_ne_nil (h : Record.trimmed line ≠ []) :
    ofLine policy number line =
      (Record.logEntry? policy ⟨number, Record.trimmed line⟩).toList := by
  have hne : (Record.trimmed line).isEmpty = false := List.isEmpty_eq_false_iff.mpr h
  simp only [ofLine, Record.ofLine?, Record.strip_isBlank, hne, Bool.false_eq_true, ↓reduceIte,
    Option.bind_some]

theorem ofLine_of_error {e : Json.Diagnostic} (h : Record.trimmed line ≠ [])
    (hd : Json.decode Listing.reader (Record.trimmed line) = .error e) :
    ofLine policy number line = [.undecodable number e.message] := by
  rw [ofLine_of_trimmed_ne_nil h, Record.logEntry?, Record.listing, hd]
  rfl

theorem ofLine_of_ok {listing : Listing}
    (hd : Json.decode Listing.reader (Record.trimmed line) = .ok listing) :
    ofLine policy number line = (listing.logEntry? policy).toList := by
  have hne : Record.trimmed line ≠ [] := by
    intro h
    rw [h] at hd
    cases hd
  rw [ofLine_of_trimmed_ne_nil hne, Record.logEntry?, Record.listing, hd]

/-- What is told of a line is what a reply leaves on record about it. So it is one thing only. -/
theorem Tells.eq_shown {told : List Shown} (h : Tells policy number (Record.trimmed line) told) :
    (ofLine policy number line).map Entry.shown = told := by
  cases h with
  | blank h =>
    rw [ofLine, Record.ofLine?, Record.strip_isBlank, h]
    rfl
  | undecodable h hd he =>
    rw [Report.ofPiece_of_error policy hd] at he
    rw [ofLine_of_error h hd, ← Option.some.inj he]
    rfl
  | live hd h =>
    rw [ofLine_of_ok hd, Listing.logEntry?_of_not_isHistorical policy h]
    rfl
  | compared hd h _ hl ha =>
    rw [Report.ofPiece_of_ok policy hd] at hl ha ⊢
    rw [ofLine_of_ok hd, Listing.logEntry?_of_latestBlock? h hl ha]
    rfl
  | rejected hd h hevents hp =>
    rw [Report.ofPiece_of_ok policy hd, ofLine_of_ok hd,
      Listing.logEntry?_of_events_eq_nil policy h hevents, hp]
    rfl
  | assumed hd h hevents hp =>
    rw [ofLine_of_ok hd, Listing.logEntry?_of_events_eq_nil policy h hevents]
    cases policy with
    | reject => exact absurd rfl hp
    | stale | current => rfl

end Line

/-- Of every line something is told, if only that there is nothing to tell. -/
theorem exists_tells (policy : Policy) (number : Nat) (piece : Bytes) :
    ∃ told, Tells policy number piece told := by
  by_cases h : piece = []
  · exact ⟨_, .blank h⟩
  cases hd : Json.decode Listing.reader piece with
  | error e =>
    exact ⟨_, .undecodable h hd (congrArg Report.error? (Report.ofPiece_of_error policy hd))⟩
  | ok listing =>
    have hreport : Report.ofPiece policy piece = listing.resolve policy :=
      Report.ofPiece_of_ok policy hd
    cases hh : listing.isHistorical with
    | false => exact ⟨_, .live hd hh⟩
    | true =>
      by_cases he : listing.events = []
      · by_cases hp : policy = .reject
        · exact ⟨_, .rejected hd hh he hp⟩
        · exact ⟨_, .assumed hd hh he hp⟩
      · have hlog : ¬(listing.isHistorical = true ∧ listing.events = [] ∧ policy = .reject) :=
          fun h => he h.2.1
        obtain ⟨latest, hl⟩ := Option.ne_none_iff_exists'.mp (mt latestBlock?_eq_none_iff.mp he)
        obtain ⟨answer, ha⟩ := Listing.exists_isCurrent_eq_ok hlog
        have hlatest : (Report.ofPiece policy piece).latestBlock? = some latest :=
          (congrArg Report.latestBlock? hreport).trans hl
        have hanswer : (Report.ofPiece policy piece).isCurrent? = some answer := by
          rw [hreport, Listing.isCurrent?_resolve, ha]
          rfl
        exact ⟨_, .compared hd hh he hlatest hanswer⟩

/-- What a reply leaves on record about a line is what is told of it. -/
theorem tells_ofLine (policy : Policy) (number : Nat) (line : Bytes) :
    Tells policy number (Record.trimmed line) ((ofLine policy number line).map Entry.shown) := by
  -- The cases of what is told exclude each other, so it is enough that one of them applies.
  obtain ⟨told, h⟩ := exists_tells policy number (Record.trimmed line)
  exact h.eq_shown ▸ h

end Log

/-! ### Replies that went through -/

namespace Progress

variable {policy : Policy} {progress next : Progress}

theorem summary_and_log_of_write {failure : String → Failure} {bytes : Bytes}
    (h : progress.write failure bytes = .ok next) :
    next.summary = progress.summary ∧ next.log = progress.log := by
  unfold write at h
  split at h
  · cases h
    exact ⟨rfl, rfl⟩
  · cases h

/-- A reply that went through has counted the report and has left something on record about the
record. -/
theorem summary_and_log_of_reply {record : Record} (h : progress.reply policy record = .ok next) :
    next.summary = progress.summary.record (record.report policy) ∧
      next.log = (record.logEntry? policy).toList ++ progress.log := by
  rw [reply_eq] at h
  cases hreport : (progress.counted policy record).write .encoding (record.report policy).bytes with
  | error stopped =>
    rw [hreport] at h
    cases h
  | ok written =>
    rw [hreport] at h
    obtain ⟨hsummary, hlog⟩ := summary_and_log_of_write hreport
    obtain ⟨hsummary', hlog'⟩ := summary_and_log_of_write h
    exact ⟨hsummary'.trans hsummary, hlog'.trans hlog⟩

/-- Replies that went through have counted all reports, and what they have left on record is that of
one after the other. -/
theorem summary_and_log_of_foldlM_reply {records : List Record}
    (h : records.foldlM (reply policy) progress = .ok next) :
    next.summary = (records.map (Record.report policy)).foldl Summary.record progress.summary ∧
      next.log = (records.filterMap (Record.logEntry? policy)).reverse ++ progress.log := by
  induction records generalizing progress with
  | nil =>
    cases h
    exact ⟨rfl, rfl⟩
  | cons record records ih =>
    rw [List.foldlM_cons] at h
    cases hreply : progress.reply policy record with
    | error stopped =>
      rw [hreply] at h
      cases h
    | ok answered =>
      rw [hreply] at h
      obtain ⟨hsummary, hlog⟩ := summary_and_log_of_reply hreply
      obtain ⟨hsummaries, hlogs⟩ := ih h
      rw [hsummaries, hlogs, hsummary, hlog, List.filterMap_cons]
      refine ⟨rfl, ?_⟩
      -- The latest entry comes first.
      cases record.logEntry? policy <;> simp

end Progress

/-! ### Lines -/

/-- What the records among lines leave on record is what the lines leave, one after the other. -/
theorem Record.filterMap_logEntry?_ofLines (policy : Policy) (first : Nat) (lines : List Bytes) :
    (ofLines first lines).filterMap (Record.logEntry? policy) =
      (lines.zipIdx first).flatMap fun line => Log.ofLine policy line.2 line.1 := by
  induction lines generalizing first with
  | nil => rfl
  | cons line lines ih =>
    rw [ofLines, List.filterMap_append, ih, List.zipIdx_cons, List.flatMap_cons, Log.ofLine]
    cases ofLine? first line with
    | none => rfl
    | some record =>
      rw [Option.toList_some, List.filterMap_cons, Option.bind_some]
      cases record.logEntry? policy <;> rfl

/-! ### Levels -/

section Levels

variable (policy : Policy)

theorem Listing.exists_warn_iff (listing : Listing) :
    (∃ entry ∈ listing.logEntry? policy, entry.level = .warn) ↔
      (listing.resolve policy).isCurrent? = none := by
  rw [isCurrent?_resolve, logEntry?, isCurrent]
  cases listing.currency policy <;> simp [Log.Entry.level, Except.toOption]

theorem Listing.exists_debug_iff (listing : Listing) :
    (∃ entry ∈ listing.logEntry? policy, entry.level = .debug) ↔
      (listing.resolve policy).historical = true ∧
        (listing.resolve policy).latestBlock?.isSome = true := by
  change _ ↔ listing.snapshot?.isSome = true ∧ listing.latestBlock?.isSome = true
  rw [Listing.logEntry?, currency]
  cases listing.snapshot? with
  | none => simp
  | some id =>
    cases listing.latestBlock? with
    | none => cases policy <;> simp [Policy.ofEmptyLog, Log.Entry.level]
    | some latest => simp [Log.Entry.level]

/-- A warning is left on record about the records of which the report has no answer. -/
theorem Record.exists_warn_iff (record : Record) :
    (∃ entry ∈ record.logEntry? policy, entry.level = .warn) ↔
      (record.report policy).isCurrent? = none := by
  rw [Record.logEntry?, Record.report]
  cases record.listing with
  | error e => exact iff_of_true ⟨_, rfl, rfl⟩ rfl
  | ok listing => exact listing.exists_warn_iff policy

/-- A comparison is left on record about the records of which the report is on a snapshot and shows
a block. -/
theorem Record.exists_debug_iff (record : Record) :
    (∃ entry ∈ record.logEntry? policy, entry.level = .debug) ↔
      (record.report policy).historical = true ∧
        (record.report policy).latestBlock?.isSome = true := by
  rw [Record.logEntry?, Record.report]
  cases record.listing with
  | error e => simp [Log.Entry.level, Report.rejected]
  | ok listing => exact listing.exists_debug_iff policy

/-- If a level is that of the entries about the records with certain reports, there are as many
entries of this level as there are such reports. -/
theorem Record.countP_level {level : Log.Level} (P : Report → Prop) [DecidablePred P]
    (h : ∀ record, (∃ entry ∈ logEntry? policy record, entry.level = level) ↔
      P (record.report policy)) (records : List Record) :
    (records.filterMap (Record.logEntry? policy)).countP (·.level = level) =
      (records.map (report policy)).countP (P ·) := by
  rw [List.countP_filterMap, List.countP_map]
  refine List.countP_congr fun record _ => ?_
  rw [Function.comp_apply, decide_eq_true_iff, ← h record]
  cases logEntry? policy record <;> simp

end Levels

namespace Run

variable {policy : Policy} {source : Source} {sink : Sink} {summary : Summary}

/-- A run that comes to its end has met no fault of the source, and has replied to all records. -/
theorem log_of_outcome (h : (ofSource policy source sink).outcome = .ok summary) :
    source.fault? = none ∧ summary = .ofReports (source.records.map (Record.report policy)) ∧
      (ofSource policy source sink).log =
        source.records.filterMap (Record.logEntry? policy) ++ [.finished summary] := by
  rw [ofSource_eq] at h ⊢
  cases hreplies : source.records.foldlM (Progress.reply policy) (.start sink) with
  | error stopped =>
    rw [hreplies] at h
    cases h
  | ok progress =>
    simp only [hreplies] at h ⊢
    obtain ⟨hsummary, hlog⟩ := Progress.summary_and_log_of_foldlM_reply hreplies
    cases hfault : source.fault?.or progress.sink.flushFault? with
    | some reason =>
      rw [hfault] at h
      cases h
    | none =>
      rw [hfault] at h
      obtain rfl := Except.ok.inj h
      refine ⟨(Option.or_eq_none_iff.mp hfault).1, hsummary, ?_⟩
      simp only [ending, finished, List.reverse_cons, hlog, Progress.start, List.append_nil,
        List.reverse_reverse]

/-- **The log in step with the reports.** Let a run come to its end, with whatever source and sink.
Then its log consists of what the lines of the text tell, one line after the other in their order,
and of the entry at the end that shows the summary. Lines are numbered as they stand in the text,
from one on. So there are as many warnings as reports without an answer, which is what the summary
counts as failed, and as many comparisons as reports on snapshots that show a block. -/
theorem log_ofSource (policy : Policy) (source : Source) (sink : Sink) (summary : Summary)
    (h : (ofSource policy source sink).outcome = .ok summary) :
    let run := ofSource policy source sink
    let text := source.chunks.flatten
    let reports := (Record.pieces text).map (Report.ofPiece policy)
    (∃ told : List (List Log.Shown),
      List.Forall₂ (fun line => Log.Tells policy line.2 (Record.trimmed line.1))
        ((text.splitOn Text.lineFeed).zipIdx 1) told ∧
      run.log.map Log.Entry.shown = told.flatten ++ [⟨.info, "Resolution stream finished",
        [("processed", toString summary.processed), ("current", toString summary.current),
          ("stale", toString summary.stale), ("failed", toString summary.failed)]⟩]) ∧
      run.log.countP (·.level = .warn) = summary.failed ∧
      run.log.countP (·.level = .debug) =
        reports.countP fun report => report.historical ∧ report.latestBlock?.isSome := by
  obtain ⟨chunks, fault?⟩ := source
  obtain ⟨rfl, hsummary, hlog⟩ := log_of_outcome h
  rw [Source.map_report_records] at hsummary
  intro run text reports
  change run.log = _ at hlog
  rw [hlog]
  refine ⟨⟨((text.splitOn Text.lineFeed).zipIdx 1).map fun line =>
    (Log.ofLine policy line.2 line.1).map Log.Entry.shown, ?_, ?_⟩, ?_, ?_⟩
  · rw [List.forall₂_map_right_iff, List.forall₂_same]
    exact fun line _ => Log.tells_ofLine policy line.2 line.1
  · rw [Source.records_eq, Record.filterMap_logEntry?_ofLines, List.map_append, List.map_flatMap]
    rfl
  · have hwarn := Record.countP_level policy (·.isCurrent? = none) (Record.exists_warn_iff policy)
    rw [List.countP_append, hwarn, Source.map_report_records, hsummary, Summary.ofReports_eq]
    rfl
  · have hdebug := Record.countP_level policy
      (fun report => report.historical = true ∧ report.latestBlock?.isSome = true)
      (Record.exists_debug_iff policy)
    rw [List.countP_append, hdebug, Source.map_report_records]
    rfl

/-- Five lines: a blank one, one that is no listing, a live listing, and two snapshots, the second
without a log. -/
theorem log_ofSource_mixed_lines :
    let text := Utf8.encode ("\n?\n\x7b\"id\":\"1-2-3\"\x7d\n\x7b\"id\":\"1-2-3-4\",".toList ++
      "\"events\":[\x7b\"blockNumber\":4\x7d]\x7d\r\n\x7b\"id\":\"1-2-3-4\"\x7d".toList)
    let run := ofSource .reject ⟨[text], none⟩ .unlimited
    run.outcome = .ok ⟨4, 2, 0, 2⟩ ∧
      (∃ told : List (List Log.Shown),
        List.Forall₂ (fun line => Log.Tells .reject line.2 (Record.trimmed line.1))
          ((text.splitOn Text.lineFeed).zipIdx 1) told ∧
        run.log.map Log.Entry.shown = told.flatten ++ [⟨.info, "Resolution stream finished",
          [("processed", "4"), ("current", "2"), ("stale", "0"), ("failed", "2")]⟩]) ∧
      run.log.countP (·.level = .warn) = 2 ∧ run.log.countP (·.level = .debug) = 1 := by
  intro text run
  have houtcome : run.outcome = .ok ⟨4, 2, 0, 2⟩ := by
    rw [outcome_unlimited]
    exact congrArg Except.ok (by decide +kernel)
  obtain ⟨htold, hwarn, hdebug⟩ := log_ofSource .reject ⟨[text], none⟩ .unlimited _ houtcome
  rw [List.flatten_singleton] at htold hdebug
  refine ⟨houtcome, htold, hwarn, hdebug.trans ?_⟩
  decide +kernel

end Run

end ListingSnapshot
