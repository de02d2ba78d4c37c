import ListingSnapshot.Proofs.Identifier.Snapshots
import ListingSnapshot.Proofs.Stream.RoundTrip

/-!
# Parts of a report that go together

The parts of a report are found out one by one, and some of them from the identifier text anew. Yet
whoever reads a report can rely on how they go together, without knowing the record or how the run
went on: a report on a snapshot names the snapshot and the live listing behind it, and tells the
block where it says that the snapshot is current; there is an error just where there is no answer;
and the error shows whether the record was a listing.

## Main definitions

* `IsSnapshotOf`: the text of a snapshot beside that of the live listing.
* `Report.Coherent`: how the parts of a report go together.

## Main results

* `Report.coherent_rejected`, `Listing.coherent_resolve`: the two ways to make a report.
* `Run.exists_coherent`: every line that a run has written.
-/

namespace ListingSnapshot

open Json

/-- The first text is that of a snapshot and the second that of the live listing behind it, which
is all of the first but for a dash and these digits at its end. -/
structure IsSnapshotOf (text live : String) (digits : List Char) : Prop where
  exists_parse : ∃ id current, Identifier.parse text = .ok id ∧ id.segments.length = 4 ∧
    Identifier.parse live = .ok current ∧ current.segments.length = 3 ∧
    current.sameListing id = true
  isDigitRun : IsDigitRun digits
  eq : text = live ++ "-" ++ String.ofList digits

theorem Identifier.isSnapshotOf {id : Identifier} {block : Segment}
    (h : id.snapshot? = some block) : IsSnapshotOf id.text id.current.text block.chars where
  exists_parse := by
    refine ⟨id, id.current, id.parse_text, ?_, id.current.parse_text, rfl,
      sameListing_iff.mpr id.current_current⟩
    rw [segments, h]
    rfl
  isDigitRun := block.isDigitRun
  eq := text_eq_current_text_append h

namespace Report

/-- How the parts of a report go together that is made under a policy. -/
structure Coherent (policy : Policy) (report : Report) : Prop where
  /-- There is no answer just where there is an error. -/
  isCurrent?_eq_none_iff : report.isCurrent? = none ↔ report.error?.isSome = true
  /-- A live listing is named just behind a snapshot. -/
  isSome_currentId?_iff : report.currentId?.isSome = true ↔ report.historical = true
  /-- The snapshot is one of the live listing. If it is current, its digits denote the latest
  block. -/
  snapshot : report.historical = true → ∃ live digits, report.currentId? = some live ∧
    IsSnapshotOf report.id live digits ∧
    (report.isCurrent? = some true → ∀ latest, report.latestBlock? = some latest →
      Nat.ofDigitChars 10 digits 0 = latest.height.toNat)
  /-- Only a snapshot is out of date. -/
  historical_of_stale : report.isCurrent? = some false → report.historical = true
  /-- What is no snapshot is current, unless there is an error. -/
  isCurrent?_of_live : report.historical = false → report.error? = none →
    report.isCurrent? = some true
  /-- An error about a snapshot is that its log is empty, and that the policy is to reject it. -/
  error?_of_historical : report.historical = true → ∀ error, report.error? = some error →
    policy = .reject ∧ report.latestBlock? = none ∧
      error = "Historical listing " ++ report.id ++ " has an empty event log"
  /-- With an error about anything else nothing is known. -/
  eq_none_of_error? : report.historical = false → report.error?.isSome = true →
    report.currentId? = none ∧ report.latestBlock? = none

theorem coherent_rejected (policy : Policy) (id error : String) :
    (rejected id error).Coherent policy where
  isCurrent?_eq_none_iff := iff_of_true rfl rfl
  isSome_currentId?_iff := Iff.rfl
  snapshot h := by cases h
  historical_of_stale h := by cases h
  isCurrent?_of_live _ h := by cases h
  error?_of_historical h := by cases h
  eq_none_of_error? _ _ := ⟨rfl, rfl⟩

end Report

namespace Listing

variable {listing : Listing} {policy : Policy}

theorem isCurrent?_resolve_eq_none_iff_error? :
    (listing.resolve policy).isCurrent? = none ↔
      (listing.resolve policy).error?.isSome = true := by
  rw [isCurrent?_resolve]
  cases h : listing.isCurrent policy with
  | ok answer => simp [error?_resolve_of_ok h, Except.toOption]
  | error e => simp [error?_resolve_of_error h, Except.toOption]

theorem isCurrent?_resolve_of_not_isHistorical (policy : Policy)
    (h : listing.isHistorical = false) : (listing.resolve policy).isCurrent? = some true := by
  rw [isCurrent?_resolve, isCurrent_of_not_isHistorical policy h]
  rfl

/-- The parts of a report that name a snapshot, and the one that compares it with the log. -/
theorem exists_isSnapshotOf (policy : Policy) (h : listing.isHistorical = true) :
    ∃ live digits, listing.currentId? = some live ∧ IsSnapshotOf listing.id live digits ∧
      ((listing.resolve policy).isCurrent? = some true → ∀ latest,
        listing.latestBlock? = some latest →
          Nat.ofDigitChars 10 digits 0 = latest.height.toNat) := by
  obtain ⟨a, b, c, d, htext⟩ := isHistorical_iff.mp h
  obtain ⟨id, block, hid, hblock, rfl, _⟩ := exists_snapshot? htext
  refine ⟨id.current.text, block.chars, by rw [currentId?, hid, Option.map_some], ?_,
    fun hcurrent latest hl => ?_⟩
  · rw [← (snapshot?_eq_some_iff.mp hid).1]
    exact Identifier.isSnapshotOf hblock
  · rw [isCurrent?_resolve, isCurrent_of_latestBlock? policy htext hl] at hcurrent
    exact of_decide_eq_true (Option.some.inj hcurrent)

theorem coherent_resolve (policy : Policy) (listing : Listing) :
    (listing.resolve policy).Coherent policy where
  isCurrent?_eq_none_iff := isCurrent?_resolve_eq_none_iff_error?
  isSome_currentId?_iff := by
    change listing.currentId?.isSome = true ↔ listing.isHistorical = true
    rw [currentId?, Option.isSome_map, isHistorical]
  snapshot := exists_isSnapshotOf policy
  historical_of_stale h := by
    by_contra hne
    rw [isCurrent?_resolve_of_not_isHistorical policy (Bool.eq_false_iff.mpr hne)] at h
    cases h
  isCurrent?_of_live h _ := isCurrent?_resolve_of_not_isHistorical policy h
  error?_of_historical _ error h := by
    have hnone := isCurrent?_resolve_eq_none_iff_error?.mpr (Option.isSome_of_eq_some h)
    obtain ⟨hhistorical, hevents, rfl⟩ := isCurrent?_resolve_eq_none_iff.mp hnone
    refine ⟨rfl, latestBlock?_eq_none_iff.mpr hevents, ?_⟩
    rw [error?_resolve_of_error (isCurrent_of_events_eq_nil .reject hhistorical hevents)] at h
    exact (Option.some.inj h).symm
  eq_none_of_error? h herror := by
    have hnone := isCurrent?_resolve_eq_none_iff_error?.mpr herror
    rw [isCurrent?_resolve_of_not_isHistorical policy h] at hnone
    cases hnone

end Listing

theorem Record.coherent_report (policy : Policy) (record : Record) :
    (record.report policy).Coherent policy := by
  rw [report]
  cases record.listing with
  | ok listing => exact listing.coherent_resolve policy
  | error e => exact Report.coherent_rejected policy _ _

namespace Run

/-- **Reports can be relied on.** Let a run go from any source to any sink, and fail or come to its
end. Every complete line that it has written is that of a report, which can be read from it, and the
parts of this report go together. -/
theorem exists_coherent (policy : Policy) (source : Source) (room? : Option (Nat × String))
    (flushFault? : Option String) (line : Bytes)
    (h : line ∈ (ofSource policy source ⟨[], room?, flushFault?⟩).lines) :
    ∃ report, decode Report.reader line = .ok report ∧ report.bytes = line ∧
      report.Coherent policy := by
  have hmem := (complete_prefix_map_report policy source room? flushFault?).subset h
  obtain ⟨report, hreport, rfl⟩ := List.mem_map.mp hmem
  obtain ⟨record, _, rfl⟩ := List.mem_map.mp hreport
  exact ⟨_, Report.decode_bytes _, rfl, record.coherent_report policy⟩

/-- A run that fails in writing its second report has written one on a current snapshot. -/
theorem exists_coherent_cut :
    let text := Utf8.encode
      "\x7b\"id\":\"1-2-3-04\",\"events\":[\x7b\"blockNumber\":4\x7d]\x7d\n?".toList
    let report : Report := ⟨"1-2-3-04", true, some "1-2-3", some true, some ⟨4⟩, none⟩
    let run := ofSource .reject ⟨[text], none⟩ ⟨[], some (report.line.length + 5, "full"), none⟩
    run.outcome = .error (.encoding "full") ∧ report.bytes ∈ run.lines ∧
      ∃ report', decode Report.reader report.bytes = .ok report' ∧
        report'.bytes = report.bytes ∧ report'.Coherent .reject := by
  intro text report run
  have hlt : report.line.length + 5 < (replies .reject ⟨[text], none⟩).length := by
    decide +kernel
  have hmem : report.bytes ∈ run.lines := by
    rw [lines, written_of_room?_eq_some]
    decide +kernel
  refine ⟨?_, hmem, exists_coherent .reject ⟨[text], none⟩ _ none _ hmem⟩
  obtain ⟨stopped, hrun, -⟩ := exists_ofSource_of_lt .reject ⟨[text], none⟩ none "full" hlt
  have hrefused : Failure.ofRefused "full"
      (replies .reject ⟨[text], none⟩)[report.line.length + 5]? = .encoding "full" :=
    if_neg (by decide +kernel)
  exact (congrArg outcome hrun).trans (congrArg Except.error hrefused)

end Run

end ListingSnapshot
