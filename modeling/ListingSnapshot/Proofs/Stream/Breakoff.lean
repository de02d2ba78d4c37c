import ListingSnapshot.Proofs.Stream.Cutoff

/-!
# Runs from a source that breaks off

A source that breaks off has handed out some lines that are complete and perhaps an initial part of
one more, which is lost even if it would make a record. So a run replies to the same records, at the
same lines, as a run over the complete lines alone that comes to its proper end; only the end of the
two is different. When the sink fails as well, what is written first decides.

## Main results

* `Source.records_broken`: the records of a source that breaks off are those of its whole lines.
* `Run.ofSource_broken`: the run from a source that breaks off.
-/

namespace ListingSnapshot

/-! ### Sources -/

namespace Source

variable (bytes : Bytes) (chunk? : Option Nat)

/-- A byte string comes in chunks that make it up. -/
theorem exists_ofBytes : ∃ chunks, ofBytes bytes chunk? none = ⟨chunks, none⟩ ∧
    chunks.flatten = bytes := by
  cases chunk? with
  | none => exact ⟨[bytes], rfl, List.append_nil bytes⟩
  | some size => exact ⟨chunked (size - 1) bytes, rfl, flatten_chunked ..⟩

variable {bytes} {limit : Nat} (reason : String)

/-- A limit that is not reached makes no difference. -/
theorem ofBytes_of_lt (h : bytes.length < limit) :
    ofBytes bytes chunk? (some (limit, reason)) = ofBytes bytes chunk? none :=
  if_neg (Nat.not_le.mpr h)

/-- With a limit that is reached the chunks make up what is in front of it. -/
theorem exists_ofBytes_of_le (h : limit ≤ bytes.length) :
    ∃ chunks, ofBytes bytes chunk? (some (limit, reason)) = ⟨chunks, some reason⟩ ∧
      chunks.flatten = bytes.take limit := by
  obtain ⟨chunks, hchunks, hflatten⟩ := exists_ofBytes (bytes.take limit) chunk?
  refine ⟨chunks, ?_, hflatten⟩
  have hcut := congrArg Source.chunks hchunks
  simp only [ofBytes, if_pos h]
  exact congrArg (Source.mk · (some reason)) hcut

/-! ### Records -/

/-- The records of a source that breaks off are those of its whole lines. -/
theorem records_broken {limit : Nat} {bytes : Bytes} (h : limit ≤ bytes.length) (reason : String)
    (chunk? chunk?' : Option Nat) :
    (ofBytes bytes chunk? (some (limit, reason))).records =
      (ofBytes (Text.wholeLines (bytes.take limit)) chunk?' none).records := by
  obtain ⟨chunks, hsource, hchunks⟩ := exists_ofBytes_of_le chunk? reason h
  obtain ⟨chunks', hsource', hchunks'⟩ :=
    exists_ofBytes (Text.wholeLines (bytes.take limit)) chunk?'
  rw [hsource, hsource', records_eq, records_eq]
  simp only [cut, hchunks, hchunks']
  rw [Text.dropLast_splitOn, Text.splitOn_wholeLines, List.dropLast_concat,
    Record.ofLines_concat_nil]

end Source

/-! ### Runs over the same records -/

namespace Run

section Congr

variable {policy : Policy} {source other : Source} (h : source.records = other.records)

include h

theorem through_congr (flushFault? : Option String) :
    through policy source flushFault? = through policy other flushFault? := by
  rw [through, h, through]

/-- Two runs over the same records that the sink cuts short are the same. -/
theorem ofSource_congr_of_lt {limit : Nat} (reason : String) (flushFault? : Option String)
    (hlt : limit < (replies policy source).length) :
    ofSource policy source ⟨[], some (limit, reason), flushFault?⟩ =
      ofSource policy other ⟨[], some (limit, reason), flushFault?⟩ := by
  obtain ⟨stopped, hreplies, _⟩ :=
    exists_foldlM_reply_eq_error policy source flushFault? reason hlt
  rw [ofSource_eq, ofSource_eq, ← h, hreplies]

end Congr

/-! ### The log -/

/-- What replies leave on record does not depend on the sink. -/
theorem log_foldl_answered (policy : Policy) (records : List Record) (progress : Progress) :
    (records.foldl (Progress.answered policy) progress).log =
      (records.filterMap (Record.logEntry? policy)).reverse ++ progress.log := by
  induction records generalizing progress with
  | nil => rfl
  | cons record records ih =>
    rw [List.foldl_cons, ih, List.filterMap_cons, Progress.answered]
    cases record.logEntry? policy <;> simp

theorem log_through (policy : Policy) (source : Source) (flushFault? : Option String) :
    (through policy source flushFault?).log =
      (source.records.filterMap (Record.logEntry? policy)).reverse := by
  rw [through, log_foldl_answered]
  exact List.append_nil _

/-! ### The run -/

section Broken

variable {policy : Policy} {source : Source} {reason : String}

theorem failed_through (failure : Failure) (flushFault? flushFault?' : Option String) :
    failed failure (through policy source flushFault?) =
      failed failure (through policy source flushFault?') := by
  rw [failed, failed, written_through, written_through, log_through, log_through]

variable (hfault : source.fault? = some reason) (flushFault? : Option String)

include hfault

/-- If the sink takes everything, the failure is that of the source. -/
theorem ofSource_of_fault? :
    ofSource policy source ⟨[], none, flushFault?⟩ =
      failed (.io reason) (through policy source none) := by
  rw [ofSource_of_room?_eq_none, hfault]
  exact failed_through _ _ _

theorem ofSource_of_fault?_of_le {room : Nat} (reason' : String)
    (h : (replies policy source).length ≤ room) :
    ofSource policy source ⟨[], some (room, reason'), flushFault?⟩ =
      failed (.io reason) (through policy source none) := by
  rw [ofSource_of_le policy source flushFault? reason' h, hfault]
  exact failed_through _ _ _

/-- The failure of the source can be told from one of the sink if they have different reasons. -/
theorem outcome_eq_io_iff {room : Nat} {reason' : String} (hne : reason' ≠ reason) :
    (ofSource policy source ⟨[], some (room, reason'), flushFault?⟩).outcome =
        .error (.io reason) ↔ (replies policy source).length ≤ room := by
  obtain hlt | hle := Nat.lt_or_ge room (replies policy source).length
  · obtain ⟨stopped, hrun, _⟩ := exists_ofSource_of_lt policy source flushFault? reason' hlt
    refine iff_of_false ?_ (Nat.not_le.mpr hlt)
    rw [hrun, failed, Failure.ofRefused]
    split_ifs <;> simp [hne]
  · rw [ofSource_of_fault?_of_le hfault flushFault? reason' hle]
    exact iff_of_true rfl hle

end Broken

/-- **A source that breaks off.** A limit that is not reached makes no difference to a run. Let it
be reached, and let `whole` be what is handed out up to the last line feed, the longest initial part
that ends in one. A run then writes what the run over `whole` writes and leaves the same on record,
but for the entry that the run has come to its end; and it fails, whatever stands behind the last
line feed. If the sink has a limit as well, the failure is that of the source just if the sink takes
all that the run over `whole` writes. Otherwise the run is the one over `whole`, which the sink
ends. -/
theorem ofSource_broken (policy : Policy) (bytes : Bytes) (chunk? chunk?' : Option Nat)
    (limit : Nat) (reason : String) :
    let source := Source.ofBytes bytes chunk? (some (limit, reason))
    let whole := Text.wholeLines (bytes.take limit)
    let calm := ofSource policy (.ofBytes whole chunk?' none) .unlimited
    (bytes.length < limit → ∀ sink,
      ofSource policy source sink = ofSource policy (.ofBytes bytes chunk? none) sink) ∧
    whole <+: bytes.take limit ∧ (whole = [] ∨ ∃ lines, whole = lines ++ [Text.lineFeed]) ∧
    (∀ lines, lines ++ [Text.lineFeed] <+: bytes.take limit →
      lines ++ [Text.lineFeed] <+: whole) ∧
    (limit ≤ bytes.length →
      (∀ flushFault?,
        let run := ofSource policy source ⟨[], none, flushFault?⟩
        run.written = calm.written ∧ run.outcome = .error (.io reason) ∧
          ∃ summary, calm.outcome = .ok summary ∧ calm.log = run.log ++ [.finished summary]) ∧
      ∀ room reason' flushFault?,
        let sink := Sink.mk [] (some (room, reason')) flushFault?
        let run := ofSource policy source sink
        (calm.written.length ≤ room → run = ofSource policy source .unlimited) ∧
        (room < calm.written.length →
          run = ofSource policy (.ofBytes whole chunk?' none) sink) ∧
        (reason' ≠ reason →
          (run.outcome = .error (.io reason) ↔ calm.written.length ≤ room))) := by
  intro source whole calm
  refine ⟨fun h sink => ?_, Text.wholeLines_prefix_self _, Text.wholeLines_cases _,
    fun _ => Text.prefix_wholeLines, fun h => ?_⟩
  · rw [show source = .ofBytes bytes chunk? none from Source.ofBytes_of_lt chunk? reason h]
  have hrecords : source.records = (Source.ofBytes whole chunk?' none).records :=
    Source.records_broken h reason chunk? chunk?'
  have hfault : source.fault? = some reason := by
    obtain ⟨chunks, hsource, _⟩ := Source.exists_ofBytes_of_le chunk? reason h
    exact congrArg Source.fault? hsource
  have hcalm : calm = finished (through policy source none) := by
    obtain ⟨chunks, hwhole, _⟩ := Source.exists_ofBytes whole chunk?'
    have hproper := congrArg Source.fault? hwhole
    rw [through_congr hrecords]
    exact (ofSource_of_room?_eq_none policy _ none).trans (by rw [hproper]; rfl)
  have hwritten : calm.written = replies policy source :=
    hcalm ▸ written_through policy source none
  rw [hwritten]
  refine ⟨fun flushFault? => ?_, fun room reason' flushFault? => ⟨fun hle => ?_, fun hlt => ?_,
    fun hne => outcome_eq_io_iff hfault flushFault? hne⟩⟩
  · rw [ofSource_of_fault? hfault, hcalm]
    exact ⟨written_through policy source none, rfl, _, rfl, List.reverse_cons⟩
  · exact (ofSource_of_fault?_of_le hfault flushFault? reason' hle).trans
      (ofSource_of_fault? hfault none).symm
  · exact ofSource_congr_of_lt hrecords reason' flushFault? hlt

/-- A source breaks off behind two listings, with no line feed behind the second. The report on the
first is written and no other. If the sink has less room than that, it is the sink that fails. -/
theorem ofSource_broken_behind_record :
    let line := Utf8.encode "\x7b\"id\":\"1-2-3\"\x7d\n".toList
    let bytes := line ++ Utf8.encode "\x7b\"id\":\"4-5-6\"\x7d".toList
    let source := Source.ofBytes bytes (some 3) (some (bytes.length, "gone"))
    let report := Listing.resolve .reject ⟨"1-2-3", []⟩
    let run := ofSource .reject source .unlimited
    let short := ofSource .reject source ⟨[], some (4, "full"), none⟩
    run.written = report.line ∧ run.outcome = .error (.io "gone") ∧
      (∃ summary, (ofSource .reject (.ofBytes line none none) .unlimited).log =
        run.log ++ [.finished summary]) ∧
      short = ofSource .reject (.ofBytes line none none) ⟨[], some (4, "full"), none⟩ ∧
      short.outcome ≠ .error (.io "gone") := by
  intro line bytes source report run short
  obtain ⟨-, -, -, -, hbroken⟩ :=
    ofSource_broken .reject bytes (some 3) none bytes.length "gone"
  have hwhole : Text.wholeLines (bytes.take bytes.length) = line := by decide +kernel
  have hcalm : (ofSource .reject (.ofBytes line none none) .unlimited).written = report.line := by
    rw [show Source.ofBytes line none none = ⟨[line], none⟩ from rfl]
    exact (written_of_room?_eq_none _ _ _).trans (by decide +kernel)
  rw [hwhole] at hbroken
  obtain ⟨hrun, hsink⟩ := hbroken (Nat.le_refl _)
  obtain ⟨hwritten, hfails, summary, -, hlog⟩ := hrun none
  obtain ⟨-, hless, houtcome⟩ := hsink 4 "full" none
  rw [hcalm] at hwritten hless houtcome
  have hlt : 4 < report.line.length := by decide +kernel
  exact ⟨hwritten, hfails, ⟨summary, hlog⟩, hless hlt,
    fun hgone => Nat.not_le.mpr hlt ((houtcome (by decide)).mp hgone)⟩

end Run

end ListingSnapshot
