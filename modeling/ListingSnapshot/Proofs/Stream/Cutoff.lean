import ListingSnapshot.Proofs.Stream.Framing
import ListingSnapshot.Proofs.Text.WholeLines

/-!
# Runs into a sink that fails

A sink with a limit takes what a run writes up to that limit, wherever it falls: what has been
written in the end is an initial part of what a run without a limit writes. A reply is written in
two pieces, the report and the line feed behind it, so the first byte that is refused decides what
failure the run ends with.

The invariant of the proof is that a run with a limit keeps in step with one that has none, except
for the room that is left (`Progress.within`), until a reply does not fit.

## Main definitions

* `Sink.within`, `Progress.within`: the same with a limit on all that is written.
* `Failure.ofRefused`: the failure that refusing a byte leads to.

## Main results

* `Progress.reply_within`, `Progress.exists_reply_within_eq_error`: a reply that fits and one that
  does not.
* `Progress.foldlM_reply_within`, `Progress.exists_foldlM_reply_within_eq_error`: all replies.
* `Run.ofSource_limited`: the run into a sink that fails.
-/

namespace ListingSnapshot

/-! ### Limits -/

namespace Sink

/-- The same sink, with a limit on all the bytes that it takes. -/
def within (limit : Nat) (reason : String) (sink : Sink) : Sink :=
  { sink with room? := some (limit - sink.written.length, reason) }

/-- The sink with bytes that it has taken. -/
def push (sink : Sink) (bytes : Bytes) : Sink :=
  { sink with pieces := bytes :: sink.pieces }

@[simp] theorem written_push (sink : Sink) (bytes : Bytes) :
    (sink.push bytes).written = sink.written ++ bytes := by
  simp [push, written]

variable {sink : Sink} {limit : Nat} {reason : String} {bytes : Bytes}

theorem write_within (h : (sink.written ++ bytes).length ≤ limit) :
    (sink.within limit reason).write bytes = ((sink.push bytes).within limit reason, none) := by
  rw [List.length_append] at h
  have hroom : bytes.length ≤ limit - sink.written.length := by omega
  have hleft : limit - (sink.push bytes).written.length =
      limit - sink.written.length - bytes.length := by
    rw [written_push, List.length_append, Nat.sub_add_eq]
  simp only [write, within, if_pos hroom, List.take_of_length_le hroom, hleft]
  rfl

theorem exists_write_within (reason : String) (hle : sink.written.length ≤ limit)
    (h : limit < (sink.written ++ bytes).length) :
    ∃ full : Sink, (sink.within limit reason).write bytes = (full, some reason) ∧
      full.written = (sink.written ++ bytes).take limit := by
  have hroom : ¬bytes.length ≤ limit - sink.written.length := by
    rw [List.length_append] at h
    omega
  refine ⟨((sink.within limit reason).write bytes).1, Prod.ext rfl (if_neg hroom), ?_⟩
  rw [List.take_append, List.take_of_length_le hle]
  exact written_push sink _

end Sink

/-- The failure that refusing a byte leads to: one of the sink if the byte is the line feed behind a
report, and one of writing the report otherwise. -/
def Failure.ofRefused (reason : String) (refused? : Option UInt8) : Failure :=
  if refused? = some Text.lineFeed then .io reason else .encoding reason

namespace Progress

/-- The same progress, with a limit on all the bytes that the sink takes. -/
def within (limit : Nat) (reason : String) (progress : Progress) : Progress :=
  { progress with sink := progress.sink.within limit reason }

/-- The progress with bytes that the sink has taken. -/
def push (progress : Progress) (bytes : Bytes) : Progress :=
  { progress with sink := progress.sink.push bytes }

@[simp] theorem written_push (progress : Progress) (bytes : Bytes) :
    (progress.push bytes).sink.written = progress.sink.written ++ bytes :=
  progress.sink.written_push bytes

variable {failure : String → Failure} {bytes : Bytes} {progress : Progress} {limit : Nat}
  {reason : String}

theorem write_within (h : (progress.push bytes).sink.written.length ≤ limit) :
    (progress.within limit reason).write failure bytes =
      .ok ((progress.push bytes).within limit reason) := by
  rw [written_push] at h
  rw [write, within, Sink.write_within h]
  rfl

theorem exists_write_within_eq_error (failure : String → Failure) (reason : String)
    (h : limit < (progress.push bytes).sink.written.length)
    (hle : progress.sink.written.length ≤ limit) :
    ∃ stopped : Progress, (progress.within limit reason).write failure bytes =
        .error (failure reason, stopped) ∧
      stopped.sink.written = (progress.push bytes).sink.written.take limit ∧
      stopped.log = progress.log := by
  rw [written_push] at h ⊢
  obtain ⟨full, hwrite, hwritten⟩ := Sink.exists_write_within reason hle h
  refine ⟨{ progress with sink := full }, ?_, hwritten, rfl⟩
  rw [write, within, hwrite]

/-! ### Replies -/

/-- The progress with one more record counted, before anything is written. -/
def counted (policy : Policy) (progress : Progress) (record : Record) : Progress :=
  { progress with
    summary := progress.summary.record (record.report policy)
    log := (record.logEntry? policy).toList ++ progress.log }

theorem answered_eq (policy : Policy) (progress : Progress) (record : Record) :
    progress.answered policy record =
      ((progress.counted policy record).push (record.report policy).bytes).push
        [Text.lineFeed] :=
  rfl

/-- A reply is counted, and then written in two pieces. -/
theorem reply_eq (policy : Policy) (progress : Progress) (record : Record) :
    progress.reply policy record =
      ((progress.counted policy record).write .encoding (record.report policy).bytes).bind
        fun written => written.write .io [Text.lineFeed] :=
  rfl

theorem reply_within_eq (policy : Policy) (record : Record) :
    (progress.within limit reason).reply policy record =
      (((progress.counted policy record).within limit reason).write .encoding
        (record.report policy).bytes).bind fun written => written.write .io [Text.lineFeed] :=
  reply_eq policy (progress.within limit reason) record

section Reply

variable {policy : Policy} {record : Record}

/-- A reply that fits goes through. -/
theorem reply_within (h : (progress.answered policy record).sink.written.length ≤ limit) :
    (progress.within limit reason).reply policy record =
      .ok ((progress.answered policy record).within limit reason) := by
  have hreport : ((progress.counted policy record).push
      (record.report policy).bytes).sink.written.length ≤ limit := by
    refine Nat.le_trans ?_ h
    rw [answered_eq, written_push _ [Text.lineFeed], List.length_append]
    exact Nat.le_add_right ..
  rw [reply_within_eq, write_within hreport]
  exact write_within h

/-- A reply that does not fit is cut short at the limit, and the first byte that is refused decides
how the run fails. -/
theorem exists_reply_within_eq_error (hle : progress.sink.written.length ≤ limit)
    (h : limit < (progress.answered policy record).sink.written.length) :
    ∃ stopped : Progress, (progress.within limit reason).reply policy record =
        .error (.ofRefused reason (progress.answered policy record).sink.written[limit]?,
          stopped) ∧
      stopped.sink.written = (progress.answered policy record).sink.written.take limit ∧
      stopped.log = (progress.answered policy record).log := by
  let reported := (progress.counted policy record).push (record.report policy).bytes
  have hreported : reported.sink.written =
      progress.sink.written ++ (record.report policy).bytes :=
    written_push _ _
  have hanswered : (progress.answered policy record).sink.written =
      reported.sink.written ++ [Text.lineFeed] :=
    written_push reported _
  rw [hanswered] at h ⊢
  by_cases hreport : reported.sink.written.length ≤ limit
  · -- The report fits, and the line feed behind it does not.
    have hfeed : limit < (reported.push [Text.lineFeed]).sink.written.length := by
      rwa [written_push]
    obtain ⟨stopped, hwrite, hwritten, hlog⟩ :=
      exists_write_within_eq_error .io reason hfeed hreport
    refine ⟨stopped, ?_, by rwa [written_push] at hwritten, hlog⟩
    have hlimit : limit = reported.sink.written.length := by
      rw [List.length_append, List.length_singleton] at h
      omega
    rw [reply_within_eq, write_within hreport, hlimit, List.getElem?_concat_length]
    rw [hlimit] at hwrite
    exact hwrite
  · -- The report itself is cut short, at a byte that is no line feed.
    rw [Nat.not_le] at hreport
    obtain ⟨stopped, hwrite, hwritten, hlog⟩ :=
      exists_write_within_eq_error .encoding reason hreport hle
    refine ⟨stopped, ?_, ?_, hlog⟩
    · have hbyte : reported.sink.written[limit]? ≠ some Text.lineFeed := by
        intro hbyte
        rw [hreported, List.getElem?_append_right hle] at hbyte
        exact (record.report policy).lineFeed_notMem_bytes (List.mem_of_getElem? hbyte)
      rw [reply_within_eq, hwrite, List.getElem?_append_left hreport, Failure.ofRefused,
        if_neg hbyte]
      rfl
    · rw [hwritten, List.take_append_of_le_length hreport.le]

end Reply

/-! ### All replies -/

section Replies

variable (policy : Policy) (records : List Record)

theorem written_prefix_foldl_answered (progress : Progress) :
    progress.sink.written <+: (records.foldl (answered policy) progress).sink.written := by
  rw [written_foldl_answered]
  exact List.prefix_append _ _

theorem log_suffix_foldl_answered (progress : Progress) :
    progress.log <:+ (records.foldl (answered policy) progress).log := by
  induction records generalizing progress with
  | nil => exact List.suffix_rfl
  | cons record records ih =>
    exact (List.suffix_append _ progress.log).trans (ih (progress.answered policy record))

/-- Replies that fit go through. -/
theorem foldlM_reply_within {policy : Policy} {records : List Record}
    (h : (records.foldl (answered policy) progress).sink.written.length ≤ limit) :
    records.foldlM (reply policy) (progress.within limit reason) =
      .ok ((records.foldl (answered policy) progress).within limit reason) := by
  induction records generalizing progress with
  | nil => rfl
  | cons record records ih =>
    have hfirst : (progress.answered policy record).sink.written.length ≤ limit :=
      (written_prefix_foldl_answered policy records _).length_le.trans h
    rw [List.foldlM_cons, reply_within hfirst]
    exact ih h

/-- Replies that do not all fit are cut short at the limit. -/
theorem exists_foldlM_reply_within_eq_error {policy : Policy} {records : List Record}
    (reason : String) (hle : progress.sink.written.length ≤ limit)
    (h : limit < (records.foldl (answered policy) progress).sink.written.length) :
    ∃ stopped : Progress, records.foldlM (reply policy) (progress.within limit reason) =
        .error (.ofRefused reason
          (records.foldl (answered policy) progress).sink.written[limit]?, stopped) ∧
      stopped.sink.written =
        (records.foldl (answered policy) progress).sink.written.take limit ∧
      stopped.log <:+ (records.foldl (answered policy) progress).log := by
  induction records generalizing progress with
  | nil => exact absurd hle (Nat.not_le.mpr h)
  | cons record records ih =>
    rw [List.foldl_cons] at h ⊢
    rw [List.foldlM_cons]
    by_cases hfirst : (progress.answered policy record).sink.written.length ≤ limit
    · rw [reply_within hfirst]
      exact ih hfirst h
    · -- What follows is never written, and does not change what stands at the limit.
      rw [Nat.not_le] at hfirst
      obtain ⟨stopped, hreply, hwritten, hlog⟩ := exists_reply_within_eq_error hle hfirst
      obtain ⟨others, hothers⟩ :=
        written_prefix_foldl_answered policy records (progress.answered policy record)
      refine ⟨stopped, ?_, ?_, ?_⟩
      · rw [hreply, ← hothers, List.getElem?_append_left hfirst]
        rfl
      · rw [hwritten, ← hothers, List.take_append_of_le_length hfirst.le]
      · rw [hlog]
        exact log_suffix_foldl_answered policy records _

end Replies

end Progress

/-! ### The log -/

theorem Listing.logEntry?_ne_finished (policy : Policy) (listing : Listing) (summary : Summary) :
    listing.logEntry? policy ≠ some (.finished summary) := by
  unfold logEntry?
  cases listing.currency policy <;> simp

theorem Record.logEntry?_ne_finished (policy : Policy) (record : Record) (summary : Summary) :
    record.logEntry? policy ≠ some (.finished summary) := by
  unfold logEntry?
  cases record.listing with
  | error e => simp
  | ok listing => exact listing.logEntry?_ne_finished policy summary

/-- Replies leave nothing on record that says the run has come to its end. -/
theorem Progress.finished_notMem_log_foldl_answered (policy : Policy) (records : List Record)
    (sink : Sink) (summary : Summary) :
    .finished summary ∉ (records.foldl (answered policy) (.start sink)).log := by
  suffices h : ∀ progress : Progress, .finished summary ∉ progress.log →
      .finished summary ∉ (records.foldl (answered policy) progress).log from
    h (.start sink) List.not_mem_nil
  induction records with
  | nil => exact fun _ h => h
  | cons record records ih =>
    intro progress h
    refine ih (progress.answered policy record) fun hmem => ?_
    rcases List.mem_append.mp hmem with hmem | hmem
    · exact record.logEntry?_ne_finished policy summary (Option.mem_toList.mp hmem)
    · exact h hmem

/-! ### Runs -/

namespace Run

/-- The bytes of the replies to all records of a source. -/
def replies (policy : Policy) (source : Source) : Bytes :=
  (source.records.map (Record.report policy)).flatMap Report.line

/-- How far a run has come with all records of a source, if the sink takes everything. -/
def through (policy : Policy) (source : Source) (flushFault? : Option String) : Progress :=
  source.records.foldl (Progress.answered policy) (.start ⟨[], none, flushFault?⟩)

section Ending

variable (policy : Policy) (source : Source) (flushFault? : Option String)

theorem written_through :
    (through policy source flushFault?).sink.written = replies policy source := by
  rw [through, Progress.written_foldl_answered, replies, List.flatMap_map]
  rfl

theorem flushFault?_through :
    (through policy source flushFault?).sink.flushFault? = flushFault? :=
  Progress.flushFault?_foldl_answered policy _ _

theorem finished_notMem_log_through (summary : Summary) :
    .finished summary ∉ (through policy source flushFault?).log :=
  Progress.finished_notMem_log_foldl_answered policy _ _ summary

theorem written_ending (fault? : Option String) (progress : Progress) :
    (ending fault? progress).written = progress.sink.written := by
  cases fault? <;> rfl

/-- Without a limit all replies go through. -/
theorem ofSource_of_room?_eq_none :
    ofSource policy source ⟨[], none, flushFault?⟩ =
      ending (source.fault?.or flushFault?) (through policy source flushFault?) := by
  have hreplies : source.records.foldlM (Progress.reply policy) (.start ⟨[], none, flushFault?⟩) =
      .ok (through policy source flushFault?) :=
    Progress.foldlM_reply rfl _
  simp only [ofSource_eq, hreplies, flushFault?_through]

variable {limit : Nat}

/-- A limit that the replies do not exceed makes no difference. -/
theorem ofSource_of_le (reason : String) (h : (replies policy source).length ≤ limit) :
    ofSource policy source ⟨[], some (limit, reason), flushFault?⟩ =
      ending (source.fault?.or flushFault?) (through policy source flushFault?) := by
  rw [← written_through policy source flushFault?] at h
  have hreplies : source.records.foldlM (Progress.reply policy)
      (.start ⟨[], some (limit, reason), flushFault?⟩) =
      .ok ((through policy source flushFault?).within limit reason) :=
    Progress.foldlM_reply_within h
  have hflush : ((through policy source flushFault?).within limit reason).sink.flushFault? =
      flushFault? :=
    flushFault?_through policy source flushFault?
  simp only [ofSource_eq, hreplies, hflush]
  cases source.fault?.or flushFault? <;> rfl

/-- Replies that exceed a limit are cut short there. -/
theorem exists_foldlM_reply_eq_error (reason : String)
    (h : limit < (replies policy source).length) :
    ∃ stopped : Progress, source.records.foldlM (Progress.reply policy)
        (.start ⟨[], some (limit, reason), flushFault?⟩) =
        .error (.ofRefused reason (replies policy source)[limit]?, stopped) ∧
      stopped.sink.written = (replies policy source).take limit ∧
      ∀ summary, .finished summary ∉ stopped.log := by
  rw [← written_through policy source flushFault?] at h ⊢
  obtain ⟨stopped, hreplies, hwritten, hlog⟩ :=
    Progress.exists_foldlM_reply_within_eq_error reason (Nat.zero_le limit) h
  exact ⟨stopped, hreplies, hwritten, fun summary hmem =>
    finished_notMem_log_through policy source flushFault? summary (hlog.subset hmem)⟩

/-- A limit that the replies exceed ends the run. -/
theorem exists_ofSource_of_lt (reason : String) (h : limit < (replies policy source).length) :
    ∃ stopped : Progress, ofSource policy source ⟨[], some (limit, reason), flushFault?⟩ =
        failed (.ofRefused reason (replies policy source)[limit]?) stopped ∧
      stopped.sink.written = (replies policy source).take limit ∧
      ∀ summary, .finished summary ∉ stopped.log := by
  obtain ⟨stopped, hreplies, hstopped⟩ :=
    exists_foldlM_reply_eq_error policy source flushFault? reason h
  exact ⟨stopped, by rw [ofSource_eq, hreplies], hstopped⟩

/-! ### What is written -/

theorem written_of_room?_eq_none :
    (ofSource policy source ⟨[], none, flushFault?⟩).written = replies policy source := by
  rw [ofSource_of_room?_eq_none, written_ending, written_through]

theorem written_of_room?_eq_some (reason : String) :
    (ofSource policy source ⟨[], some (limit, reason), flushFault?⟩).written =
      (replies policy source).take limit := by
  obtain h | h := Nat.lt_or_ge limit (replies policy source).length
  · obtain ⟨stopped, hrun, hwritten, _⟩ :=
      exists_ofSource_of_lt policy source flushFault? reason h
    rw [hrun]
    exact hwritten
  · rw [ofSource_of_le policy source flushFault? reason h, written_ending, written_through,
      List.take_of_length_le h]

/-- Whatever the sink is like, an initial part of the replies is written. -/
theorem written_prefix_replies (room? : Option (Nat × String)) :
    (ofSource policy source ⟨[], room?, flushFault?⟩).written <+: replies policy source := by
  cases room? with
  | none => exact written_of_room?_eq_none policy source flushFault? ▸ List.prefix_rfl
  | some room =>
    rw [written_of_room?_eq_some]
    exact List.take_prefix _ _

end Ending

/-- The complete lines of what is written are the reports on the first records, whatever the source
and the sink are like. -/
theorem complete_prefix_map_report (policy : Policy) (source : Source)
    (room? : Option (Nat × String)) (flushFault? : Option String) :
    ((ofSource policy source ⟨[], room?, flushFault?⟩).written.splitOn Text.lineFeed).dropLast <+:
      (source.records.map (Record.report policy)).map Report.bytes := by
  have h := Text.prefix_dropLast_splitOn
    (written_prefix_replies policy source flushFault? room?)
  rwa [replies, Report.splitOn_flatMap_line, List.dropLast_concat] at h

theorem complete_prefix_reports (policy : Policy) (chunks : List Bytes)
    (room? : Option (Nat × String)) (flushFault? : Option String) :
    ((ofSource policy ⟨chunks, none⟩ ⟨[], room?, flushFault?⟩).written.splitOn
        Text.lineFeed).dropLast <+:
      ((Record.pieces chunks.flatten).map (Report.ofPiece policy)).map Report.bytes :=
  Source.map_report_records policy chunks ▸
    complete_prefix_map_report policy ⟨chunks, none⟩ room? flushFault?

/-- **A sink that fails.** Let a source hand out all its bytes, in whatever chunks. The run comes to
its end if the sink takes everything. A sink with a limit that the output does not exceed makes no
difference to this run. A sink with a smaller limit takes just that much of the output; the run
fails, in writing a line feed or in writing a report as the first byte that is refused may be, and
does not say that it has come to its end. If only flushing fails, everything has been written, and
the run fails all the same. In any case the complete lines of what is written are the reports on the
first records in their order. -/
theorem ofSource_limited (policy : Policy) (chunks : List Bytes) (reason : String) :
    let source := Source.mk chunks none
    let calm := ofSource policy source .unlimited
    (∃ summary, calm.outcome = .ok summary) ∧
    (∀ limit, calm.written.length ≤ limit →
      ofSource policy source ⟨[], some (limit, reason), none⟩ = calm) ∧
    (∀ limit flushFault?, limit < calm.written.length →
      let run := ofSource policy source ⟨[], some (limit, reason), flushFault?⟩
      run.written = calm.written.take limit ∧
        run.outcome = .error
          (if calm.written[limit]? = some Text.lineFeed then .io reason else .encoding reason) ∧
        ∀ summary, .finished summary ∉ run.log) ∧
    (∀ room? fault, (∀ room ∈ room?, calm.written.length ≤ room.1) →
      let run := ofSource policy source ⟨[], room?, some fault⟩
      run.written = calm.written ∧ run.outcome = .error (.io fault) ∧
        ∀ summary, .finished summary ∉ run.log) ∧
    ∀ room? flushFault?,
      ((ofSource policy source ⟨[], room?, flushFault?⟩).written.splitOn Text.lineFeed).dropLast <+:
        ((Record.pieces chunks.flatten).map (Report.ofPiece policy)).map Report.bytes := by
  intro source calm
  have hcalm : calm = ending none (through policy source none) :=
    ofSource_of_room?_eq_none policy source none
  have hwritten : calm.written = replies policy source :=
    written_of_room?_eq_none policy source none
  rw [hwritten]
  refine ⟨⟨_, congrArg outcome hcalm⟩, fun limit h => ?_, fun limit flushFault? h => ?_,
    fun room? fault h => ?_, ?_⟩
  · rw [ofSource_of_le policy source none reason h, hcalm]
    rfl
  · obtain ⟨stopped, hrun, hstopped, hlog⟩ :=
      exists_ofSource_of_lt policy source flushFault? reason h
    rw [hrun]
    exact ⟨hstopped, rfl, fun summary hmem => hlog summary (List.mem_reverse.mp hmem)⟩
  · have hrun : ofSource policy source ⟨[], room?, some fault⟩ =
        failed (.io fault) (through policy source (some fault)) := by
      obtain - | ⟨limit, reason⟩ := room?
      · exact ofSource_of_room?_eq_none policy source (some fault)
      · exact ofSource_of_le policy source (some fault) reason (h _ rfl)
    rw [hrun]
    exact ⟨written_through policy source _, rfl, fun summary hmem =>
      finished_notMem_log_through policy source _ summary (List.mem_reverse.mp hmem)⟩
  · exact complete_prefix_reports policy chunks

/-- Of the output for two records, one sink takes the first report but not the line feed behind it,
and another takes both and the first bytes of the second report. -/
theorem ofSource_limited_cut :
    let chunks := [Utf8.encode "\x7b\"id\":\"1-2-3\"\x7d\n?".toList]
    let report := Listing.resolve .reject ⟨"1-2-3", []⟩
    let run (limit : Nat) := ofSource .reject ⟨chunks, none⟩ ⟨[], some (limit, "full"), none⟩
    let ends := run report.bytes.length
    let breaks := run (report.line.length + 5)
    ends.written = report.bytes ∧ ends.outcome = .error (.io "full") ∧
      breaks.written = report.line ++ Utf8.encode "\x7b\"id\"".toList ∧
      breaks.outcome = .error (.encoding "full") ∧
      ∀ summary, .finished summary ∉ ends.log ∧ .finished summary ∉ breaks.log := by
  intro chunks report run ends breaks
  obtain ⟨-, -, hcut, -⟩ := ofSource_limited .reject chunks "full"
  have hcalm : (ofSource .reject ⟨chunks, none⟩ .unlimited).written =
      replies .reject ⟨chunks, none⟩ :=
    written_of_room?_eq_none .reject ⟨chunks, none⟩ none
  rw [hcalm] at hcut
  obtain ⟨hends, hio, hlog⟩ := hcut report.bytes.length none (by decide +kernel)
  obtain ⟨hbreaks, hencoding, hlog'⟩ := hcut (report.line.length + 5) none (by decide +kernel)
  have hlineFeed : (replies .reject ⟨chunks, none⟩)[report.bytes.length]? = some Text.lineFeed := by
    decide +kernel
  have hinside :
      (replies .reject ⟨chunks, none⟩)[report.line.length + 5]? ≠ some Text.lineFeed := by
    decide +kernel
  rw [if_pos hlineFeed] at hio
  rw [if_neg hinside] at hencoding
  refine ⟨hends.trans (by decide +kernel), hio, hbreaks.trans (by decide +kernel), hencoding,
    fun summary => ⟨hlog summary, hlog' summary⟩⟩

end Run

end ListingSnapshot
