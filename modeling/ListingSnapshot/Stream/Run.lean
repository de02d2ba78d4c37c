import ListingSnapshot.Stream.Record
import ListingSnapshot.Stream.Sink

/-!
# Runs over a stream

A run asks a source for one line after another, replies to the record on it and writes the report
to the sink, with a line feed behind it, before it asks for the next. It goes on until the source
comes to its end or something fails that is not a matter of the records: the sink, or the source.

## Main definitions

* `Progress`: how far a run has come.
* `Progress.reply`: one more record.
* `Progress.replyFrom`: all records that a source supplies.
* `Run`: what a run leaves behind.
* `Run.ofSource`: the run from a source to a sink under a policy.
-/

namespace ListingSnapshot

/-- How far a run has come. -/
structure Progress where
  sink : Sink
  summary : Summary
  /-- What has been left on record, the latest first. -/
  log : List Log.Entry

namespace Progress

/-- The start of a run. -/
def start (sink : Sink) : Progress := ⟨sink, .empty, []⟩

/-- Writes bytes; a refusal becomes the failure that `failure` makes of its reason. -/
def write (failure : String → Failure) (bytes : Bytes) (progress : Progress) :
    Except (Failure × Progress) Progress :=
  match progress.sink.write bytes with
  | (sink, none) => .ok { progress with sink }
  | (sink, some reason) => .error (failure reason, { progress with sink })

/-- Replies to one more record: the report is counted before it is written. -/
def reply (policy : Policy) (progress : Progress) (record : Record) :
    Except (Failure × Progress) Progress := do
  let report := record.report policy
  let progress :=
    { progress with
      summary := progress.summary.record report
      log := (record.logEntry? policy).toList ++ progress.log }
  let progress ← progress.write .encoding report.bytes
  progress.write .io [Text.lineFeed]

/-- Replies to the record on one more line, if there is one. -/
def replyLine (policy : Policy) (progress : Progress) (number : Nat) (line : Bytes) :
    Except (Failure × Progress) Progress :=
  match Record.ofLine? number line with
  | none => .ok progress
  | some record => progress.reply policy record

/-- Replies to what a source supplies, line by line, the first of which has this number. -/
def replyFrom (policy : Policy) (number : Nat) (source : Source) (progress : Progress) :
    Except (Failure × Progress) Progress :=
  match _h : source.supply with
  | .broken reason => .error (.io reason, progress)
  | .last line => progress.replyLine policy number line
  | .line line left => do
    let progress ← progress.replyLine policy number line
    replyFrom policy (number + 1) left progress
termination_by source.size
decreasing_by exact Source.size_lt_of_supply _h

end Progress

/-- What a run leaves behind. -/
structure Run where
  written : Bytes
  log : List Log.Entry
  outcome : Except Failure Summary

namespace Run

/-- A run that has failed. -/
def failed (failure : Failure) (progress : Progress) : Run :=
  ⟨progress.sink.written, progress.log.reverse, .error failure⟩

/-- A run that has come to its end, which it leaves on record. -/
def finished (progress : Progress) : Run :=
  ⟨progress.sink.written, (Log.Entry.finished progress.summary :: progress.log).reverse,
    .ok progress.summary⟩

/-- The run from a source to a sink. -/
def ofSource (policy : Policy) (source : Source) (sink : Sink) : Run :=
  match Progress.replyFrom policy 1 source (.start sink) with
  | .error (failure, progress) => failed failure progress
  | .ok progress =>
    match progress.sink.flushFault? with
    | some reason => failed (.io reason) progress
    | none => finished progress

end Run

end ListingSnapshot
