import ListingSnapshot.Policy
import ListingSnapshot.Text.Utf8

/-!
# Where reports go

A sink accepts bytes up to a limit and refuses all beyond it. When everything has been written it is
flushed, which can fail as well.

## Main definitions

* `Sink`: what has been accepted, and what will be refused.
* `Sink.written`: all that has been written.
* `Sink.write`: as many bytes as the sink accepts.
* `Failure`: why a run does not come to a proper end.
-/

namespace ListingSnapshot

/-- A destination of bytes. -/
structure Sink where
  /-- What has been accepted, piece by piece, the latest first. -/
  pieces : List Bytes
  /-- How many more bytes are accepted, and the reason for refusing others; no limit if absent. -/
  room? : Option (Nat × String)
  /-- The reason why flushing fails, if it does. -/
  flushFault? : Option String

namespace Sink

/-- All that has been written. -/
def written (sink : Sink) : Bytes :=
  sink.pieces.reverse.flatten

/-- A sink that never fails. -/
def unlimited : Sink := ⟨[], none, none⟩

/-- Writes as many of the bytes as are accepted, and tells why the others are not. -/
def write (sink : Sink) (bytes : Bytes) : Sink × Option String :=
  match sink.room? with
  | none => ({ sink with pieces := bytes :: sink.pieces }, none)
  | some (room, reason) =>
    ({ sink with
        pieces := bytes.take room :: sink.pieces
        room? := some (room - bytes.length, reason) },
      if bytes.length ≤ room then none else some reason)

end Sink

/-- Why a run does not come to a proper end. -/
inductive Failure
  /-- The environment chooses no policy. -/
  | configuration (e : ConfigError)
  /-- The source or the sink fails. -/
  | io (reason : String)
  /-- The sink fails in the middle of a report. -/
  | encoding (reason : String)
deriving DecidableEq

/-- The message for the user. -/
def Failure.message : Failure → String
  | configuration e => "Configuration error: " ++ e.message
  | io reason => "I/O error: " ++ reason
  | encoding reason => "Encoding error: " ++ reason

end ListingSnapshot
