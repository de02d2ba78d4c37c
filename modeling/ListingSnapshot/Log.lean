import ListingSnapshot.Summary

/-!
# The log

What a run leaves on record beside its reports. An entry is one of four events of the run; level,
message and fields are how it is shown.

## Main definitions

* `Log.Entry`: the events that are recorded.
* `Log.Entry.level`, `Log.Entry.message`, `Log.Entry.fields`: how an entry is shown.
* `Listing.logEntry?`: what answering for a listing leaves on record.
-/

namespace ListingSnapshot

namespace Log

/-- How much an entry matters. -/
inductive Level
  | debug
  | info
  | warn
deriving DecidableEq

/-- The name of a level. -/
def Level.name : Level → String
  | debug => "DEBUG"
  | info => "INFO"
  | warn => "WARN"

/-- An event that is recorded. -/
inductive Entry
  /-- A snapshot was compared with the latest block of its log. -/
  | reconciled (id : String) (latest : Block) (isCurrent : Bool)
  /-- No answer was given for a snapshot with an empty log. -/
  | emptyLog (id : String)
  /-- The record on this line, counted from one, is no listing. -/
  | undecodable (line : Nat) (error : String)
  /-- A run has come to its end. -/
  | finished (summary : Summary)
deriving DecidableEq

namespace Entry

/-- How much the entry matters. -/
def level : Entry → Level
  | reconciled .. => .debug
  | emptyLog _ => .warn
  | undecodable .. => .warn
  | finished _ => .info

/-- What the entry says. -/
def message : Entry → String
  | reconciled .. => "Reconciled listing snapshot"
  | emptyLog _ => "Snapshot listing has no events"
  | undecodable .. => "Skipping undecodable listing"
  | finished _ => "Resolution stream finished"

/-- The particulars of the entry, by name. -/
def fields : Entry → List (String × String)
  | reconciled id latest isCurrent =>
    [("id", id), ("latest", latest.text), ("current", if isCurrent then "true" else "false")]
  | emptyLog id => [("id", id)]
  | undecodable line error => [("line", toString line), ("error", error)]
  | finished summary =>
    [("processed", toString summary.processed), ("current", toString summary.current),
      ("stale", toString summary.stale), ("failed", toString summary.failed)]

end Entry

end Log

/-- What answering for a listing leaves on record. -/
def Listing.logEntry? (policy : Policy) (listing : Listing) : Option Log.Entry :=
  match listing.currency policy with
  | .compared latest isCurrent => some (.reconciled listing.id latest isCurrent)
  | .undecided => some (.emptyLog listing.id)
  | .live => none
  | .assumed _ => none

end ListingSnapshot
