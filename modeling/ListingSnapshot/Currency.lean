import ListingSnapshot.Listing
import ListingSnapshot.Policy

/-!
# Whether a listing shows the latest state

A snapshot shows the latest state of its listing when it was taken at the latest block of the event
log. What is live is current by definition, and so is what has no well-formed identifier: only a
snapshot can be out of date.

## Main definitions

* `Currency`: how the question is settled for a listing.
* `Listing.currency`: the way it is settled under a policy.
* `Listing.isCurrent`: the answer, or the error that stands in its place.
-/

namespace ListingSnapshot

/-- How it is settled whether a listing shows the latest state. -/
inductive Currency
  /-- The listing is no snapshot. -/
  | live
  /-- The snapshot was compared with the latest block of the log. -/
  | compared (latest : Block) (isCurrent : Bool)
  /-- The log is empty, and the policy gives the answer. -/
  | assumed (isCurrent : Bool)
  /-- The log is empty, and the policy is to give no answer. -/
  | undecided
deriving DecidableEq

/-- Why there is no answer. -/
inductive ResolveError
  /-- The listing is a snapshot, and its event log is empty. -/
  | emptyEventLog (id : String)
deriving DecidableEq

namespace ResolveError

/-- The identifier text of the listing concerned. -/
def id : ResolveError → String
  | emptyEventLog id => id

/-- The message for the user. -/
def message : ResolveError → String
  | emptyEventLog id => "Historical listing " ++ id ++ " has an empty event log"

end ResolveError

/-- What a policy makes of a snapshot with an empty log. -/
def Policy.ofEmptyLog : Policy → Currency
  | .reject => .undecided
  | .stale => .assumed false
  | .current => .assumed true

namespace Listing

/-- How it is settled under a policy whether the listing shows the latest state. A snapshot segment
that is no block's height is later than every block, so such a snapshot is out of date. -/
def currency (policy : Policy) (listing : Listing) : Currency :=
  match listing.snapshot? with
  | none => .live
  | some id =>
    match listing.latestBlock? with
    | none => policy.ofEmptyLog
    | some latest => .compared latest (id.snapshotBlock? = some latest)

/-- Whether the listing shows the latest state. -/
def isCurrent (policy : Policy) (listing : Listing) : Except ResolveError Bool :=
  match listing.currency policy with
  | .live => .ok true
  | .compared _ isCurrent => .ok isCurrent
  | .assumed isCurrent => .ok isCurrent
  | .undecided => .error (.emptyEventLog listing.id)

end Listing

end ListingSnapshot
