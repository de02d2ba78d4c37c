import ListingSnapshot.Event
import ListingSnapshot.Identifier.Basic

/-!
# Listings

A listing as it is handed in: the text of its identifier, which need not be well formed, and its
event log.

## Main definitions

* `Listing`: identifier text and event log.
* `Listing.identifier?`, `Listing.snapshot?`: the identifier, and the identifier of a snapshot.
* `Listing.isHistorical`, `Listing.currentId?`: whether the listing is a snapshot, and the text of
  the live identifier behind it.
-/

namespace ListingSnapshot

/-- A listing with its event log. -/
structure Listing where
  id : String
  events : List Event
deriving DecidableEq

namespace Listing

/-- The identifier, if the text is that of one. -/
def identifier? (listing : Listing) : Option Identifier :=
  Identifier.parse? listing.id

/-- The highest block in the event log. -/
def latestBlock? (listing : Listing) : Option Block :=
  ListingSnapshot.latestBlock? listing.events

/-- The identifier, if the text is that of a snapshot. -/
def snapshot? (listing : Listing) : Option Identifier :=
  listing.identifier?.filter Identifier.isHistorical

/-- Whether the listing is a snapshot. -/
def isHistorical (listing : Listing) : Bool :=
  listing.snapshot?.isSome

/-- The text of the live identifier that a snapshot was taken of; none for a listing that is live
already and for a malformed identifier. -/
def currentId? (listing : Listing) : Option String :=
  listing.snapshot?.map fun id => id.current.text

end Listing

end ListingSnapshot
