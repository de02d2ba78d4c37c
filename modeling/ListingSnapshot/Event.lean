import ListingSnapshot.Block

/-!
# Events of a listing

Whatever happens to a listing on the ledger leaves an event: the block it happened in and, where it
is known, the kind of thing that happened.

## Main definitions

* `EventKind`: the kinds of events, with one for all that have no kind of their own here.
* `EventKind.name`, `EventKind.ofName`: their names, and the kind that a name stands for.
* `Event`: a block and perhaps a kind.
* `latestBlock?`: the highest block of an event log.
-/

namespace ListingSnapshot

/-! ### Kinds -/

/-- What happened to a listing, or to an offer made for it. -/
inductive EventKind
  | listingCreated
  | listingUpdated
  | listingWithdrawn
  | listingArbitrated
  | listingData
  | offerCreated
  | offerAccepted
  | offerFinalized
  | offerWithdrawn
  | offerFundsAdded
  | offerDisputed
  | offerRuling
  | offerData
  | unknown
deriving DecidableEq

namespace EventKind

/-- All kinds, in the order of their declaration. -/
def all : List EventKind :=
  [listingCreated, listingUpdated, listingWithdrawn, listingArbitrated, listingData, offerCreated,
    offerAccepted, offerFinalized, offerWithdrawn, offerFundsAdded, offerDisputed, offerRuling,
    offerData, unknown]

/-- The name of a kind. -/
def name : EventKind → String
  | listingCreated => "ListingCreated"
  | listingUpdated => "ListingUpdated"
  | listingWithdrawn => "ListingWithdrawn"
  | listingArbitrated => "ListingArbitrated"
  | listingData => "ListingData"
  | offerCreated => "OfferCreated"
  | offerAccepted => "OfferAccepted"
  | offerFinalized => "OfferFinalized"
  | offerWithdrawn => "OfferWithdrawn"
  | offerFundsAdded => "OfferFundsAdded"
  | offerDisputed => "OfferDisputed"
  | offerRuling => "OfferRuling"
  | offerData => "OfferData"
  | unknown => "Unknown"

/-- The kind with this name; a name that is no kind's stands for `unknown`. -/
def ofName (name : String) : EventKind :=
  (all.find? fun kind => kind.name = name).getD unknown

@[simp] theorem ofName_name (kind : EventKind) : ofName kind.name = kind := by
  cases kind <;> decide

end EventKind

/-! ### Event logs -/

/-- An entry of a listing's event log. -/
structure Event where
  block : Block
  kind? : Option EventKind
deriving DecidableEq

/-- The highest block in which something happened; none for an empty log. The order of the log does
not matter. -/
def latestBlock? (events : List Event) : Option Block :=
  (events.map Event.block).max?

theorem latestBlock?_eq_none_iff {events : List Event} :
    latestBlock? events = none ↔ events = [] := by
  rw [latestBlock?, List.max?_eq_none_iff, List.map_eq_nil_iff]

theorem latestBlock?_eq_some_iff {events : List Event} {b : Block} :
    latestBlock? events = some b ↔
      b ∈ events.map Event.block ∧ ∀ a ∈ events.map Event.block, a ≤ b :=
  List.max?_eq_some_iff

end ListingSnapshot
