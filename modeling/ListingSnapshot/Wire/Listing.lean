import ListingSnapshot.Json.Passing
import ListingSnapshot.Listing
import ListingSnapshot.Wire.Identifier

/-!
# Listings in JSON

A listing is an object with its identifier and its events, an event one with its block and its kind.
Both may be read from a list of these parts as well. What is absent may be left out, and members of
other names are passed over.

## Main definitions

* `EventKind.toJson`, `EventKind.reader`: kinds of events.
* `Event.toJson`, `Event.reader`: events.
* `Listing.toJson`, `Listing.reader`: listings.
-/

namespace ListingSnapshot

open Json

/-! ### Kinds of events -/

namespace EventKind

/-- The name as a string. -/
def toJson (kind : EventKind) : Tree :=
  .string kind.name

/-- The kind that a name stands for, written as a string or as the name of the only member of an
object, whose value is `null`. -/
def reader : Reader EventKind := do
  match ← Reader.lead with
  | .string => do
    Reader.pass
    return ofName (← Reader.text)
  | .container .object => do
    Reader.pass
    match ← Reader.blanks with
    | none => Reader.failNext (.truncated .object)
    | some b =>
      if b = byte '\x7d' then Reader.failNext (.malformed .valueExpected)
      else
        let name ← Reader.name
        Reader.colon
        Reader.nothing
        match ← Reader.blanks with
        | none => Reader.failHere (.truncated .object)
        | some b =>
          if b = byte '\x7d' then
            Reader.pass
            return ofName name
          else Reader.failHere (.malformed .valueExpected)
  | _ => Reader.failNext (.malformed .valueExpected)

end EventKind

/-! ### Events -/

namespace Event

/-- The block and, where it is known, the kind. -/
def toJson (event : Event) : Tree :=
  .object <| ("blockNumber", event.block.toJson) ::
    match event.kind? with
    | none => []
    | some kind => [("event", kind.toJson)]

/-- What has been read of an event. -/
structure Draft where
  block? : Option Block
  kind? : Option (Option EventKind)

/-- Reads the member of this name. -/
def member (draft : Draft) (name : String) : Reader Draft := do
  match name with
  | "blockNumber" =>
    return { draft with block? := some (← Reader.once name draft.block? Block.reader) }
  | "event" =>
    let kind? ← Reader.once name draft.kind? (Reader.optional EventKind.reader)
    return { draft with kind? := some kind? }
  | _ => do
    Reader.passMember
    return draft

/-- The event that has been read. -/
def finish (draft : Draft) : Reader Event :=
  match draft.block? with
  | none => Reader.failUnplaced (.unfit (.missingField "blockNumber"))
  | some block => return ⟨block, draft.kind?.getD none⟩

/-- The event whose parts are the items of a list. -/
def fromList : Reader Event := do
  match ← Reader.item? true Block.reader with
  | none => Reader.failUnplaced (.unfit (.wrongLength 0 "ListingEvent" 2))
  | some block =>
    let kind? ← Reader.item? false (Reader.optional EventKind.reader)
    return ⟨block, kind?.getD none⟩

/-- The event whose parts are the members of an object. -/
def fromObject : Reader Event := do
  finish (← Reader.members member ⟨none, none⟩)

/-- An event. -/
def reader : Reader Event :=
  Reader.record "ListingEvent" fromList fromObject

theorem takes_reader : reader.Takes fun _ => True :=
  Reader.takes_record _ _ _

end Event

/-! ### Listings -/

namespace Listing

/-- The identifier text and the events. -/
def toJson (listing : Listing) : Tree :=
  .object [("id", .string listing.id), ("events", .list (listing.events.map Event.toJson))]

/-- What has been read of a listing. -/
structure Draft where
  id? : Option String
  events? : Option (List Event)

/-- An event log. -/
def eventLog : Reader (List Event) :=
  Reader.list Event.reader Event.takes_reader

/-- Reads the member of this name. -/
def member (draft : Draft) (name : String) : Reader Draft := do
  match name with
  | "id" => return { draft with id? := some (← Reader.once name draft.id? Reader.string) }
  | "events" => return { draft with events? := some (← Reader.once name draft.events? eventLog) }
  | _ => do
    Reader.passMember
    return draft

/-- The listing that has been read. -/
def finish (draft : Draft) : Reader Listing :=
  match draft.id? with
  | none => Reader.failUnplaced (.unfit (.missingField "id"))
  | some id => return ⟨id, draft.events?.getD []⟩

/-- The listing whose parts are the items of a list. -/
def fromList : Reader Listing := do
  match ← Reader.item? true Reader.string with
  | none => Reader.failUnplaced (.unfit (.wrongLength 0 "Listing" 2))
  | some id =>
    let events? ← Reader.item? false eventLog
    return ⟨id, events?.getD []⟩

/-- The listing whose parts are the members of an object. -/
def fromObject : Reader Listing := do
  finish (← Reader.members member ⟨none, none⟩)

/-- A listing. -/
def reader : Reader Listing :=
  Reader.record "Listing" fromList fromObject

end Listing

end ListingSnapshot
