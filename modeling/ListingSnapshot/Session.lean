import ListingSnapshot.Wire.Listing
import ListingSnapshot.Wire.Report

/-!
# Editing a listing

A session holds one listing and the policy to resolve it under, and changes them step by step. A
step that cannot be taken leaves everything as it is and answers why.

## Main definitions

* `Session`: the listing and the policy.
* `Session.Step`: the steps.
* `Session.Answer`: what a step answers.
* `Session.take`: the answer to a step and the session after it.
-/

namespace ListingSnapshot

/-- A listing under edit. -/
structure Session where
  listing : Listing
  policy : Policy
deriving DecidableEq

namespace Session

/-- One step of editing. -/
inductive Step
  /-- Gives the listing another identifier text. -/
  | setId (id : String)
  /-- Adds an event at the end of the log. -/
  | push (event : Event)
  /-- Removes the last event of the log. -/
  | pop
  /-- Removes all events. -/
  | clear
  /-- Turns the order of the events around. -/
  | reverse
  /-- Replaces a snapshot by the live listing behind it. -/
  | toCurrent
  /-- Pins the listing to a block. -/
  | pin (block : Block)
  /-- Pins the listing to the latest block of its log. -/
  | pinLatest
  /-- Writes the listing as JSON and reads it back. -/
  | roundTrip
  /-- Reads another listing. -/
  | load (text : Bytes)
  /-- Asks whether an identifier addresses the same listing. -/
  | sameListing (id : String)
  /-- Asks whether the listing shows the latest state. -/
  | isCurrent
  /-- Changes the policy. -/
  | setPolicy (policy : Policy)
deriving DecidableEq

/-- What a step answers. -/
inductive Answer
  | done
  | unchanged
  | removed (block? : Option Block)
  | truth (value : Bool)
  | noIdentifier (e : Identifier.ParseError)
  | noListing (e : Json.Diagnostic)
  | noCurrency (e : ResolveError)
deriving DecidableEq

/-- The session with another identifier text. -/
def withId (session : Session) (id : String) : Session :=
  { session with listing := { session.listing with id } }

/-- The session with another event log. -/
def withEvents (session : Session) (events : List Event) : Session :=
  { session with listing := { session.listing with events } }

/-- Pins the listing to a block. -/
def pin (session : Session) (block : Block) : Answer × Session :=
  match Identifier.parse session.listing.id with
  | .error e => (.noIdentifier e, session)
  | .ok id => (.done, session.withId (id.atBlock block).text)

/-- Replaces the listing by the one that a text spells. -/
def load (session : Session) (text : Bytes) : Answer × Session :=
  match Json.decode Listing.reader text with
  | .error e => (.noListing e, session)
  | .ok listing => (.done, { session with listing })

/-- Whether a text is that of an identifier of the same listing. -/
def sameListing (session : Session) (text : String) : Except Identifier.ParseError Bool := do
  let own ← Identifier.parse session.listing.id
  let other ← Identifier.parse text
  return own.sameListing other

/-- The answer to a step, and the session after it. -/
def take (session : Session) : Step → Answer × Session
  | .setId id => (.done, session.withId id)
  | .push event => (.done, session.withEvents (session.listing.events ++ [event]))
  | .pop =>
    (.removed (session.listing.events.getLast?.map Event.block),
      session.withEvents session.listing.events.dropLast)
  | .clear => (.done, session.withEvents [])
  | .reverse => (.done, session.withEvents session.listing.events.reverse)
  | .toCurrent =>
    match session.listing.currentId? with
    | none => (.unchanged, session)
    | some id => (.done, session.withId id)
  | .pin block => session.pin block
  | .pinLatest =>
    match session.listing.identifier?, session.listing.latestBlock? with
    | some id, some block => (.done, session.withId (id.atBlock block).text)
    | _, _ => (.unchanged, session)
  | .roundTrip => session.load (Utf8.encode session.listing.toJson.print)
  | .load text => session.load text
  | .sameListing id =>
    match session.sameListing id with
    | .ok value => (.truth value, session)
    | .error e => (.noIdentifier e, session)
  | .isCurrent =>
    match session.listing.isCurrent session.policy with
    | .ok value => (.truth value, session)
    | .error e => (.noCurrency e, session)
  | .setPolicy policy => (.done, { session with policy })

end Session

end ListingSnapshot
