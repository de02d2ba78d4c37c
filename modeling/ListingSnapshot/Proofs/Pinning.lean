import ListingSnapshot.Proofs.Identifier.Snapshots
import ListingSnapshot.Proofs.Resolution
import ListingSnapshot.Session

/-!
# Pinning a listing and taking it back

A listing under edit can be pinned to a block and taken back to the live listing, any number of
times. Every such move reads the identifier text, changes the identifier and writes it again. Since
an identifier is read from what was written of it, moves may as well be taken to act on identifiers,
and there each undoes the one before: of several moves only the last shows. A text that is no
identifier is left as it is by all of them.

## Main definitions

* `Session.after`: a session after some steps.
* `Session.Move`: pinning to a block, and taking back to the live listing.
* `Identifier.moved`: what a move makes of an identifier.

## Main results

* `Identifier.foldl_moved`: of several moves the last one shows.
* `Session.take_move`, `Session.after_map_step`: a move, and moves one after the other, act on the
  identifier that the text spells.
* `Session.after_moves`: the text after any moves.
-/

namespace ListingSnapshot

/-! ### Moves -/

namespace Session

/-- The session after some steps, whatever they answer. -/
def after (session : Session) (steps : List Step) : Session :=
  steps.foldl (fun session step => (session.take step).2) session

/-- A change of the state of the listing that is addressed. -/
inductive Move
  /-- To the snapshot at a block. -/
  | pin (block : Block)
  /-- To the live listing. -/
  | strip
deriving DecidableEq

/-- The step of editing that a move is. -/
def Move.step : Move → Step
  | pin block => .pin block
  | strip => .toCurrent

end Session

/-! ### Moves of identifiers -/

namespace Identifier

/-- What a move makes of an identifier. -/
def moved (id : Identifier) : Session.Move → Identifier
  | .pin block => id.atBlock block
  | .strip => id.current

/-- Moves do not touch the coordinates. -/
@[simp] theorem current_moved (id : Identifier) (move : Session.Move) :
    (id.moved move).current = id.current := by
  cases move with
  | pin block => exact id.current_atBlock block
  | strip => exact id.current_current

theorem current_foldl_moved (id : Identifier) (moves : List Session.Move) :
    (moves.foldl moved id).current = id.current := by
  induction moves generalizing id with
  | nil => rfl
  | cons move moves ih => rw [List.foldl_cons, ih, current_moved]

/-- What a move makes of an identifier depends on the coordinates alone. -/
theorem moved_congr {a b : Identifier} (h : a.current = b.current) (move : Session.Move) :
    a.moved move = b.moved move := by
  cases move with
  | pin block => exact congrArg (·.atBlock block) h
  | strip => exact h

/-- Of several moves the last one shows. -/
theorem foldl_moved (id : Identifier) (moves : List Session.Move) :
    moves.foldl moved id = (moves.getLast?.map id.moved).getD id := by
  obtain rfl | ⟨moves, move, rfl⟩ := moves.eq_nil_or_concat'
  · rfl
  · rw [List.foldl_append, List.getLast?_concat]
    exact moved_congr (current_foldl_moved id moves) move

end Identifier

/-! ### Moves of listings -/

namespace Listing

variable {listing : Listing} {id : Identifier}

theorem currentId?_of_parse (h : Identifier.parse listing.id = .ok id) :
    listing.currentId? = if id.isHistorical then some id.current.text else none := by
  have hid : listing.identifier? = some id := by
    rw [identifier?, Identifier.parse?, h]
    rfl
  rw [currentId?, snapshot?, hid, Option.filter_some]
  split <;> rfl

theorem currentId?_of_parse_error {e : Identifier.ParseError}
    (h : Identifier.parse listing.id = .error e) : listing.currentId? = none := by
  rw [currentId?, snapshot?, identifier?, Identifier.parse?, h]
  rfl

end Listing

namespace Session

variable {session : Session}

theorem withId_self (session : Session) : session.withId session.listing.id = session :=
  rfl

section Read

variable {id : Identifier} (h : Identifier.parse session.listing.id = .ok id)

include h

theorem pin_of_parse (block : Block) :
    session.pin block = (.done, session.withId (id.atBlock block).text) := by
  rw [pin, h]

/-- A move acts on the identifier that the text spells. -/
theorem take_move (move : Move) :
    (session.take move.step).2 = session.withId (id.moved move).text := by
  cases move with
  | pin block => exact congrArg Prod.snd (pin_of_parse h block)
  | strip =>
    rw [Move.step, take, Listing.currentId?_of_parse h, Identifier.moved]
    cases hid : id.isHistorical with
    | true => rfl
    | false =>
      -- What is live already is left as it is, and that is its own text.
      rw [Identifier.current_eq_self hid, Identifier.text_eq_of_parse h]
      rfl

/-- Moves one after the other act on the identifier that the text spells. -/
theorem after_map_step (moves : List Move) :
    session.after (moves.map Move.step) =
      session.withId (moves.foldl Identifier.moved id).text := by
  induction moves generalizing session id with
  | nil => exact (Identifier.text_eq_of_parse h ▸ withId_self session).symm
  | cons move moves ih =>
    have hread : Identifier.parse (session.withId (id.moved move).text).listing.id =
        .ok (id.moved move) :=
      Identifier.parse_text _
    rw [List.map_cons, after, List.foldl_cons, take_move h]
    exact ih hread

end Read

section Unread

variable {e : Identifier.ParseError} (h : Identifier.parse session.listing.id = .error e)

include h

theorem pin_of_parse_error (block : Block) : session.pin block = (.noIdentifier e, session) := by
  rw [pin, h]

/-- A move leaves what is no identifier as it is. -/
theorem take_move_of_error (move : Move) : (session.take move.step).2 = session := by
  cases move with
  | pin block => exact congrArg Prod.snd (pin_of_parse_error h block)
  | strip =>
    rw [Move.step, take, Listing.currentId?_of_parse_error h]

theorem after_map_step_of_error (moves : List Move) :
    session.after (moves.map Move.step) = session := by
  induction moves with
  | nil => rfl
  | cons move moves ih =>
    rw [List.map_cons, after, List.foldl_cons, take_move_of_error h]
    exact ih

end Unread

/-- **Only the last move shows.** Let a listing be pinned to blocks and taken back to the live
listing, any number of times in any order. If its text is that of an identifier, it stays one of the
same listing, and every further pin goes through: after a pin it is the text of the live listing
with a dash and the digits of the block behind, and denotes that block; after going back it is the
text of the live listing. If the text is that of no identifier, nothing is ever changed, and every
pin fails for the reason that the text has from the start. -/
theorem after_moves (session : Session) (moves : List Move) :
    let last := session.after (moves.map Move.step)
    match Identifier.parse session.listing.id with
    | .ok id =>
      (∃ own, Identifier.parse last.listing.id = .ok own ∧ own.sameListing id = true ∧
        match moves.getLast? with
        | none => last = session
        | some (.pin block) =>
          last = session.withId (id.current.text ++ "-" ++ block.text) ∧
            own.snapshotBlock? = some block
        | some .strip => last = session.withId id.current.text) ∧
      ∀ block, (last.take (.pin block)).1 = .done
    | .error e =>
      last = session ∧ ∀ block, last.take (.pin block) = (.noIdentifier e, session) := by
  intro last
  cases h : Identifier.parse session.listing.id with
  | error e =>
    have hlast : last = session := after_map_step_of_error h moves
    rw [hlast]
    exact ⟨rfl, pin_of_parse_error h⟩
  | ok id =>
    have hlast : last = session.withId (moves.foldl Identifier.moved id).text :=
      after_map_step h moves
    have hread : Identifier.parse last.listing.id = .ok (moves.foldl Identifier.moved id) := by
      rw [hlast]
      exact Identifier.parse_text _
    have hsame : (moves.foldl Identifier.moved id).sameListing id = true :=
      Identifier.sameListing_iff.mpr (Identifier.current_foldl_moved id moves)
    refine ⟨⟨_, hread, hsame, ?_⟩, fun block => congrArg Prod.fst (pin_of_parse hread block)⟩
    rw [hlast, Identifier.foldl_moved]
    rcases moves.getLast? with - | block | -
    · exact Identifier.text_eq_of_parse h ▸ withId_self session
    · exact ⟨congrArg session.withId (id.text_atBlock block), id.snapshotBlock?_atBlock block⟩
    · rfl

example :
    let session : Session := ⟨⟨"07-1-2-99999999999999999999", []⟩, .reject⟩
    let moves : List Move := [.strip, .pin ⟨9⟩, .pin ⟨12⟩]
    (session.after (moves.map Move.step)).listing.id = "07-1-2-12" := by
  decide +kernel

end Session

end ListingSnapshot
