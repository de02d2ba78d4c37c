import ListingSnapshot.Proofs.Pinning

/-!
# Fresh snapshots

A listing with a log can be pinned to each of the `2 ^ 64` blocks, and only one of the snapshots
that come of it is fresh: the one at the latest block of the log. The block is written as digits
when the listing is pinned and read from them when the snapshot is compared with the log, and
neither the coordinates nor a snapshot segment that was there before have any part in it. Taking a
snapshot back to the live listing always leads to a listing that is current.

## Main results

* `Listing.isCurrent_pinned`: pinning to the latest block, and to any other.
* `Listing.isCurrent_live`: what is live is current.
* `Session.existsUnique_pin`: of all pins just one is current.
-/

namespace ListingSnapshot

namespace Listing

variable (policy : Policy) (id : Identifier)

/-! ### Pinned listings -/

section Pinned

variable (block : Block) (events : List Event)

theorem snapshot?_pinned :
    (Listing.mk (id.atBlock block).text events).snapshot? = some (id.atBlock block) :=
  snapshot?_eq_some_iff.mpr ⟨rfl, rfl⟩

theorem isHistorical_pinned : (Listing.mk (id.atBlock block).text events).isHistorical = true :=
  congrArg Option.isSome (snapshot?_pinned id block events)

theorem currentId?_pinned :
    (Listing.mk (id.atBlock block).text events).currentId? = some id.current.text := by
  rw [currentId?, snapshot?_pinned, Option.map_some, Identifier.current_atBlock]

/-- The snapshot at a block is current if the block is the latest of the log. -/
theorem isCurrent_pinned {events : List Event} {latest : Block}
    (hl : ListingSnapshot.latestBlock? events = some latest) :
    (Listing.mk (id.atBlock block).text events).isCurrent policy =
      .ok (decide (block = latest)) := by
  rw [isCurrent_of_snapshot? policy (snapshot?_pinned id block events) hl,
    Identifier.snapshotBlock?_atBlock]
  simp only [Option.some.injEq]

end Pinned

/-! ### Live listings -/

section Live

variable (events : List Event)

theorem currentId?_live : (Listing.mk id.current.text events).currentId? = none := by
  have hread : Identifier.parse (Listing.mk id.current.text events).id = .ok id.current :=
    Identifier.parse_text _
  rw [currentId?_of_parse hread]
  rfl

theorem isCurrent_live : (Listing.mk id.current.text events).isCurrent policy = .ok true := by
  refine isCurrent_of_not_isHistorical policy ?_
  rw [isHistorical, ← Option.isSome_map, ← currentId?, currentId?_live]
  rfl

end Live

end Listing

namespace Session

/-! ### Pins -/

theorem take_pin {session : Session} {id : Identifier}
    (h : Identifier.parse session.listing.id = .ok id) (block : Block) :
    session.take (.pin block) =
      (.done, ⟨⟨(id.atBlock block).text, session.listing.events⟩, session.policy⟩) :=
  pin_of_parse h block

/-- A pin is undone by going back to the live listing. -/
theorem take_toCurrent_pinned (id : Identifier) (block : Block) (events : List Event)
    (policy : Policy) :
    take ⟨⟨(id.atBlock block).text, events⟩, policy⟩ .toCurrent =
      (.done, ⟨⟨id.current.text, events⟩, policy⟩) := by
  simp only [take, Listing.currentId?_pinned]
  rfl

/-- **Of all pins just one is current.** Let the text of a listing be that of an identifier, live or
historical, and let its log not be empty. Pinned to any block, the listing is a snapshot of the live
listing; it is current if the block is the latest of the log and out of date if it is any other. So
just one of all blocks makes a current snapshot. Taken back from any of them the listing is live and
current, and there is nothing left to take back. -/
theorem existsUnique_pin (session : Session) {id : Identifier}
    (h : Identifier.parse session.listing.id = .ok id) (hevents : session.listing.events ≠ []) :
    let live : Listing := ⟨id.current.text, session.listing.events⟩
    let pinned (block : Block) : Listing := ⟨(id.atBlock block).text, session.listing.events⟩
    ∃ latest, session.listing.latestBlock? = some latest ∧
      (∀ block,
        session.take (.pin block) = (.done, ⟨pinned block, session.policy⟩) ∧
        (pinned block).isHistorical = true ∧ (pinned block).currentId? = some live.id ∧
        (pinned block).isCurrent session.policy = .ok (decide (block = latest)) ∧
        take ⟨pinned block, session.policy⟩ .toCurrent = (.done, ⟨live, session.policy⟩)) ∧
      (∃! block, (pinned block).isCurrent session.policy = .ok true) ∧
      live.isCurrent session.policy = .ok true ∧ live.currentId? = none := by
  intro live pinned
  obtain ⟨latest, hl⟩ :=
    Option.ne_none_iff_exists'.mp (mt latestBlock?_eq_none_iff.mp hevents)
  have hcurrent (block : Block) :
      (pinned block).isCurrent session.policy = .ok (decide (block = latest)) :=
    Listing.isCurrent_pinned session.policy id block hl
  refine ⟨latest, hl, fun block => ⟨take_pin h block, Listing.isHistorical_pinned id block _,
    Listing.currentId?_pinned id block _, hcurrent block, take_toCurrent_pinned id block _ _⟩,
    ⟨latest, ?_, fun block hblock => ?_⟩, Listing.isCurrent_live _ id _,
    Listing.currentId?_live id _⟩
  · exact (hcurrent latest).trans (by rw [decide_eq_true rfl])
  · have hdecide := Except.ok.inj ((hcurrent block).symm.trans hblock)
    exact of_decide_eq_true hdecide

/-- A listing that is pinned to no possible block is pinned to the latest of the blocks 3, 7 and 5,
and to another. -/
theorem existsUnique_pin_impossible_block :
    let events : List Event := [⟨⟨3⟩, none⟩, ⟨⟨7⟩, some .offerData⟩, ⟨⟨5⟩, none⟩]
    let session : Session := ⟨⟨"007-1-2-99999999999999999999", events⟩, .reject⟩
    let pinned (block : Block) := (session.take (.pin block)).2.listing
    session.listing.latestBlock? = some ⟨7⟩ ∧ pinned ⟨7⟩ = ⟨"007-1-2-7", events⟩ ∧
      (pinned ⟨7⟩).isCurrent .reject = .ok true ∧ (pinned ⟨5⟩).isCurrent .reject = .ok false ∧
      ∃! block, (pinned block).isCurrent .reject = .ok true := by
  intro events session pinned
  have hid : Identifier.parse session.listing.id =
      .ok ⟨⟨"007".toList, by decide, List.all_eq_true.mp (by decide)⟩, .ofUInt64 1, .ofUInt64 2,
        some ⟨"99999999999999999999".toList, by decide, List.all_eq_true.mp (by decide)⟩⟩ :=
    Identifier.parse_eq_ok_iff.mpr (by decide +kernel)
  obtain ⟨latest, hl, hpins, hunique, _⟩ := existsUnique_pin session hid (List.cons_ne_nil _ _)
  have hpinned (block : Block) : pinned block = _ :=
    congrArg (fun answer => answer.2.listing) (hpins block).1
  have hseven : session.listing.latestBlock? = some ⟨7⟩ := by decide +kernel
  obtain rfl : latest = ⟨7⟩ := Option.some.inj (hl.symm.trans hseven)
  obtain ⟨_, _, _, hcurrent, _⟩ := hpins ⟨7⟩
  obtain ⟨_, _, _, hstale, _⟩ := hpins ⟨5⟩
  simp only [hpinned]
  exact ⟨hseven, by decide +kernel, hcurrent, hstale, hunique⟩

end Session

end ListingSnapshot
