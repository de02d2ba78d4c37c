import ListingSnapshot.Proofs.Resolution
import Mathlib.Algebra.Group.Nat.Defs
import Mathlib.Logic.Relation

/-!
# Event logs that change

All that a report takes from an event log is its latest block. So a log may be told in another way
without any effect on the report, as long as nothing is added to it that happened later. And a log
to which events are added, wherever they are put, can only get later: a snapshot may be taken later
than all that is in the log, the log may then come level with it, and once it has left the snapshot
behind it never comes back.

## Main definitions

* `Event.Revised`: a log told in another way.
* `Event.Extended`: a log with one more event in it.
* `Standing`: how a snapshot stands to a log.

## Main results

* `Event.Revised.latestBlock?_eq`, `Event.exists_latestBlock?_of_extended`: what a change of the log
  does to its latest block.
* `Listing.resolve_congr`: a report depends on the log through its latest block alone.
* `Standing.of_mono`: a snapshot gets ever older.
* `Listing.resolve_evolution`: reports on a log that changes.
-/

namespace ListingSnapshot

/-! ### The latest block -/

/-- The latest block depends only on which blocks there are. -/
theorem latestBlock?_congr {events events' : List Event}
    (h : ∀ b, b ∈ events.map Event.block ↔ b ∈ events'.map Event.block) :
    latestBlock? events = latestBlock? events' := by
  refine Option.ext fun b => ?_
  rw [latestBlock?_eq_some_iff, latestBlock?_eq_some_iff, h b]
  simp only [h]

/-- The latest block is no earlier if there are more events. -/
theorem exists_latestBlock?_of_subset {events events' : List Event} {latest : Block}
    (h : events ⊆ events') (hl : latestBlock? events = some latest) :
    ∃ latest', latestBlock? events' = some latest' ∧ latest ≤ latest' := by
  have hmem : latest ∈ events'.map Event.block :=
    List.map_subset _ h (latestBlock?_eq_some_iff.mp hl).1
  have hne : latestBlock? events' ≠ none := by
    rw [Ne, latestBlock?_eq_none_iff]
    rintro rfl
    exact List.not_mem_nil hmem
  obtain ⟨latest', hl'⟩ := Option.ne_none_iff_exists'.mp hne
  exact ⟨latest', hl', (latestBlock?_eq_some_iff.mp hl').2 latest hmem⟩

/-! ### Changes of a log -/

namespace Event

/-- The same told in another way: in another order, with an event told once more or as one of
another kind or of none, or with an event more that happened no later than what was in the log. -/
inductive Revised : List Event → List Event → Prop
  | reordered {events events' : List Event} (h : events.Perm events') : Revised events events'
  | repeated {before after : List Event} {event : Event} (h : event ∈ before ++ after) :
      Revised (before ++ after) (before ++ event :: after)
  | rekinded (before after : List Event) (block : Block) (kind? kind?' : Option EventKind) :
      Revised (before ++ ⟨block, kind?⟩ :: after) (before ++ ⟨block, kind?'⟩ :: after)
  | backdated {before after : List Event} {event : Event} {latest : Block}
      (hl : latestBlock? (before ++ after) = some latest) (h : event.block ≤ latest) :
      Revised (before ++ after) (before ++ event :: after)

/-- One more event in the log, at any place. -/
inductive Extended : List Event → List Event → Prop
  | inserted (before after : List Event) (event : Event) :
      Extended (before ++ after) (before ++ event :: after)

variable {events events' : List Event}

theorem mem_map_block_inserted {before after : List Event} {event : Event} {b : Block} :
    b ∈ (before ++ event :: after).map block ↔
      b = event.block ∨ b ∈ (before ++ after).map block := by
  rw [(List.perm_middle.map block).mem_iff, List.map_cons, List.mem_cons]

/-- A log that is told in another way has the same latest block. -/
theorem Revised.latestBlock?_eq (h : Revised events events') :
    latestBlock? events' = latestBlock? events := by
  cases h with
  | reordered h => exact latestBlock?_congr fun b => (h.map Event.block).mem_iff.symm
  | @repeated before after event h =>
    have hmem : event.block ∈ (before ++ after).map block := List.mem_map_of_mem h
    refine latestBlock?_congr fun b => ?_
    rw [mem_map_block_inserted]
    exact or_iff_right_of_imp fun hb => hb ▸ hmem
  | rekinded before after block kind? kind?' =>
    exact latestBlock?_congr fun b => by rw [List.map_append, List.map_append]; rfl
  | @backdated before after event latest hl h =>
    -- The latest block is still there, and what is added does not go beyond it.
    obtain ⟨hmem, hle⟩ := latestBlock?_eq_some_iff.mp hl
    rw [hl, latestBlock?_eq_some_iff]
    refine ⟨mem_map_block_inserted.mpr (Or.inr hmem), fun b hb => ?_⟩
    rcases mem_map_block_inserted.mp hb with rfl | hb
    · exact h
    · exact hle b hb

theorem latestBlock?_eq_of_revised (h : Relation.ReflTransGen Revised events events') :
    latestBlock? events' = latestBlock? events := by
  induction h with
  | refl => rfl
  | tail _ hstep ih => exact hstep.latestBlock?_eq.trans ih

theorem Extended.subset (h : Extended events events') : events ⊆ events' := by
  obtain ⟨before, after, event⟩ := h
  exact ((List.sublist_cons_self event after).append_left before).subset

/-- A log to which events are added gets no earlier. -/
theorem exists_latestBlock?_of_extended {latest : Block}
    (h : Relation.ReflTransGen Extended events events') (hl : latestBlock? events = some latest) :
    ∃ latest', latestBlock? events' = some latest' ∧ latest ≤ latest' := by
  refine exists_latestBlock?_of_subset ?_ hl
  induction h with
  | refl => exact List.Subset.refl _
  | tail _ hstep ih => exact List.Subset.trans ih hstep.subset

end Event

/-! ### Snapshots and logs -/

/-- How a snapshot stands to a log. -/
inductive Standing
  /-- It is taken later than all that is in the log. -/
  | ahead
  /-- It is taken at the latest block. -/
  | level
  /-- It is taken before the latest block. -/
  | behind
deriving DecidableEq

namespace Standing

/-- How a snapshot taken at one height stands to a log with its latest block at another. -/
def of (taken latest : Nat) : Standing :=
  if latest < taken then ahead else if taken = latest then level else behind

/-- The place among the three, as time goes on. -/
def stage : Standing → Nat
  | ahead => 0
  | level => 1
  | behind => 2

instance : LE Standing := ⟨fun a b => a.stage ≤ b.stage⟩

variable {taken latest latest' : Nat}

theorem of_eq_level_iff : of taken latest = level ↔ taken = latest := by
  unfold of
  split_ifs <;> simp <;> omega

/-- A snapshot gets ever older. -/
theorem of_mono (h : latest ≤ latest') : of taken latest ≤ of taken latest' := by
  change (of taken latest).stage ≤ (of taken latest').stage
  unfold of
  split_ifs <;> simp only [stage] <;> omega

end Standing

namespace Listing

/-- A report depends on the log through its latest block alone. -/
theorem resolve_congr {listing listing' : Listing} (policy : Policy)
    (hid : listing'.id = listing.id) (hlatest : listing'.latestBlock? = listing.latestBlock?) :
    listing'.resolve policy = listing.resolve policy := by
  have hsnapshot : listing'.snapshot? = listing.snapshot? := by
    rw [snapshot?, identifier?, hid, ← identifier?, ← snapshot?]
  have hcurrent : listing'.isCurrent policy = listing.isCurrent policy := by
    rw [isCurrent, isCurrent, currency, currency, hsnapshot, hlatest, hid]
  rw [resolve, resolve, hcurrent, hid, hlatest, isHistorical, isHistorical, currentId?, currentId?,
    hsnapshot]

section Snapshot

variable {id : String} {a b c d : List Char} (h : IsSnapshotText id a b c d) {events : List Event}
  {latest : Block} (hl : ListingSnapshot.latestBlock? events = some latest)

include h hl

/-- A snapshot is current while the log is level with it, and at no other time. -/
theorem isCurrent_eq_standing (policy : Policy) :
    (Listing.mk id events).isCurrent policy =
      .ok (decide (Standing.of (Nat.ofDigitChars 10 d 0) latest.height.toNat = .level)) := by
  simp only [Standing.of_eq_level_iff]
  exact isCurrent_of_latestBlock? policy h hl

theorem isCurrent_eq_true_iff (policy : Policy) :
    (Listing.mk id events).isCurrent policy = .ok true ↔
      Nat.ofDigitChars 10 d 0 = latest.height.toNat := by
  rw [isCurrent_eq_standing h hl, Except.ok.injEq, decide_eq_true_iff, Standing.of_eq_level_iff]

theorem isCurrent_eq_false_iff (policy : Policy) :
    (Listing.mk id events).isCurrent policy = .ok false ↔
      Nat.ofDigitChars 10 d 0 ≠ latest.height.toNat := by
  rw [isCurrent_eq_standing h hl, Except.ok.injEq, decide_eq_false_iff_not,
    Standing.of_eq_level_iff]

/-- A snapshot that no block is late enough for is never current. -/
theorem isCurrent_eq_false_of_le (policy : Policy) (hd : 2 ^ 64 ≤ Nat.ofDigitChars 10 d 0) :
    (Listing.mk id events).isCurrent policy = .ok false := by
  have hlt : latest.height.toNat < 2 ^ 64 := latest.height.toNat_lt
  exact (isCurrent_eq_false_iff h hl policy).mpr (by omega)

/-- A log that has left a snapshot behind does not come back to it. -/
theorem isCurrent_eq_false_of_extended {policy : Policy} {events' : List Event} {latest' : Block}
    (hl' : ListingSnapshot.latestBlock? events' = some latest') (hle : latest ≤ latest')
    (hcurrent : (Listing.mk id events).isCurrent policy = .ok true)
    (hstale : (Listing.mk id events').isCurrent policy = .ok false) {events'' : List Event}
    (hevents : Relation.ReflTransGen Event.Extended events' events'') :
    (Listing.mk id events'').isCurrent policy = .ok false := by
  obtain ⟨latest'', hl'', hle'⟩ := Event.exists_latestBlock?_of_extended hevents hl'
  rw [isCurrent_eq_true_iff h hl] at hcurrent
  rw [isCurrent_eq_false_iff h hl'] at hstale
  rw [isCurrent_eq_false_iff h hl'']
  rw [Block.le_iff] at hle hle'
  omega

end Snapshot

/-- **Logs that change.** Telling a log in another way, however often, makes no difference to the
report on a listing with it. Let events be added to a log that is not empty, at any places. Then its
latest block gets no earlier, and a snapshot stands to it as one that gets ever older: ahead of the
log, level with it, or left behind. The snapshot is current while the log is level with it. Once it
has been current and is so no more, it never is again; and one taken at no possible block never
is. -/
theorem resolve_evolution (policy : Policy) (id : String) :
    (∀ events events', Relation.ReflTransGen Event.Revised events events' →
      (Listing.mk id events').resolve policy = (Listing.mk id events).resolve policy) ∧
    ∀ events events', events ≠ [] → Relation.ReflTransGen Event.Extended events events' →
      ∃ latest latest', ListingSnapshot.latestBlock? events = some latest ∧
        ListingSnapshot.latestBlock? events' = some latest' ∧ latest ≤ latest' ∧
        ∀ a b c d, IsSnapshotText id a b c d →
          let taken := Nat.ofDigitChars 10 d 0
          let isCurrent (events : List Event) := (Listing.mk id events).isCurrent policy
          Standing.of taken latest.height.toNat ≤ Standing.of taken latest'.height.toNat ∧
          isCurrent events' =
            .ok (decide (Standing.of taken latest'.height.toNat = .level)) ∧
          (2 ^ 64 ≤ taken → isCurrent events' = .ok false) ∧
          (isCurrent events = .ok true → isCurrent events' = .ok false →
            ∀ events'', Relation.ReflTransGen Event.Extended events' events'' →
              isCurrent events'' = .ok false) := by
  refine ⟨fun events events' h => ?_, fun events events' hne hevents => ?_⟩
  · exact resolve_congr policy rfl (Event.latestBlock?_eq_of_revised h)
  · obtain ⟨latest, hl⟩ := Option.ne_none_iff_exists'.mp (mt latestBlock?_eq_none_iff.mp hne)
    obtain ⟨latest', hl', hle⟩ := Event.exists_latestBlock?_of_extended hevents hl
    refine ⟨latest, latest', hl, hl', hle, fun a b c d h => ⟨?_, ?_, ?_, ?_⟩⟩
    · exact Standing.of_mono (Block.le_iff.mp hle)
    · exact isCurrent_eq_standing h hl' policy
    · exact isCurrent_eq_false_of_le h hl' policy
    · exact fun hcurrent hstale _ => isCurrent_eq_false_of_extended h hl hl' hle hcurrent hstale

/-- A snapshot at the latest of the blocks 5 and 3 is left behind by an event of block 7, wherever
in the log it is put. One of block 9 does not make it current again. -/
theorem resolve_evolution_left_behind :
    let log (heights : List UInt64) : List Event := heights.map fun height => ⟨⟨height⟩, none⟩
    let listing (heights : List UInt64) : Listing := ⟨"1-2-3-5", log heights⟩
    (listing [5, 3]).isCurrent .reject = .ok true ∧
      (listing [7, 5, 3]).isCurrent .reject = .ok false ∧
      (listing [9, 7, 5, 3]).isCurrent .reject = .ok false ∧
      (listing [5, 3, 7]).resolve .reject = (listing [7, 5, 3]).resolve .reject := by
  intro log listing
  have hid : IsSnapshotText "1-2-3-5" ['1'] ['2'] ['3'] ['5'] :=
    ⟨isDigitRun_toDigits 1, isDigitRun_toDigits 2, isDigitRun_toDigits 3, isDigitRun_toDigits 5,
      by decide +kernel⟩
  have hlevel : (listing [5, 3]).latestBlock? = some ⟨5⟩ := by decide +kernel
  have hbehind : (listing [7, 5, 3]).latestBlock? = some ⟨7⟩ := by decide +kernel
  have hcurrent : (listing [5, 3]).isCurrent .reject = .ok true :=
    isCurrent_eq_standing hid hlevel .reject
  have hstale : (listing [7, 5, 3]).isCurrent .reject = .ok false :=
    isCurrent_eq_standing hid hbehind .reject
  have hadded (height : UInt64) (heights : List UInt64) :
      Relation.ReflTransGen Event.Extended (log heights) (log (height :: heights)) :=
    .single (.inserted [] (log heights) ⟨⟨height⟩, none⟩)
  obtain ⟨hrevised, hextended⟩ := resolve_evolution .reject "1-2-3-5"
  obtain ⟨_, _, _, _, _, hstanding⟩ := hextended (log [5, 3]) (log [7, 5, 3])
    (List.cons_ne_nil _ _) (hadded 7 [5, 3])
  obtain ⟨_, _, _, hnever⟩ := hstanding _ _ _ _ hid
  refine ⟨hcurrent, hstale, hnever hcurrent hstale _ (hadded 9 [7, 5, 3]), ?_⟩
  have hperm : (log [7, 5, 3]).Perm (log [5, 3, 7]) := by decide +kernel
  exact hrevised _ _ (.single (.reordered hperm))

end Listing

end ListingSnapshot
