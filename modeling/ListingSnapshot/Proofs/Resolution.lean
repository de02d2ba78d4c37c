import ListingSnapshot.Proofs.Identifier.Pieces
import ListingSnapshot.Report

/-!
# What a report says

The rules for reports are about the text of an identifier and the blocks of a log; nothing in them
is about segments or parsing. A listing is a snapshot if its identifier text consists of four runs
of decimal digits with dashes between them. The snapshot is up to date if the fourth run denotes the
height of the highest block in the log, both taken as natural numbers.

## Main definitions

* `IsSnapshotText`: the texts of four digit runs.

## Main results

* `Listing.snapshot?_eq_some_iff`: the identifier of a snapshot.
* `Listing.isCurrent_of_snapshot?`, `Listing.isCurrent_of_latestBlock?`: a snapshot with a log.
* `Listing.resolve_rules`: all that a report says.
-/

namespace ListingSnapshot

/-! ### Texts of snapshots -/

/-- The text consists of four digit runs with a dash between any two. -/
structure IsSnapshotText (text : String) (a b c d : List Char) : Prop where
  first : IsDigitRun a
  second : IsDigitRun b
  third : IsDigitRun c
  fourth : IsDigitRun d
  eq : text.toList = a ++ '-' :: b ++ '-' :: c ++ '-' :: d

namespace Listing

variable {listing : Listing}

theorem snapshot?_eq_some_iff {id : Identifier} :
    listing.snapshot? = some id ↔ id.text = listing.id ∧ id.snapshot?.isSome := by
  rw [snapshot?, identifier?, Option.filter_eq_some_iff, Identifier.parse?_eq_some_iff]
  rfl

/-- A text of four digit runs is that of a snapshot, and these runs are its segments. -/
theorem exists_snapshot? {a b c d : List Char} (h : IsSnapshotText listing.id a b c d) :
    ∃ id block, listing.snapshot? = some id ∧ id.snapshot? = some block ∧ block.chars = d ∧
      id.current.text = String.ofList (a ++ '-' :: b ++ '-' :: c) := by
  obtain ⟨network, rfl⟩ := Segment.exists_of_isDigitRun h.first
  obtain ⟨contract, rfl⟩ := Segment.exists_of_isDigitRun h.second
  obtain ⟨index, rfl⟩ := Segment.exists_of_isDigitRun h.third
  obtain ⟨block, rfl⟩ := Segment.exists_of_isDigitRun h.fourth
  refine ⟨⟨network, contract, index, some block⟩, block, ?_, rfl, rfl, ?_⟩
  · refine snapshot?_eq_some_iff.mpr ⟨?_, rfl⟩
    rw [Identifier.text, ← String.ofList_toList (s := listing.id), h.eq]
    rfl
  · simp [Identifier.text, Identifier.chars, Identifier.current, Identifier.separator]

/-- The text of a snapshot consists of four digit runs. -/
theorem exists_isSnapshotText {id : Identifier} (h : listing.snapshot? = some id) :
    ∃ a b c d, IsSnapshotText listing.id a b c d := by
  obtain ⟨htext, hsome⟩ := snapshot?_eq_some_iff.mp h
  obtain ⟨block, hblock⟩ := Option.isSome_iff_exists.mp hsome
  refine ⟨_, _, _, _, id.network.isDigitRun, id.contract.isDigitRun, id.index.isDigitRun,
    block.isDigitRun, ?_⟩
  rw [← htext, Identifier.toList_text, Identifier.chars, hblock]
  rfl

theorem isHistorical_iff :
    listing.isHistorical = true ↔ ∃ a b c d, IsSnapshotText listing.id a b c d := by
  rw [isHistorical, Option.isSome_iff_exists]
  constructor
  · rintro ⟨id, h⟩
    exact exists_isSnapshotText h
  · rintro ⟨a, b, c, d, h⟩
    obtain ⟨id, _, hid, _⟩ := exists_snapshot? h
    exact ⟨id, hid⟩

theorem snapshot?_eq_none (h : listing.isHistorical = false) : listing.snapshot? = none := by
  rwa [isHistorical, Option.isSome_eq_false_iff, Option.isNone_iff_eq_none] at h

/-! ### Currency -/

theorem isCurrent_of_not_isHistorical (policy : Policy) (h : listing.isHistorical = false) :
    listing.isCurrent policy = .ok true := by
  rw [isCurrent, currency, snapshot?_eq_none h]

/-- A snapshot with a log is compared with the highest block. -/
theorem isCurrent_of_snapshot? (policy : Policy) {id : Identifier} {latest : Block}
    (h : listing.snapshot? = some id) (hl : listing.latestBlock? = some latest) :
    listing.isCurrent policy = .ok (decide (id.snapshotBlock? = some latest)) := by
  rw [isCurrent, currency, h, hl]

/-- A snapshot with a log is up to date if its last digit run denotes the height of the highest
block. -/
theorem isCurrent_of_latestBlock? (policy : Policy) {a b c d : List Char} {latest : Block}
    (h : IsSnapshotText listing.id a b c d) (hl : listing.latestBlock? = some latest) :
    listing.isCurrent policy =
      .ok (decide (Nat.ofDigitChars 10 d 0 = latest.height.toNat)) := by
  obtain ⟨id, block, hid, hblock, rfl, _⟩ := exists_snapshot? h
  have hb : id.snapshotBlock? = some latest ↔
      Nat.ofDigitChars 10 block.chars 0 = latest.height.toNat := by
    rw [Identifier.snapshotBlock?, hblock, Option.bind_some, Segment.block?_eq_some_iff,
      Segment.value_eq]
  rw [isCurrent_of_snapshot? policy hid hl]
  simp only [hb]

/-- What is said of a snapshot without a log is a matter of policy. -/
theorem isCurrent_of_events_eq_nil (policy : Policy) (h : listing.isHistorical = true)
    (he : listing.events = []) : listing.isCurrent policy =
      match policy with
      | .reject => .error (.emptyEventLog listing.id)
      | .stale => .ok false
      | .current => .ok true := by
  obtain ⟨id, hid⟩ := Option.isSome_iff_exists.mp h
  have hl : listing.latestBlock? = none := latestBlock?_eq_none_iff.mpr he
  rw [isCurrent, currency, hid, hl]
  cases policy <;> rfl

/-- There is no error but that of a snapshot without a log under the policy to reject it. -/
theorem exists_isCurrent_eq_ok {policy : Policy}
    (h : ¬(listing.isHistorical = true ∧ listing.events = [] ∧ policy = .reject)) :
    ∃ answer, listing.isCurrent policy = .ok answer := by
  cases hh : listing.isHistorical with
  | false => exact ⟨_, isCurrent_of_not_isHistorical policy hh⟩
  | true =>
    cases hl : listing.latestBlock? with
    | some latest =>
      obtain ⟨a, b, c, d, ht⟩ := isHistorical_iff.mp hh
      exact ⟨_, isCurrent_of_latestBlock? policy ht hl⟩
    | none =>
      have he : listing.events = [] := latestBlock?_eq_none_iff.mp hl
      rw [isCurrent_of_events_eq_nil policy hh he]
      cases policy with
      | reject => exact absurd ⟨hh, he, rfl⟩ h
      | stale => exact ⟨_, rfl⟩
      | current => exact ⟨_, rfl⟩

/-! ### Reports -/

theorem isCurrent?_resolve (policy : Policy) (listing : Listing) :
    (listing.resolve policy).isCurrent? = (listing.isCurrent policy).toOption :=
  rfl

/-- No answer is given for a snapshot without a log under the policy to reject it, and only for
that. -/
theorem isCurrent?_resolve_eq_none_iff {policy : Policy} :
    (listing.resolve policy).isCurrent? = none ↔
      listing.isHistorical = true ∧ listing.events = [] ∧ policy = .reject := by
  rw [isCurrent?_resolve]
  constructor
  · refine not_imp_not.mp fun h => ?_
    obtain ⟨answer, ha⟩ := exists_isCurrent_eq_ok h
    rw [ha]
    exact Option.some_ne_none answer
  · rintro ⟨h, he, rfl⟩
    rw [isCurrent_of_events_eq_nil .reject h he]
    rfl

theorem error?_resolve_of_ok {policy : Policy} {answer : Bool}
    (h : listing.isCurrent policy = .ok answer) : (listing.resolve policy).error? = none := by
  simp only [resolve, h]

theorem error?_resolve_of_error {policy : Policy} {e : ResolveError}
    (h : listing.isCurrent policy = .error e) :
    (listing.resolve policy).error? = some e.message := by
  simp only [resolve, h]

/-- **The rules for reports.** The report on a listing shows its identifier text and the highest
block of its log. What else it says depends on whether the text consists of four digit runs, on how
the number that the last of them denotes compares with that block and, for an empty log, on the
policy. Asking the questions one by one gives the same answers as the report. -/
theorem resolve_rules (policy : Policy) (listing : Listing) :
    let report := listing.resolve policy
    report.id = listing.id ∧
      (report.historical = true ↔ ∃ a b c d, IsSnapshotText listing.id a b c d) ∧
      (report.historical = false → report.currentId? = none ∧ report.isCurrent? = some true) ∧
      (∀ a b c d, IsSnapshotText listing.id a b c d →
        report.currentId? = some (String.ofList (a ++ '-' :: b ++ '-' :: c)) ∧
          ∀ latest, report.latestBlock? = some latest →
            report.isCurrent? =
              some (decide (Nat.ofDigitChars 10 d 0 = latest.height.toNat))) ∧
      (report.latestBlock? = none ↔ listing.events = []) ∧
      (∀ b, report.latestBlock? = some b ↔
        b ∈ listing.events.map Event.block ∧ ∀ a ∈ listing.events.map Event.block, a ≤ b) ∧
      (report.historical = true → listing.events = [] →
        report.isCurrent? = match policy with
          | .reject => none
          | .stale => some false
          | .current => some true) ∧
      (∀ text, report.error? = some text ↔
        report.historical = true ∧ listing.events = [] ∧ policy = .reject ∧
          text = "Historical listing " ++ listing.id ++ " has an empty event log") ∧
      report.historical = listing.isHistorical ∧ report.currentId? = listing.currentId? ∧
      listing.isCurrent policy = match report.isCurrent? with
        | some answer => .ok answer
        | none => .error (.emptyEventLog listing.id) := by
  intro report
  refine ⟨rfl, isHistorical_iff, fun h => ⟨?_, ?_⟩, fun a b c d h => ⟨?_, fun latest hl => ?_⟩,
    latestBlock?_eq_none_iff, fun b => latestBlock?_eq_some_iff, fun h he => ?_, fun text => ?_,
    rfl, rfl, ?_⟩
  · change listing.currentId? = none
    rw [currentId?, snapshot?_eq_none h]
    rfl
  · rw [isCurrent?_resolve, isCurrent_of_not_isHistorical policy h]
    rfl
  · obtain ⟨id, _, hid, _, _, ht⟩ := exists_snapshot? h
    change listing.currentId? = _
    rw [currentId?, hid, Option.map_some, ht]
  · rw [isCurrent?_resolve, isCurrent_of_latestBlock? policy h hl]
    rfl
  · rw [isCurrent?_resolve, isCurrent_of_events_eq_nil policy h he]
    cases policy <;> rfl
  · by_cases hr : listing.isHistorical = true ∧ listing.events = [] ∧ policy = .reject
    · obtain ⟨h, he, rfl⟩ := hr
      rw [error?_resolve_of_error (isCurrent_of_events_eq_nil .reject h he), Option.some.injEq]
      exact ⟨fun ht => ⟨h, he, rfl, ht.symm⟩, fun ht => ht.2.2.2.symm⟩
    · obtain ⟨answer, ha⟩ := exists_isCurrent_eq_ok hr
      rw [error?_resolve_of_ok ha]
      simp only [reduceCtorEq, false_iff]
      exact fun ht => hr ⟨ht.1, ht.2.1, ht.2.2.1⟩
  · rw [isCurrent?_resolve]
    by_cases hr : listing.isHistorical = true ∧ listing.events = [] ∧ policy = .reject
    · obtain ⟨h, he, rfl⟩ := hr
      rw [isCurrent_of_events_eq_nil .reject h he]
      rfl
    · obtain ⟨answer, ha⟩ := exists_isCurrent_eq_ok hr
      rw [ha]
      rfl

end Listing

end ListingSnapshot
