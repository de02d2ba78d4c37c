import ListingSnapshot.Proofs.Stream.RoundTrip

/-!
# What the policy decides

The policy is asked for an answer when a snapshot has no log, and on no other occasion. So runs over
the same text under two policies write reports on the same records, and these differ in nothing but
the answers for such snapshots, with the error where there is none. The summaries differ by as many
reports as there are snapshots without a log, which are moved from one count to another.

## Main definitions

* `Policy.answer?`: the answer of a policy.
* `Report.withoutAnswer`: a report but for the answer.
* `Record.IsLogless`: the pieces of text for which the policy is asked.

## Main results

* `Report.withoutAnswer_ofPiece`, `Report.ofPiece_congr`: reports on one piece under two policies.
* `Report.countP_isCurrent?`: how many reports have an answer, and how many of them from the policy.
* `Run.ofSource_policies`: runs under the three policies.
-/

namespace ListingSnapshot

/-- The answer of a policy for a snapshot without a log. -/
def Policy.answer? : Policy → Option Bool
  | reject => none
  | stale => some false
  | current => some true

/-- The report but for the answer and the error that may stand in its place. -/
def Report.withoutAnswer (report : Report) : Report :=
  { report with isCurrent? := none, error? := none }

/-! ### Listings -/

namespace Listing

variable {listing : Listing}

theorem withoutAnswer_resolve (policy policy' : Policy) (listing : Listing) :
    (listing.resolve policy).withoutAnswer = (listing.resolve policy').withoutAnswer :=
  rfl

/-- Except for a snapshot without a log the policy is not asked. -/
theorem currency_eq (policy policy' : Policy)
    (h : ¬(listing.isHistorical = true ∧ listing.events = [])) :
    listing.currency policy = listing.currency policy' := by
  unfold currency
  cases hid : listing.snapshot? with
  | none => rfl
  | some id =>
    cases hl : listing.latestBlock? with
    | some latest => rfl
    | none =>
      have hhistorical : listing.isHistorical = true := by rw [isHistorical, hid]; rfl
      exact absurd ⟨hhistorical, latestBlock?_eq_none_iff.mp hl⟩ h

theorem resolve_eq (policy policy' : Policy)
    (h : ¬(listing.isHistorical = true ∧ listing.events = [])) :
    listing.resolve policy = listing.resolve policy' := by
  rw [resolve, resolve, isCurrent, isCurrent, currency_eq policy policy' h]

theorem isCurrent?_resolve_of_events_eq_nil (policy : Policy) (h : listing.isHistorical = true)
    (he : listing.events = []) : (listing.resolve policy).isCurrent? = policy.answer? := by
  rw [isCurrent?_resolve, isCurrent_of_events_eq_nil policy h he]
  cases policy <;> rfl

end Listing

/-! ### Pieces of text -/

/-- The piece of text is a listing that is a snapshot and has no log. -/
def Record.IsLogless (piece : Bytes) : Prop :=
  ∃ listing, Json.decode Listing.reader piece = .ok listing ∧ listing.isHistorical = true ∧
    listing.events = []

instance : DecidablePred Record.IsLogless := fun piece =>
  match h : Json.decode Listing.reader piece with
  | .ok listing =>
    decidable_of_iff (listing.isHistorical = true ∧ listing.events = [])
      (by simp [Record.IsLogless, h])
  | .error _ => .isFalse (by simp [Record.IsLogless, h])

namespace Report

open Record

variable {piece : Bytes}

/-- Under two policies the reports on a piece of text differ in the answer at most. -/
theorem withoutAnswer_ofPiece (policy policy' : Policy) (piece : Bytes) :
    (ofPiece policy piece).withoutAnswer = (ofPiece policy' piece).withoutAnswer := by
  cases hd : Json.decode Listing.reader piece with
  | ok listing =>
    rw [ofPiece_of_ok policy hd, ofPiece_of_ok policy' hd]
    exact Listing.withoutAnswer_resolve policy policy' listing
  | error e => rw [ofPiece_of_error policy hd, ofPiece_of_error policy' hd]

/-- Under two policies the reports on a piece of text are the same, unless it is a snapshot without
a log. -/
theorem ofPiece_congr (policy policy' : Policy) (h : ¬IsLogless piece) :
    ofPiece policy piece = ofPiece policy' piece := by
  cases hd : Json.decode Listing.reader piece with
  | ok listing =>
    rw [ofPiece_of_ok policy hd, ofPiece_of_ok policy' hd]
    exact Listing.resolve_eq policy policy' fun hlogless => h ⟨listing, hd, hlogless⟩
  | error e => rw [ofPiece_of_error policy hd, ofPiece_of_error policy' hd]

theorem isCurrent?_ofPiece_of_isLogless (policy : Policy) (h : IsLogless piece) :
    (ofPiece policy piece).isCurrent? = policy.answer? := by
  obtain ⟨listing, hd, hhistorical, hevents⟩ := h
  rw [ofPiece_of_ok policy hd]
  exact Listing.isCurrent?_resolve_of_events_eq_nil policy hhistorical hevents

/-! ### Counts -/

/-- How many of the pieces have this answer whatever the policy. -/
def settled (answer? : Option Bool) (pieces : List Bytes) : Nat :=
  pieces.countP fun piece => ¬IsLogless piece ∧ (ofPiece default piece).isCurrent? = answer?

/-- The reports with an answer are those that have it whatever the policy and, if it is the answer
of the policy, those on snapshots without a log. -/
theorem countP_isCurrent? (policy : Policy) (answer? : Option Bool) (pieces : List Bytes) :
    (pieces.map (ofPiece policy)).countP (·.isCurrent? = answer?) =
      settled answer? pieces +
        if policy.answer? = answer? then pieces.countP (IsLogless ·) else 0 := by
  induction pieces with
  | nil => simp [settled]
  | cons piece pieces ih =>
    rw [List.map_cons, List.countP_cons, ih, settled, settled, List.countP_cons, List.countP_cons]
    by_cases h : IsLogless piece
    · -- One more piece for which the policy is asked, and none that is settled.
      simp only [h, isCurrent?_ofPiece_of_isLogless policy h, not_true_eq_false, false_and,
        decide_false, Bool.false_eq_true, decide_true, if_true, if_false, decide_eq_true_eq]
      split_ifs <;> omega
    · simp only [h, ofPiece_congr policy default h, not_false_eq_true, true_and, decide_false,
        Bool.false_eq_true, if_false, Nat.add_zero]
      omega

/-- A summary counts the snapshots without a log by the answer of the policy. -/
theorem ofReports_map_ofPiece (policy : Policy) (pieces : List Bytes) :
    Summary.ofReports (pieces.map (ofPiece policy)) =
      let logless := pieces.countP (IsLogless ·)
      ⟨pieces.length,
        settled (some true) pieces + if policy.answer? = some true then logless else 0,
        settled (some false) pieces + if policy.answer? = some false then logless else 0,
        settled none pieces + if policy.answer? = none then logless else 0⟩ := by
  rw [Summary.ofReports_eq, List.length_map, countP_isCurrent?, countP_isCurrent?,
    countP_isCurrent?]

end Report

namespace Run

/-- **The policy decides nothing but snapshots without a log.** With a source that hands out all its
bytes and a sink that takes everything, the runs under all policies write a line for each piece of
the text, the report on it. Under two policies the reports on a piece agree in all but the answer
and the error. They agree in these too, unless the piece is a snapshot without a log; then the
answer is that of the policy. So these snapshots are counted as failed under one policy, as stale
under another and as current under the third, and nothing else in the summaries is different. -/
theorem ofSource_policies (chunks : List Bytes) :
    let run (policy : Policy) := ofSource policy ⟨chunks, none⟩ .unlimited
    let pieces := Record.pieces chunks.flatten
    let logless := pieces.countP (Record.IsLogless ·)
    (∀ policy, (run policy).lines =
      pieces.map fun piece => (Report.ofPiece policy piece).bytes) ∧
    (∀ piece policy policy',
      (Report.ofPiece policy piece).withoutAnswer =
        (Report.ofPiece policy' piece).withoutAnswer ∧
      (¬Record.IsLogless piece →
        (Report.ofPiece policy piece).bytes = (Report.ofPiece policy' piece).bytes) ∧
      (Record.IsLogless piece → (Report.ofPiece policy piece).isCurrent? = policy.answer?)) ∧
    ∃ summary : Summary, logless ≤ summary.failed ∧
      (run .reject).outcome = .ok summary ∧
      (run .stale).outcome = .ok { summary with
        stale := summary.stale + logless, failed := summary.failed - logless } ∧
      (run .current).outcome = .ok { summary with
        current := summary.current + logless, failed := summary.failed - logless } := by
  intro run pieces logless
  have hsummary (policy : Policy) : (run policy).outcome =
      .ok (.ofReports (pieces.map (Report.ofPiece policy))) :=
    outcome_unlimited policy chunks
  refine ⟨fun policy => ?_, fun piece policy policy' => ⟨?_, fun h => ?_, fun h => ?_⟩,
    _, ?_, hsummary .reject, ?_, ?_⟩
  · rw [lines, written_unlimited, Report.splitOn_flatMap_line, List.dropLast_concat, List.map_map]
    rfl
  · exact Report.withoutAnswer_ofPiece policy policy' piece
  · rw [Report.ofPiece_congr policy policy' h]
  · exact Report.isCurrent?_ofPiece_of_isLogless policy h
  · simp [Report.ofReports_map_ofPiece, Policy.answer?, logless]
  · simp [hsummary, Report.ofReports_map_ofPiece, Policy.answer?, logless]
  · simp [hsummary, Report.ofReports_map_ofPiece, Policy.answer?, logless]

end Run

end ListingSnapshot
