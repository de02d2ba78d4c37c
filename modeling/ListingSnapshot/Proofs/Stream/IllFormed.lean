import ListingSnapshot.Proofs.Json.Encoded
import ListingSnapshot.Proofs.Resolution
import ListingSnapshot.Proofs.Stream.Framing
import ListingSnapshot.Proofs.Wire.Listings

/-!
# Records that are not well-formed UTF-8

No reader looks at a record as a whole, so whether ill-formed bytes are noticed is up to the reader
that comes to them. Names, identifiers and kinds are texts and have to be well formed. What stands
in a string that is passed over does not: a record is still read as a listing if its ill-formed
bytes stand inside the value of a member that no listing and no event has.

## Main definitions

* `PassedOver`: the values in the tree of a listing at which no reader looks.
* `Report.IsRejected`: a report on a record that is no listing.

## Main results

* `IsListing.exists_passedOver`: where the blots in the tree of a listing are.
* `Report.isRejected_ofPiece_iff`: which records are rejected.
* `Run.illFormed_isRejected_iff`: the records of a run that are not well-formed UTF-8.
-/

namespace ListingSnapshot

open Json

/-! ### Values that are passed over -/

/-- The tree of a listing has the tree of this event in its log. -/
inductive InLog : Tree → Tree → Prop
  | object {members : List (String × Tree)} {items : List Tree} {event : Tree}
      (h : ("events", .list items) ∈ members) (he : event ∈ items) : InLog (.object members) event
  | list {id : Tree} {items : List Tree} {event : Tree} (he : event ∈ items) :
      InLog (.list [id, .list items]) event

/-- The tree of a listing, or of an event in its log, has a member of another name with this
value. -/
inductive PassedOver : Tree → Tree → Prop
  | listing {members : List (String × Tree)} {name : String} {value : Tree}
      (h : (name, value) ∈ members) (hid : name ≠ "id") (he : name ≠ "events") :
      PassedOver (.object members) value
  | event {t : Tree} {members : List (String × Tree)} {name : String} {value : Tree}
      (ht : InLog t (.object members)) (h : (name, value) ∈ members)
      (hb : name ≠ "blockNumber") (hk : name ≠ "event") : PassedOver t value

theorem eq_of_valuesOf_eq {name : String} {members : List (String × Tree)} {t value : Tree}
    (h : Tree.valuesOf name members = [t]) (hm : (name, value) ∈ members) : value = t := by
  rw [← mem_valuesOf_iff, h] at hm
  exact List.mem_singleton.mp hm

theorem IsBlock.unblotted {t : Tree} {block : Block} (h : IsBlock t block) : t.Unblotted := by
  obtain ⟨ds, rfl, hds, _⟩ := h
  exact .number hds.1

theorem IsKind.unblotted {t : Tree} {kind : EventKind} (h : IsKind t kind) : t.Unblotted := by
  cases h with
  | string _ => exact .string
  | object _ => exact .object (List.forall_mem_singleton.mpr .null)

theorem unblotted_of_orNull {t : Tree} {kind? : Option EventKind} (h : OrNull IsKind t kind?) :
    t.Unblotted := by
  cases h with
  | null => exact .null
  | some h => exact h.unblotted

/-- An event is well formed where somebody looks. -/
theorem IsEvent.unblotted {t : Tree} {event : Event} (h : IsEvent t event)
    (hothers : ∀ members name value, t = .object members → (name, value) ∈ members →
      name ≠ "blockNumber" → name ≠ "event" → value.Unblotted) : t.Unblotted := by
  cases h with
  | one hb => exact .list (List.forall_mem_singleton.mpr hb.unblotted)
  | two hb hk =>
    exact .list (List.forall_mem_cons.mpr
      ⟨hb.unblotted, List.forall_mem_singleton.mpr (unblotted_of_orNull hk)⟩)
  | @object members block event hb hblock hk =>
    refine .object ?_
    rintro ⟨name, value⟩ hm
    by_cases hname : name = "blockNumber"
    · subst hname
      rw [eq_of_valuesOf_eq hb hm]
      exact hblock.unblotted
    by_cases hname' : name = "event"
    · subst hname'
      rcases hk with ⟨hnil, _⟩ | ⟨kind, hkind, hor⟩
      · rw [← mem_valuesOf_iff, hnil] at hm
        cases hm
      · rw [eq_of_valuesOf_eq hkind hm]
        exact unblotted_of_orNull hor
    · exact hothers members name value rfl hm hname hname'

theorem exists_isEvent_of_mem {items : List Tree} {events : List Event}
    (h : List.Forall₂ IsEvent items events) {item : Tree} (hitem : item ∈ items) :
    ∃ event, IsEvent item event := by
  induction h with
  | nil => cases hitem
  | @cons _ event _ _ hevent _ ih =>
    rcases List.mem_cons.mp hitem with rfl | hitem
    · exact ⟨event, hevent⟩
    · exact ih hitem

theorem IsEventLog.unblotted {t : Tree} {events : List Event} (h : IsEventLog t events)
    (hothers : ∀ items members name value, t = .list items → .object members ∈ items →
      (name, value) ∈ members → name ≠ "blockNumber" → name ≠ "event" → value.Unblotted) :
    t.Unblotted := by
  obtain ⟨items, rfl, hitems⟩ := h
  refine .list fun item hitem => ?_
  obtain ⟨event, hevent⟩ := exists_isEvent_of_mem hitems hitem
  exact hevent.unblotted fun members name value hobject =>
    hothers items members name value rfl (hobject ▸ hitem)

/-- **Where nobody looks.** A blot in the tree of a listing stands in a value that is passed
over. -/
theorem IsListing.exists_passedOver {t : Tree} {listing : Listing} (h : IsListing t listing)
    (ht : ¬ t.Unblotted) : ∃ value, PassedOver t value ∧ ¬ value.Unblotted := by
  by_contra hnone
  have hothers : ∀ value, PassedOver t value → value.Unblotted := by
    intro value hvalue
    by_contra hblot
    exact hnone ⟨value, hvalue, hblot⟩
  refine ht ?_
  cases h with
  | one => exact .list (List.forall_mem_singleton.mpr .string)
  | two he =>
    refine .list (List.forall_mem_cons.mpr ⟨.string, List.forall_mem_singleton.mpr ?_⟩)
    refine he.unblotted fun items members name value hlog hitem hm hb hk => ?_
    subst hlog
    exact hothers value (.event (.list hitem) hm hb hk)
  | @object members listing hid he =>
    refine .object ?_
    rintro ⟨name, value⟩ hm
    by_cases hname : name = "id"
    · subst hname
      rw [eq_of_valuesOf_eq hid hm]
      exact .string
    by_cases hname' : name = "events"
    · subst hname'
      rcases he with ⟨hnil, _⟩ | ⟨log, hlog, hevents⟩
      · rw [← mem_valuesOf_iff, hnil] at hm
        cases hm
      · obtain rfl := eq_of_valuesOf_eq hlog hm
        refine hevents.unblotted fun items members' name value' hlist hitem hm' hb hk => ?_
        subst hlist
        exact hothers value' (.event (.object hm hitem) hm' hb hk)
    · exact hothers value (.listing hm hname hname')

/-! ### Rejected records -/

/-- The report says nothing but what is wrong with the record, and perhaps its identifier. -/
structure Report.IsRejected (report : Report) : Prop where
  historical : report.historical = false
  currentId? : report.currentId? = none
  isCurrent? : report.isCurrent? = none
  latestBlock? : report.latestBlock? = none
  error? : report.error?.isSome

theorem Report.isRejected_rejected (id error : String) : (rejected id error).IsRejected :=
  ⟨rfl, rfl, rfl, rfl, rfl⟩

/-- A listing is never rejected: either its report calls it a snapshot, or it is current. -/
theorem Listing.not_isRejected_resolve (policy : Policy) (listing : Listing) :
    ¬ (listing.resolve policy).IsRejected := by
  intro h
  have hcurrent := h.isCurrent?
  rw [isCurrent?_resolve, isCurrent_of_not_isHistorical policy h.historical] at hcurrent
  cases hcurrent

namespace Report

variable {policy : Policy} {piece : Bytes}

theorem ofPiece_of_isListing {t : Tree} {listing : Listing} (ht : Text Lenient t piece)
    (hl : IsListing t listing) : ofPiece policy piece = listing.resolve policy := by
  rw [ofPiece, (Listing.reads_reader.decode_eq_ok_iff_of_text ht).mpr hl]

/-- A piece of text is rejected unless it spells a tree of the shape of a listing. -/
theorem isRejected_ofPiece_iff : (ofPiece policy piece).IsRejected ↔
    ∀ t listing, Text Lenient t piece → ¬ IsListing t listing := by
  constructor
  · intro h t listing ht hl
    rw [ofPiece_of_isListing ht hl] at h
    exact listing.not_isRejected_resolve policy h
  · intro h
    rw [ofPiece]
    split
    · next listing hd =>
      obtain ⟨t, ht, hl⟩ := Listing.reads_reader.decode_eq_ok_iff.mp hd
      exact (h t listing ht hl).elim
    · exact isRejected_rejected _ _

end Report

/-- Bytes that are not well-formed UTF-8 spell no tree without blots. -/
theorem Json.Text.not_unblotted {t : Tree} {text : Bytes} (ht : Text Lenient t text)
    (h : Utf8.decode? text = none) : ¬ t.Unblotted := by
  intro hu
  obtain ⟨cs, hcs⟩ := (ht.strict hu).exists_encode
  rw [Utf8.decode?_eq_some_iff.mpr hcs] at h
  cases h

/-- **Ill-formed records.** A run replies to a record that is not well-formed UTF-8 by rejecting it,
and counts it among those that failed, except where the record spells a tree of the shape of a
listing all the same. Such a tree has a blot in a value that is passed over, and the reply is then
the report on the listing. -/
theorem Run.illFormed_isRejected_iff (policy : Policy) (chunks : List Bytes) :
    let pieces := Record.pieces chunks.flatten
    let run := ofSource policy ⟨chunks, none⟩ .unlimited
    run.written = pieces.flatMap (fun piece =>
        (Report.ofPiece policy piece).bytes ++ [Text.lineFeed]) ∧
      (∃ summary, run.outcome = .ok summary ∧
        summary.failed = pieces.countP fun piece =>
          (Report.ofPiece policy piece).isCurrent? = none) ∧
      ∀ piece ∈ pieces, Utf8.decode? piece = none →
        ((Report.ofPiece policy piece).IsRejected ↔
          ∀ t listing, Text Lenient t piece → ¬ IsListing t listing) ∧
        ∀ t listing, Text Lenient t piece → IsListing t listing →
          (∃ value, PassedOver t value ∧ ¬ value.Unblotted) ∧
            Report.ofPiece policy piece = listing.resolve policy := by
  intro pieces run
  refine ⟨?_, ⟨_, outcome_unlimited policy chunks, ?_⟩, fun piece _ h => ?_⟩
  · exact (written_unlimited policy chunks).trans (List.flatMap_map ..)
  · rw [Summary.ofReports_eq]
    exact List.countP_map
  · refine ⟨Report.isRejected_ofPiece_iff, fun t listing ht hl => ?_⟩
    exact ⟨hl.exists_passedOver (ht.not_unblotted h), Report.ofPiece_of_isListing ht hl⟩

/-- A live listing with the byte `FF` in a member `x` counts as current, since nobody looks into the
string. -/
theorem Run.illFormed_current :
    let front := Utf8.encode "\x7b\"id\":\"1-2-3\",\"x\":\"".toList
    let piece := front ++ 0xFF :: Utf8.encode "\"\x7d".toList
    let run := ofSource .reject ⟨[piece ++ [Text.lineFeed]], none⟩ .unlimited
    Record.pieces (piece ++ [Text.lineFeed]) = [piece] ∧ Utf8.decode? piece = none ∧
      ¬ (Report.ofPiece .reject piece).IsRejected ∧ run.outcome = .ok ⟨1, 1, 0, 0⟩ := by
  intro front piece run
  have hpieces : Record.pieces (piece ++ [Text.lineFeed]) = [piece] := by
    decide +kernel
  have hnone : Utf8.decode? piece = none :=
    Utf8.decode?_append_of_none _ (List.cons_ne_nil _ _) (by decide)
  have hid : Lenient (some "id") (Utf8.encode "id".toList) :=
    spellsChars_encode (List.all_iff_forall_prop.mp (by decide))
  have htext : Lenient (some "1-2-3") (Utf8.encode "1-2-3".toList) :=
    spellsChars_encode (List.all_iff_forall_prop.mp (by decide))
  have hx : Lenient (some "x") (Utf8.encode "x".toList) :=
    spellsChars_encode (List.all_iff_forall_prop.mp (by decide))
  have hbody : Lenient none [0xFF] := by
    refine lenient_none_of_decodeChar? ?_ (List.cons_ne_nil _ _) (by decide)
    exact .bare ⟨by decide, by decide, by decide⟩ .nil
  have hlast : Members Lenient (Spells Lenient) false [(some "x", .blot)]
      (Utf8.encode ",\"x\":\"".toList ++ 0xFF :: Utf8.encode "\"\x7d".toList) [] :=
    @Members.cons _ _ _ _ _ _ _ (Utf8.encode "x".toList)
      (Utf8.encode ":\"".toList ++ 0xFF :: Utf8.encode "\"\x7d".toList) _ _ _
      ⟨_, rfl, rfl⟩ hx rfl (@Spells.string Lenient none _ _ hbody) (.nil rfl)
  have hmembers : Members Lenient (Spells Lenient) true
      [(some "id", .string "1-2-3"), (some "x", .blot)]
      (Utf8.encode "\"id\":\"1-2-3\",\"x\":\"".toList ++
        0xFF :: Utf8.encode "\"\x7d".toList) [] :=
    @Members.cons _ _ _ _ _ _ _ (Utf8.encode "id".toList)
      (Utf8.encode ":\"1-2-3\",\"x\":\"".toList ++ 0xFF :: Utf8.encode "\"\x7d".toList) _ _ _
      rfl hid rfl (@Spells.string Lenient (some "1-2-3") _ _ htext) hlast
  have ht : Json.Text Lenient (.object [("id", .string "1-2-3"), ("x", .blot)]) piece :=
    ⟨[], .object hmembers, rfl⟩
  have hreport : Report.ofPiece .reject piece = Listing.resolve .reject ⟨"1-2-3", []⟩ :=
    Report.ofPiece_of_isListing ht (.object rfl (Or.inl ⟨rfl, rfl⟩))
  refine ⟨hpieces, hnone, ?_, ?_⟩
  · rw [hreport]
    exact Listing.not_isRejected_resolve _ _
  · have hlive : (Listing.mk "1-2-3" []).isHistorical = false := rfl
    have hcurrent : (Listing.resolve .reject ⟨"1-2-3", []⟩).isCurrent? = some true := by
      rw [Listing.isCurrent?_resolve, Listing.isCurrent_of_not_isHistorical .reject hlive]
      rfl
    rw [outcome_unlimited, List.flatten_singleton, hpieces, List.map_singleton, hreport,
      Summary.ofReports, List.foldl_cons, List.foldl_nil, Summary.record, hcurrent]
    rfl

end ListingSnapshot
