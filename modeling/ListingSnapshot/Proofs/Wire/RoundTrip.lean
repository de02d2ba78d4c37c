import ListingSnapshot.Proofs.Json.Spelled
import ListingSnapshot.Proofs.Wire.Reports
import ListingSnapshot.Session
import ListingSnapshot.Stream.Record

/-!
# What is written is read again

Listings and reports are written as trees of their shape, in which every number is spelled as one.
So reading what is printed of such a tree gives back what was written, whatever characters there are
in its strings and whichever of its parts are missing.

## Main definitions

* `Listing.bytes`: a listing as it is written.

## Main results

* `Listing.isListing_toJson`, `Report.isReport_toJson`: the trees that are written.
* `Listing.decode_print_toJson`: a listing is read from what is printed of it.
* `Report.decode_bytes`: a report is read from its bytes.
-/

namespace ListingSnapshot

open Json

/-! ### Events -/

theorem Block.isBlock_toJson (block : Block) : IsBlock block.toJson block :=
  ⟨_, rfl, isDigitRun_toDigits _, Nat.ofDigitChars_ten_toDigits, block.height.toNat_lt⟩

theorem Block.proper_toJson (block : Block) : block.toJson.Proper :=
  Tree.proper_ofNat _

theorem EventKind.isKind_toJson (kind : EventKind) : IsKind kind.toJson kind :=
  .string (Or.inl rfl)

namespace Event

/-- An event is written with a member for its kind only where it has one. -/
theorem isEvent_toJson (event : Event) : IsEvent event.toJson event := by
  obtain ⟨block, kind?⟩ := event
  cases kind? with
  | none => exact .object rfl block.isBlock_toJson (Or.inl ⟨rfl, rfl⟩)
  | some kind =>
    exact .object rfl block.isBlock_toJson (Or.inr ⟨_, rfl, .some kind.isKind_toJson⟩)

theorem proper_toJson (event : Event) : event.toJson.Proper := by
  obtain ⟨block, kind?⟩ := event
  refine .object (List.forall_mem_cons.mpr ⟨block.proper_toJson, ?_⟩)
  cases kind? with
  | none => exact List.forall_mem_nil _
  | some kind => exact List.forall_mem_singleton.mpr .string

end Event

/-! ### Listings -/

namespace Listing

theorem isListing_toJson (listing : Listing) : IsListing listing.toJson listing := by
  refine .object rfl (Or.inr ⟨_, rfl, _, rfl, ?_⟩)
  rw [List.forall₂_map_left_iff, List.forall₂_same]
  exact fun event _ => event.isEvent_toJson

theorem proper_toJson (listing : Listing) : listing.toJson.Proper := by
  refine .object (List.forall_mem_cons.mpr ⟨.string, List.forall_mem_singleton.mpr ?_⟩)
  exact .list (List.forall_mem_map.mpr fun event _ => event.proper_toJson)

/-- The bytes of a listing. -/
def bytes (listing : Listing) : Bytes :=
  Utf8.encode listing.toJson.print

theorem decode_bytes (listing : Listing) : decode reader listing.bytes = .ok listing :=
  (reads_reader.decode_print_iff listing.proper_toJson).mpr listing.isListing_toJson

/-- **Listings are read from what is written.** Whatever its identifier text and its events, a
listing is read from the text that is printed of it. So a session that writes its listing and reads
it again goes on as it was. -/
theorem decode_print_toJson (listing : Listing) :
    decode reader (Utf8.encode listing.toJson.print) = .ok listing ∧
      ∀ policy, Session.take ⟨listing, policy⟩ .roundTrip = (.done, ⟨listing, policy⟩) := by
  refine ⟨listing.decode_bytes, fun policy => ?_⟩
  have hload : Session.take ⟨listing, policy⟩ .roundTrip =
      Session.load ⟨listing, policy⟩ listing.bytes :=
    rfl
  rw [hload, Session.load, listing.decode_bytes]

end Listing

/-! ### Reports -/

namespace Report

variable {α : Type} {toJson : α → Tree}

theorem orNull_orNull {M : Tree → α → Prop} (h : ∀ a, M (toJson a) a) (a? : Option α) :
    OrNull M (orNull toJson a?) a? := by
  cases a? with
  | none => exact .null
  | some a => exact .some (h a)

theorem proper_orNull (h : ∀ a, (toJson a).Proper) (a? : Option α) :
    (orNull toJson a?).Proper := by
  cases a? with
  | none => exact .null
  | some a => exact h a

/-- A report is written with a member for each part but the error, which has one only where there is
one. -/
theorem isReport_toJson (report : Report) : IsReport report.toJson report := by
  have htext := orNull_orNull (M := fun t text => t = .string text) fun _ => rfl
  have htruth := orNull_orNull (M := fun t value => t = .bool value) fun _ => rfl
  have hblock := orNull_orNull Block.isBlock_toJson
  obtain ⟨id, historical, currentId?, isCurrent?, latestBlock?, error?⟩ := report
  cases error? with
  | none =>
    exact .object (Part.forall_iff.mpr ⟨Or.inr ⟨_, rfl, rfl⟩, Or.inr ⟨_, rfl, rfl⟩,
      Or.inr ⟨_, rfl, htext _⟩, Or.inr ⟨_, rfl, htruth _⟩, Or.inr ⟨_, rfl, hblock _⟩,
      Or.inl ⟨rfl, rfl⟩⟩)
  | some error =>
    exact .object (Part.forall_iff.mpr ⟨Or.inr ⟨_, rfl, rfl⟩, Or.inr ⟨_, rfl, rfl⟩,
      Or.inr ⟨_, rfl, htext _⟩, Or.inr ⟨_, rfl, htruth _⟩, Or.inr ⟨_, rfl, hblock _⟩,
      Or.inr ⟨_, rfl, .some rfl⟩⟩)

theorem proper_toJson (report : Report) : report.toJson.Proper := by
  refine .object (List.forall_mem_append.mpr ⟨?_, ?_⟩)
  · simp only [List.forall_mem_cons, List.not_mem_nil, false_implies, implies_true, and_true]
    exact ⟨.string, .bool, proper_orNull (fun _ => .string) _, proper_orNull (fun _ => .bool) _,
      proper_orNull Block.proper_toJson _⟩
  · cases report.error? with
    | none => exact List.forall_mem_nil _
    | some error => exact List.forall_mem_singleton.mpr .string

/-- A report is read from its bytes, whether or not there is a listing that it could be about. -/
theorem decode_bytes (report : Report) : decode reader report.bytes = .ok report :=
  (reads_reader.decode_print_iff report.proper_toJson).mpr report.isReport_toJson

end Report

end ListingSnapshot
