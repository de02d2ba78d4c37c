import ListingSnapshot.Proofs.Json.Documents
import ListingSnapshot.Proofs.Stream.Framing
import ListingSnapshot.Proofs.Wire.Listings

/-!
# Whose report it is

A report names the listing that it is about. The name comes from the record by one of two readings:
as a listing, where members of other names are passed over, or, if the record is none, as a document
of any shape, of which the last member `id` is taken. Where both readings succeed they are of the
same tree, since a text spells at most one, and so they give the same name.

## Main results

* `Listing.valuesOf_id_of_document?`: a listing that is read from an object has the identifier that
  the object gives.
* `Record.id_report`: the name in a report.
-/

namespace ListingSnapshot

open Json

/-- A listing that is read from an object has the identifier that the object gives, and the object
gives no other. -/
theorem Listing.valuesOf_id_of_document? {text : Bytes} {listing : Listing}
    {members : List (String × Tree)} (h : decode reader text = .ok listing)
    (hdocument : document? text = some (.object members)) :
    Tree.valuesOf "id" members = [.string listing.id] := by
  have htext : Text Lenient (.object members) text :=
    (document?_eq_some_iff.mp hdocument).1.mono fun _ _ => Strict.lenient
  have hlisting := (reads_reader.decode_eq_ok_iff_of_text htext).mp h
  cases hlisting with
  | object hid _ => exact hid

namespace Record

theorem givenId_of_getLast? {record : Record} {members : List (String × Tree)} {id : String}
    (hdocument : document? record.bytes = some (.object members))
    (hid : (Tree.valuesOf "id" members).getLast? = some (.string id)) : record.givenId = id := by
  rw [givenId_eq, Report.salvagedId, hdocument, Option.bind_some, Tree.member?_object, hid]

/-- What is no object, or has no last member `id` that is a string, gives no identifier. -/
theorem givenId_eq_empty {record : Record}
    (h : ∀ members id, document? record.bytes = some (.object members) →
      (Tree.valuesOf "id" members).getLast? ≠ some (.string id)) : record.givenId = "" := by
  rw [givenId_eq, Report.salvagedId]
  split
  · next id hid =>
    obtain ⟨tree, hdocument, hmember⟩ := Option.bind_eq_some_iff.mp hid
    cases tree with
    | object members =>
      rw [Tree.member?_object] at hmember
      exact (h members id hdocument hmember).elim
    | _ => cases hmember
  · rfl

/-- **The name in a report.** A record is a document if it spells a tree within the limits of depth
and of numbers. If it is an object of which the last member `id` is a string, the report is in this
name, whether the record is a listing or not. If the record is no listing and no such object either,
the report is in no name. -/
theorem id_report (policy : Policy) (record : Record) :
    (∀ tree, document? record.bytes = some tree ↔
      Text Strict tree record.bytes ∧ tree.Fits Reader.depthLimit) ∧
    (∀ members id, document? record.bytes = some (.object members) →
      (Tree.valuesOf "id" members).getLast? = some (.string id) →
        (record.report policy).id = id) ∧
    ((∀ listing, record.listing ≠ .ok listing) →
      (∀ members id, document? record.bytes = some (.object members) →
        (Tree.valuesOf "id" members).getLast? ≠ some (.string id)) →
          (record.report policy).id = "") := by
  refine ⟨fun _ => document?_eq_some_iff, ?_⟩
  rw [report]
  cases hlisting : record.listing with
  | ok listing =>
    refine ⟨fun members id hdocument hid => ?_, fun hnone => (hnone listing rfl).elim⟩
    rw [Listing.valuesOf_id_of_document? hlisting hdocument] at hid
    exact Tree.string.inj (Option.some.inj hid)
  | error e =>
    exact ⟨fun _ _ => givenId_of_getLast?, fun _ => givenId_eq_empty⟩

/-- A record with two members `id` is rejected in the name of the second. One that lacks its closing
bracket is rejected in no name. -/
theorem id_report_rejected :
    let record : Record := ⟨1, Utf8.encode "\x7b\"id\":4,\"id\":\"1-2-3\"\x7d".toList⟩
    let broken : Record := ⟨2, Utf8.encode "\x7b\"id\":\"1-2-3\"".toList⟩
    document? record.bytes = some (.object [("id", .ofNat 4), ("id", .string "1-2-3")]) ∧
      (∀ listing, record.listing ≠ .ok listing) ∧ (record.report .reject).id = "1-2-3" ∧
      document? broken.bytes = none ∧ (∀ listing, broken.listing ≠ .ok listing) ∧
      (broken.report .reject).id = "" := by
  intro record broken
  let members : List (String × Tree) := [("id", .ofNat 4), ("id", .string "1-2-3")]
  have hproper : Tree.Proper (.object members) :=
    .object (List.forall_mem_cons.mpr
      ⟨Tree.proper_ofNat 4, List.forall_mem_singleton.mpr .string⟩)
  have hfits : Tree.Fits Reader.depthLimit (.object members) :=
    .object (List.forall_mem_cons.mpr
      ⟨.number (inRange_of_isWhole (Tree.isWhole_toDigits 4) (by decide)).1,
        List.forall_mem_singleton.mpr .string⟩)
  have hprint : record.bytes = Utf8.encode (Tree.object members).print := by decide +kernel
  obtain ⟨hdocument, hid, _⟩ := id_report .reject record
  have hread := (hdocument (.object members)).mpr ⟨hprint ▸ hproper.text_print, hfits⟩
  have hrejected (record : Record) (h : record.listing.toOption = none) (listing : Listing) :
      record.listing ≠ .ok listing := by
    intro hlisting
    rw [hlisting] at h
    cases h
  have hnone : document? broken.bytes = none :=
    Option.isNone_iff_eq_none.mp (by decide +kernel)
  obtain ⟨_, _, hempty⟩ := id_report .reject broken
  have hbroken := hrejected broken (by decide +kernel)
  refine ⟨hread, hrejected record (by decide +kernel), hid members "1-2-3" hread rfl, hnone,
    hbroken, hempty hbroken fun members id h => ?_⟩
  rw [hnone] at h
  cases h

end Record

end ListingSnapshot
