import ListingSnapshot.Proofs.Json.StopsNested
import ListingSnapshot.Wire.Listing

/-!
# What is wrong with a listing

A record that is no listing may break the grammar, end too early, hold something of the wrong type,
lack a member, have one twice, or contain an event of which any of this is true. Some of these are
found without a place, but never outside brackets, so that there always is one in the end.

## Main results

* `EventKind.stops_reader`, `Event.stops_reader`, `Listing.stops_reader`: where reading stops.
* `Listing.exists_column`: what is wrong with a record on one line is shown in a column of it.
-/

namespace ListingSnapshot

open Json Json.Reader Json.Fault

theorem Block.stops_reader : reader.Stops IsWithin :=
  stops_natural.bind fun _ => stops_pure _

theorem EventKind.stops_reader : reader.Stops IsWithin := by
  refine stops_lead.within.bind fun kind => ?_
  split
  · exact stops_pass.bind fun _ => stops_text.bind fun _ => stops_pure _
  · refine stops_pass.bind fun _ => stops_blanks.bind_option (stops_failNext _).within fun b => ?_
    dsimp only
    split
    · exact (stops_failNext _).within
    · refine stops_name.bind fun name => stops_colon.bind fun _ => stops_nothing.bind fun _ =>
        stops_blanks.bind_option (stops_failHere _) fun b => ?_
      dsimp only
      split
      · exact stops_pass.bind fun _ => stops_pure _
      · exact stops_failHere _
  · exact (stops_failNext _).within

/-! ### Events -/

namespace Event

theorem stops_kind? : (optional EventKind.reader).Stops IsWithin :=
  stops_optional EventKind.stops_reader

theorem stops_member (draft : Draft) (name : String) : (member draft name).Stops IsOpen := by
  unfold member
  split
  · exact (stops_once Block.stops_reader _ _).bind fun _ => stops_pure _
  · exact (stops_once stops_kind? _ _).bind fun _ => stops_pure _
  · exact stops_passMember.unsettled.bind fun _ => stops_pure _

/-- That a member is missing is found without a place. -/
theorem stops_finish (draft : Draft) : (finish draft).Stops IsOpen := by
  unfold finish
  split
  · exact stops_failUnplaced _
  · exact stops_pure _

/-- That there is not even one item is found without a place. -/
theorem stops_fromList : fromList.Stops IsOpen :=
  (stops_item? Block.stops_reader true).unsettled.bind_option (stops_failUnplaced _)
    fun _ => (stops_item? stops_kind? false).unsettled.bind fun _ => stops_pure _

theorem stops_fromObject : fromObject.Stops IsOpen :=
  (stops_members stops_member _).bind stops_finish

theorem stops_reader : reader.Stops IsInside :=
  stops_record stops_fromList stops_fromObject

end Event

/-! ### Listings -/

namespace Listing

theorem stops_eventLog : eventLog.Stops IsWithin :=
  stops_list Event.stops_reader.within Event.takes_reader

theorem stops_member (draft : Draft) (name : String) : (member draft name).Stops IsOpen := by
  unfold member
  split
  · exact (stops_once stops_string _ _).bind fun _ => stops_pure _
  · exact (stops_once stops_eventLog _ _).bind fun _ => stops_pure _
  · exact stops_passMember.unsettled.bind fun _ => stops_pure _

theorem stops_finish (draft : Draft) : (finish draft).Stops IsOpen := by
  unfold finish
  split
  · exact stops_failUnplaced _
  · exact stops_pure _

theorem stops_fromList : fromList.Stops IsOpen :=
  (stops_item? stops_string true).unsettled.bind_option (stops_failUnplaced _)
    fun _ => (stops_item? stops_eventLog false).unsettled.bind fun _ => stops_pure _

theorem stops_fromObject : fromObject.Stops IsOpen :=
  (stops_members stops_member _).bind stops_finish

theorem stops_reader : reader.Stops IsInside :=
  stops_record stops_fromList stops_fromObject

/-- What is wrong with a record on one line is shown in a column of that line. -/
theorem exists_column {text : Bytes} (hne : text ≠ []) (htext : Text.lineFeed ∉ text)
    {e : Diagnostic} (hdecode : decode reader text = .error e) :
    ∃ column, 1 ≤ column ∧ column ≤ text.length ∧ e.position? = some ⟨1, column⟩ :=
  exists_column_of_stops stops_reader hne htext hdecode

end Listing

end ListingSnapshot
