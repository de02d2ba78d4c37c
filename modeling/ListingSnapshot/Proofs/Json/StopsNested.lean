import ListingSnapshot.Json.Passing
import ListingSnapshot.Proofs.Json.Records
import ListingSnapshot.Proofs.Json.Stops

/-!
# Where readers of lists and records stop

What is inside brackets stops at a place of its own, or leaves its place open; then the place is
that to which the end of the brackets has been looked for. So a record always names a place, and
behind its first byte: that is the bracket, or it is part of what is wrong.

## Main results

* `Json.Reader.stops_list`: a list of values of one type.
* `Json.Reader.stops_members`, `Json.Reader.stops_record`: the members of an object, and records.
* `Json.Reader.stops_passMember`: a member that is passed over.
* `Json.Reader.exists_column_of_stops`: what the user is told of a text on one line.
-/

namespace ListingSnapshot.Json

open Fault

namespace Reader

variable {σ α : Type}

/-! ### Lists -/

/-- How a list or an object goes on. -/
theorem stops_next {kind : Container} {first : Bool} {stop : α} {go : Reader α}
    (hgo : go.Stops IsWithin) : (next kind first stop go).Stops IsWithin := by
  refine stops_blanks.bind_option (stops_failNext _).within fun b => ?_
  dsimp only
  split
  · exact stops_pure _
  split
  · exact hgo
  split
  · refine stops_pass.bind fun _ => stops_blanks.bind_option (stops_failNext _).within fun b => ?_
    dsimp only
    split
    · exact (stops_failNext _).within
    · exact hgo
  · exact (stops_failNext _).within

theorem stops_nextItem (first : Bool) : (nextItem first).Stops IsWithin :=
  nextItem_eq first ▸ stops_next (stops_pure _)

theorem stops_item? {r : Reader α} (hr : r.Stops IsWithin) (first : Bool) :
    (item? first r).Stops IsWithin := by
  refine (stops_nextItem first).bind fun more => ?_
  split
  · exact hr.bind fun _ => stops_pure _
  · exact stops_pure _

theorem stops_closeList : closeList.Stops IsWithin := by
  refine (stops_passWhile _).bind fun _ => (stops_take? _).bind_option ?_ fun _ => stops_pure _
  refine stops_peek?.bind_option (stops_failNext _).within fun b => ?_
  dsimp only
  split
  · refine stops_pass.bind fun _ => stops_blanks.bind fun b => ?_
    split <;> exact (stops_failNext _).within
  · exact (stops_failNext _).within

theorem stops_itemTurn {r : Reader α} (hr : r.Stops IsWithin) (gathered : List α) :
    (itemTurn r gathered).Stops IsWithin :=
  (stops_item? hr _).bind_option (stops_pure _) fun _ => stops_pure _

theorem stops_list {r : Reader α} (hr : r.Stops IsWithin) (h : r.Takes fun _ => True) :
    (list r h).Stops IsWithin := by
  refine stops_lead.within.bind fun kind => ?_
  split
  · have hitems : (items r h).Stops IsWithin := Stops.iterate (stops_itemTurn hr) []
    exact stops_pass.bind fun _ => stops_enclosed hitems.unsettled stops_closeList.unsettled
  · exact stops_wrongType _ _

/-! ### Objects -/

theorem stops_name : name.Stops IsWithin :=
  (stops_take? _).bind_option (stops_failNext _).within fun _ => stops_text

theorem stops_nextName (first : Bool) : (nextName first).Stops IsWithin :=
  nextName_eq first ▸ stops_next (stops_name.bind fun _ => stops_pure _)

theorem stops_colon : colon.Stops IsWithin := by
  refine stops_blanks.bind_option (stops_failNext _).within fun b => ?_
  dsimp only
  split
  · exact stops_pass
  · exact (stops_failNext _).within

theorem stops_closeObject : closeObject.Stops IsWithin := by
  refine (stops_passWhile _).bind fun _ => (stops_take? _).bind_option ?_ fun _ => stops_pure _
  refine stops_peek?.bind_option (stops_failNext _).within fun b => ?_
  dsimp only
  split <;> exact (stops_failNext _).within

/-- That a member has been there before is found without a place. -/
theorem stops_once {r : Reader α} (hr : r.Stops IsWithin) (name : String) (before? : Option α) :
    (once name before? r).Stops IsOpen := by
  unfold once
  split
  · exact stops_failUnplaced _
  · exact (stops_colon.bind fun _ => hr).unsettled

theorem stops_members {member : σ → String → Reader σ}
    (hmember : ∀ state name, (member state name).Stops IsOpen) (state : σ) :
    (members member state).Stops IsOpen := by
  refine Stops.iterate (fun state => ?_) (true, state)
  refine (stops_nextName _).unsettled.bind_option (stops_pure _) fun name => ?_
  exact (hmember state.2 name).bind fun _ => stops_pure _

/-! ### Records -/

theorem stops_record {name : String} {fromList fromObject : Reader α}
    (hlist : fromList.Stops IsOpen) (hobject : fromObject.Stops IsOpen) :
    (record name fromList fromObject).Stops IsInside := by
  refine stops_lead.bind fun kind => ?_
  split
  · exact stops_pass_bind fun _ => stops_enclosed hlist stops_closeList.unsettled
  · exact stops_pass_bind fun _ => stops_enclosed hobject stops_closeObject.unsettled
  · next hlist hobject =>
    refine stops_wrongType_of_ne fun bracket => ?_
    cases bracket with
    | list => exact hlist
    | object => exact hobject

/-! ### Passing over values -/

theorem stops_passExponent : passExponent.Stops IsWithin := by
  refine (stops_take? _).bind fun sign => stops_next?.bind_option (stops_failHere _) fun b => ?_
  dsimp only
  split
  · exact (stops_passWhile _).bind fun _ => stops_pure _
  · exact stops_failHere _

theorem stops_passExponent? : passExponent?.Stops IsWithin :=
  (stops_take? _).bind_option (stops_pure _) fun _ => stops_passExponent

theorem stops_passFraction? : passFraction?.Stops IsWithin := by
  refine (stops_take? _).bind_option stops_passExponent? fun _ =>
    (stops_passWhile _).bind fun count => ?_
  split
  · exact (stops_failNext _).within
  · exact stops_passExponent?

theorem stops_passNumber : passNumber.Stops IsWithin := by
  refine stops_next?.bind_option (stops_failHere _) fun b => ?_
  dsimp only
  split
  · refine stops_digitAhead.bind fun more => ?_
    split
    · exact (stops_failNext _).within
    · exact stops_passFraction?
  split
  · exact (stops_passWhile _).bind fun _ => stops_passFraction?
  · exact stops_failHere _

theorem stops_passScalar : passScalar.Stops IsWithin := by
  refine stops_lead.within.bind fun kind => ?_
  cases kind with
  | null => exact (stops_word _).within
  | bool value => exact (stops_word _).within
  | string => exact stops_pass.bind fun _ => stops_passText
  | minus => exact stops_pass.bind fun _ => stops_passNumber
  | digit => exact stops_passNumber
  | container bracket => exact (stops_failNext _).within
  | other => exact (stops_failNext _).within

theorem stops_openBracket? : openBracket?.Stops IsWithin :=
  (stops_take? _).bind_option
    ((stops_take? _).bind_option (stops_pure _) fun _ => stops_pure _) fun _ => stops_pure _

theorem stops_passStart : passStart.Stops IsWithin :=
  (stops_passWhile _).bind fun _ => stops_openBracket?.bind_option
    (stops_passScalar.bind fun _ => stops_pure _) fun _ => stops_pure _

theorem stops_passItemStart (kind : Container) : (passItemStart kind).Stops IsWithin := by
  cases kind with
  | list => exact stops_passStart
  | object =>
    refine stops_blanks.bind_option (stops_failNext _).within fun b => ?_
    dsimp only
    split
    · exact stops_pass.bind fun _ => stops_passText.bind fun _ => stops_colon.bind fun _ =>
        stops_passStart
    · exact (stops_failNext _).within

theorem stops_passItem (kind : Container) (outer : List Container) :
    (passItem kind outer).Stops IsWithin :=
  (stops_passItemStart kind).bind_option (stops_pure _) fun _ => stops_pure _

theorem stops_passTurn (brackets : OpenBrackets) : (passTurn brackets).Stops IsWithin := by
  obtain ⟨fresh, kinds⟩ := brackets
  cases kinds with
  | nil => exact stops_pure _
  | cons kind outer =>
    refine (stops_passWhile _).bind fun _ => (stops_take? _).bind_option ?_ fun _ => stops_pure _
    refine stops_peek?.bind_option (stops_failNext _).within fun b => ?_
    dsimp only
    split
    · exact stops_passItem kind outer
    · exact (stops_take? _).bind_option (stops_failNext _).within
        fun _ => stops_passItem kind outer

theorem stops_passValue : passValue.Stops IsWithin :=
  stops_passStart.bind_option (stops_pure _) fun _ => Stops.iterate stops_passTurn _

theorem stops_passMember : passMember.Stops IsWithin :=
  stops_colon.bind fun _ => stops_passValue

end Reader

/-! ### Columns -/

/-- In a text without line feeds a place behind the first byte is in a column of the only line. -/
theorem Place.exists_column {text : Bytes} {place : Place} (htext : Text.lineFeed ∉ text)
    (hplace : place.remaining + place.back < text.length) :
    ∃ column, 1 ≤ column ∧ column ≤ text.length ∧ place.position text = ⟨1, column⟩ := by
  have hpassed : Text.lineFeed ∉ text.take (text.length - place.remaining) :=
    fun h => htext (List.mem_of_mem_take h)
  have hline : (text.take (text.length - place.remaining)).reverse.takeWhile
      (· ≠ Text.lineFeed) = (text.take (text.length - place.remaining)).reverse :=
    List.takeWhile_eq_self_iff.mpr fun b hb =>
      decide_eq_true fun h => hpassed (h ▸ List.mem_reverse.mp hb)
  refine ⟨text.length - place.remaining - place.back, by omega, by omega, ?_⟩
  rw [position, hline, List.count_eq_zero.mpr hpassed, List.length_reverse, List.length_take,
    Nat.min_eq_left (Nat.sub_le _ _)]

/-- What is wrong with a text on one line is shown in a column of that line. -/
theorem Reader.exists_column_of_stops {α : Type} {r : Reader α} (hr : r.Stops IsInside)
    {text : Bytes} (hne : text ≠ []) (htext : Text.lineFeed ∉ text) {e : Diagnostic}
    (hdecode : decode r text = .error e) :
    ∃ column, 1 ≤ column ∧ column ≤ text.length ∧ e.position? = some ⟨1, column⟩ := by
  have hwhole : r.whole.Stops IsInside :=
    hr.bind fun _ => stops_blanks.bind_option (stops_pure _) fun _ => stops_failNext _
  rw [decode] at hdecode
  split at hdecode
  · cases hdecode
  · next fault rest hrun =>
    obtain rfl := Except.error.inj hdecode
    obtain ⟨place, hplace, hle⟩ := hwhole text fault rest hrun text.length (Nat.le_refl _)
    have hlt : place.remaining + place.back < text.length :=
      Nat.lt_of_le_sub_one (List.length_pos_of_ne_nil hne) hle
    obtain ⟨column, hone, hlast, hposition⟩ := place.exists_column htext hlt
    exact ⟨column, hone, hlast, by rw [Fault.diagnostic, hplace, Option.map_some, hposition]⟩

end ListingSnapshot.Json
