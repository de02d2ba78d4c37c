import ListingSnapshot.Json.Value
import ListingSnapshot.Proofs.Json.Strings

/-!
# Where readers stop

A reader that stops says why, and mostly also where. The place is counted from the end of the text,
so that the reader need not know what has been read before it: it lies among the bytes that the
reader was given. That is kept when readers are put together, since what one leaves to the next is
an end of what it was given itself.

Behind the first byte that a reader was given a fault lies if that byte has been taken before
anything can go wrong, or if it is itself what is wrong. Some readers leave the place open; in
brackets it is settled by what closes them.

## Main definitions

* `Json.Fault.IsWithin`, `Json.Fault.IsInside`, `Json.Fault.IsOpen`: where a fault may lie.
* `Json.Reader.Stops`: all faults of a reader lie like this.

## Main results

* `Json.Reader.Stops.bind`, `Json.Reader.Stops.iterate`, `Json.Reader.stops_enclosed`: readers that
  are put together.
* `Json.Reader.stops_text`, `Json.Reader.stops_number`: strings and numbers.
* `Json.Reader.stops_wrongType`, `Json.Reader.stops_wrongType_of_ne`: values of another type.
-/

namespace ListingSnapshot.Json

/-! ### Places -/

namespace Fault

/-- The fault has a place, with no more than `n` bytes behind it. -/
def IsWithin (n : Nat) (fault : Fault) : Prop :=
  ∃ place, fault.place? = some place ∧ place.remaining + place.back ≤ n

/-- The fault has a place behind the first of the last `n` bytes, if there are any. -/
def IsInside (n : Nat) (fault : Fault) : Prop :=
  fault.IsWithin (n - 1)

/-- The place of the fault is missing, or it has no more than `n` bytes behind it. -/
def IsOpen (n : Nat) (fault : Fault) : Prop :=
  fault.place? = none ∨ fault.IsWithin n

theorem IsWithin.mono {m n : Nat} {fault : Fault} (h : fault.IsWithin m) (hle : m ≤ n) :
    fault.IsWithin n := by
  obtain ⟨place, hplace, hm⟩ := h
  exact ⟨place, hplace, Nat.le_trans hm hle⟩

theorem IsInside.isWithin {n : Nat} {fault : Fault} (h : fault.IsInside n) : fault.IsWithin n :=
  h.mono (Nat.sub_le n 1)

/-- A place that is missing is supplied by the bytes left. -/
theorem IsOpen.isWithin_placed {n : Nat} {fault : Fault} {rest : Bytes} (h : fault.IsOpen n)
    (hle : rest.length ≤ n) : (fault.placed rest).IsWithin n := by
  rcases h with hnone | ⟨place, hplace, hn⟩
  · exact ⟨⟨rest.length, 0⟩, by rw [placed, hnone], hle⟩
  · exact ⟨place, by rw [placed, hplace, hplace], hn⟩

end Fault

open Fault

namespace Reader

variable {σ α β : Type} {P Q : Nat → Fault → Prop}

/-- If the reader stops, its fault has the property `P` of faults in a text that has at least as
many bytes to come as the reader was given. -/
def Stops (P : Nat → Fault → Prop) (r : Reader α) : Prop :=
  ∀ s fault rest, r.run s = .fault fault rest → ∀ n, s.length ≤ n → P n fault

/-! ### Readers put together -/

theorem Stops.mono {r : Reader α} (h : r.Stops P) (hpq : ∀ n fault, P n fault → Q n fault) :
    r.Stops Q :=
  fun s fault rest hrun n hn => hpq n fault (h s fault rest hrun n hn)

theorem Stops.within {r : Reader α} (h : r.Stops IsInside) : r.Stops IsWithin :=
  h.mono fun _ _ => IsInside.isWithin

theorem Stops.unsettled {r : Reader α} (h : r.Stops IsWithin) : r.Stops IsOpen :=
  h.mono fun _ _ => Or.inr

theorem cases_of_run_bind_fault {r : Reader α} {f : α → Reader β} {s rest : Bytes} {fault : Fault}
    (h : (r >>= f).run s = .fault fault rest) :
    r.run s = .fault fault rest ∨
      ∃ a middle, r.run s = .value a middle ∧ (f a).run middle = .fault fault rest := by
  rw [run_bind] at h
  cases hr : r.run s with
  | value a middle => exact Or.inr ⟨a, middle, rfl, by rwa [hr] at h⟩
  | fault fault' middle =>
    obtain ⟨rfl, rfl⟩ := Outcome.fault.inj (hr ▸ h)
    exact Or.inl rfl

theorem Stops.bind {r : Reader α} {f : α → Reader β} (hr : r.Stops P) (hf : ∀ a, (f a).Stops P) :
    (r >>= f).Stops P := by
  intro s fault rest hrun n hn
  rcases cases_of_run_bind_fault hrun with hstop | ⟨a, middle, hvalue, hstop⟩
  · exact hr s fault rest hstop n hn
  · exact hf a middle fault rest hstop n (Nat.le_trans (length_le_of_run hvalue) hn)

/-- Where an answer may be missing, the two cases are looked at apart. -/
theorem Stops.bind_option {r : Reader (Option α)} {f : Option α → Reader β} (hr : r.Stops P)
    (hnone : (f none).Stops P) (hsome : ∀ a, (f (some a)).Stops P) : (r >>= f).Stops P :=
  hr.bind fun
    | none => hnone
    | some a => hsome a

/-- Behind a reader that takes a byte whenever there is one, nothing goes wrong before that byte. -/
theorem Stops.inside_bind {r : Reader α} {f : α → Reader β} (hr : r.Stops IsInside)
    (htakes : ∀ s a rest, r.run s = .value a rest → rest.length ≤ s.length - 1)
    (hf : ∀ a, (f a).Stops IsWithin) : (r >>= f).Stops IsInside := by
  intro s fault rest hrun n hn
  rcases cases_of_run_bind_fault hrun with hstop | ⟨a, middle, hvalue, hstop⟩
  · exact hr s fault rest hstop n hn
  · exact hf a middle fault rest hstop (n - 1)
      (Nat.le_trans (htakes s a middle hvalue) (Nat.sub_le_sub_right hn 1))

/-- The fault of a loop is that of one of its turns. -/
theorem Stops.iterate {turn : σ → Reader (Turn σ α)} {h : ∀ state, (turn state).Takes Turn.GoesOn}
    (hturn : ∀ state, (turn state).Stops P) (state : σ) : (iterate turn h state).Stops P := by
  intro s fault rest hrun n hn
  change iterateFrom turn h state s = .fault fault rest at hrun
  -- Turn by turn there is less to come, so that `n` stays a bound for what the last turn is given.
  fun_induction iterateFrom turn h state s with
  | case1 state s next middle ht ih => exact ih (Nat.le_trans (length_le_of_run ht) hn) hrun
  | case2 state s a middle ht => cases hrun
  | case3 state s fault' middle ht =>
    obtain ⟨rfl, rfl⟩ := Outcome.fault.inj hrun
    exact hturn state s fault' middle ht n hn

/-- Behind a body the place is settled. -/
theorem stops_enclosed {body : Reader α} {finish : Reader Unit} (hbody : body.Stops IsOpen)
    (hfinish : finish.Stops IsOpen) : (enclosed body finish).Stops IsWithin := by
  intro s fault rest hrun n hn
  have hrest : rest.length ≤ n := by
    have hsuffix := ((enclosed body finish).suffix s).length_le
    rw [hrun] at hsuffix
    exact Nat.le_trans hsuffix hn
  simp only [enclosed] at hrun
  cases hb : body.run s with
  | value a middle =>
    have hmiddle : middle.length ≤ n := Nat.le_trans (length_le_of_run hb) hn
    cases hf : finish.run middle with
    | value u last => simp [hb, hf] at hrun
    | fault fault' last =>
      simp only [hb, hf, Outcome.fault.injEq] at hrun
      obtain ⟨rfl, rfl⟩ := hrun
      exact (hfinish middle fault' last hf n hmiddle).isWithin_placed hrest
  | fault fault' middle =>
    simp only [hb, Outcome.fault.injEq] at hrun
    obtain ⟨rfl, rfl⟩ := hrun
    exact (hbody s fault' middle hb n hn).isWithin_placed hrest

/-! ### Single steps -/

theorem stops_pure (a : α) : (pure a : Reader α).Stops P :=
  fun _ _ _ h => nomatch h

theorem stops_peek? : peek?.Stops P :=
  fun _ _ _ h => nomatch h

theorem stops_next? : next?.Stops P :=
  fun _ _ _ h => nomatch h

theorem stops_pass : pass.Stops P :=
  fun _ _ _ h => nomatch h

theorem stops_passWhile (test : UInt8 → Bool) : (passWhile test).Stops P :=
  fun _ _ _ h => nomatch h

theorem stops_gather (limit n : Nat) : (gather limit n).Stops P :=
  fun _ _ _ h => nomatch h

theorem stops_blanks : blanks.Stops P :=
  fun _ _ _ h => nomatch h

theorem stops_digitAhead : digitAhead.Stops P :=
  fun _ _ _ h => nomatch h

theorem stops_take? (test : UInt8 → Bool) : (take? test).Stops P := by
  intro s fault rest h
  cases s with
  | nil => cases h
  | cons b s =>
    rw [run_take?_cons] at h
    split at h <;> cases h

theorem stops_exactly? (k : Nat) : (exactly? k).Stops P := by
  intro s fault rest h
  simp only [exactly?] at h
  split at h <;> cases h

theorem stops_failHere (cause : Cause) : (failHere cause : Reader α).Stops IsWithin := by
  intro s fault rest h n hn
  obtain ⟨rfl, rfl⟩ := Outcome.fault.inj h
  exact ⟨_, rfl, hn⟩

theorem stops_failNext (cause : Cause) : (failNext cause : Reader α).Stops IsInside := by
  intro s fault rest h n hn
  obtain ⟨rfl, rfl⟩ := Outcome.fault.inj h
  exact ⟨_, rfl, Nat.sub_le_sub_right hn 1⟩

theorem stops_failUnplaced (cause : Cause) : (failUnplaced cause : Reader α).Stops IsOpen := by
  intro s fault rest h n hn
  obtain ⟨rfl, rfl⟩ := Outcome.fault.inj h
  exact Or.inl rfl

/-- A reader that begins by taking a byte does not stop before it. -/
theorem stops_next?_bind {f : Option UInt8 → Reader α} (hf : ∀ b, (f b).Stops IsWithin) :
    (next? >>= f).Stops IsInside := by
  refine stops_next?.inside_bind (fun s b rest h => ?_) hf
  obtain ⟨_, rfl⟩ := Outcome.value.inj h
  exact s.length_tail.le

theorem stops_pass_bind {f : Unit → Reader α} (hf : ∀ u, (f u).Stops IsWithin) :
    (pass >>= f).Stops IsInside := by
  refine stops_pass.inside_bind (fun s u rest h => ?_) hf
  obtain ⟨_, rfl⟩ := Outcome.value.inj h
  exact s.length_tail.le

/-! ### Words and what begins a value -/

theorem stops_lead : lead.Stops IsInside :=
  stops_blanks.bind_option (stops_failNext _) fun _ => stops_pure _

theorem stops_letters (cs : List Char) : (letters cs).Stops IsWithin := by
  induction cs with
  | nil => exact stops_pure _
  | cons c cs ih =>
    refine stops_next?.bind_option (stops_failHere _) fun b => ?_
    dsimp only
    split
    · exact ih
    · exact stops_failHere _

theorem stops_word (others : List Char) : (word others).Stops IsInside :=
  stops_pass_bind fun _ => stops_letters others

/-! ### Strings -/

theorem stops_codeUnit : codeUnit.Stops IsWithin := by
  refine (stops_exactly? 4).bind_option (stops_failHere _) fun ds => ?_
  dsimp only
  split
  · exact stops_failHere _
  · exact stops_pure _

theorem stops_expectInPair (c : Char) : (expectInPair c).Stops IsWithin := by
  refine stops_next?.bind_option (stops_failHere _) fun b => ?_
  dsimp only
  split
  · exact stops_pure _
  · exact stops_failHere _

theorem stops_unicodeEscape : unicodeEscape.Stops IsWithin := by
  refine stops_codeUnit.bind fun unit => ?_
  split
  · exact stops_failHere _
  split
  · refine (stops_expectInPair _).bind fun _ => (stops_expectInPair _).bind fun _ =>
      stops_codeUnit.bind fun second => ?_
    split
    · exact stops_pure _
    · exact stops_failHere _
  · exact stops_pure _

theorem stops_escape : escape.Stops IsWithin := by
  refine stops_next?.bind_option (stops_failHere _) fun b => ?_
  dsimp only
  split
  · exact stops_pure _
  split
  · exact stops_unicodeEscape
  · exact stops_failHere _

theorem stops_contentTurn (gathered : Bytes) : (contentTurn gathered).Stops IsWithin := by
  refine stops_next?.bind_option (stops_failHere _) fun b => ?_
  dsimp only
  split
  · exact stops_pure _
  split
  · exact stops_escape.bind fun _ => stops_pure _
  split
  · exact stops_failHere _
  · exact stops_pure _

theorem stops_content : content.Stops IsWithin :=
  Stops.iterate stops_contentTurn []

end Reader

/-- No character is encoded in more bytes than its escape takes. -/
theorem SpellsEscape.length_le {c : Char} {e : Bytes} (h : SpellsEscape c e) :
    (String.utf8EncodeChar c).length ≤ e.length := by
  cases h with
  | letter hmem =>
    rw [Utf8.utf8EncodeChar_of_lt (toNat_lt_of_mem_escapeLetters hmem)]
    exact Nat.le_refl 1
  | unit hu =>
    rw [String.length_utf8EncodeChar, List.length_cons, hu.length]
    exact Nat.le_succ_of_le c.utf8Size_le_four
  | pair _ _ _ hds _ =>
    rw [String.length_utf8EncodeChar, List.cons_append, List.length_cons, List.length_append,
      hds.length]
    exact Nat.le_succ_of_le (Nat.le_add_right_of_le c.utf8Size_le_four)

theorem Content.length_le {bs body : Bytes} (h : Content bs body) : bs.length ≤ body.length := by
  induction h with
  | nil => exact Nat.le_refl 0
  | bare _ _ ih => exact Nat.succ_le_succ ih
  | escaped he _ ih =>
    rw [List.length_append, List.length_append, List.length_cons]
    exact Nat.add_le_add (Nat.le_succ_of_le he.length_le) ih

namespace Reader

/-- What does not fit into a string is shorter than what spells it, so that the place of the fault
lies behind the opening quote. -/
theorem stops_text : text.Stops IsWithin := by
  intro s fault rest hrun n hn
  rcases cases_of_run_bind_fault hrun with hstop | ⟨bs, middle, hcontent, hstop⟩
  · exact stops_content s fault rest hstop n hn
  · obtain ⟨body, hbody, rfl⟩ := run_content_eq_value_iff.mp hcontent
    split at hstop
    · cases hstop
    · next cs tail _ hprefix =>
      obtain ⟨rfl, rfl⟩ := Outcome.fault.inj hstop
      have htail : tail <:+ bs := ⟨_, hprefix ▸ Utf8.encode_append_decodePrefix bs⟩
      have hle : tail.length ≤ body.length := Nat.le_trans htail.length_le hbody.length_le
      rw [List.length_append, List.length_cons] at hn
      exact ⟨⟨middle.length, tail.length⟩, rfl, by dsimp only; omega⟩

theorem stops_passEscape : passEscape.Stops IsWithin := by
  refine stops_next?.bind_option (stops_failHere _) fun b => ?_
  dsimp only
  split
  · exact stops_pure _
  split
  · exact stops_codeUnit.bind fun _ => stops_pure _
  · exact stops_failHere _

theorem stops_passTextTurn (state : Unit) : (passTextTurn state).Stops IsWithin := by
  refine (stops_passWhile _).bind fun _ => (stops_take? _).bind_option ?_ fun _ => stops_pure _
  refine (stops_take? _).bind_option ?_ fun _ => stops_passEscape.bind fun _ => stops_pure _
  exact stops_peek?.bind_option (stops_failHere _) fun _ => stops_failHere _

theorem stops_passText : passText.Stops IsWithin :=
  Stops.iterate stops_passTextTurn ()

/-! ### Numbers -/

section Numbers

variable (minus : Bool) (significand : Nat)

theorem stops_scaled (exponent : Int) : (scaled minus significand exponent).Stops IsWithin := by
  unfold scaled
  split
  · exact stops_failHere _
  · exact stops_pure _

theorem stops_exponent (before : Int) : (exponent minus significand before).Stops IsWithin := by
  refine (stops_take? _).bind fun sign => stops_next?.bind_option (stops_failHere _) fun b => ?_
  dsimp only
  split
  · exact stops_failHere _
  · refine (stops_gather _ _).bind fun _ => stops_digitAhead.bind fun more => ?_
    split
    · refine stops_pass.bind fun _ => ?_
      split
      · exact stops_failHere _
      · exact (stops_passWhile _).bind fun _ => stops_pure _
    · exact stops_scaled minus significand _

theorem stops_exponent? (before : Int) : (exponent? minus significand before).Stops IsWithin :=
  (stops_take? _).bind_option (stops_scaled minus significand before)
    fun _ => stops_exponent minus significand before

theorem stops_fraction (before : Int) : (fraction minus significand before).Stops IsWithin := by
  refine (stops_gather _ _).bind fun _ => stops_digitAhead.bind fun more => ?_
  split
  · exact (stops_passWhile _).bind fun _ => stops_exponent? minus _ _
  split
  · exact stops_peek?.bind_option (stops_failNext _).within fun _ => (stops_failNext _).within
  · exact stops_exponent? minus _ _

theorem stops_afterInteger : (afterInteger minus significand).Stops IsWithin := by
  refine (stops_passWhile _).bind fun more => (stops_take? _).bind fun b => ?_
  cases b with
  | none =>
    dsimp only
    split
    · exact stops_pure _
    · exact stops_scaled minus significand _
  | some b =>
    dsimp only
    split
    · exact stops_fraction minus significand _
    · exact stops_exponent minus significand _

theorem stops_number : (number minus).Stops IsInside := by
  refine stops_next?_bind fun b => ?_
  cases b with
  | none => exact stops_failHere _
  | some b =>
    dsimp only
    split
    · exact stops_failHere _
    · refine stops_digitAhead.bind fun more => ?_
      split
      · exact (stops_failNext _).within
      · exact stops_afterInteger minus 0
    · exact (stops_gather _ _).bind fun _ => stops_afterInteger minus _

end Numbers

/-! ### Values without parts -/

theorem stops_found (kind : Lead) : (found kind).Stops IsInside := by
  cases kind with
  | null => exact (stops_word _).bind fun _ => stops_pure _
  | bool value => exact (stops_word _).bind fun _ => stops_pure _
  | string => exact stops_pass_bind fun _ => stops_text.bind fun _ => stops_pure _
  | minus =>
    exact stops_pass_bind fun _ => (stops_number true).within.bind fun _ => stops_pure _
  | digit => exact (stops_number false).bind fun _ => stops_pure _
  | container kind => cases kind <;> exact stops_pure _
  | other => exact stops_failNext _

theorem stops_wrongType (expected : Expected) (kind : Lead) :
    (wrongType expected kind : Reader α).Stops IsWithin :=
  (stops_found kind).within.bind fun _ => stops_failHere _

theorem takes_found {kind : Lead} (h : ∀ bracket, kind ≠ .container bracket) :
    (found kind).Takes fun _ => True := by
  cases kind with
  | null => exact takes_null.bind_left
  | bool value => exact (takes_bool value).bind_left
  | string => exact Takes.bind_right fun _ => takes_text.bind_left
  | minus => exact Takes.bind_right fun _ => (takes_number true).bind_left
  | digit => exact (takes_number false).bind_left
  | container bracket => exact absurd rfl (h bracket)
  | other => exact takes_failNext _

/-- A value without parts is read before it is found to be of another type. -/
theorem stops_wrongType_of_ne {expected : Expected} {kind : Lead}
    (h : ∀ bracket, kind ≠ .container bracket) :
    (wrongType expected kind : Reader α).Stops IsInside :=
  (stops_found kind).inside_bind
    (fun s found rest hrun => Nat.le_sub_one_of_lt (takes_found h s found rest hrun trivial))
    fun _ => stops_failHere _

theorem stops_naturalOf (x : Number) : (naturalOf x).Stops IsWithin := by
  cases x with
  | natural n => exact stops_pure _
  | negative magnitude => exact stops_failHere _
  | real x => exact stops_failHere _

theorem stops_natural : natural.Stops IsWithin := by
  refine stops_lead.within.bind fun kind => ?_
  split
  · exact (stops_number false).within.bind stops_naturalOf
  · exact stops_pass.bind fun _ => (stops_number true).within.bind stops_naturalOf
  · exact stops_wrongType _ _

theorem stops_string : string.Stops IsWithin := by
  refine stops_lead.within.bind fun kind => ?_
  split
  · exact stops_pass.bind fun _ => stops_text
  · exact stops_wrongType _ _

theorem stops_nothing : nothing.Stops IsWithin := by
  refine stops_lead.within.bind fun kind => ?_
  split
  · exact (stops_word _).within
  · exact stops_wrongType _ _

theorem stops_optional {r : Reader α} (hr : r.Stops IsWithin) :
    (optional r).Stops IsWithin := by
  refine stops_blanks.bind_option (hr.bind fun _ => stops_pure _) fun b => ?_
  dsimp only
  split
  · exact (stops_word _).within.bind fun _ => stops_pure _
  · exact hr.bind fun _ => stops_pure _

end Reader

end ListingSnapshot.Json
