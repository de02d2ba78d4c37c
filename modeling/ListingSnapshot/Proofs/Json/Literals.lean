import ListingSnapshot.Json.Document
import ListingSnapshot.Proofs.Json.Spans
import ListingSnapshot.Proofs.Json.Unambiguity

/-!
# Numbers in documents

A document keeps a number as it is spelled, but the number has to be one that can be read: beyond
the greatest floating-point number there is none. Whether it can be read is a matter of its spelling
alone, since what a number is read as does not depend on what follows it.

## Main definitions

* `Json.Reader.Local`: what is read does not depend on what follows.
* `Json.InRange`: the spellings of the numbers that can be read.

## Main results

* `Json.Reader.local_number`: a number is read by its spelling alone.
* `Json.Reader.run_spelledNumber`, `Json.Reader.exists_of_run_spelledNumber`: the numbers that a
  document may have.
-/

namespace ListingSnapshot.Json

namespace Reader

/-! ### What follows a number -/

/-- What is read at the front of a text, and up to where, does not depend on the rest: it may be
replaced by what can stand behind a value, unless a digit goes on with it. -/
def Local (r : Reader α) : Prop :=
  ∀ ⦃s s' rest rest' a⦄, NoDigit rest → Delimited rest' →
    r.run (s ++ rest) = .value a (s' ++ rest) → r.run (s ++ rest') = .value a (s' ++ rest')

section Local

variable {α β : Type}

theorem local_failHere (cause : Cause) : (failHere cause : Reader α).Local :=
  fun _ _ _ _ _ _ _ hrun => nomatch hrun

theorem local_failNext (cause : Cause) : (failNext cause : Reader α).Local :=
  fun _ _ _ _ _ _ _ hrun => nomatch hrun

theorem local_pure (a : α) : (pure a : Reader α).Local := by
  intro s s' rest rest' b _ _ hrun
  obtain ⟨rfl, hs⟩ := Outcome.value.inj hrun
  rw [List.append_cancel_right hs, run_pure]

theorem Local.bind {r : Reader α} {f : α → Reader β} (h : r.Local) (hf : ∀ a, (f a).Local) :
    (r >>= f).Local := by
  intro s s' rest rest' b hr hr' hrun
  obtain ⟨a, middle, hfirst, hsecond⟩ := run_bind_eq_value_iff.mp hrun
  have hsuffix := (f a).suffix middle
  rw [hsecond] at hsuffix
  obtain ⟨m, rfl⟩ := hsuffix
  rw [Outcome.rest_value, ← List.append_assoc] at hfirst hsecond
  exact run_bind_eq_value_iff.mpr ⟨a, _, h hr hr' hfirst, hf a hr hr' hsecond⟩

/-- A byte that is not taken may be one of the rest, if none that can stand there is. -/
theorem local_take? {test : UInt8 → Bool} (h : ∀ b ∈ delimiters, test b = false) :
    (take? test).Local := by
  intro s s' rest rest' b? hr hr' hrun
  cases s with
  | nil =>
    cases b? with
    | none =>
      obtain ⟨_, hs⟩ := run_take?_eq_none_iff.mp hrun
      obtain rfl := List.append_left_eq_self.mp hs
      exact run_take?_eq_none_iff.mpr ⟨fun b hb => h b (hr' b hb), rfl⟩
    | some b =>
      have hlength : rest.length = (s' ++ rest).length + 1 :=
        congrArg List.length (run_take?_eq_some_iff.mp hrun).2
      rw [List.length_append] at hlength
      omega
  | cons c s =>
    rw [List.cons_append, run_take?_cons] at hrun ⊢
    split at hrun
    · next hc =>
      obtain ⟨rfl, hs⟩ := Outcome.value.inj hrun
      rw [if_pos hc, List.append_cancel_right hs]
    · next hc =>
      obtain ⟨rfl, hs⟩ := Outcome.value.inj hrun
      rw [← List.cons_append] at hs
      rw [if_neg hc, ← List.append_cancel_right hs, List.cons_append]

/-- A byte that has to be there is not one of the rest. -/
theorem local_next?_bind {f : Option UInt8 → Reader α}
    (hnone : ∀ s a rest, (f none).run s ≠ .value a rest) (hsome : ∀ b, (f (some b)).Local) :
    (next? >>= f).Local := by
  intro s s' rest rest' a hr hr' hrun
  obtain ⟨b?, middle, hb, hf⟩ := run_bind_eq_value_iff.mp hrun
  cases b? with
  | none => exact (hnone _ _ _ hf).elim
  | some b =>
    have hs := run_next?_eq_some_iff.mp hb
    cases s with
    | nil =>
      have hlength : rest.length = middle.length + 1 := congrArg List.length hs
      have hle := length_le_of_run hf
      rw [List.length_append] at hle
      omega
    | cons c s =>
      obtain ⟨rfl, rfl⟩ := List.cons.inj hs
      exact run_bind_eq_value_iff.mpr
        ⟨some c, s ++ rest', run_next?_eq_some_iff.mpr rfl, hsome c hr hr' hf⟩

/-- A digit that comes next is not one of the rest. -/
theorem local_digitAhead_bind {f : Bool → Reader α} (hfalse : (f false).Local)
    (htrue : ∀ ⦃c s s' rest rest' a⦄, NoDigit rest → Delimited rest' →
      (f true).run (c :: s ++ rest) = .value a (s' ++ rest) →
        (f true).run (c :: s ++ rest') = .value a (s' ++ rest')) :
    (digitAhead >>= f).Local := by
  intro s s' rest rest' a hr hr' hrun
  cases s with
  | nil =>
    have hahead := run_digitAhead_of_noDigit hr
    have hahead' := run_digitAhead_of_noDigit hr'.noDigit
    rw [List.nil_append, run_bind_of_value _ hahead] at hrun
    rw [List.nil_append, run_bind_of_value _ hahead']
    exact hfalse (s := []) hr hr' hrun
  | cons c s =>
    rw [run_bind_of_value _ (run_digitAhead _)] at hrun ⊢
    change (f (Numeral.isDigit c)).run (c :: s ++ rest) = _ at hrun
    change (f (Numeral.isDigit c)).run (c :: s ++ rest') = _
    cases hc : Numeral.isDigit c with
    | false =>
      rw [hc] at hrun
      exact hfalse hr hr' hrun
    | true =>
      rw [hc] at hrun
      exact htrue hr hr' hrun

theorem local_digits : digits.Local := by
  intro s s' rest rest' n hr hr' hrun
  induction s generalizing n with
  | nil =>
    have hnone := run_digits (List.forall_mem_nil _) hr
    obtain ⟨rfl, hs⟩ := Outcome.value.inj (hrun.symm.trans hnone)
    obtain rfl := List.append_left_eq_self.mp hs
    exact run_digits (List.forall_mem_nil _) hr'.noDigit
  | cons c s ih =>
    cases hc : Numeral.isDigit c with
    | false =>
      obtain ⟨rfl, hs⟩ := Outcome.value.inj (hrun.symm.trans (run_digits_of_not_any hc))
      rw [List.append_cancel_right hs]
      exact run_digits_of_not_any hc
    | true =>
      obtain ⟨rfl, hs⟩ := Outcome.value.inj (hrun.symm.trans (run_digits_of_any hc rfl))
      rw [hs] at hrun
      exact run_digits_of_any hc (ih (by rw [hs]; rfl))

theorem local_gather (limit n : Nat) : (gather limit n).Local := by
  intro s s' rest rest' a hr hr' hrun
  simp only [gather, Outcome.value.injEq] at hrun ⊢
  induction s generalizing n a with
  | nil =>
    rw [List.nil_append, gather_of_noDigit hr] at hrun
    obtain ⟨rfl, hs⟩ := hrun
    obtain rfl := List.self_eq_append_left.mp hs
    rw [List.nil_append, gather_of_noDigit hr'.noDigit]
    exact ⟨rfl, rfl⟩
  | cons c s ih =>
    -- The digits end at this byte, or they go on with it.
    have hstops (hgather : ∀ m, Numeral.gather limit n (c :: m) = ⟨n, 0, c :: m⟩) :
        ((Numeral.gather limit n (c :: s ++ rest')).number,
          (Numeral.gather limit n (c :: s ++ rest')).count) = a ∧
        (Numeral.gather limit n (c :: s ++ rest')).rest = s' ++ rest' := by
      rw [List.cons_append, hgather] at hrun ⊢
      obtain ⟨rfl, hs⟩ := hrun
      obtain rfl : c :: s = s' := List.append_cancel_right hs
      exact ⟨rfl, rfl⟩
    cases hd : Numeral.digit? c.toNat with
    | none => exact hstops fun m => by simp only [Numeral.gather, hd]
    | some d =>
      cases hm : Numeral.push? limit n d with
      | none => exact hstops fun m => by simp only [Numeral.gather, hd, hm]
      | some m =>
        simp only [List.cons_append, Numeral.gather, hd, hm] at hrun ⊢
        obtain ⟨rfl, hs⟩ := hrun
        obtain ⟨hpair, hrest⟩ := ih m ⟨rfl, hs⟩
        obtain ⟨hnumber, hcount⟩ := Prod.mk.inj hpair
        exact ⟨by rw [hnumber, hcount], hrest⟩

end Local

section Number

variable (minus : Bool) (significand : Nat) (before : Int)

theorem local_scaled : (scaled minus significand before).Local := by
  rw [scaled]
  split
  · exact local_failHere _
  · exact local_pure _

theorem local_exponent : (exponent minus significand before).Local := by
  refine (local_take? (List.all_iff_forall_prop.mp (by decide))).bind fun sign? => ?_
  refine local_next?_bind (fun _ _ _ h => nomatch h) fun b => ?_
  dsimp only
  split
  · exact local_failHere _
  · refine (local_gather _ _).bind fun (n, _) => local_digitAhead_bind (local_scaled _ _ _) ?_
    intro c s s' rest rest' a hr hr' hrun
    have hbehind : Local (if significand ≠ 0 && !decide (sign? = some (byte '-')) then
        (failHere (.malformed .numberOutOfRange) : Reader Number) else do
          let _ ← digits
          return signed minus 0) := by
      split
      · exact local_failHere _
      · exact local_digits.bind fun _ => local_pure _
    exact hbehind hr hr' hrun

theorem local_exponent? : (exponent? minus significand before).Local := by
  refine (local_take? (List.all_iff_forall_prop.mp (by decide))).bind fun letter? => ?_
  cases letter? with
  | none => exact local_scaled _ _ _
  | some letter => exact local_exponent _ _ _

theorem local_fraction : (fraction minus significand before).Local := by
  refine (local_gather _ _).bind fun (n, count) => local_digitAhead_bind ?_ fun c s => ?_
  · rw [if_neg Bool.false_ne_true]
    split
    · intro s s' rest rest' x _ _ hrun
      obtain ⟨b?, _, _, h⟩ := run_bind_eq_value_iff.mp hrun
      cases b? <;> cases h
    · exact local_exponent? _ _ _
  · exact (local_digits.bind fun _ => local_exponent? minus n _) (s := c :: s)

theorem local_afterInteger : (afterInteger minus significand).Local := by
  refine local_digits.bind fun more => ?_
  refine (local_take? (List.all_iff_forall_prop.mp (by decide))).bind fun mark? => ?_
  cases mark? with
  | none =>
    dsimp only
    split
    · exact local_pure _
    · exact local_scaled _ _ _
  | some mark =>
    dsimp only
    split
    · exact local_fraction _ _ _
    · exact local_exponent _ _ _

/-- A number is read by its spelling alone. -/
theorem local_number : (number minus).Local := by
  refine local_next?_bind (fun _ _ _ h => nomatch h) fun b => ?_
  dsimp only
  split
  · exact local_failHere _
  · exact local_digitAhead_bind (local_afterInteger _ _) fun c s => local_failNext _ (s := c :: s)
  · exact (local_gather _ _).bind fun (n, _) => local_afterInteger _ _

end Number

/-! ### Numbers that can be read -/

theorem exists_of_run_number {minus : Bool} {s rest : Bytes} {x : Number}
    (h : (number minus).run s = .value x rest) :
    ∃ cs, IsMagnitude cs ∧ s = Utf8.encode cs ++ rest ∧
      (number minus).run (Utf8.encode cs) = .value x [] := by
  have hpass := run_passNumber_of_run_number h
  obtain ⟨cs, hcs, rfl⟩ := exists_of_run_passNumber hpass
  have halone : (number minus).run (Utf8.encode cs ++ []) = .value x ([] ++ []) :=
    local_number minus (noDigit_of_run_passNumber hpass) delimited_nil h
  rw [List.append_nil] at halone
  exact ⟨cs, hcs, rfl, halone⟩

/-- A number that is read where it stands alone is read in front of other things as well. -/
theorem run_number_append {minus : Bool} {cs : List Char} {x : Number} {rest : Bytes}
    (h : (number minus).run (Utf8.encode cs) = .value x []) (hr : Delimited rest) :
    (number minus).run (Utf8.encode cs ++ rest) = .value x rest := by
  rw [← List.append_nil (Utf8.encode cs)] at h
  have hrun : (number minus).run (Utf8.encode cs ++ rest) = .value x ([] ++ rest) :=
    local_number minus delimited_nil.noDigit hr h
  exact hrun

theorem isMagnitude_of_run_number {minus : Bool} {cs : List Char} {x : Number}
    (h : (number minus).run (Utf8.encode cs) = .value x []) : IsMagnitude cs := by
  obtain ⟨cs', hcs, hs, _⟩ := exists_of_run_number h
  rw [List.append_nil] at hs
  exact encode_injective hs ▸ hcs

end Reader

/-- The spellings of the numbers that can be read. -/
inductive InRange : List Char → Prop
  | plain {cs : List Char} {x : Number}
      (h : (Reader.number false).run (Utf8.encode cs) = .value x []) : InRange cs
  | minus {cs : List Char} {x : Number}
      (h : (Reader.number true).run (Utf8.encode cs) = .value x []) : InRange ('-' :: cs)

theorem not_inRange_nil : ¬ InRange [] := by
  intro h
  cases h with
  | plain h => cases h

/-- All integers of 64 bits can be read, with and without a minus sign. -/
theorem inRange_of_isWhole {ds : List Char} (h : IsWhole ds)
    (hlt : Nat.ofDigitChars 10 ds 0 < 2 ^ 64) : InRange ds ∧ InRange ('-' :: ds) := by
  have hrun (minus : Bool) := Reader.run_number_integer minus h hlt delimited_nil
  simp only [List.append_nil] at hrun
  exact ⟨.plain (hrun false), .minus (hrun true)⟩

namespace Reader

/-! ### Numbers that are kept -/

theorem run_spelled_eq_value_iff {α : Type} {r : Reader α} {spelling s rest : Bytes} {a : α} :
    (spelled r).run s = .value (spelling, a) rest ↔
      s = spelling ++ rest ∧ r.run s = .value a rest := by
  have hsuffix := r.suffix s
  simp only [spelled]
  cases hr : r.run s with
  | fault fault middle => simp
  | value b middle =>
    rw [hr] at hsuffix
    obtain ⟨taken, rfl⟩ := hsuffix
    simp only [Outcome.rest_value, List.length_append, Nat.add_sub_cancel, List.take_left]
    constructor
    · intro h
      obtain ⟨hpair, rfl⟩ := Outcome.value.inj h
      obtain ⟨rfl, rfl⟩ := Prod.mk.inj hpair
      exact ⟨rfl, rfl⟩
    · rintro ⟨hs, h⟩
      obtain ⟨rfl, rfl⟩ := Outcome.value.inj h
      rw [List.append_cancel_right hs]

/-- The characters of a text of ASCII are those of its bytes. -/
theorem map_ofNat_encode {cs : List Char} (h : ∀ c ∈ cs, c.toNat < 0x80) :
    (Utf8.encode cs).map (fun b => Char.ofNat b.toNat) = cs := by
  induction cs with
  | nil => rfl
  | cons c cs ih =>
    obtain ⟨hc, hcs⟩ := List.forall_mem_cons.mp h
    rw [encode_cons_of_lt hc, List.map_cons, ih hcs, toNat_byte hc, Char.ofNat_toNat]

theorem lt_of_isMagnitude {cs : List Char} (h : IsMagnitude cs) : ∀ c ∈ cs, c.toNat < 0x80 := by
  obtain ⟨whole, fraction, exponent, hw, hf, he, rfl⟩ := h
  have hrun {ds : List Char} (hds : IsDigitRun ds) : ∀ c ∈ ds, c.toNat < 0x80 :=
    fun c hc => (hds.2 c hc).lt
  refine List.forall_mem_append.mpr ⟨List.forall_mem_append.mpr ⟨hrun hw.1, ?_⟩, ?_⟩
  · rcases hf with rfl | ⟨ds, hds, rfl⟩
    · exact List.forall_mem_nil _
    · exact List.forall_mem_cons.mpr ⟨by decide, hrun hds⟩
  · rcases he with rfl | ⟨letter, hletter, sign, hsign, ds, hds, rfl⟩
    · exact List.forall_mem_nil _
    · have hletters : ∀ c ∈ ['e', 'E'], c.toNat < 0x80 := List.all_iff_forall_prop.mp (by decide)
      have hsigns : ∀ sign ∈ [[], ['+'], ['-']], ∀ c ∈ sign, c.toNat < 0x80 := by
        simp
      refine List.forall_mem_append.mpr ⟨?_, hrun hds⟩
      exact List.forall_mem_cons.mpr ⟨hletters letter hletter, hsigns sign hsign⟩

theorem run_spelledNumber {minus : Bool} {cs : List Char} {x : Number} {rest : Bytes}
    (h : (number minus).run (Utf8.encode cs) = .value x []) (hr : Delimited rest) :
    (spelledNumber minus).run (Utf8.encode cs ++ rest) =
      .value (.number (if minus then '-' :: cs else cs)) rest := by
  have hspelled := run_spelled_eq_value_iff.mpr ⟨rfl, run_number_append h hr⟩
  rw [spelledNumber, run_bind_of_value _ hspelled]
  dsimp only
  rw [map_ofNat_encode (lt_of_isMagnitude (isMagnitude_of_run_number h))]
  rfl

theorem exists_of_run_spelledNumber {minus : Bool} {s rest : Bytes} {t : Tree}
    (h : (spelledNumber minus).run s = .value t rest) :
    ∃ cs x, IsMagnitude cs ∧ (number minus).run (Utf8.encode cs) = .value x [] ∧
      s = Utf8.encode cs ++ rest ∧ t = .number (if minus then '-' :: cs else cs) := by
  obtain ⟨⟨spelling, x⟩, hspelled, rfl⟩ := exists_of_run_bind_pure h
  obtain ⟨hs, hnumber⟩ := run_spelled_eq_value_iff.mp hspelled
  obtain ⟨cs, hcs, rfl, halone⟩ := exists_of_run_number hnumber
  obtain rfl := List.append_cancel_right hs
  refine ⟨cs, x, hcs, halone, rfl, ?_⟩
  rw [map_ofNat_encode (lt_of_isMagnitude hcs)]

end Reader

end ListingSnapshot.Json
