import ListingSnapshot.Json.Number
import ListingSnapshot.Proofs.Json.Numbers

/-!
# How far a number goes

A number is read by digits for as long as they fit, then by the digits left over. What is taken is
the same as when the number is passed over, and no digit is left that would go on with it.

## Main results

* `Json.Reader.run_passNumber_of_run_number`: a number that is read can be passed over.
* `Json.Reader.noDigit_of_run_passNumber`: where a number ends.
-/

namespace ListingSnapshot.Json.Reader

/-! ### What is taken -/

theorem run_digits_of_not_any {s : Bytes} (h : s.head?.any Numeral.isDigit = false) :
    digits.run s = .value 0 s := by
  refine run_digits (List.forall_mem_nil _) fun b hb => ?_
  rwa [hb] at h

theorem run_digits_of_any {s rest : Bytes} {more : Nat}
    (h : s.head?.any Numeral.isDigit = true) (hdigits : digits.run s.tail = .value more rest) :
    digits.run s = .value (more + 1) rest := by
  cases s with
  | nil => cases h
  | cons b s =>
    have hdigit : Numeral.isDigit b = true := h
    rw [digits, run_passWhile] at hdigits ⊢
    obtain ⟨hlength, hrest⟩ := Outcome.value.inj hdigits
    rw [List.tail_cons] at hlength hrest
    rw [List.takeWhile_cons_of_pos hdigit, List.dropWhile_cons_of_pos hdigit, List.length_cons,
      hlength, hrest]

/-- The digits that are left over by a limit go on with those that are not. -/
theorem run_digits_of_run_gather {limit n m count more : Nat} {s middle rest : Bytes}
    (hgather : (gather limit n).run s = .value (m, count) middle)
    (hdigits : digits.run middle = .value more rest) :
    digits.run s = .value (count + more) rest := by
  obtain ⟨hpair, rfl⟩ := Outcome.value.inj hgather
  obtain ⟨-, rfl⟩ := Prod.mk.inj hpair
  clear hgather hpair
  fun_induction Numeral.gather limit n s with
  | case1 => simpa using hdigits
  | case2 => simpa using hdigits
  | case3 => simpa using hdigits
  | case4 n b s d hd m hm run ih =>
    rw [Nat.add_right_comm]
    exact run_digits_of_any (s := b :: s) (isDigit_of_digit?_eq_some hd) (ih hdigits)

section Number

variable {minus : Bool} {significand : Nat} {before : Int} {s rest : Bytes} {x : Number}

theorem eq_of_run_scaled {exponent : Int}
    (h : (scaled minus significand exponent).run s = .value x rest) : rest = s := by
  rw [scaled] at h
  split at h
  · cases h
  · exact (Outcome.value.inj h).2.symm

theorem run_passExponent_of_run_exponent
    (h : (exponent minus significand before).run s = .value x rest) :
    passExponent.run s = .value () rest := by
  rw [exponent, run_bind_eq_value_iff] at h
  obtain ⟨sign?, middle, hsign, h⟩ := h
  obtain ⟨b?, behind, hb, h⟩ := run_bind_eq_value_iff.mp h
  rw [passExponent, run_bind_of_value _ hsign, run_bind_of_value _ hb]
  cases b? with
  | none => cases h
  | some b =>
    dsimp only at h ⊢
    split at h
    · cases h
    next d hd =>
    obtain ⟨⟨n, count⟩, last, hgather, h⟩ := run_bind_eq_value_iff.mp h
    dsimp only at h
    rw [run_bind_of_value _ (run_digitAhead last)] at h
    have hdigits : ∃ more, digits.run last = .value more rest := by
      split at h
      · next hany =>
        rw [run_bind_of_value _ (run_pass _)] at h
        split at h
        · cases h
        · obtain ⟨more, hmore, _⟩ := exists_of_run_bind_pure h
          exact ⟨_, run_digits_of_any hany hmore⟩
      · next hany =>
        rw [Bool.not_eq_true] at hany
        obtain rfl := eq_of_run_scaled h
        exact ⟨0, run_digits_of_not_any hany⟩
    obtain ⟨more, hmore⟩ := hdigits
    rw [if_pos (isDigit_of_digit?_eq_some hd),
      run_bind_of_value _ (run_digits_of_run_gather hgather hmore)]
    rfl

theorem run_passExponent?_of_run_exponent?
    (h : (exponent? minus significand before).run s = .value x rest) :
    passExponent?.run s = .value () rest := by
  rw [exponent?, run_bind_eq_value_iff] at h
  obtain ⟨letter?, middle, hletter, h⟩ := h
  rw [passExponent?, run_bind_of_value _ hletter]
  cases letter? with
  | some letter => exact run_passExponent_of_run_exponent h
  | none => rw [eq_of_run_scaled h]; rfl

/-- Behind a point there is at least one digit. -/
theorem run_digits_of_run_fraction
    (h : (fraction minus significand before).run s = .value x rest) :
    ∃ count middle, digits.run s = .value count middle ∧ count ≠ 0 ∧
      passExponent?.run middle = .value () rest := by
  rw [fraction, run_bind_eq_value_iff] at h
  obtain ⟨⟨n, count⟩, last, hgather, h⟩ := h
  dsimp only at h
  rw [run_bind_of_value _ (run_digitAhead last)] at h
  split at h
  · next hany =>
    obtain ⟨more, middle, hmore, h⟩ := run_bind_eq_value_iff.mp h
    have hpositive := hmore.symm.trans (run_digits_of_any hany rfl)
    refine ⟨count + more, middle, run_digits_of_run_gather hgather hmore, ?_,
      run_passExponent?_of_run_exponent? h⟩
    rw [(Outcome.value.inj hpositive).1]
    exact Nat.succ_ne_zero _
  · next hany =>
    rw [Bool.not_eq_true] at hany
    split at h
    · obtain ⟨b?, _, _, h⟩ := run_bind_eq_value_iff.mp h
      cases b? <;> cases h
    · next hcount =>
      exact ⟨count, _, run_digits_of_run_gather hgather (run_digits_of_not_any hany), hcount,
        run_passExponent?_of_run_exponent? h⟩

/-- What follows the digits before the point. -/
theorem run_passFraction?_of_run_afterInteger
    (h : (afterInteger minus significand).run s = .value x rest) :
    ∃ more middle, digits.run s = .value more middle ∧
      passFraction?.run middle = .value () rest := by
  rw [afterInteger, run_bind_eq_value_iff] at h
  obtain ⟨more, middle, hmore, h⟩ := h
  refine ⟨more, middle, hmore, ?_⟩
  rw [run_bind_eq_value_iff] at h
  obtain ⟨mark?, behind, hmark, h⟩ := h
  cases mark? with
  | none =>
    obtain ⟨hnone, rfl⟩ := run_take?_eq_none_iff.mp hmark
    simp only [Bool.or_eq_false_iff] at hnone
    have hpoint : (take? (· = byte '.')).run behind = .value none behind :=
      run_take?_eq_none_iff.mpr ⟨fun b hb => (hnone b hb).1.1, rfl⟩
    have hletter : (take? fun b => b = byte 'e' || b = byte 'E').run behind = .value none behind :=
      run_take?_eq_none_iff.mpr
        ⟨fun b hb => by rw [(hnone b hb).1.2, (hnone b hb).2, Bool.or_false], rfl⟩
    rw [passFraction?, run_bind_of_value _ hpoint, passExponent?, run_bind_of_value _ hletter]
    dsimp only at h
    split at h
    · obtain ⟨_, rfl⟩ := Outcome.value.inj h
      rfl
    · rw [eq_of_run_scaled h]
      rfl
  | some mark =>
    obtain ⟨hmark', rfl⟩ := run_take?_eq_some_iff.mp hmark
    dsimp only at h
    split at h
    · next hpoint =>
      obtain ⟨count, last, hcount, hne, hexponent⟩ := run_digits_of_run_fraction h
      have htake : (take? (· = byte '.')).run (mark :: behind) = .value (some mark) behind :=
        run_take?_eq_some_iff.mpr ⟨decide_eq_true hpoint, rfl⟩
      rw [passFraction?, run_bind_of_value _ htake]
      dsimp only
      rw [run_bind_of_value _ hcount, if_neg hne]
      exact hexponent
    · next hpoint =>
      have htake : (take? (· = byte '.')).run (mark :: behind) = .value none (mark :: behind) :=
        run_take?_eq_none_iff.mpr ⟨fun b hb => Option.some.inj hb ▸ decide_eq_false hpoint, rfl⟩
      have hletter : (take? fun b => b = byte 'e' || b = byte 'E').run (mark :: behind) =
          .value (some mark) behind := by
        refine run_take?_eq_some_iff.mpr ⟨?_, rfl⟩
        rwa [decide_eq_false hpoint, Bool.false_or] at hmark'
      rw [passFraction?, run_bind_of_value _ htake, passExponent?, run_bind_of_value _ hletter]
      exact run_passExponent_of_run_exponent h

/-- A number that is read can be passed over, and the same is taken. -/
theorem run_passNumber_of_run_number (h : (number minus).run s = .value x rest) :
    passNumber.run s = .value () rest := by
  rw [number, run_bind_eq_value_iff] at h
  obtain ⟨b?, middle, hb, h⟩ := h
  rw [passNumber, run_bind_of_value _ hb]
  cases b? with
  | none => cases h
  | some b =>
    dsimp only at h ⊢
    split at h
    · cases h
    · next hzero =>
      have hb0 : b = byte '0' := by
        obtain ⟨c, hc, rfl, hc0⟩ := exists_of_digit?_eq_some hzero
        have := (isFigure_iff.mp hc).1
        rw [Char.toNat_inj.mp (show c.toNat = '0'.toNat by change _ = 48; omega)]
      rw [run_bind_of_value _ (run_digitAhead middle)] at h
      rw [if_pos hb0, run_bind_of_value _ (run_digitAhead middle)]
      split at h
      · cases h
      next hany =>
      rw [if_neg hany]
      rw [Bool.not_eq_true] at hany
      obtain ⟨more, last, hmore, hfraction⟩ := run_passFraction?_of_run_afterInteger h
      -- No digit follows the zero, so none is taken in front of the point.
      obtain ⟨_, rfl⟩ := Outcome.value.inj (hmore.symm.trans (run_digits_of_not_any hany))
      exact hfraction
    · next d hne hd =>
      have hb0 : b ≠ byte '0' := by
        rintro rfl
        exact hne (Option.some.inj hd).symm
      obtain ⟨⟨n, count⟩, behind, hgather, h⟩ := run_bind_eq_value_iff.mp h
      obtain ⟨more, last, hmore, hfraction⟩ := run_passFraction?_of_run_afterInteger h
      rw [if_neg hb0, if_pos (isDigit_of_digit?_eq_some hd),
        run_bind_of_value _ (run_digits_of_run_gather hgather hmore)]
      exact hfraction

end Number

/-! ### Where a number ends -/

theorem noDigit_of_run_digits {s rest : Bytes} {n : Nat} (h : digits.run s = .value n rest) :
    NoDigit rest := by
  obtain ⟨_, rfl⟩ := Outcome.value.inj h
  intro b hb
  have hhead := List.head?_dropWhile_not Numeral.isDigit s
  rw [hb] at hhead
  exact hhead

theorem noDigit_of_run_passExponent {s rest : Bytes} {u : Unit}
    (h : passExponent.run s = .value u rest) : NoDigit rest := by
  rw [passExponent, run_bind_eq_value_iff] at h
  obtain ⟨_, _, _, h⟩ := h
  obtain ⟨b?, _, _, h⟩ := run_bind_eq_value_iff.mp h
  cases b? with
  | none => cases h
  | some b =>
    dsimp only at h
    split at h
    · obtain ⟨_, hdigits, _⟩ := exists_of_run_bind_pure h
      exact noDigit_of_run_digits hdigits
    · cases h

theorem noDigit_of_run_passExponent? {s rest : Bytes} {u : Unit} (hs : NoDigit s)
    (h : passExponent?.run s = .value u rest) : NoDigit rest := by
  rw [passExponent?, run_bind_eq_value_iff] at h
  obtain ⟨letter?, _, hletter, h⟩ := h
  cases letter? with
  | none =>
    obtain ⟨_, rfl⟩ := run_take?_eq_none_iff.mp hletter
    obtain ⟨_, rfl⟩ := Outcome.value.inj h
    exact hs
  | some letter => exact noDigit_of_run_passExponent h

theorem noDigit_of_run_passFraction? {s rest : Bytes} {u : Unit} (hs : NoDigit s)
    (h : passFraction?.run s = .value u rest) : NoDigit rest := by
  rw [passFraction?, run_bind_eq_value_iff] at h
  obtain ⟨point?, _, hpoint, h⟩ := h
  cases point? with
  | none =>
    obtain ⟨_, rfl⟩ := run_take?_eq_none_iff.mp hpoint
    exact noDigit_of_run_passExponent? hs h
  | some point =>
    obtain ⟨count, _, hcount, h⟩ := run_bind_eq_value_iff.mp h
    split at h
    · cases h
    · exact noDigit_of_run_passExponent? (noDigit_of_run_digits hcount) h

/-- A number is passed over to its last digit. -/
theorem noDigit_of_run_passNumber {s rest : Bytes} {u : Unit}
    (h : passNumber.run s = .value u rest) : NoDigit rest := by
  rw [passNumber, run_bind_eq_value_iff] at h
  obtain ⟨b?, middle, _, h⟩ := h
  cases b? with
  | none => cases h
  | some b =>
    dsimp only at h
    split at h
    · rw [run_bind_of_value _ (run_digitAhead middle)] at h
      split at h
      · cases h
      next hany =>
      refine noDigit_of_run_passFraction? (fun c hc => ?_) h
      rw [hc] at hany
      exact Bool.not_eq_true _ ▸ hany
    split at h
    · obtain ⟨_, _, hdigits, h⟩ := run_bind_eq_value_iff.mp h
      exact noDigit_of_run_passFraction? (noDigit_of_run_digits hdigits) h
    · cases h

end ListingSnapshot.Json.Reader
