import ListingSnapshot.Json.Passing
import ListingSnapshot.Proofs.Json.Answers
import ListingSnapshot.Proofs.Text.Encoding

/-!
# Reading numbers

A reader of numbers takes digits for as long as there are any, so it takes a number as it is spelled
only if nothing follows that would go on with it. The other way round, whatever is taken is spelled
as a number should be.

A number is natural if it is spelled by digits alone and fits 64 bits. All other numbers are read as
negative numbers or as floating-point numbers, also those of an integer value.

## Main results

* `Json.Reader.exists_of_run_passNumber`, `Json.Reader.run_passNumber`: numbers that are passed
  over.
* `Json.Reader.exists_of_run_number_natural`: what is read as a natural number.
* `Json.Reader.run_number_integer`: integers that fit 64 bits.
-/

namespace ListingSnapshot.Json

/-! ### Digits as bytes -/

theorem encode_cons_of_lt {c : Char} (h : c.toNat < 0x80) (cs : List Char) :
    Utf8.encode (c :: cs) = byte c :: Utf8.encode cs := by
  rw [Utf8.encode_cons, Utf8.utf8EncodeChar_of_lt h]
  rfl

theorem toNat_byte {c : Char} (h : c.toNat < 0x80) : (byte c).toNat = c.toNat := by
  rw [byte, UInt8.toNat_ofNat']
  omega

theorem digit?_byte {c : Char} (h : IsFigure c) :
    Numeral.digit? (byte c).toNat = some (c.toNat - 48) := by
  rw [toNat_byte h.lt, Numeral.digit?, if_pos (isFigure_iff.mp h)]

theorem exists_of_digit?_eq_some {b : UInt8} {d : Nat} (h : Numeral.digit? b.toNat = some d) :
    ∃ c, IsFigure c ∧ b = byte c ∧ d = c.toNat - 48 := by
  rw [Numeral.digit?] at h
  split at h
  · next hb =>
    have hc : (Char.ofNat b.toNat).toNat = b.toNat := by
      rw [Char.ofNat, dif_pos (Or.inl (by omega))]
      rfl
    refine ⟨Char.ofNat b.toNat, ?_, ?_, ?_⟩
    · rw [isFigure_iff, hc]
      exact hb
    · rw [byte, hc, UInt8.ofNat_toNat]
    · rw [hc]
      exact (Option.some.inj h).symm
  · cases h

theorem isDigit_of_digit?_eq_some {b : UInt8} {d : Nat} (h : Numeral.digit? b.toNat = some d) :
    Numeral.isDigit b = true := by
  rw [Numeral.isDigit, h]
  rfl

theorem isDigit_byte {c : Char} (h : IsFigure c) : Numeral.isDigit (byte c) = true :=
  isDigit_of_digit?_eq_some (digit?_byte h)

theorem exists_of_isDigit {b : UInt8} (h : Numeral.isDigit b = true) :
    ∃ c, IsFigure c ∧ b = byte c := by
  obtain ⟨d, hd⟩ := Option.isSome_iff_exists.mp h
  obtain ⟨c, hc, rfl, _⟩ := exists_of_digit?_eq_some hd
  exact ⟨c, hc, rfl⟩

/-! ### Spellings -/

theorem IsMagnitude.exists_cons {cs : List Char} (h : IsMagnitude cs) :
    ∃ c ds, IsFigure c ∧ cs = c :: ds := by
  obtain ⟨whole, fraction, exponent, ⟨hwhole, _⟩, _, _, rfl⟩ := h
  obtain ⟨c, ds, rfl⟩ := List.exists_cons_of_ne_nil hwhole.1
  exact ⟨c, ds ++ fraction ++ exponent, (isDigitRun_cons.mp hwhole).1, rfl⟩

theorem isNumber_iff {cs : List Char} :
    IsNumber cs ↔ IsMagnitude cs ∨ ∃ magnitude, IsMagnitude magnitude ∧ cs = '-' :: magnitude := by
  constructor
  · rintro ⟨sign, hsign, magnitude, hm, rfl⟩
    simp only [List.mem_cons, List.not_mem_nil, or_false] at hsign
    rcases hsign with rfl | rfl
    · exact Or.inl hm
    · exact Or.inr ⟨magnitude, hm, rfl⟩
  · rintro (hm | ⟨magnitude, hm, rfl⟩)
    · exact ⟨[], by simp, cs, hm, rfl⟩
    · exact ⟨['-'], by simp, magnitude, hm, rfl⟩

theorem IsWhole.isNumber {ds : List Char} (h : IsWhole ds) : IsNumber ds :=
  isNumber_iff.mpr (Or.inl ⟨ds, [], [], h, Or.inl rfl, Or.inl rfl, by simp⟩)

/-- No digit comes next. -/
def NoDigit (s : Bytes) : Prop :=
  ∀ b ∈ s.head?, Numeral.isDigit b = false

theorem Delimited.noDigit {s : Bytes} (h : Delimited s) : NoDigit s := by
  have hall : ∀ b ∈ delimiters, Numeral.isDigit b = false :=
    List.all_iff_forall_prop.mp (by decide)
  exact fun b hb => hall b (h b hb)

/-- An exponent, if there is one, begins with its letter. -/
theorem head?_encode_exponent {exponent : List Char} (he : IsExponent exponent) {rest : Bytes}
    (hr : Delimited rest) :
    ∀ b ∈ (Utf8.encode exponent ++ rest).head?, b ∈ [byte 'e', byte 'E'] ++ delimiters := by
  rcases he with rfl | ⟨letter, hletter, sign, _, ds, _, rfl⟩
  · exact fun b hb => List.mem_append_right _ (hr b hb)
  · have hbyte : ∀ letter ∈ ['e', 'E'], letter.toNat < 0x80 ∧
        byte letter ∈ [byte 'e', byte 'E'] ++ delimiters :=
      List.all_iff_forall_prop.mp (by decide)
    intro b hb
    rw [List.cons_append, encode_cons_of_lt (hbyte letter hletter).1] at hb
    obtain rfl := Option.some.inj hb
    exact (hbyte letter hletter).2

/-- What follows the digits before the point does not go on with them. -/
theorem noDigit_encode_fraction {fraction exponent : List Char} (hf : IsFraction fraction)
    (he : IsExponent exponent) {rest : Bytes} (hr : Delimited rest) :
    NoDigit (Utf8.encode (fraction ++ exponent) ++ rest) := by
  intro b hb
  rcases hf with rfl | ⟨ds, _, rfl⟩
  · have hall : ∀ b ∈ [byte 'e', byte 'E'] ++ delimiters, Numeral.isDigit b = false :=
      List.all_iff_forall_prop.mp (by decide)
    exact hall b (head?_encode_exponent he hr b hb)
  · rw [List.cons_append, encode_cons_of_lt (by decide)] at hb
    obtain rfl := Option.some.inj hb
    decide

namespace Reader

/-! ### Runs of digits -/

theorem exists_of_takeWhile_isDigit (s : Bytes) :
    ∃ ds : List Char, (∀ d ∈ ds, IsFigure d) ∧ s = Utf8.encode ds ++ s.dropWhile Numeral.isDigit ∧
      ds.length = (s.takeWhile Numeral.isDigit).length := by
  induction s with
  | nil => exact ⟨[], by simp⟩
  | cons b s ih =>
    by_cases hb : Numeral.isDigit b = true
    · obtain ⟨ds, hds, hs, hlen⟩ := ih
      obtain ⟨c, hc, rfl⟩ := exists_of_isDigit hb
      refine ⟨c :: ds, List.forall_mem_cons.mpr ⟨hc, hds⟩, ?_, ?_⟩
      · rw [encode_cons_of_lt hc.lt, List.dropWhile_cons_of_pos hb, List.cons_append, ← hs]
      · rw [List.takeWhile_cons_of_pos hb, List.length_cons, List.length_cons, hlen]
    · exact ⟨[], by simp [hb]⟩

theorem run_digits {ds : List Char} (hds : ∀ d ∈ ds, IsFigure d) {rest : Bytes}
    (hr : NoDigit rest) : digits.run (Utf8.encode ds ++ rest) = .value ds.length rest := by
  rw [digits, run_passWhile]
  induction ds with
  | nil =>
    cases rest with
    | nil => rfl
    | cons b rest =>
      have hb := hr b (by simp)
      simp [hb]
  | cons d ds ih =>
    obtain ⟨hd, hds⟩ := List.forall_mem_cons.mp hds
    have := ih hds
    rw [Outcome.value.injEq] at this
    rw [encode_cons_of_lt hd.lt, List.cons_append, List.takeWhile_cons_of_pos (isDigit_byte hd),
      List.dropWhile_cons_of_pos (isDigit_byte hd), List.length_cons, List.length_cons, this.1,
      this.2]

theorem run_digitAhead (s : Bytes) :
    digitAhead.run s = .value (s.head?.any Numeral.isDigit) s := rfl

theorem run_digitAhead_of_noDigit {s : Bytes} (h : NoDigit s) :
    digitAhead.run s = .value false s := by
  cases s with
  | nil => rfl
  | cons b s =>
    have hb := h b (by simp)
    simp [digitAhead, run_bind, continueWith, hb]

/-! ### Numbers that are passed over -/

/-- Whatever is taken behind a digit is a run of digits that begins with it. -/
theorem exists_of_run_digits {c : Char} (hc : IsFigure c) {s rest : Bytes} {n : Nat}
    (h : digits.run s = .value n rest) :
    ∃ ds, (∀ d ∈ ds, IsFigure d) ∧ byte c :: s = Utf8.encode (c :: ds) ++ rest := by
  obtain ⟨ds, hds, hs, _⟩ := exists_of_takeWhile_isDigit s
  obtain ⟨_, rfl⟩ := Outcome.value.inj h
  exact ⟨ds, hds, by rw [encode_cons_of_lt hc.lt, List.cons_append, ← hs]⟩

theorem exists_of_run_passExponent {s rest : Bytes} {u : Unit}
    (h : passExponent.run s = .value u rest) :
    ∃ sign ∈ [[], ['+'], ['-']], ∃ ds, IsDigitRun ds ∧ s = Utf8.encode (sign ++ ds) ++ rest := by
  rw [passExponent, run_bind_eq_value_iff] at h
  obtain ⟨sign?, middle, hsign, h⟩ := h
  rw [run_bind_eq_value_iff] at h
  obtain ⟨b?, behind, hb, h⟩ := h
  have hdigits : ∃ ds, IsDigitRun ds ∧ middle = Utf8.encode ds ++ rest := by
    cases b? with
    | none => cases h
    | some b =>
      obtain rfl := run_next?_eq_some_iff.mp hb
      dsimp only at h
      split at h
      · next hdigit =>
        obtain ⟨c, hc, rfl⟩ := exists_of_isDigit hdigit
        obtain ⟨_, hrun, _⟩ := exists_of_run_bind_pure h
        obtain ⟨ds, hds, hs⟩ := exists_of_run_digits hc hrun
        exact ⟨c :: ds, isDigitRun_cons.mpr ⟨hc, hds⟩, hs⟩
      · cases h
  obtain ⟨ds, hds, rfl⟩ := hdigits
  cases sign? with
  | none =>
    obtain ⟨_, rfl⟩ := run_take?_eq_none_iff.mp hsign
    exact ⟨[], by simp, ds, hds, rfl⟩
  | some sign =>
    obtain ⟨hsign', rfl⟩ := run_take?_eq_some_iff.mp hsign
    rw [Bool.or_eq_true, decide_eq_true_eq, decide_eq_true_eq] at hsign'
    rcases hsign' with rfl | rfl
    · exact ⟨['+'], by simp, ds, hds, rfl⟩
    · exact ⟨['-'], by simp, ds, hds, rfl⟩

theorem exists_of_run_passExponent? {s rest : Bytes} {u : Unit}
    (h : passExponent?.run s = .value u rest) :
    ∃ exponent, IsExponent exponent ∧ s = Utf8.encode exponent ++ rest := by
  rw [passExponent?, run_bind_eq_value_iff] at h
  obtain ⟨letter?, middle, hletter, h⟩ := h
  cases letter? with
  | none =>
    obtain ⟨_, rfl⟩ := run_take?_eq_none_iff.mp hletter
    obtain ⟨_, rfl⟩ := Outcome.value.inj h
    exact ⟨[], Or.inl rfl, rfl⟩
  | some letter =>
    obtain ⟨hletter', rfl⟩ := run_take?_eq_some_iff.mp hletter
    obtain ⟨sign, hsign, ds, hds, rfl⟩ := exists_of_run_passExponent h
    rw [Bool.or_eq_true, decide_eq_true_eq, decide_eq_true_eq] at hletter'
    rcases hletter' with rfl | rfl
    · exact ⟨'e' :: sign ++ ds, Or.inr ⟨'e', by simp, sign, hsign, ds, hds, rfl⟩, rfl⟩
    · exact ⟨'E' :: sign ++ ds, Or.inr ⟨'E', by simp, sign, hsign, ds, hds, rfl⟩, rfl⟩

theorem exists_of_run_passFraction? {s rest : Bytes} {u : Unit}
    (h : passFraction?.run s = .value u rest) :
    ∃ fraction exponent, IsFraction fraction ∧ IsExponent exponent ∧
      s = Utf8.encode (fraction ++ exponent) ++ rest := by
  rw [passFraction?, run_bind_eq_value_iff] at h
  obtain ⟨point?, middle, hpoint, h⟩ := h
  cases point? with
  | none =>
    obtain ⟨_, rfl⟩ := run_take?_eq_none_iff.mp hpoint
    obtain ⟨exponent, he, hs⟩ := exists_of_run_passExponent? h
    exact ⟨[], exponent, Or.inl rfl, he, hs⟩
  | some point =>
    obtain ⟨hpoint', rfl⟩ := run_take?_eq_some_iff.mp hpoint
    obtain rfl := of_decide_eq_true hpoint'
    rw [run_bind_eq_value_iff] at h
    obtain ⟨count, behind, hcount, h⟩ := h
    obtain ⟨ds, hds, hs, hlen⟩ := exists_of_takeWhile_isDigit middle
    obtain ⟨rfl, rfl⟩ := Outcome.value.inj hcount
    split at h
    · cases h
    next hne =>
    obtain ⟨exponent, he, hbehind⟩ := exists_of_run_passExponent? h
    have hdigits : IsDigitRun ds := by
      refine ⟨?_, hds⟩
      rintro rfl
      exact hne hlen.symm
    refine ⟨'.' :: ds, exponent, Or.inr ⟨ds, hdigits, rfl⟩, he, ?_⟩
    rw [List.cons_append, encode_cons_of_lt (by decide), Utf8.encode_append, List.cons_append,
      List.append_assoc, ← hbehind, ← hs]

theorem isWhole_zero : IsWhole ['0'] :=
  ⟨isDigitRun_cons.mpr ⟨by decide, by simp⟩, fun _ => rfl⟩

theorem isWhole_cons {c : Char} {ds : List Char} (hc : IsFigure c) (hne : c ≠ '0')
    (hds : ∀ d ∈ ds, IsFigure d) : IsWhole (c :: ds) := by
  refine ⟨isDigitRun_cons.mpr ⟨hc, hds⟩, fun hhead => ?_⟩
  exact (hne (Option.some.inj hhead)).elim

/-- A number that is passed over is spelled as a number. -/
theorem exists_of_run_passNumber {s rest : Bytes} {u : Unit}
    (h : passNumber.run s = .value u rest) :
    ∃ cs, IsMagnitude cs ∧ s = Utf8.encode cs ++ rest := by
  rw [passNumber, run_bind_eq_value_iff] at h
  obtain ⟨b?, middle, hb, h⟩ := h
  cases b? with
  | none => cases h
  | some b =>
    obtain rfl := run_next?_eq_some_iff.mp hb
    dsimp only at h
    split at h
    · next hzero =>
      subst hzero
      rw [run_bind_eq_value_iff] at h
      obtain ⟨ahead, behind, hahead, h⟩ := h
      obtain ⟨_, rfl⟩ := Outcome.value.inj hahead
      split at h
      · cases h
      obtain ⟨fraction, exponent, hf, he, rfl⟩ := exists_of_run_passFraction? h
      exact ⟨_, ⟨['0'], fraction, exponent, isWhole_zero, hf, he, rfl⟩, rfl⟩
    next hzero =>
    split at h
    · next hdigit =>
      obtain ⟨c, hc, rfl⟩ := exists_of_isDigit hdigit
      rw [run_bind_eq_value_iff] at h
      obtain ⟨_, behind, hrun, h⟩ := h
      obtain ⟨ds, hds, hs⟩ := exists_of_run_digits hc hrun
      obtain ⟨fraction, exponent, hf, he, rfl⟩ := exists_of_run_passFraction? h
      have hne : c ≠ '0' := fun heq => hzero (congrArg byte heq)
      refine ⟨_, ⟨c :: ds, fraction, exponent, isWhole_cons hc hne hds, hf, he, rfl⟩, ?_⟩
      simp only [hs, Utf8.encode_append, List.append_assoc]
    · cases h

theorem run_passExponent {sign ds : List Char} (hsign : sign ∈ [[], ['+'], ['-']])
    (hds : IsDigitRun ds) {rest : Bytes} (hr : NoDigit rest) :
    passExponent.run (Utf8.encode (sign ++ ds) ++ rest) = .value () rest := by
  obtain ⟨c, ds, rfl⟩ := List.exists_cons_of_ne_nil hds.1
  obtain ⟨hc, hds⟩ := isDigitRun_cons.mp hds
  have hdigit := isDigit_byte hc
  have hplus : byte c ≠ byte '+' := by
    rintro h
    rw [h] at hdigit
    cases hdigit
  have hminus : byte c ≠ byte '-' := by
    rintro h
    rw [h] at hdigit
    cases hdigit
  have hrun := run_digits hds hr
  have hc' := encode_cons_of_lt hc.lt ds
  simp only [List.mem_cons, List.not_mem_nil, or_false] at hsign
  rcases hsign with rfl | rfl | rfl
  · simp [passExponent, run_bind, continueWith, hc', hplus, hminus, hdigit, hrun]
  · rw [List.singleton_append, encode_cons_of_lt (by decide)]
    simp [passExponent, run_bind, continueWith, hc', hdigit, hrun]
  · rw [List.singleton_append, encode_cons_of_lt (by decide)]
    simp [passExponent, run_bind, continueWith, hc', hdigit, hrun]

theorem run_passExponent? {exponent : List Char} (he : IsExponent exponent) {rest : Bytes}
    (hr : Delimited rest) :
    passExponent?.run (Utf8.encode exponent ++ rest) = .value () rest := by
  rcases he with rfl | ⟨letter, hletter, sign, hsign, ds, hds, rfl⟩
  · have hnone : (take? fun b => b = byte 'e' || b = byte 'E').run rest = .value none rest := by
      have hall : ∀ b ∈ delimiters, (b = byte 'e' || b = byte 'E') = false :=
        List.all_iff_forall_prop.mp (by decide)
      exact run_take?_eq_none_iff.mpr ⟨fun b hb => hall b (hr b hb), rfl⟩
    rw [Utf8.encode_nil, List.nil_append, passExponent?, run_bind_of_value _ hnone]
    rfl
  · have hall : ∀ letter ∈ ['e', 'E'], letter.toNat < 0x80 ∧
        (byte letter = byte 'e' || byte letter = byte 'E') = true :=
      List.all_iff_forall_prop.mp (by decide)
    have hsome : (take? fun b => b = byte 'e' || b = byte 'E').run
        (byte letter :: Utf8.encode (sign ++ ds) ++ rest) =
          .value (some (byte letter)) (Utf8.encode (sign ++ ds) ++ rest) :=
      run_take?_eq_some_iff.mpr ⟨(hall letter hletter).2, rfl⟩
    rw [List.cons_append, encode_cons_of_lt (hall letter hletter).1, passExponent?,
      run_bind_of_value _ hsome]
    exact run_passExponent hsign hds hr.noDigit

theorem run_passFraction? {fraction exponent : List Char} (hf : IsFraction fraction)
    (he : IsExponent exponent) {rest : Bytes} (hr : Delimited rest) :
    passFraction?.run (Utf8.encode (fraction ++ exponent) ++ rest) = .value () rest := by
  have hexponent := run_passExponent? he hr
  rcases hf with rfl | ⟨ds, hds, rfl⟩
  · have hnone : (take? (· = byte '.')).run (Utf8.encode exponent ++ rest) =
        .value none (Utf8.encode exponent ++ rest) := by
      have hall : ∀ b ∈ [byte 'e', byte 'E'] ++ delimiters, decide (b = byte '.') = false :=
        List.all_iff_forall_prop.mp (by decide)
      exact run_take?_eq_none_iff.mpr ⟨fun b hb => hall b (head?_encode_exponent he hr b hb), rfl⟩
    rw [List.nil_append, passFraction?, run_bind_of_value _ hnone]
    exact hexponent
  · have hdigits := run_digits hds.2 (noDigit_encode_fraction (Or.inl rfl) he hr)
    have hlen : ds.length ≠ 0 := fun h => hds.1 (List.length_eq_zero_iff.mp h)
    rw [List.nil_append] at hdigits
    rw [List.cons_append, encode_cons_of_lt (by decide), Utf8.encode_append, List.cons_append,
      List.append_assoc]
    simp [passFraction?, run_bind, continueWith, hdigits, hlen, hexponent]

theorem run_passNumber {cs : List Char} (h : IsMagnitude cs) {rest : Bytes} (hr : Delimited rest) :
    passNumber.run (Utf8.encode cs ++ rest) = .value () rest := by
  obtain ⟨whole, fraction, exponent, ⟨hwhole, hzero⟩, hf, he, rfl⟩ := h
  obtain ⟨c, ds, rfl⟩ := List.exists_cons_of_ne_nil hwhole.1
  obtain ⟨hc, hds⟩ := isDigitRun_cons.mp hwhole
  have hfraction := run_passFraction? hf he hr
  have hnoDigit := noDigit_encode_fraction hf he hr
  have hdigits := run_digits hds hnoDigit
  rw [List.append_assoc, Utf8.encode_append, encode_cons_of_lt hc.lt, List.append_assoc,
    List.cons_append]
  generalize Utf8.encode (fraction ++ exponent) ++ rest = behind at hfraction hnoDigit hdigits
  by_cases hc0 : c = '0'
  · subst hc0
    obtain rfl : ds = [] := (List.cons.inj (hzero rfl)).2
    have hahead := run_digitAhead_of_noDigit hnoDigit
    simp [passNumber, run_bind, continueWith, hahead, hfraction]
  · have hne : byte c ≠ byte '0' := by
      intro heq
      have := congrArg UInt8.toNat heq
      rw [toNat_byte hc.lt, toNat_byte (by decide)] at this
      exact hc0 (Char.toNat_inj.mp this)
    simp [passNumber, run_bind, continueWith, hne, isDigit_byte hc, hdigits, hfraction]

/-! ### Natural numbers -/

theorem le_ofDigitChars (ds : List Char) (n : Nat) : n ≤ Nat.ofDigitChars 10 ds n := by
  rw [Nat.ofDigitChars_eq_ofDigitChars_zero]
  have hpos : 0 < 10 ^ ds.length := Nat.pow_pos (by decide)
  exact Nat.le_trans (Nat.le_mul_of_pos_left n hpos) (Nat.le_add_right _ _)

theorem gather_of_noDigit {limit n : Nat} {rest : Bytes} (hr : NoDigit rest) :
    Numeral.gather limit n rest = ⟨n, 0, rest⟩ := by
  cases rest with
  | nil => rfl
  | cons b rest =>
    have hb := hr b rfl
    rw [Numeral.isDigit, Option.isSome_eq_false_iff, Option.isNone_iff_eq_none] at hb
    simp [Numeral.gather, hb]

theorem gather_encode {limit n : Nat} {ds : List Char} (hds : ∀ d ∈ ds, IsFigure d)
    (hle : Nat.ofDigitChars 10 ds n ≤ limit) {rest : Bytes} (hr : NoDigit rest) :
    Numeral.gather limit n (Utf8.encode ds ++ rest) =
      ⟨Nat.ofDigitChars 10 ds n, ds.length, rest⟩ := by
  induction ds generalizing n with
  | nil => exact gather_of_noDigit hr
  | cons d ds ih =>
    obtain ⟨hd, hds⟩ := List.forall_mem_cons.mp hds
    rw [Nat.ofDigitChars_cons] at hle ⊢
    have hdigit : Numeral.digit? (byte d).toNat = some (d.toNat - '0'.toNat) := digit?_byte hd
    have hstep : Numeral.push? limit n (d.toNat - '0'.toNat) =
        some (10 * n + (d.toNat - '0'.toNat)) :=
      if_pos (Nat.le_trans (le_ofDigitChars ds _) hle)
    rw [encode_cons_of_lt hd.lt, List.cons_append, Numeral.gather, hdigit]
    simp only [hstep]
    rw [ih hds hle]
    rfl

theorem run_gather {limit n : Nat} {ds : List Char} (hds : ∀ d ∈ ds, IsFigure d)
    (hle : Nat.ofDigitChars 10 ds n ≤ limit) {rest : Bytes} (hr : NoDigit rest) :
    (gather limit n).run (Utf8.encode ds ++ rest) =
      .value (Nat.ofDigitChars 10 ds n, ds.length) rest := by
  simp only [gather, gather_encode hds hle hr]

theorem exists_of_gather (limit n : Nat) (s : Bytes) :
    ∃ ds, (∀ d ∈ ds, IsFigure d) ∧ s = Utf8.encode ds ++ (Numeral.gather limit n s).rest ∧
      (Numeral.gather limit n s).number = Nat.ofDigitChars 10 ds n := by
  fun_induction Numeral.gather limit n s with
  | case1 => exact ⟨[], by simp⟩
  | case2 => exact ⟨[], by simp⟩
  | case3 => exact ⟨[], by simp⟩
  | case4 n b s d hd m hm run ih =>
    obtain ⟨ds, hds, hs, hnumber⟩ := ih
    obtain ⟨c, hc, rfl, rfl⟩ := exists_of_digit?_eq_some hd
    have hm' : 10 * n + (c.toNat - '0'.toNat) = m := by
      rw [Numeral.push?] at hm
      split at hm
      · exact Option.some.inj hm
      · cases hm
    refine ⟨c :: ds, List.forall_mem_cons.mpr ⟨hc, hds⟩, ?_, ?_⟩
    · rw [encode_cons_of_lt hc.lt, List.cons_append, ← hs]
    · rw [Nat.ofDigitChars_cons, hm']
      exact hnumber

/-- The number was read with a point or an exponent, or it was too long. -/
def IsReal : Number → Prop
  | .real _ => True
  | _ => False

theorem isReal_of_run_scaled {minus : Bool} {significand : Nat} {exponent : Int} {s rest : Bytes}
    {x : Number} (h : (scaled minus significand exponent).run s = .value x rest) : IsReal x := by
  rw [scaled] at h
  split at h
  · cases h
  · obtain ⟨rfl, _⟩ := Outcome.value.inj h
    trivial

theorem isReal_of_run_exponent {minus : Bool} {significand : Nat} {before : Int} {s rest : Bytes}
    {x : Number} (h : (exponent minus significand before).run s = .value x rest) : IsReal x := by
  rw [exponent, run_bind_eq_value_iff] at h
  obtain ⟨sign?, _, _, h⟩ := h
  dsimp only at h
  rw [run_bind_eq_value_iff] at h
  obtain ⟨b?, _, _, h⟩ := h
  cases b? with
  | none => cases h
  | some b =>
    dsimp only at h
    split at h
    · cases h
    rw [run_bind_eq_value_iff] at h
    obtain ⟨⟨n, count⟩, _, _, h⟩ := h
    dsimp only at h
    rw [run_bind_eq_value_iff] at h
    obtain ⟨ahead, _, _, h⟩ := h
    split at h
    · rw [run_bind_eq_value_iff] at h
      obtain ⟨_, _, _, h⟩ := h
      split at h
      · cases h
      rw [run_bind_eq_value_iff] at h
      obtain ⟨_, _, _, h⟩ := h
      obtain ⟨rfl, _⟩ := Outcome.value.inj h
      trivial
    · exact isReal_of_run_scaled h

theorem isReal_of_run_exponent? {minus : Bool} {significand : Nat} {before : Int}
    {s rest : Bytes} {x : Number}
    (h : (exponent? minus significand before).run s = .value x rest) : IsReal x := by
  rw [exponent?, run_bind_eq_value_iff] at h
  obtain ⟨letter?, _, _, h⟩ := h
  split at h
  · exact isReal_of_run_exponent h
  · exact isReal_of_run_scaled h

theorem isReal_of_run_fraction {minus : Bool} {significand : Nat} {before : Int} {s rest : Bytes}
    {x : Number} (h : (fraction minus significand before).run s = .value x rest) : IsReal x := by
  rw [fraction, run_bind_eq_value_iff] at h
  obtain ⟨⟨n, count⟩, _, _, h⟩ := h
  dsimp only at h
  rw [run_bind_eq_value_iff] at h
  obtain ⟨ahead, _, _, h⟩ := h
  split at h
  · rw [run_bind_eq_value_iff] at h
    obtain ⟨_, _, _, h⟩ := h
    exact isReal_of_run_exponent? h
  split at h
  · rw [run_bind_eq_value_iff] at h
    obtain ⟨b?, _, _, h⟩ := h
    cases b? <;> cases h
  · exact isReal_of_run_exponent? h

theorem cases_of_run_afterInteger {minus : Bool} {significand : Nat} {x : Number}
    {s rest : Bytes} (h : (afterInteger minus significand).run s = .value x rest) :
    IsReal x ∨ x = integer minus significand ∧ rest = s := by
  rw [afterInteger, run_bind_eq_value_iff] at h
  obtain ⟨more, middle, hmore, h⟩ := h
  rw [run_bind_eq_value_iff] at h
  obtain ⟨letter?, behind, hletter, h⟩ := h
  cases letter? with
  | some letter =>
    dsimp only at h
    split at h
    · exact Or.inl (isReal_of_run_fraction h)
    · exact Or.inl (isReal_of_run_exponent h)
  | none =>
    obtain ⟨_, rfl⟩ := run_take?_eq_none_iff.mp hletter
    dsimp only at h
    split at h
    · next hzero =>
      obtain ⟨rfl, rfl⟩ := Outcome.value.inj h
      obtain ⟨hlen, hs⟩ := Outcome.value.inj hmore
      rw [hzero, List.length_eq_zero_iff] at hlen
      have := List.takeWhile_append_dropWhile (p := Numeral.isDigit) (l := s)
      rw [hlen, List.nil_append, hs] at this
      exact Or.inr ⟨rfl, this⟩
    · exact Or.inl (isReal_of_run_scaled h)

theorem eq_of_run_afterInteger {significand n : Nat} {s rest : Bytes}
    (h : (afterInteger false significand).run s = .value (.natural n) rest) :
    n = significand ∧ rest = s := by
  rcases cases_of_run_afterInteger h with hreal | ⟨hn, hs⟩
  · exact hreal.elim
  · exact ⟨Number.natural.inj hn, hs⟩

/-- No number with a minus sign is read as a natural number, not even zero. -/
theorem integer_minus_ne_natural (significand n : Nat) : integer true significand ≠ .natural n := by
  rw [integer, if_pos rfl]
  split
  · exact Number.noConfusion
  · exact Number.noConfusion

theorem run_number_minus_ne_natural {n : Nat} {s rest : Bytes} :
    (number true).run s ≠ .value (.natural n) rest := by
  intro h
  rw [number, run_bind_eq_value_iff] at h
  obtain ⟨b?, _, _, h⟩ := h
  have hafter : ∃ significand middle,
      (afterInteger true significand).run middle = .value (.natural n) rest := by
    cases b? with
    | none => cases h
    | some b =>
      dsimp only at h
      split at h
      · cases h
      · rw [run_bind_eq_value_iff] at h
        obtain ⟨_, middle, _, h⟩ := h
        split at h
        · cases h
        · exact ⟨_, _, h⟩
      · rw [run_bind_eq_value_iff] at h
        obtain ⟨_, middle, _, h⟩ := h
        exact ⟨_, _, h⟩
  obtain ⟨significand, middle, hafter⟩ := hafter
  rcases cases_of_run_afterInteger hafter with hreal | ⟨hn, _⟩
  · exact hreal
  · exact integer_minus_ne_natural _ _ hn.symm

/-- A number that is read as a natural number is spelled by digits. -/
theorem exists_of_run_number_natural {n : Nat} {s rest : Bytes}
    (h : (number false).run s = .value (.natural n) rest) :
    ∃ ds, IsWhole ds ∧ Nat.ofDigitChars 10 ds 0 = n ∧ n < 2 ^ 64 ∧
      s = Utf8.encode ds ++ rest := by
  rw [number, run_bind_eq_value_iff] at h
  obtain ⟨b?, middle, hb, h⟩ := h
  cases b? with
  | none => cases h
  | some b =>
    obtain rfl := run_next?_eq_some_iff.mp hb
    dsimp only at h
    split at h
    · cases h
    · next hzero =>
      obtain ⟨c, hc, rfl, hc0⟩ := exists_of_digit?_eq_some hzero
      rw [run_bind_eq_value_iff] at h
      obtain ⟨ahead, behind, hahead, h⟩ := h
      obtain ⟨_, rfl⟩ := Outcome.value.inj hahead
      split at h
      · cases h
      obtain ⟨rfl, rfl⟩ := eq_of_run_afterInteger h
      have hc0 : c = '0' := by
        have := (isFigure_iff.mp hc).1
        exact Char.toNat_inj.mp (show c.toNat = 48 by omega)
      subst hc0
      exact ⟨['0'], isWhole_zero, rfl, by decide, rfl⟩
    · next d hne hd =>
      obtain ⟨c, hc, rfl, rfl⟩ := exists_of_digit?_eq_some hd
      rw [run_bind_eq_value_iff] at h
      obtain ⟨⟨m, count⟩, behind, hgather, h⟩ := h
      obtain ⟨rfl, rfl⟩ := eq_of_run_afterInteger h
      obtain ⟨hpair, rfl⟩ := Outcome.value.inj hgather
      obtain ⟨ds, hds, hs, hnumber⟩ := exists_of_gather significandLimit (c.toNat - 48) middle
      have hle : (Numeral.gather significandLimit (c.toNat - 48) middle).number ≤
          significandLimit := by
        refine Numeral.gather_number_le ?_ middle
        have := isFigure_iff.mp hc
        rw [significandLimit, UInt64.size]
        omega
      rw [(Prod.mk.inj hpair).1] at hnumber hle
      refine ⟨c :: ds, isWhole_cons hc ?_ hds, ?_, ?_, ?_⟩
      · rintro rfl
        exact hne rfl
      · rw [Nat.ofDigitChars_cons, Nat.mul_zero, Nat.zero_add]
        exact hnumber.symm
      · exact Nat.lt_of_le_of_lt hle (by decide)
      · rw [encode_cons_of_lt hc.lt, List.cons_append, ← hs]

theorem run_afterInteger {minus : Bool} {significand : Nat} {s : Bytes} (hs : Delimited s) :
    (afterInteger minus significand).run s = .value (integer minus significand) s := by
  have hdigits : digits.run (Utf8.encode [] ++ s) = .value 0 s := run_digits (by simp) hs.noDigit
  have hnone : (take? fun b => b = byte '.' || b = byte 'e' || b = byte 'E').run s =
      .value none s := by
    have hall : ∀ b ∈ delimiters, (b = byte '.' || b = byte 'e' || b = byte 'E') = false :=
      List.all_iff_forall_prop.mp (by decide)
    exact run_take?_eq_none_iff.mpr ⟨fun b hb => hall b (hs b hb), rfl⟩
  rw [Utf8.encode_nil, List.nil_append] at hdigits
  rw [afterInteger, run_bind_of_value _ hdigits, run_bind_of_value _ hnone]
  rfl

/-- Digits that fit 64 bits are read as the integer that they denote. -/
theorem run_number_integer (minus : Bool) {ds : List Char} (hds : IsWhole ds)
    (hlt : Nat.ofDigitChars 10 ds 0 < 2 ^ 64) {rest : Bytes} (hr : Delimited rest) :
    (number minus).run (Utf8.encode ds ++ rest) =
      .value (integer minus (Nat.ofDigitChars 10 ds 0)) rest := by
  obtain ⟨hrun, hzero⟩ := hds
  obtain ⟨c, ds, rfl⟩ := List.exists_cons_of_ne_nil hrun.1
  obtain ⟨hc, hds⟩ := isDigitRun_cons.mp hrun
  rw [Nat.ofDigitChars_cons, Nat.mul_zero, Nat.zero_add] at hlt ⊢
  rw [encode_cons_of_lt hc.lt, List.cons_append]
  by_cases hc0 : c = '0'
  · subst hc0
    obtain rfl : ds = [] := (List.cons.inj (hzero rfl)).2
    have hahead := run_digitAhead_of_noDigit hr.noDigit
    have hzero : Numeral.digit? (byte '0').toNat = some 0 := rfl
    simp [number, run_bind, continueWith, hzero, hahead, run_afterInteger hr]
  · have hdigit : Numeral.digit? (byte c).toNat = some (c.toNat - '0'.toNat) := digit?_byte hc
    have hne : c.toNat - '0'.toNat ≠ 0 := by
      intro (h : c.toNat - 48 = 0)
      have := (isFigure_iff.mp hc).1
      exact hc0 (Char.toNat_inj.mp (show c.toNat = 48 by omega))
    obtain ⟨d, hd⟩ := Nat.exists_eq_succ_of_ne_zero hne
    rw [hd] at hlt hdigit ⊢
    have hle : Nat.ofDigitChars 10 ds d.succ ≤ significandLimit := Nat.le_pred_of_lt hlt
    have hgather := run_gather hds hle hr.noDigit
    rw [number, run_bind_of_value _ (run_next?_eq_some_iff.mpr rfl)]
    simp only [hdigit]
    rw [run_bind_of_value _ hgather]
    exact run_afterInteger hr

end Reader

end ListingSnapshot.Json
