/-!
# Runs of digits

The grammar of identifiers and that of numbers are both about runs of decimal digits, of any length
and perhaps with zeros in front.

## Main definitions

* `IsFigure`: the decimal digits.
* `IsDigitRun`: the runs.

## Main results

* `isDigitRun_toDigits`, `head?_toDigits_ne`: a number is written as a run without a zero in front.
* `toDigits_ofDigitChars`: and a run without a zero in front is what is written for its number.
-/

namespace ListingSnapshot

/-- One of the ten decimal digits. -/
def IsFigure (c : Char) : Prop :=
  '0' ≤ c ∧ c ≤ '9'

instance : DecidablePred IsFigure :=
  fun c => inferInstanceAs (Decidable ('0' ≤ c ∧ c ≤ '9'))

/-- A nonempty run of digits. -/
def IsDigitRun (run : List Char) : Prop :=
  run ≠ [] ∧ ∀ c ∈ run, IsFigure c

theorem isFigure_iff {c : Char} : IsFigure c ↔ 48 ≤ c.toNat ∧ c.toNat ≤ 57 :=
  Iff.rfl

theorem IsFigure.lt {c : Char} (h : IsFigure c) : c.toNat < 0x80 :=
  Nat.lt_of_le_of_lt (isFigure_iff.mp h).2 (by decide)

theorem isDigitRun_cons {c : Char} {run : List Char} :
    IsDigitRun (c :: run) ↔ IsFigure c ∧ ∀ d ∈ run, IsFigure d := by
  simp [IsDigitRun]

theorem IsDigitRun.replicate_append {run : List Char} (h : IsDigitRun run) (zeros : Nat) :
    IsDigitRun (List.replicate zeros '0' ++ run) := by
  refine ⟨List.append_ne_nil_of_right_ne_nil _ h.1, fun c hc => ?_⟩
  rcases List.mem_append.mp hc with hzero | hrun
  · rw [List.eq_of_mem_replicate hzero]
    decide
  · exact h.2 c hrun

/-! ### Runs that are written -/

theorem isDigitRun_toDigits (n : Nat) : IsDigitRun (Nat.toDigits 10 n) := by
  refine ⟨Nat.toDigits_ne_nil, fun c hc => ?_⟩
  have hdigit := Nat.isDigit_of_mem_toDigits (by decide) (by decide) hc
  simp only [Char.isDigit, Bool.and_eq_true, decide_eq_true_eq] at hdigit
  exact hdigit

private theorem digitChar_ne_zero : ∀ n < 10, n ≠ 0 → Nat.digitChar n ≠ '0' := by
  decide

/-- Only zero is written with a zero in front. -/
theorem head?_toDigits_ne {n : Nat} (h : n ≠ 0) : (Nat.toDigits 10 n).head? ≠ some '0' := by
  induction n using Nat.strongRecOn with
  | ind n ih =>
    by_cases hlt : n < 10
    · rw [Nat.toDigits_of_lt_base hlt, List.head?_singleton]
      exact fun hhead => digitChar_ne_zero n hlt h (Option.some.inj hhead)
    · have hfirst := ih (n / 10) (by omega) (by omega)
      obtain ⟨c, cs, hcs⟩ :=
        List.exists_cons_of_ne_nil (Nat.toDigits_ne_nil (n := n / 10) (b := 10))
      rw [Nat.toDigits_of_base_le (by decide) (by omega), hcs]
      rwa [hcs] at hfirst

/-! ### Numbers that are read -/

theorem digitChar_toNat_sub {c : Char} (h : IsFigure c) : Nat.digitChar (c.toNat - 48) = c := by
  obtain ⟨hlow, hhigh⟩ := isFigure_iff.mp h
  apply Char.toNat_inj.mp
  rw [Nat.toNat_digitChar_of_lt_ten (by omega)]
  omega

/-- Digits behind a number other than zero are the last digits of the number that they lead to. -/
theorem toDigits_append {n : Nat} (hn : 0 < n) {run : List Char} (h : ∀ c ∈ run, IsFigure c) :
    Nat.toDigits 10 n ++ run = Nat.toDigits 10 (Nat.ofDigitChars 10 run n) := by
  induction run generalizing n with
  | nil => rw [List.append_nil, Nat.ofDigitChars_nil]
  | cons c run ih =>
    obtain ⟨hc, hrun⟩ := List.forall_mem_cons.mp h
    have hlt : c.toNat - 48 < 10 := by
      have := (isFigure_iff.mp hc).2
      omega
    calc Nat.toDigits 10 n ++ c :: run
        = Nat.toDigits 10 n ++ Nat.toDigits 10 (c.toNat - 48) ++ run := by
          rw [Nat.toDigits_of_lt_base hlt, digitChar_toNat_sub hc, List.append_assoc,
            List.singleton_append]
      _ = Nat.toDigits 10 (10 * n + (c.toNat - 48)) ++ run := by
          rw [Nat.toDigits_append_toDigits (by decide) hn hlt]
      _ = Nat.toDigits 10 (Nat.ofDigitChars 10 run (10 * n + (c.toNat - 48))) :=
          ih (by omega) hrun
      _ = Nat.toDigits 10 (Nat.ofDigitChars 10 (c :: run) n) := by
          rw [Nat.ofDigitChars_cons]
          rfl

/-- A run without a superfluous zero in front is what is written for its number. -/
theorem toDigits_ofDigitChars {run : List Char} (h : IsDigitRun run)
    (hzero : run.head? = some '0' → run = ['0']) :
    Nat.toDigits 10 (Nat.ofDigitChars 10 run 0) = run := by
  obtain ⟨c, run, rfl⟩ := List.exists_cons_of_ne_nil h.1
  obtain ⟨hc, hrun⟩ := isDigitRun_cons.mp h
  by_cases hc0 : c = '0'
  · rw [hzero (congrArg some hc0)]
    rfl
  · have hpos : 0 < c.toNat - 48 := by
      have hne : c.toNat ≠ 48 := fun heq => hc0 (Char.toNat_inj.mp heq)
      have := (isFigure_iff.mp hc).1
      omega
    have hlt : c.toNat - 48 < 10 := by
      have := (isFigure_iff.mp hc).2
      omega
    have hfirst : Nat.ofDigitChars 10 (c :: run) 0 = Nat.ofDigitChars 10 run (c.toNat - 48) := by
      rw [Nat.ofDigitChars_cons, Nat.mul_zero, Nat.zero_add]
      rfl
    rw [hfirst, ← toDigits_append hpos hrun, Nat.toDigits_of_lt_base hlt, digitChar_toNat_sub hc,
      List.singleton_append]

end ListingSnapshot
