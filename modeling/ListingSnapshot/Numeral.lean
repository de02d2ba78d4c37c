import ListingSnapshot.Text.Utf8

/-!
# Decimal numerals

Runs of decimal digits, in texts and in byte strings, and the numbers that they denote. Two ways of
reading a run stand side by side: `Numeral.value` gives the number whatever its size, and
`Numeral.bounded?` takes digit after digit for as long as the number stays within a limit.

## Main definitions

* `Numeral.digit?`: the value of the digit with a given code.
* `Numeral.value`: the number that a run of digits denotes.
* `Numeral.push?`: one more digit behind a number, within a limit.
* `Numeral.bounded?`: the number that a run denotes, if it is within a limit.
* `Numeral.gather`: as many digits from the front of a byte string as a limit admits.
-/

namespace ListingSnapshot.Numeral

/-! ### Digits -/

/-- The value of the decimal digit with this code. -/
def digit? (code : Nat) : Option Nat :=
  if 48 ≤ code ∧ code ≤ 57 then some (code - 48) else none

/-- Whether a byte is a decimal digit. -/
def isDigit (b : UInt8) : Bool :=
  (digit? b.toNat).isSome

/-! ### Runs of digits -/

/-- The number that digits denote, the leading one first. -/
def value (digits : List Nat) : Nat :=
  digits.foldl (fun n d => 10 * n + d) 0

/-- The number with one more digit behind it, unless that passes the limit. -/
def push? (limit n d : Nat) : Option Nat :=
  if 10 * n + d ≤ limit then some (10 * n + d) else none

/-- The number that digits denote, found digit by digit; `none` as soon as the digits read so far
pass the limit. -/
def bounded? (limit : Nat) (digits : List Nat) : Option Nat :=
  digits.foldlM (push? limit) 0

theorem le_foldl (digits : List Nat) (n : Nat) :
    n ≤ digits.foldl (fun n d => 10 * n + d) n := by
  induction digits generalizing n with
  | nil => exact Nat.le_refl n
  | cons d ds ih => exact Nat.le_trans (by omega) (ih (10 * n + d))

theorem foldlM_push? (limit : Nat) (digits : List Nat) (n : Nat) (hn : n ≤ limit) :
    digits.foldlM (push? limit) n =
      if digits.foldl (fun n d => 10 * n + d) n ≤ limit
      then some (digits.foldl (fun n d => 10 * n + d) n) else none := by
  induction digits generalizing n with
  | nil => simp [hn]
  | cons d ds ih =>
    have hle := le_foldl ds (10 * n + d)
    by_cases h : 10 * n + d ≤ limit
    · rw [List.foldlM_cons, push?, if_pos h]
      exact ih (10 * n + d) h
    · rw [List.foldlM_cons, push?, if_neg h, List.foldl_cons, if_neg (by omega)]
      rfl

/-- Stopping early changes nothing: more digits never lead back below the limit. -/
theorem bounded?_eq (limit : Nat) (digits : List Nat) :
    bounded? limit digits = if value digits ≤ limit then some (value digits) else none :=
  foldlM_push? limit digits 0 (Nat.zero_le _)

/-! ### Runs in byte strings -/

/-- Digits taken from the front of a byte string: the number they lead to, how many they are, and
what follows them. -/
structure Run where
  number : Nat
  count : Nat
  rest : Bytes

/-- Takes digits from the front of a byte string behind the number `n`, up to the first byte that
is no digit or would lead past the limit. -/
def gather (limit n : Nat) : Bytes → Run
  | [] => ⟨n, 0, []⟩
  | b :: s =>
    match digit? b.toNat with
    | none => ⟨n, 0, b :: s⟩
    | some d =>
      match push? limit n d with
      | none => ⟨n, 0, b :: s⟩
      | some m =>
        let run := gather limit m s
        { run with count := run.count + 1 }

theorem gather_rest_suffix (limit n : Nat) (s : Bytes) : (gather limit n s).rest <:+ s := by
  fun_induction gather limit n s with
  | case1 => exact List.suffix_refl _
  | case2 => exact List.suffix_refl _
  | case3 => exact List.suffix_refl _
  | case4 _ b s d _ m _ run ih => exact ih.trans (List.suffix_cons b s)

theorem gather_number_le {limit n : Nat} (hn : n ≤ limit) (s : Bytes) :
    (gather limit n s).number ≤ limit := by
  fun_induction gather limit n s with
  | case1 => exact hn
  | case2 => exact hn
  | case3 => exact hn
  | case4 n b s d _ m hm run ih =>
    refine ih ?_
    unfold push? at hm
    split at hm
    · next h => exact Option.some.inj hm ▸ h
    · simp at hm

end ListingSnapshot.Numeral
