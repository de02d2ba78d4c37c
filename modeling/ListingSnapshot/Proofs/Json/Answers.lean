import ListingSnapshot.Proofs.Json.Grammar

/-!
# When a reader answers

A reader that is put together from others answers with a value when all of them do. The statements
of this module say so in the form in which they are used: as equivalences that take a run apart, and
as an induction over the turns of a loop.

## Main results

* `Json.Reader.run_bind_eq_value_iff`: one thing after another.
* `Json.Reader.iterate_induct`: the turns of a loop.
* `Json.Reader.run_enclosed_eq_value_iff`: a body and what closes it.
* `Json.Reader.run_blanks`, `Json.Reader.run_lead_eq_value_iff`: what comes behind blanks.
-/

namespace ListingSnapshot.Json.Reader

variable {σ α β : Type}

/-! ### One thing after another -/

theorem run_bind_eq_value_iff {r : Reader α} {f : α → Reader β} {s rest : Bytes} {b : β} :
    (r >>= f).run s = .value b rest ↔
      ∃ a middle, r.run s = .value a middle ∧ (f a).run middle = .value b rest := by
  refine ⟨exists_of_run_bind, ?_⟩
  rintro ⟨a, middle, hr, hf⟩
  rw [run_bind_of_value f hr, hf]

theorem exists_of_run_bind_pure {r : Reader α} {f : α → β} {s rest : Bytes} {b : β}
    (h : (r >>= fun a => pure (f a)).run s = .value b rest) :
    ∃ a, r.run s = .value a rest ∧ b = f a := by
  obtain ⟨a, middle, hr, hpure⟩ := run_bind_eq_value_iff.mp h
  obtain ⟨rfl, rfl⟩ := Outcome.value.inj hpure
  exact ⟨a, hr, rfl⟩

@[simp] theorem run_failBack (cause : Cause) (back : Nat) (s : Bytes) :
    (failBack cause back : Reader α).run s = .fault ⟨cause, some ⟨s.length, back⟩⟩ s := rfl

theorem run_next?_eq_some_iff {b : UInt8} {s rest : Bytes} :
    next?.run s = .value (some b) rest ↔ s = b :: rest := by
  cases s with
  | nil => simp
  | cons c s => simp

theorem run_take?_eq_some_iff {test : UInt8 → Bool} {b : UInt8} {s rest : Bytes} :
    (take? test).run s = .value (some b) rest ↔ test b = true ∧ s = b :: rest := by
  cases s with
  | nil => simp
  | cons c s =>
    rw [run_take?_cons]
    split
    · next hc =>
      rw [Outcome.value.injEq, Option.some.injEq, List.cons.injEq]
      refine ⟨?_, And.right⟩
      rintro ⟨rfl, hrest⟩
      exact ⟨hc, rfl, hrest⟩
    · next hc =>
      refine iff_of_false (by simp) ?_
      rintro ⟨hb, hcons⟩
      exact hc ((List.cons.inj hcons).1 ▸ hb)

theorem run_take?_eq_none_iff {test : UInt8 → Bool} {s rest : Bytes} :
    (take? test).run s = .value none rest ↔ (∀ b ∈ s.head?, test b = false) ∧ rest = s := by
  cases s with
  | nil =>
    rw [run_take?_nil, Outcome.value.injEq]
    exact ⟨fun h => ⟨fun b hb => (nomatch hb), h.2.symm⟩, fun h => ⟨rfl, h.2.symm⟩⟩
  | cons c s =>
    have hhead : (∀ b ∈ (c :: s).head?, test b = false) ↔ test c = false := by simp
    rw [run_take?_cons, hhead]
    split
    · next hc => simp [hc]
    · next hc =>
      rw [Outcome.value.injEq]
      exact ⟨fun h => ⟨Bool.eq_false_iff.mpr hc, h.2.symm⟩, fun h => ⟨rfl, h.2.symm⟩⟩

theorem run_pass (s : Bytes) : pass.run s = .value () s.tail := rfl

/-! ### Loops and brackets -/

theorem run_iterate_of_again {turn : σ → Reader (Turn σ α)}
    {h : ∀ state, (turn state).Takes Turn.GoesOn} {state next : σ} {s middle : Bytes}
    (ht : (turn state).run s = .value (.again next) middle) :
    (iterate turn h state).run s = (iterate turn h next).run middle := by
  rw [run_iterate, ht]

theorem run_iterate_of_done {turn : σ → Reader (Turn σ α)}
    {h : ∀ state, (turn state).Takes Turn.GoesOn} {state : σ} {a : α} {s rest : Bytes}
    (ht : (turn state).run s = .value (.done a) rest) :
    (iterate turn h state).run s = .value a rest := by
  rw [run_iterate, ht]

/-- A loop that answers with a value comes to it from its last turn, back over the turns before. -/
theorem iterate_induct {turn : σ → Reader (Turn σ α)}
    {h : ∀ state, (turn state).Takes Turn.GoesOn} {P : σ → Bytes → α → Bytes → Prop}
    (done : ∀ state s a rest, (turn state).run s = .value (.done a) rest → P state s a rest)
    (again : ∀ state s next middle a rest, (turn state).run s = .value (.again next) middle →
      P next middle a rest → P state s a rest)
    {state : σ} {s : Bytes} {a : α} {rest : Bytes}
    (hrun : (iterate turn h state).run s = .value a rest) : P state s a rest := by
  change iterateFrom turn h state s = .value a rest at hrun
  fun_induction iterateFrom turn h state s with
  | case1 state s next middle ht ih => exact again state s next middle a rest ht (ih hrun)
  | case2 state s b middle ht =>
    obtain ⟨rfl, rfl⟩ := Outcome.value.inj hrun
    exact done state s b middle ht
  | case3 state s fault middle ht => cases hrun

theorem run_enclosed_eq_value_iff {body : Reader α} {finish : Reader Unit} {s rest : Bytes}
    {a : α} : (enclosed body finish).run s = .value a rest ↔
      ∃ middle, body.run s = .value a middle ∧ finish.run middle = .value () rest := by
  simp only [enclosed]
  cases hb : body.run s with
  | value b middle =>
    dsimp only
    cases hf : finish.run middle with
    | value u last => simp [hf]
    | fault fault last =>
      constructor
      · intro h
        cases h
      · rintro ⟨m, hm, hlast⟩
        obtain ⟨rfl, rfl⟩ := Outcome.value.inj hm
        rw [hf] at hlast
        cases hlast
  | fault fault middle => simp

/-! ### Behind blanks -/

theorem isBlank_eq : isBlank = fun b => decide (b ∈ blankBytes) := by
  funext b
  rw [Bool.eq_iff_iff]
  simp only [isBlank, blankBytes, Bool.or_eq_true, decide_eq_true_eq, or_assoc, List.mem_cons,
    List.not_mem_nil, or_false]
  rfl

theorem run_passWhile_isBlank (s : Bytes) :
    (passWhile isBlank).run s = .value (s.takeWhile isBlank).length (unblank s) := by
  rw [run_passWhile, unblank, isBlank_eq]

theorem run_blanks (s : Bytes) : blanks.run s = .value (unblank s).head? (unblank s) := by
  rw [blanks, run_bind_of_value _ (run_passWhile_isBlank s), run_peek?]

theorem run_blanks_of_unblank {s m : Bytes} {b : UInt8} (h : unblank s = b :: m) :
    blanks.run s = .value (some b) (b :: m) := by
  rw [run_blanks, h, List.head?_cons]

theorem run_lead_of_unblank {s m : Bytes} {b : UInt8} (h : unblank s = b :: m) :
    lead.run s = .value (Lead.ofByte b) (b :: m) := by
  rw [lead, run_bind_of_value _ (run_blanks_of_unblank h)]
  rfl

theorem run_lead_eq_value_iff {s rest : Bytes} {kind : Lead} :
    lead.run s = .value kind rest ↔
      ∃ b m, unblank s = b :: m ∧ Lead.ofByte b = kind ∧ rest = b :: m := by
  cases h : unblank s with
  | nil => simp [lead, run_bind, run_blanks, h, continueWith]
  | cons b m =>
    rw [run_lead_of_unblank h, Outcome.value.injEq]
    constructor
    · rintro ⟨rfl, rfl⟩
      exact ⟨b, m, rfl, rfl, rfl⟩
    · rintro ⟨c, m', hm, rfl, rfl⟩
      obtain ⟨rfl, rfl⟩ := List.cons.inj hm
      exact ⟨rfl, rfl⟩

end ListingSnapshot.Json.Reader
