import ListingSnapshot.Json.Fault
import ListingSnapshot.Numeral

/-!
# Readers

A reader takes something from the front of a byte string and leaves the rest, or stops with a
fault. It never leaves anything but an end of what it was given, and that is part of its type: so a
place in the text is known by the number of bytes that are left, and a loop whose every turn takes
a byte comes to its end.

## Main definitions

* `Json.Fault`: a cause and, once it is settled, its place.
* `Json.Outcome`: what a reader answers.
* `Json.Reader`: a reader, with the monad of reading one thing after another.
* `Json.Reader.failHere`, `Json.Reader.failNext`, `Json.Reader.failUnplaced`: the ways to stop.
* `Json.Reader.iterate`: turn after turn until one says that it was the last.
* `Json.Reader.enclosed`: a body and what closes it.

## Main results

* `Json.Reader.run_iterate`: a loop is a turn and what comes after it.
-/

namespace ListingSnapshot.Json

/-! ### Outcomes -/

/-- Why a reader stopped. The place is missing as long as an enclosing reader is to supply it. -/
structure Fault where
  cause : Cause
  place? : Option Place
deriving DecidableEq

/-- The fault with the place filled in, unless it has one. -/
def Fault.placed (fault : Fault) (rest : Bytes) : Fault :=
  match fault.place? with
  | some _ => fault
  | none => { fault with place? := some ⟨rest.length, 0⟩ }

/-- A value or a fault, and in both cases the bytes that are left. -/
inductive Outcome (α : Type)
  | value (a : α) (rest : Bytes)
  | fault (f : Fault) (rest : Bytes)

/-- The bytes that are left. -/
def Outcome.rest {α : Type} : Outcome α → Bytes
  | value _ rest => rest
  | fault _ rest => rest

@[simp] theorem Outcome.rest_value {α : Type} (a : α) (rest : Bytes) :
    (Outcome.value a rest).rest = rest := rfl

@[simp] theorem Outcome.rest_fault {α : Type} (f : Fault) (rest : Bytes) :
    (Outcome.fault f rest : Outcome α).rest = rest := rfl

/-- A function from byte strings to outcomes that only ever takes from the front. -/
structure Reader (α : Type) where
  run : Bytes → Outcome α
  suffix : ∀ s, (run s).rest <:+ s

namespace Reader

variable {σ α β : Type}

/-! ### One thing after another -/

/-- What comes of an outcome when another reader goes on from it. -/
def continueWith (f : α → Reader β) : Outcome α → Outcome β
  | .value a rest => (f a).run rest
  | .fault fault rest => .fault fault rest

theorem continueWith_suffix (f : α → Reader β) (o : Outcome α) :
    (continueWith f o).rest <:+ o.rest := by
  cases o with
  | value a rest => exact (f a).suffix rest
  | fault fault rest => exact List.suffix_refl _

instance : Monad Reader where
  pure a := ⟨fun s => .value a s, fun s => List.suffix_refl s⟩
  bind r f :=
    ⟨fun s => continueWith f (r.run s), fun s => (continueWith_suffix f _).trans (r.suffix s)⟩

@[simp] theorem run_pure (a : α) (s : Bytes) : (pure a : Reader α).run s = .value a s := rfl

theorem run_bind (r : Reader α) (f : α → Reader β) (s : Bytes) :
    (r >>= f).run s = continueWith f (r.run s) := rfl

theorem run_bind_of_value {r : Reader α} {s rest : Bytes} {a : α} (f : α → Reader β)
    (h : r.run s = .value a rest) : (r >>= f).run s = (f a).run rest := by
  rw [run_bind, h]
  rfl

theorem run_bind_of_fault {r : Reader α} {s rest : Bytes} {fault : Fault} (f : α → Reader β)
    (h : r.run s = .fault fault rest) : (r >>= f).run s = .fault fault rest := by
  rw [run_bind, h]
  rfl

/-- If reading one thing and then another gives a value, both did. -/
theorem exists_of_run_bind {r : Reader α} {f : α → Reader β} {s rest : Bytes} {b : β}
    (h : (r >>= f).run s = .value b rest) :
    ∃ a middle, r.run s = .value a middle ∧ (f a).run middle = .value b rest := by
  rw [run_bind] at h
  cases hr : r.run s with
  | value a middle => exact ⟨a, middle, rfl, by rw [hr] at h; exact h⟩
  | fault fault middle => rw [hr] at h; simp [continueWith] at h

/-! ### Stopping -/

/-- Stops where the reader stands. -/
def failHere (cause : Cause) : Reader α :=
  ⟨fun s => .fault ⟨cause, some ⟨s.length, 0⟩⟩ s, fun s => List.suffix_refl s⟩

/-- Stops because of the next byte: the place is behind it, the byte itself is left. At the end of
the text the place is the end. -/
def failNext (cause : Cause) : Reader α :=
  ⟨fun s => .fault ⟨cause, some ⟨s.length - 1, 0⟩⟩ s, fun s => List.suffix_refl s⟩

/-- Stops because of something that began `back` columns before. -/
def failBack (cause : Cause) (back : Nat) : Reader α :=
  ⟨fun s => .fault ⟨cause, some ⟨s.length, back⟩⟩ s, fun s => List.suffix_refl s⟩

/-- Stops without a place. -/
def failUnplaced (cause : Cause) : Reader α :=
  ⟨fun s => .fault ⟨cause, none⟩ s, fun s => List.suffix_refl s⟩

/-! ### Bytes -/

/-- The next byte, which stays. -/
def peek? : Reader (Option UInt8) :=
  ⟨fun s => .value s.head? s, fun s => List.suffix_refl s⟩

/-- The next byte, which is taken. -/
def next? : Reader (Option UInt8) :=
  ⟨fun s => .value s.head? s.tail, fun s => List.tail_suffix s⟩

/-- Takes the next byte if it passes the test. -/
def take? (test : UInt8 → Bool) : Reader (Option UInt8) :=
  ⟨fun s => match s with
    | [] => .value none []
    | b :: rest => if test b then .value (some b) rest else .value none (b :: rest),
  fun s => by
    cases s with
    | nil => exact List.suffix_refl _
    | cons b rest =>
      dsimp only
      split
      · exact List.suffix_cons b rest
      · exact List.suffix_refl _⟩

/-- Passes over the bytes in front that pass the test, and counts them. -/
def passWhile (test : UInt8 → Bool) : Reader Nat :=
  ⟨fun s => .value (s.takeWhile test).length (s.dropWhile test),
    fun _ => List.dropWhile_suffix test⟩

/-- Takes exactly `n` bytes; with fewer left, takes them all and answers `none`. -/
def exactly? (n : Nat) : Reader (Option Bytes) :=
  ⟨fun s => if n ≤ s.length then .value (some (s.take n)) (s.drop n) else .value none [],
  fun s => by
    split
    · exact List.drop_suffix n s
    · exact List.nil_suffix⟩

/-- Takes digits behind the number `n`, up to a limit: the number they lead to and their count. -/
def gather (limit n : Nat) : Reader (Nat × Nat) :=
  ⟨fun s =>
    let run := Numeral.gather limit n s
    .value (run.number, run.count) run.rest,
  fun s => Numeral.gather_rest_suffix limit n s⟩

/-- What `r` reads, together with the bytes that spell it. -/
def spelled (r : Reader α) : Reader (Bytes × α) :=
  ⟨fun s => match r.run s with
    | .value a rest => .value (s.take (s.length - rest.length), a) rest
    | .fault fault rest => .fault fault rest,
  fun s => by
    have h := r.suffix s
    cases hr : r.run s <;> rw [hr] at h <;> exact h⟩

@[simp] theorem run_failHere (cause : Cause) (s : Bytes) :
    (failHere cause : Reader α).run s = .fault ⟨cause, some ⟨s.length, 0⟩⟩ s := rfl

@[simp] theorem run_failNext (cause : Cause) (s : Bytes) :
    (failNext cause : Reader α).run s = .fault ⟨cause, some ⟨s.length - 1, 0⟩⟩ s := rfl

@[simp] theorem run_failUnplaced (cause : Cause) (s : Bytes) :
    (failUnplaced cause : Reader α).run s = .fault ⟨cause, none⟩ s := rfl

@[simp] theorem run_peek? (s : Bytes) : peek?.run s = .value s.head? s := rfl

@[simp] theorem run_next? (s : Bytes) : next?.run s = .value s.head? s.tail := rfl

@[simp] theorem run_take?_nil (test : UInt8 → Bool) : (take? test).run [] = .value none [] := rfl

@[simp] theorem run_take?_cons (test : UInt8 → Bool) (b : UInt8) (s : Bytes) :
    (take? test).run (b :: s) = if test b then .value (some b) s else .value none (b :: s) := rfl

@[simp] theorem run_passWhile (test : UInt8 → Bool) (s : Bytes) :
    (passWhile test).run s = .value (s.takeWhile test).length (s.dropWhile test) := rfl

/-! ### Taking at least one byte -/

/-- `r` takes at least one byte whenever it answers with a value that has the property `p`. -/
def Takes (p : α → Prop) (r : Reader α) : Prop :=
  ∀ s a rest, r.run s = .value a rest → p a → rest.length < s.length

theorem length_le_of_run {r : Reader α} {s rest : Bytes} {a : α} (h : r.run s = .value a rest) :
    rest.length ≤ s.length := by
  have := (r.suffix s).length_le
  rwa [h] at this

theorem Takes.mono {p q : α → Prop} {r : Reader α} (h : r.Takes p) (hq : ∀ a, q a → p a) :
    r.Takes q :=
  fun s a rest hr ha => h s a rest hr (hq a ha)

/-- It is enough that the first of two readers takes a byte, or else the second. -/
theorem Takes.bind {p : α → Prop} {q : β → Prop} {r : Reader α} {f : α → Reader β}
    (h : r.Takes p) (hf : ∀ a, ¬ p a → (f a).Takes q) : (r >>= f).Takes q := by
  intro s b rest hs hb
  obtain ⟨a, middle, hr, ha⟩ := exists_of_run_bind hs
  by_cases hp : p a
  · exact Nat.lt_of_le_of_lt (length_le_of_run ha) (h s a middle hr hp)
  · exact Nat.lt_of_lt_of_le (hf a hp middle b rest ha hb) (length_le_of_run hr)

theorem Takes.bind_left {q : β → Prop} {r : Reader α} {f : α → Reader β}
    (h : r.Takes fun _ => True) : (r >>= f).Takes q :=
  h.bind fun _ ha => (ha trivial).elim

theorem Takes.bind_right {q : β → Prop} {r : Reader α} {f : α → Reader β}
    (hf : ∀ a, (f a).Takes q) : (r >>= f).Takes q :=
  Takes.bind (p := fun _ => False) (fun _ _ _ _ h => h.elim) fun a _ => hf a

theorem takes_pure {p : α → Prop} {a : α} (h : ¬ p a) : (pure a : Reader α).Takes p := by
  intro s b rest hs hb
  obtain ⟨rfl, _⟩ := Outcome.value.inj hs
  exact (h hb).elim

theorem takes_failHere {p : α → Prop} (cause : Cause) : (failHere cause : Reader α).Takes p :=
  fun _ _ _ h => nomatch h

theorem takes_failNext {p : α → Prop} (cause : Cause) : (failNext cause : Reader α).Takes p :=
  fun _ _ _ h => nomatch h

theorem takes_next? : next?.Takes fun b => b ≠ none := by
  intro s b rest hs hb
  cases s with
  | nil => obtain ⟨rfl, _⟩ := Outcome.value.inj hs; exact (hb rfl).elim
  | cons c s =>
    obtain ⟨_, rfl⟩ := Outcome.value.inj hs
    exact Nat.lt_succ_self _

theorem takes_take? (test : UInt8 → Bool) : (take? test).Takes fun b => b ≠ none := by
  intro s b rest hs hb
  cases s with
  | nil => obtain ⟨rfl, _⟩ := Outcome.value.inj hs; exact (hb rfl).elim
  | cons c s =>
    simp only [take?] at hs
    split at hs
    · obtain ⟨_, rfl⟩ := Outcome.value.inj hs
      exact Nat.lt_succ_self _
    · obtain ⟨rfl, _⟩ := Outcome.value.inj hs
      exact (hb rfl).elim

/-! ### Loops -/

/-- What a turn of a loop leads to: another turn from a new state, or the result. -/
inductive Turn (σ α : Type)
  | again (state : σ)
  | done (a : α)

/-- The turn is not the last. -/
def Turn.GoesOn : Turn σ α → Prop
  | again _ => True
  | done _ => False

/-- The loop behind `iterate`. -/
def iterateFrom (turn : σ → Reader (Turn σ α)) (h : ∀ state, (turn state).Takes Turn.GoesOn)
    (state : σ) (s : Bytes) : Outcome α :=
  match _ht : (turn state).run s with
  | .value (.again next) rest => iterateFrom turn h next rest
  | .value (.done a) rest => .value a rest
  | .fault fault rest => .fault fault rest
termination_by s.length
decreasing_by exact h state _ _ _ _ht trivial

theorem iterateFrom_suffix (turn : σ → Reader (Turn σ α))
    (h : ∀ state, (turn state).Takes Turn.GoesOn) (state : σ) (s : Bytes) :
    (iterateFrom turn h state s).rest <:+ s := by
  fun_induction iterateFrom turn h state s with
  | case1 state s next rest ht ih =>
    have := (turn state).suffix s
    rw [ht] at this
    exact ih.trans this
  | case2 state s a rest ht =>
    have := (turn state).suffix s
    rwa [ht] at this
  | case3 state s fault rest ht =>
    have := (turn state).suffix s
    rwa [ht] at this

/-- Takes turn after turn, each from the state that the one before it led to, until one is the
last. Every turn but the last has to take at least one byte. -/
def iterate (turn : σ → Reader (Turn σ α)) (h : ∀ state, (turn state).Takes Turn.GoesOn)
    (state : σ) : Reader α :=
  ⟨iterateFrom turn h state, iterateFrom_suffix turn h state⟩

theorem run_iterate (turn : σ → Reader (Turn σ α)) (h : ∀ state, (turn state).Takes Turn.GoesOn)
    (state : σ) (s : Bytes) : (iterate turn h state).run s =
      match (turn state).run s with
      | .value (.again next) rest => (iterate turn h next).run rest
      | .value (.done a) rest => .value a rest
      | .fault fault rest => .fault fault rest := by
  show iterateFrom turn h state s = _
  rw [iterateFrom]
  split
  · next ht => rw [ht]; rfl
  · next ht => rw [ht]
  · next ht => rw [ht]

theorem takes_iterate {p : α → Prop} {turn : σ → Reader (Turn σ α)}
    (h : ∀ state, (turn state).Takes Turn.GoesOn) {state : σ}
    (ht : (turn state).Takes fun _ => True) : (iterate turn h state).Takes p := by
  intro s a rest hs _
  rw [run_iterate] at hs
  split at hs
  · next next middle hr =>
    exact Nat.lt_of_le_of_lt (length_le_of_run hs) (ht s _ middle hr trivial)
  · next b middle hr =>
    obtain ⟨_, rfl⟩ := Outcome.value.inj hs
    exact ht s _ middle hr trivial
  · simp at hs

/-! ### Enclosing brackets -/

/-- Reads a body and then what closes it. The closing is read even if the body fails, which can
take the reader further; then the fault of the body, or else that of the closing, gets the place
reached, unless it has one. -/
def enclosed (body : Reader α) (finish : Reader Unit) : Reader α :=
  ⟨fun s => match body.run s with
    | .value a rest => match finish.run rest with
      | .value _ rest => .value a rest
      | .fault fault rest => .fault (fault.placed rest) rest
    | .fault fault rest =>
      let rest := (finish.run rest).rest
      .fault (fault.placed rest) rest,
  fun s => by
    have hb := body.suffix s
    cases hr : body.run s with
    | value a rest =>
      rw [hr] at hb
      have hf := finish.suffix rest
      dsimp only
      cases hc : finish.run rest <;> rw [hc] at hf <;> exact hf.trans hb
    | fault fault rest =>
      rw [hr] at hb
      exact (finish.suffix rest).trans hb⟩

theorem takes_enclosed {p : α → Prop} {body : Reader α} {finish : Reader Unit}
    (h : finish.Takes fun _ => True) : (enclosed body finish).Takes p := by
  intro s a rest hs _
  simp only [enclosed] at hs
  split at hs
  · next b middle hb =>
    split at hs
    · next u last hf =>
      obtain ⟨_, rfl⟩ := Outcome.value.inj hs
      exact Nat.lt_of_lt_of_le (h middle u last hf trivial) (length_le_of_run hb)
    · simp at hs
  · simp at hs

end Reader

end ListingSnapshot.Json
