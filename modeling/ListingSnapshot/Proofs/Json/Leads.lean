import ListingSnapshot.Json.Container
import ListingSnapshot.Proofs.Json.Numbers
import ListingSnapshot.Proofs.Json.Strings

/-!
# What values begin with

The first byte of a value tells which production of the grammar it is spelled by, and it is the byte
by which a reader decides what to do.

## Main definitions

* `Json.Production`: how a value that begins in a given way is spelled.

## Main results

* `Json.Spells.production`: the first byte tells the production.
* `Json.Reader.run_letters_eq_value_iff`: the rest of a word.
* `Json.Reader.run_colon_eq_value_iff`, `Json.Reader.run_name_eq_value_iff`: what comes before the
  value of a member.
-/

namespace ListingSnapshot.Json

/-! ### Kinds by their first byte -/

namespace Lead

variable {b : UInt8}

theorem eq_quote (h : ofByte b = .string) : b = byte '"' := by
  unfold ofByte at h
  split_ifs at h with h₁
  exact h₁

theorem eq_opening {kind : Container} (h : ofByte b = .container kind) :
    b = byte kind.opening := by
  unfold ofByte at h
  split_ifs at h with _ h₂ h₃ <;> cases h
  · exact h₂
  · exact h₃

theorem eq_minus (h : ofByte b = .minus) : b = byte '-' := by
  unfold ofByte at h
  split_ifs at h with _ _ _ _ h₅
  exact h₅

theorem eq_n (h : ofByte b = .null) : b = byte 'n' := by
  unfold ofByte at h
  split_ifs at h with _ _ _ _ _ h₆
  exact h₆

theorem eq_t_or_f {value : Bool} (h : ofByte b = .bool value) :
    b = byte (if value then 't' else 'f') := by
  unfold ofByte at h
  split_ifs at h with _ _ _ _ _ _ h₇ h₈ <;> cases h
  · exact h₇
  · exact h₈

theorem ofByte_opening (kind : Container) : ofByte (byte kind.opening) = .container kind := by
  cases kind <;> rfl

theorem ofByte_of_isDigit (h : Numeral.isDigit b = true) : ofByte b = .digit := by
  have hne (c : Char) (hc : Numeral.isDigit (byte c) = false) : b ≠ byte c := by
    rintro rfl
    rw [h] at hc
    cases hc
  simp only [ofByte, if_neg (hne '"' rfl), if_neg (hne Container.list.opening rfl),
    if_neg (hne Container.object.opening rfl), h, if_true]

end Lead

/-! ### Productions -/

variable {N : Option String → Bytes → Prop}

/-- The production of the grammar for values that begin in a given way. -/
def Production (N : Option String → Bytes → Prop) (t : Tree) (s rest : Bytes) : Lead → Prop
  | .null => t = .null ∧ s = Utf8.encode ['n', 'u', 'l', 'l'] ++ rest
  | .bool value => t = .bool value ∧ s = Utf8.encode (toString value).toList ++ rest
  | .string => ∃ text? body, t = Tree.ofText? text? ∧ N text? body ∧
      s = byte '"' :: body ++ byte '"' :: rest
  | .minus => ∃ magnitude, t = .number ('-' :: magnitude) ∧ IsMagnitude magnitude ∧
      s = byte '-' :: Utf8.encode magnitude ++ rest
  | .digit => ∃ magnitude, t = .number magnitude ∧ IsMagnitude magnitude ∧
      s = Utf8.encode magnitude ++ rest
  | .container .list => ∃ items m, t = .list items ∧ Items (Spells N) true items m rest ∧
      s = byte '[' :: m
  | .container .object => ∃ members m, t = Tree.ofMembers? members ∧
      Members N (Spells N) true members m rest ∧ s = byte '\x7b' :: m
  | .other => False

/-- The first byte of what is spelled tells the production. -/
theorem Spells.production {t : Tree} {s rest : Bytes} (h : Spells N t s rest) :
    ∃ b m, s = b :: m ∧ Production N t s rest (Lead.ofByte b) := by
  cases h with
  | null => exact ⟨_, _, rfl, rfl, rfl⟩
  | @bool value => cases value <;> exact ⟨_, _, rfl, rfl, rfl⟩
  | @number cs _ h =>
    rcases isNumber_iff.mp h with hm | ⟨magnitude, hm, rfl⟩
    · obtain ⟨c, ds, hc, rfl⟩ := hm.exists_cons
      rw [encode_cons_of_lt hc.lt]
      refine ⟨_, _, rfl, ?_⟩
      rw [Lead.ofByte_of_isDigit (isDigit_byte hc)]
      exact ⟨c :: ds, rfl, hm, by rw [encode_cons_of_lt hc.lt]⟩
    · rw [encode_cons_of_lt (by decide)]
      exact ⟨_, _, rfl, magnitude, rfl, hm, rfl⟩
  | string h => exact ⟨_, _, rfl, _, _, rfl, h, rfl⟩
  | list h => exact ⟨_, _, rfl, _, _, rfl, h, rfl⟩
  | object h => exact ⟨_, _, rfl, _, _, rfl, h, rfl⟩

theorem Spells.exists_lead {t : Tree} {s rest : Bytes} (h : Spells N t s rest) :
    ∃ b m, s = b :: m ∧ Lead.ofByte b ≠ .other := by
  obtain ⟨b, m, hs, hp⟩ := h.production
  refine ⟨b, m, hs, fun hb => ?_⟩
  rw [hb] at hp
  exact hp

/-- What begins with this byte is spelled by the production for it. -/
theorem Spells.production_of_cons {t : Tree} {b : UInt8} {m rest : Bytes}
    (h : Spells N t (b :: m) rest) : Production N t (b :: m) rest (Lead.ofByte b) := by
  obtain ⟨c, m', hs, hp⟩ := h.production
  rwa [← (List.cons.inj hs).1] at hp

theorem Spells.unblank_eq {t : Tree} {s rest : Bytes} (h : Spells N t s rest) :
    unblank s = s := by
  obtain ⟨b, m, rfl, hb⟩ := h.exists_lead
  have hall : ∀ b ∈ blankBytes, Lead.ofByte b = .other :=
    List.all_iff_forall_prop.mp (by decide)
  exact unblank_of_notMem fun hmem => hb (hall b hmem)

/-! ### Words -/

namespace Reader

theorem run_letters_eq_value_iff {cs : List Char} {s rest : Bytes} {u : Unit} :
    (letters cs).run s = .value u rest ↔ s = cs.map byte ++ rest := by
  induction cs generalizing s with
  | nil =>
    rw [letters, run_pure, Outcome.value.injEq]
    exact ⟨And.right, fun h => ⟨rfl, h⟩⟩
  | cons c cs ih =>
    rw [letters, run_bind, run_next?]
    cases s with
    | nil => simp [continueWith]
    | cons b s =>
      simp only [continueWith, List.head?_cons, List.tail_cons, List.map_cons, List.cons_append,
        List.cons.injEq]
      split
      · next hb => rw [ih, and_iff_right hb]
      · next hb => exact iff_of_false (by simp) fun h => hb h.1

theorem run_word_eq_value_iff {others : List Char} {b : UInt8} {s rest : Bytes} {u : Unit} :
    (word others).run (b :: s) = .value u rest ↔ s = others.map byte ++ rest := by
  rw [word, run_bind_of_value _ (run_pass _), List.tail_cons, run_letters_eq_value_iff]

theorem run_null (rest : Bytes) :
    null.run (Utf8.encode ['n', 'u', 'l', 'l'] ++ rest) = .value () rest :=
  run_word_eq_value_iff.mpr rfl

theorem run_bool (value : Bool) (rest : Bytes) :
    (bool value).run (Utf8.encode (toString value).toList ++ rest) = .value () rest := by
  cases value
  · exact run_word_eq_value_iff.mpr rfl
  · exact run_word_eq_value_iff.mpr rfl

theorem eq_of_run_null {b : UInt8} {s rest : Bytes} {u : Unit} (hb : Lead.ofByte b = .null)
    (h : null.run (b :: s) = .value u rest) :
    b :: s = Utf8.encode ['n', 'u', 'l', 'l'] ++ rest := by
  obtain rfl := Lead.eq_n hb
  rw [run_word_eq_value_iff.mp h]
  rfl

theorem eq_of_run_bool {b : UInt8} {value : Bool} {s rest : Bytes} {u : Unit}
    (hb : Lead.ofByte b = .bool value) (h : (bool value).run (b :: s) = .value u rest) :
    b :: s = Utf8.encode (toString value).toList ++ rest := by
  obtain rfl := Lead.eq_t_or_f hb
  rw [run_word_eq_value_iff.mp h]
  cases value <;> rfl

/-! ### Names and colons -/

theorem run_colon_eq_value_iff {s rest : Bytes} {u : Unit} :
    colon.run s = .value u rest ↔ unblank s = byte ':' :: rest := by
  rw [colon, run_bind, run_blanks]
  cases h : unblank s with
  | nil => simp [continueWith]
  | cons b m =>
    simp only [continueWith, List.head?_cons, List.cons.injEq]
    split
    · next hb =>
      rw [run_pass, List.tail_cons, Outcome.value.injEq, and_iff_right hb]
      exact and_iff_right rfl
    · next hb => exact iff_of_false (by simp) fun h => hb h.1

theorem run_name_eq_value_iff {name : String} {s rest : Bytes} :
    Reader.name.run s = .value name rest ↔
      ∃ body, SpellsChars name.toList body ∧ s = byte '"' :: body ++ byte '"' :: rest := by
  rw [Reader.name, run_bind_eq_value_iff]
  constructor
  · rintro ⟨quote?, middle, hquote, h⟩
    cases quote? with
    | none => cases h
    | some quote =>
      obtain ⟨hq, rfl⟩ := run_take?_eq_some_iff.mp hquote
      obtain rfl := of_decide_eq_true hq
      obtain ⟨body, hbody, rfl⟩ := run_text_eq_value_iff.mp h
      exact ⟨body, hbody, rfl⟩
  · rintro ⟨body, hbody, rfl⟩
    exact ⟨some (byte '"'), _, run_take?_eq_some_iff.mpr ⟨rfl, rfl⟩,
      run_text_eq_value_iff.mpr ⟨body, hbody, rfl⟩⟩

end Reader

end ListingSnapshot.Json
