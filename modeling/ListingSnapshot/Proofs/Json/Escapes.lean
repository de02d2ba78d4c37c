import ListingSnapshot.Json.Text
import ListingSnapshot.Proofs.Json.Answers
import ListingSnapshot.Proofs.Text.Encoding
import Mathlib.Tactic.IntervalCases

/-!
# Reading escapes

An escape that is read stands for a character: by a letter, by the code unit of the character, or by
the two surrogates of a character that has no code unit. Since no character is a surrogate, the
three cannot be mistaken for each other.

## Main results

* `Json.spellsUnit_iff`: four hexadecimal digits.
* `Json.plainEscape?_eq_some_iff`: escapes by a letter.
* `Json.Reader.run_escape_eq_value_iff`: the escapes that are read.
-/

namespace ListingSnapshot.Json

/-! ### Escapes -/

theorem SpellsFigure.lt {figure : Nat} {b : UInt8} (h : SpellsFigure figure b) : figure < 16 :=
  h.1

theorem hexDigit?_eq_some_iff {b : UInt8} {figure : Nat} :
    hexDigit? b = some figure ↔ SpellsFigure figure b := by
  constructor
  · intro h
    have hb : b = UInt8.ofNat b.toNat := (UInt8.ofNat_toNat).symm
    have hcode : (figure < 10 ∧ b.toNat = 48 + figure) ∨
        (10 ≤ figure ∧ figure < 16 ∧ (b.toNat = 55 + figure ∨ b.toNat = 87 + figure)) := by
      simp only [hexDigit?] at h
      split at h
      · have := Option.some.inj h
        omega
      split at h
      · have := Option.some.inj h
        omega
      split at h
      · have := Option.some.inj h
        omega
      · cases h
    have hlt : figure < 16 := by omega
    refine ⟨hlt, ?_⟩
    rcases hcode with ⟨hf, hcode⟩ | ⟨hf, _, hcode | hcode⟩
    all_goals
      rw [hb, hcode]
      clear hb hcode h
      interval_cases figure <;> decide
  · rintro ⟨hlt, hb⟩
    interval_cases figure <;> rcases hb with rfl | rfl <;> decide

theorem foldlM_hexDigit?_eq_some_iff {ds : Bytes} {k n : Nat} :
    ds.foldlM (fun n d => (hexDigit? d).map (16 * n + ·)) k = some n ↔
      ∃ figures, List.Forall₂ SpellsFigure figures ds ∧
        figures.foldl (fun n figure => 16 * n + figure) k = n := by
  induction ds generalizing k with
  | nil => simp
  | cons d ds ih =>
    rw [List.foldlM_cons, Option.bind_eq_bind, Option.bind_eq_some_iff]
    constructor
    · rintro ⟨m, hm, h⟩
      obtain ⟨figure, hd, rfl⟩ := Option.map_eq_some_iff.mp hm
      obtain ⟨figures, hfs, hn⟩ := ih.mp h
      exact ⟨figure :: figures, .cons (hexDigit?_eq_some_iff.mp hd) hfs, hn⟩
    · rintro ⟨figures, hfs, hn⟩
      cases hfs with
      | @cons figure _ figures _ hd hfs =>
        exact ⟨16 * k + figure, by rw [hexDigit?_eq_some_iff.mpr hd]; rfl,
          ih.mpr ⟨figures, hfs, hn⟩⟩

theorem SpellsUnit.length {unit : Nat} {ds : Bytes} (h : SpellsUnit unit ds) : ds.length = 4 := by
  obtain ⟨figures, hfs, hlen, _⟩ := h
  rw [← hfs.length_eq, hlen]

theorem SpellsUnit.lt {unit : Nat} {ds : Bytes} (h : SpellsUnit unit ds) : unit < 0x10000 := by
  obtain ⟨figures, hfs, hlen, rfl⟩ := h
  obtain ⟨a, b, c, d, rfl⟩ := List.length_eq_four.mp hlen
  simp only [List.forall₂_cons_left_iff, List.forall₂_nil_left_iff] at hfs
  obtain ⟨_, _, ha, ⟨_, _, hb, ⟨_, _, hc, ⟨_, _, hd, _⟩, _⟩, _⟩, _⟩ := hfs
  have := ha.lt
  have := hb.lt
  have := hc.lt
  have := hd.lt
  simp only [List.foldl]
  omega

theorem spellsUnit_iff {unit : Nat} {ds : Bytes} :
    SpellsUnit unit ds ↔ ds.length = 4 ∧ hexValue? ds = some unit := by
  rw [hexValue?, foldlM_hexDigit?_eq_some_iff]
  constructor
  · rintro h
    obtain ⟨figures, hfs, _, hn⟩ := id h
    exact ⟨h.length, figures, hfs, hn⟩
  · rintro ⟨hlen, figures, hfs, hn⟩
    exact ⟨figures, hfs, hfs.length_eq.trans hlen, hn⟩

theorem plainEscape?_eq_some_iff {b meaning : UInt8} :
    plainEscape? b = some meaning ↔
      ∃ letter c, (letter, c) ∈ escapeLetters ∧ b = byte letter ∧ meaning = byte c := by
  constructor
  · intro h
    obtain ⟨⟨letter, m⟩, hmem, h⟩ := List.exists_of_findSome?_eq_some h
    dsimp only at h
    split at h
    · next hb =>
      obtain rfl := Option.some.inj h
      simp only [List.mem_cons, Prod.mk.injEq, List.not_mem_nil, or_false] at hmem
      rcases hmem with ⟨rfl, rfl⟩ | ⟨rfl, rfl⟩ | ⟨rfl, rfl⟩ | ⟨rfl, rfl⟩ | ⟨rfl, rfl⟩ |
        ⟨rfl, rfl⟩ | ⟨rfl, rfl⟩ | ⟨rfl, rfl⟩
      all_goals exact ⟨_, _, by simp [escapeLetters]; rfl, hb, rfl⟩
    · cases h
  · rintro ⟨letter, c, hmem, rfl, rfl⟩
    simp only [escapeLetters, List.mem_cons, Prod.mk.injEq, List.not_mem_nil, or_false] at hmem
    rcases hmem with ⟨rfl, rfl⟩ | ⟨rfl, rfl⟩ | ⟨rfl, rfl⟩ | ⟨rfl, rfl⟩ | ⟨rfl, rfl⟩ |
      ⟨rfl, rfl⟩ | ⟨rfl, rfl⟩ | ⟨rfl, rfl⟩ <;> rfl

theorem toNat_lt_of_mem_escapeLetters {letter c : Char} (h : (letter, c) ∈ escapeLetters) :
    c.toNat < 0x80 := by
  have : ∀ pair ∈ escapeLetters, pair.2.toNat < 0x80 :=
    List.all_iff_forall_prop.mp (by decide)
  exact this _ h

/-! ### Code units -/

theorem toNat_ofNat_of_isValidChar {n : Nat} (h : n.isValidChar) : (Char.ofNat n).toNat = n := by
  rw [Char.ofNat, dif_pos h]
  rfl

theorem not_surrogate (c : Char) : ¬ (0xD800 ≤ c.toNat ∧ c.toNat ≤ 0xDFFF) := by
  have h : c.toNat.isValidChar := c.valid
  simp only [Nat.isValidChar] at h
  omega

theorem isLeading_iff {unit : Nat} : isLeading unit ↔ 0xD800 ≤ unit ∧ unit ≤ 0xDBFF := by
  simp [isLeading]

theorem isTrailing_iff {unit : Nat} : isTrailing unit ↔ 0xDC00 ≤ unit ∧ unit ≤ 0xDFFF := by
  simp [isTrailing]

theorem isValidChar_pairValue {leading trailing : Nat} (hl : isLeading leading)
    (ht : isTrailing trailing) : (pairValue leading trailing).isValidChar := by
  rw [isLeading_iff] at hl
  rw [isTrailing_iff] at ht
  refine Or.inr ?_
  unfold pairValue
  omega

theorem spellsEscape_u_iff {c : Char} {e : Bytes} :
    SpellsEscape c (byte 'u' :: e) ↔ SpellsUnit c.toNat e ∨
      ∃ leading trailing ds es, (isLeading leading ∧ isTrailing trailing) ∧
        c.toNat = pairValue leading trailing ∧ (SpellsUnit leading ds ∧ SpellsUnit trailing es) ∧
        e = ds ++ byte '\\' :: byte 'u' :: es := by
  simp only [isLeading_iff, isTrailing_iff]
  constructor
  · intro h
    generalize he : byte 'u' :: e = ue at h
    cases h with
    | @letter letter _ hmem =>
      have hne : ∀ pair ∈ escapeLetters, byte 'u' ≠ byte pair.1 :=
        List.all_iff_forall_prop.mp (by decide)
      exact (hne _ hmem (List.cons.inj he).1).elim
    | unit h => exact Or.inl ((List.cons.inj he).2 ▸ h)
    | pair hl ht hc hds hes =>
      exact Or.inr ⟨_, _, _, _, ⟨hl, ht⟩, hc, ⟨hds, hes⟩, (List.cons.inj he).2⟩
  · rintro (h | ⟨leading, trailing, ds, es, ⟨hl, ht⟩, hc, ⟨hds, hes⟩, rfl⟩)
    · exact .unit h
    · exact .pair hl ht hc hds hes

/-! ### Reading -/

namespace Reader

theorem run_exactly?_eq_value_iff {n : Nat} {ds s rest : Bytes} :
    (exactly? n).run s = .value (some ds) rest ↔ ds.length = n ∧ s = ds ++ rest := by
  simp only [exactly?]
  constructor
  · intro h
    split at h
    · next hn =>
      obtain ⟨hds, rfl⟩ := Outcome.value.inj h
      obtain rfl := Option.some.inj hds
      exact ⟨List.length_take_of_le hn, (List.take_append_drop n s).symm⟩
    · cases h
  · rintro ⟨rfl, rfl⟩
    simp

theorem run_codeUnit_eq_value_iff {unit : Nat} {s rest : Bytes} :
    codeUnit.run s = .value unit rest ↔ ∃ ds, SpellsUnit unit ds ∧ s = ds ++ rest := by
  rw [codeUnit, run_bind_eq_value_iff]
  constructor
  · rintro ⟨ds?, middle, hds, h⟩
    cases ds? with
    | none => cases h
    | some ds =>
      obtain ⟨hlen, hs⟩ := run_exactly?_eq_value_iff.mp hds
      dsimp only at h
      cases hv : hexValue? ds with
      | none => rw [hv] at h; cases h
      | some n =>
        rw [hv] at h
        obtain ⟨rfl, rfl⟩ := Outcome.value.inj h
        exact ⟨ds, spellsUnit_iff.mpr ⟨hlen, hv⟩, hs⟩
  · rintro ⟨ds, hds, rfl⟩
    obtain ⟨hlen, hv⟩ := spellsUnit_iff.mp hds
    exact ⟨some ds, rest, run_exactly?_eq_value_iff.mpr ⟨hlen, rfl⟩, by simp [hv]⟩

theorem run_expectInPair_eq_value_iff {c : Char} {s rest : Bytes} {u : Unit} :
    (expectInPair c).run s = .value u rest ↔ s = byte c :: rest := by
  rw [expectInPair, run_bind, run_next?]
  cases s with
  | nil => simp [continueWith]
  | cons b s =>
    simp only [continueWith, List.head?_cons, List.tail_cons]
    split
    · next h => simp [h]
    · next h => simp [h]

/-- No character is a surrogate, so it is escaped by its own code unit or by a pair. -/
theorem run_unicodeEscape_eq_value_iff {bs s rest : Bytes} :
    unicodeEscape.run s = .value bs rest ↔
      ∃ c e, SpellsEscape c (byte 'u' :: e) ∧ s = e ++ rest ∧ bs = String.utf8EncodeChar c := by
  rw [unicodeEscape, run_bind_eq_value_iff]
  constructor
  · rintro ⟨unit, middle, hunit, h⟩
    obtain ⟨ds, hds, rfl⟩ := run_codeUnit_eq_value_iff.mp hunit
    have hlt := hds.lt
    split at h
    · cases h
    next htrailing =>
    split at h
    · next hleading =>
      simp only [run_bind_eq_value_iff, run_expectInPair_eq_value_iff,
        run_codeUnit_eq_value_iff] at h
      obtain ⟨-, _, rfl, -, _, rfl, second, _, ⟨es, hes, rfl⟩, h⟩ := h
      split at h
      · next htrailing' =>
        rw [run_pure, Outcome.value.injEq] at h
        obtain ⟨rfl, rfl⟩ := h
        have hpair : (Char.ofNat (pairValue unit second)).toNat = pairValue unit second :=
          toNat_ofNat_of_isValidChar (isValidChar_pairValue hleading htrailing')
        have he := spellsEscape_u_iff.mpr (Or.inr ⟨unit, second, ds, es, ⟨hleading, htrailing'⟩,
          hpair, ⟨hds, hes⟩, rfl⟩)
        exact ⟨_, _, he, by rw [List.append_assoc]; rfl, rfl⟩
      · cases h
    · next hleading =>
      obtain ⟨rfl, rfl⟩ := Outcome.value.inj h
      have hunit : (Char.ofNat unit).toNat = unit := by
        refine toNat_ofNat_of_isValidChar ?_
        rw [isLeading_iff] at hleading
        rw [isTrailing_iff] at htrailing
        simp only [Nat.isValidChar]
        omega
      exact ⟨_, ds, spellsEscape_u_iff.mpr (Or.inl (hunit.symm ▸ hds)), rfl, rfl⟩
  · rintro ⟨c, e, he, rfl, rfl⟩
    rcases spellsEscape_u_iff.mp he with
      h | ⟨leading, trailing, ds, es, ⟨hl, ht⟩, hc, ⟨hds, hes⟩, rfl⟩
    · refine ⟨_, _, run_codeUnit_eq_value_iff.mpr ⟨e, h, rfl⟩, ?_⟩
      have := not_surrogate c
      have hnt : ¬ isTrailing c.toNat = true := by
        rw [isTrailing_iff]
        omega
      have hnl : ¬ isLeading c.toNat = true := by
        rw [isLeading_iff]
        omega
      rw [if_neg hnt, if_neg hnl, Char.ofNat_toNat]
      rfl
    · have hnt : ¬ isTrailing leading = true := by
        rw [isTrailing_iff]
        rw [isLeading_iff] at hl
        omega
      refine ⟨_, _, run_codeUnit_eq_value_iff.mpr ⟨ds, hds, List.append_assoc _ _ _⟩, ?_⟩
      rw [if_neg hnt, if_pos hl]
      simp only [run_bind_eq_value_iff, run_expectInPair_eq_value_iff, run_codeUnit_eq_value_iff]
      refine ⟨(), _, rfl, (), _, rfl, trailing, rest, ⟨es, hes, rfl⟩, ?_⟩
      rw [if_pos ht, ← hc, Char.ofNat_toNat]
      rfl

theorem run_escape_u (s : Bytes) : escape.run (byte 'u' :: s) = unicodeEscape.run s := by
  have hu : plainEscape? (byte 'u') = none := by decide
  simp [escape, run_bind, continueWith, hu]

/-- What an escape stands for is always the encoding of a character. -/
theorem run_escape_eq_value_iff {bs s rest : Bytes} :
    escape.run s = .value bs rest ↔
      ∃ c e, SpellsEscape c e ∧ s = e ++ rest ∧ bs = String.utf8EncodeChar c := by
  constructor
  · intro h
    rw [escape, run_bind, run_next?] at h
    cases s with
    | nil => cases h
    | cons b s =>
      simp only [continueWith, List.head?_cons, List.tail_cons] at h
      cases hb : plainEscape? b with
      | some meaning =>
        rw [hb] at h
        obtain ⟨rfl, rfl⟩ := Outcome.value.inj h
        obtain ⟨letter, c, hmem, rfl, rfl⟩ := plainEscape?_eq_some_iff.mp hb
        exact ⟨c, _, .letter hmem, rfl,
          (Utf8.utf8EncodeChar_of_lt (toNat_lt_of_mem_escapeLetters hmem)).symm⟩
      | none =>
        rw [hb] at h
        dsimp only at h
        split at h
        · next hu =>
          obtain ⟨c, e, he, rfl, rfl⟩ := run_unicodeEscape_eq_value_iff.mp h
          exact ⟨c, byte 'u' :: e, he, by rw [hu]; rfl, rfl⟩
        · cases h
  · rintro ⟨c, e, he, rfl, rfl⟩
    have hunicode (e : Bytes) (he : SpellsEscape c (byte 'u' :: e)) :
        escape.run (byte 'u' :: e ++ rest) = .value (String.utf8EncodeChar c) rest := by
      rw [List.cons_append, run_escape_u]
      exact run_unicodeEscape_eq_value_iff.mpr ⟨c, e, he, rfl, rfl⟩
    cases id he with
    | @letter letter _ hmem =>
      have hletter := plainEscape?_eq_some_iff.mpr ⟨letter, c, hmem, rfl, rfl⟩
      rw [Utf8.utf8EncodeChar_of_lt (toNat_lt_of_mem_escapeLetters hmem)]
      simp only [escape, run_bind, run_next?, continueWith, List.cons_append, List.nil_append,
        List.head?_cons, List.tail_cons, hletter]
      rfl
    | unit h => exact hunicode _ he
    | pair hl ht hc hds hes => exact hunicode _ he

end Reader

end ListingSnapshot.Json
