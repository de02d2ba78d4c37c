import ListingSnapshot.Proofs.Text.Blanks
import ListingSnapshot.Proofs.Wire.RoundTrip

/-!
# Blocks are read exactly

A number is read into 64 bits for as long as its digits fit and as a floating-point number from
there on, and so is a number with a point, an exponent or a minus sign. None of these is ever read
as a block: what is read is just what would be written of some block, with blanks around it.

## Main results

* `Json.text_number_iff`: which texts spell a number of digits only.
* `Block.decode_reader_eq_ok_iff`: a block is read from its digits between blanks.
* `Block.decode_reader_cases`: what is read of any text, and what is not read at all.
-/

namespace ListingSnapshot

/-! ### Digits between blanks -/

namespace Json

variable {ds : List Char}

theorem notMem_blankBytes_of_mem_encode (h : ∀ c ∈ ds, IsFigure c) :
    ∀ b ∈ Utf8.encode ds, decide (b ∈ blankBytes) = false := by
  intro b hb
  have hle : 48 ≤ b.toNat :=
    Utf8.le_of_mem_encode (by decide) (fun c hc => (isFigure_iff.mp (h c hc)).1) b hb
  have hblank : ∀ b ∈ blankBytes, b.toNat < 48 := List.all_iff_forall_prop.mp (by decide)
  exact decide_eq_false fun hmem => Nat.not_lt.mpr hle (hblank b hmem)

/-- A text spells a number of digits only if these are what stands between its blanks. -/
theorem text_number_iff {N : Option String → Bytes → Prop} (h : IsWhole ds) {text : Bytes} :
    Text N (.number ds) text ↔
      Text.strip (· ∈ blankBytes) text = Utf8.encode ds := by
  have hblank := notMem_blankBytes_of_mem_encode h.1.2
  obtain ⟨c, cs, rfl⟩ := List.exists_cons_of_ne_nil h.1.1
  have hc : c.toNat < 0x80 := (isDigitRun_cons.mp h.1).1.lt
  rw [Text.strip_eq_iff (fun b hb => hblank b (List.mem_of_mem_head? hb))
    (fun b hb => hblank b (List.mem_of_mem_getLast? hb))]
  constructor
  · rintro ⟨rest, hspells, hrest⟩
    obtain ⟨_, hs⟩ := hspells.spelledAs fun hblot => h.1.1 (Tree.number.inj hblot)
    refine ⟨text.takeWhile (· ∈ blankBytes), rest, ?_, fun b hb => ?_,
      List.dropWhile_eq_nil_iff.mp hrest⟩
    · rw [List.append_assoc, ← hs, unblank, List.takeWhile_append_dropWhile]
    · simpa using List.mem_takeWhile_imp hb
  · rintro ⟨left, right, rfl, hleft, hright⟩
    have hs : unblank (left ++ Utf8.encode (c :: cs) ++ right) =
        Utf8.encode (c :: cs) ++ right := by
      rw [encode_cons_of_lt hc] at hblank ⊢
      rw [unblank, List.append_assoc, List.dropWhile_append_of_pos hleft]
      exact unblank_of_notMem (of_decide_eq_false (hblank _ List.mem_cons_self))
    exact ⟨right, hs ▸ .number h.isNumber, List.dropWhile_eq_nil_iff.mpr hright⟩

end Json

open Json

namespace Block

theorem print_toJson (block : Block) :
    block.toJson.print = Nat.toDigits 10 block.height.toNat := by
  rw [toJson, Tree.ofNat, Tree.print]

/-- A block is read from its digits between blanks, and from nothing else. -/
theorem decode_reader_eq_ok_iff {text : Bytes} {block : Block} :
    decode reader text = .ok block ↔
      Text.strip (· ∈ blankBytes) text = Utf8.encode block.toJson.print := by
  rw [reads_reader.decode_eq_ok_iff]
  constructor
  · rintro ⟨_, ⟨rest, hspells, hrest⟩, ds, rfl, hrun, hvalue, _⟩
    obtain ⟨hnumber, _⟩ := hspells.spelledAs fun hblot => hrun.1 (Tree.number.inj hblot)
    have hwhole : IsWhole ds := isWhole_of_isNumber hnumber hrun
    rw [(text_number_iff hwhole).mp ⟨rest, hspells, hrest⟩, print_toJson, ← hvalue,
      toDigits_ofDigitChars hrun hwhole.2]
  · intro h
    rw [print_toJson] at h
    exact ⟨block.toJson, (text_number_iff (Tree.isWhole_toDigits _)).mpr h, block.isBlock_toJson⟩

/-- **Blocks are read exactly or not at all.** Let blanks be taken from both ends of a text. If it
is read as a block, what is left are digits without a superfluous zero in front; the block is that
of the number that they denote, and they are what is written of it. Any other text is refused: the
digits, if there are just digits without such a zero, denote a number that no block can have. -/
theorem decode_reader_cases (text : Bytes) :
    let inner := Text.strip (· ∈ blankBytes) text
    match decode reader text with
    | .ok block => ∃ ds, IsWhole ds ∧ inner = Utf8.encode ds ∧
        Nat.ofDigitChars 10 ds 0 = block.height.toNat ∧ Utf8.encode block.toJson.print = inner
    | .error _ => ∀ ds, IsWhole ds → inner = Utf8.encode ds →
        2 ^ 64 ≤ Nat.ofDigitChars 10 ds 0 := by
  intro inner
  cases hdecode : decode reader text with
  | ok block =>
    have hinner := decode_reader_eq_ok_iff.mp hdecode
    refine ⟨_, Tree.isWhole_toDigits _, ?_, Nat.ofDigitChars_ten_toDigits, hinner.symm⟩
    rw [← print_toJson]
    exact hinner
  | error e =>
    intro ds hds hinner
    by_contra hle
    -- Digits that fit 64 bits are what is written of the block of their number.
    have hheight : (UInt64.ofNat (Nat.ofDigitChars 10 ds 0)).toNat = Nat.ofDigitChars 10 ds 0 :=
      UInt64.toNat_ofNat_of_lt' (Nat.lt_of_not_le hle)
    have hok : decode reader text = .ok ⟨UInt64.ofNat (Nat.ofDigitChars 10 ds 0)⟩ := by
      refine decode_reader_eq_ok_iff.mpr (hinner.trans ?_)
      rw [print_toJson, hheight, toDigits_ofDigitChars hds.1 hds.2]
    rw [hok] at hdecode
    cases hdecode

/-- The greatest block is read, and neither the number behind it nor a zero with a sign. -/
example :
    let read (text : String) := (decode reader (Utf8.encode text.toList)).toOption
    read " 18446744073709551615\n" = some ⟨18446744073709551615⟩ ∧
      read "18446744073709551616" = none ∧ read "-0" = none := by
  decide +kernel

end Block

end ListingSnapshot
