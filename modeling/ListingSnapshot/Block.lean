/-!
# Blocks of the ledger

A block is known by its height, a 64-bit number. Events happen in blocks and snapshots are taken at
them; the later of two blocks is the higher one.

## Main definitions

* `Block`: a block, given by its height.
* `Block.text`: the height in decimal digits.
-/

namespace ListingSnapshot

/-- A block of the ledger, given by its height. -/
structure Block where
  height : UInt64
deriving DecidableEq

namespace Block

/-! ### Order -/

instance : LE Block := ⟨fun a b => a.height ≤ b.height⟩

instance : DecidableLE Block := fun a b => inferInstanceAs (Decidable (a.height ≤ b.height))

instance : Max Block := maxOfLe

theorem le_iff {a b : Block} : a ≤ b ↔ a.height.toNat ≤ b.height.toNat :=
  UInt64.le_iff_toNat_le

theorem ext_toNat {a b : Block} (h : a.height.toNat = b.height.toNat) : a = b := by
  cases a
  cases b
  exact congrArg Block.mk (UInt64.toNat_inj.1 h)

instance : Std.IsLinearOrder Block where
  le_refl _ := le_iff.2 (Nat.le_refl _)
  le_trans _ _ _ h h' := le_iff.2 (Nat.le_trans (le_iff.1 h) (le_iff.1 h'))
  le_antisymm _ _ h h' := ext_toNat (Nat.le_antisymm (le_iff.1 h) (le_iff.1 h'))
  le_total a b := (Nat.le_total a.height.toNat b.height.toNat).imp le_iff.2 le_iff.2

theorem max_def (a b : Block) : max a b = if a ≤ b then b else a := rfl

instance : Std.LawfulOrderMax Block where
  max_eq_or a b := by
    rw [max_def]
    split <;> simp
  max_le_iff a b c := by
    rw [max_def]
    simp only [le_iff]
    split <;> omega

/-! ### Text -/

/-- The height in decimal digits. -/
def text (b : Block) : String :=
  toString b.height.toNat

/-- The greatest height. -/
def limit : Nat := UInt64.size - 1

/-- The block of a height that fits 64 bits. -/
def ofNat? (n : Nat) : Option Block :=
  if n ≤ limit then some ⟨UInt64.ofNat n⟩ else none

/-- The height of the block is the number itself, which is never reduced to fit. -/
theorem ofNat?_eq_some_iff {n : Nat} {b : Block} : ofNat? n = some b ↔ n = b.height.toNat := by
  unfold ofNat?
  split
  · next h =>
    have hn : (UInt64.ofNat n).toNat = n :=
      UInt64.toNat_ofNat_of_lt' (Nat.lt_of_le_of_lt h (by decide))
    rw [Option.some.injEq]
    exact ⟨fun e => e ▸ hn.symm, fun e => ext_toNat (hn.trans e)⟩
  · next h =>
    refine ⟨fun e => by simp at e, fun e => (h ?_).elim⟩
    exact e ▸ Nat.le_pred_of_lt b.height.toNat_lt

theorem ofNat?_eq_none_iff {n : Nat} : ofNat? n = none ↔ limit < n := by
  rw [ofNat?, ite_eq_right_iff]
  simp

end Block

end ListingSnapshot
