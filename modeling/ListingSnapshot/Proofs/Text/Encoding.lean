import ListingSnapshot.Text.Utf8

/-!
# The bytes of an encoding

A byte below `0x80` in the encoding of a text stands for a character of its own, and a byte between
`0x80` and `0xBF` never comes first in the encoding of a character. So a byte string can be searched
for ASCII characters, and cut in front of any byte that is not one of the latter, without looking at
the characters around.

## Main results

* `Utf8.utf8EncodeChar_cases`: the bytes of one character.
* `Utf8.le_of_mem_encode`: a text without characters below an ASCII bound has no bytes below it.
* `Utf8.decode?_append_of_none`: byte strings that are not well formed.
-/

namespace ListingSnapshot.Utf8

/-- An ASCII character is its own byte; of all others the first byte is at least `0xC0` and those
behind it lie between `0x80` and `0xBF`. -/
theorem utf8EncodeChar_cases (c : Char) :
    (c.toNat < 0x80 ∧ String.utf8EncodeChar c = [UInt8.ofNat c.toNat]) ∨
      (0x80 ≤ c.toNat ∧ ∃ lead more, String.utf8EncodeChar c = lead :: more ∧ 0xC0 ≤ lead.toNat ∧
        ∀ b ∈ more, 0x80 ≤ b.toNat ∧ b.toNat < 0xC0) := by
  have hc : c.toNat < 0x110000 := by
    have h : c.toNat.isValidChar := c.valid
    simp only [Nat.isValidChar] at h
    omega
  unfold String.utf8EncodeChar
  rw [show c.val.toNat = c.toNat from rfl]
  generalize c.toNat = v at *
  dsimp only
  split
  · exact Or.inl ⟨by omega, rfl⟩
  · refine Or.inr ⟨by omega, ?_⟩
    repeat' split
    all_goals
      refine ⟨_, _, rfl, ?_, ?_⟩
      · simp only [UInt8.toNat_ofNat']
        omega
      · simp only [List.forall_mem_cons, UInt8.toNat_ofNat', List.not_mem_nil, false_implies,
          implies_true, and_true]
        omega

theorem utf8EncodeChar_of_lt {c : Char} (h : c.toNat < 0x80) :
    String.utf8EncodeChar c = [UInt8.ofNat c.toNat] := by
  rcases utf8EncodeChar_cases c with ⟨_, he⟩ | ⟨hc, _⟩
  · exact he
  · omega

/-- An ASCII character is a byte of the encoding only where it is a character of the text; more
generally, what bounds the characters of a text from below bounds its bytes. -/
theorem le_of_mem_encode {cs : List Char} {k : Nat} (hk : k ≤ 0x80) (h : ∀ c ∈ cs, k ≤ c.toNat) :
    ∀ b ∈ encode cs, k ≤ b.toNat := by
  intro b hb
  obtain ⟨c, hc, hb⟩ := List.mem_flatMap.mp hb
  have hkc := h c hc
  rcases utf8EncodeChar_cases c with ⟨hlt, he⟩ | ⟨_, lead, more, he, hlead, hmore⟩
  · rw [he, List.mem_singleton] at hb
    rw [hb, UInt8.toNat_ofNat']
    omega
  · rw [he, List.mem_cons] at hb
    rcases hb with rfl | hb
    · omega
    · have := (hmore b hb).1
      omega

/-- Bytes that do not go on with a character make all that is in front of them ill-formed. -/
theorem decode?_append_of_none {s : Bytes} (cs : List Char) (hs : s ≠ [])
    (h : decodeChar? s = none) : decode? (encode cs ++ s) = none := by
  rw [decode?, decodePrefix_encode_append, decodePrefix_of_none h]
  obtain ⟨b, s, rfl⟩ := List.exists_cons_of_ne_nil hs
  rfl

end ListingSnapshot.Utf8
