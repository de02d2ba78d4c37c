/-!
# UTF-8

Texts are lists of characters inside the library and lists of bytes at its border. This module
holds the two directions: `Utf8.encode` writes characters, and `Utf8.decodePrefix` reads characters
back for as long as the bytes are well formed.

## Main definitions

* `Bytes`: a byte string.
* `Utf8.encode`: the bytes of a text.
* `Utf8.decodeChar?`: the character in front, when the bytes in front are the encoding of one.
* `Utf8.decodePrefix`: the longest well-formed beginning, and the bytes left behind it.
* `Utf8.decode?`: the text of a byte string that is well formed to its end.

## Main results

* `Utf8.encode_append_decodePrefix`: reading loses nothing.
* `Utf8.decode?_eq_some_iff`: what can be read is what is written.
-/

namespace ListingSnapshot

/-- A byte string. -/
abbrev Bytes := List UInt8

namespace Utf8

/-! ### Writing -/

/-- The bytes of a text. -/
def encode (cs : List Char) : Bytes :=
  cs.flatMap String.utf8EncodeChar

@[simp] theorem encode_nil : encode [] = [] := rfl

@[simp] theorem encode_cons (c : Char) (cs : List Char) :
    encode (c :: cs) = String.utf8EncodeChar c ++ encode cs := rfl

@[simp] theorem encode_append (cs ds : List Char) : encode (cs ++ ds) = encode cs ++ encode ds :=
  List.flatMap_append

/-! ### Reading -/

/-- The number of bytes that an encoding beginning with `lead` takes. -/
def width (lead : UInt8) : Nat :=
  if lead < 0x80 then 1 else if lead < 0xE0 then 2 else if lead < 0xF0 then 3 else 4

/-- The bits that a first byte adds to the code point: all of them if it stands alone, those below
the length mark otherwise. -/
def leadBits (lead : UInt8) : Nat :=
  if lead < 0x80 then lead.toNat
  else if lead < 0xE0 then lead.toNat % 32
  else if lead < 0xF0 then lead.toNat % 16
  else lead.toNat % 8

/-- The code point that bytes spell, each one after the first adding six bits. Nothing is checked
here: overlong and surrogate spellings have a code point too. -/
def codePoint : Bytes → Nat
  | [] => 0
  | lead :: more => more.foldl (fun n b => n * 64 + b.toNat % 64) (leadBits lead)

/-- The character whose encoding stands in front, with the bytes after it. The first byte tells how
many bytes to take, and they are accepted exactly when writing the character gives them back; so
overlong forms, surrogates, stray continuation bytes and cut-off sequences are all refused. -/
def decodeChar? : Bytes → Option (Char × Bytes)
  | [] => none
  | lead :: more =>
    let taken := (lead :: more).take (width lead)
    let c := Char.ofNat (codePoint taken)
    if String.utf8EncodeChar c = taken then some (c, (lead :: more).drop (width lead)) else none

theorem eq_append_of_decodeChar? {s rest : Bytes} {c : Char} (h : decodeChar? s = some (c, rest)) :
    s = String.utf8EncodeChar c ++ rest := by
  cases s with
  | nil => simp [decodeChar?] at h
  | cons lead more =>
    simp only [decodeChar?] at h
    split at h
    · next he =>
      obtain ⟨rfl, rfl⟩ := Prod.mk.inj (Option.some.inj h)
      rw [he, List.take_append_drop]
    · simp at h

theorem length_lt_of_decodeChar? {s rest : Bytes} {c : Char}
    (h : decodeChar? s = some (c, rest)) : rest.length < s.length := by
  rw [eq_append_of_decodeChar? h, List.length_append]
  have := Char.utf8Size_pos c
  rw [← String.length_utf8EncodeChar] at this
  omega

/-- The characters of the longest well-formed beginning, and the bytes left behind it: none exactly
when the whole byte string is well formed. -/
def decodePrefix (s : Bytes) : List Char × Bytes :=
  match _h : decodeChar? s with
  | none => ([], s)
  | some (c, rest) =>
    let (cs, tail) := decodePrefix rest
    (c :: cs, tail)
termination_by s.length
decreasing_by exact length_lt_of_decodeChar? _h

theorem decodePrefix_of_none {s : Bytes} (h : decodeChar? s = none) : decodePrefix s = ([], s) := by
  rw [decodePrefix]
  split
  · rfl
  · next h' => simp [h] at h'

theorem decodePrefix_of_some {s rest : Bytes} {c : Char} (h : decodeChar? s = some (c, rest)) :
    decodePrefix s = (c :: (decodePrefix rest).1, (decodePrefix rest).2) := by
  rw [decodePrefix]
  split
  · next h' => simp [h] at h'
  · next h' =>
    rw [h] at h'
    obtain ⟨rfl, rfl⟩ := Prod.mk.inj (Option.some.inj h')
    rfl

/-- Nothing is lost: the characters read, written again, and the bytes left make up the input. -/
theorem encode_append_decodePrefix (s : Bytes) :
    encode (decodePrefix s).1 ++ (decodePrefix s).2 = s := by
  fun_induction decodePrefix s with
  | case1 s h => simp
  | case2 s c rest h cs tail hr ih =>
    rw [hr] at ih
    rw [encode_cons, List.append_assoc, ih, ← eq_append_of_decodeChar? h]

/-- The text that bytes encode, if they encode one. -/
def decode? (s : Bytes) : Option (List Char) :=
  match decodePrefix s with
  | (cs, []) => some cs
  | _ => none

/-! ### Reading what was written -/

/-- An encoding is as long as its first byte announces, and spells its character's code point. -/
theorem exists_utf8EncodeChar_eq_cons (c : Char) : ∃ lead more,
    String.utf8EncodeChar c = lead :: more ∧ width lead = more.length + 1 ∧
      codePoint (lead :: more) = c.toNat := by
  have hc : c.toNat < 1114112 := by
    have h : c.toNat.isValidChar := c.valid
    simp only [Nat.isValidChar] at h
    omega
  unfold String.utf8EncodeChar
  rw [show c.val.toNat = c.toNat from rfl]
  generalize c.toNat = v at *
  dsimp only
  (repeat' split) <;> refine ⟨_, _, rfl, ?_⟩ <;>
    simp only [width, codePoint, leadBits, UInt8.lt_iff_toNat_lt, UInt8.toNat_ofNat', List.foldl,
      List.length, UInt8.reduceToNat] <;>
    (repeat' split) <;> omega

@[simp] theorem decodeChar?_append (c : Char) (s : Bytes) :
    decodeChar? (String.utf8EncodeChar c ++ s) = some (c, s) := by
  obtain ⟨lead, more, he, hw, hp⟩ := exists_utf8EncodeChar_eq_cons c
  rw [he, List.cons_append]
  simp [decodeChar?, hw, hp, he]

@[simp] theorem decodePrefix_nil : decodePrefix [] = ([], []) := decodePrefix_of_none rfl

@[simp] theorem decodePrefix_encode_append (cs : List Char) (s : Bytes) :
    decodePrefix (encode cs ++ s) = (cs ++ (decodePrefix s).1, (decodePrefix s).2) := by
  induction cs with
  | nil => simp
  | cons c cs ih =>
    rw [encode_cons, List.append_assoc, decodePrefix_of_some (decodeChar?_append c _), ih]
    rfl

@[simp] theorem decode?_encode (cs : List Char) : decode? (encode cs) = some cs := by
  have h := decodePrefix_encode_append cs []
  rw [List.append_nil, decodePrefix_nil, List.append_nil] at h
  simp [decode?, h]

/-- The byte strings that can be decoded are those that are written. -/
theorem decode?_eq_some_iff {s : Bytes} {cs : List Char} : decode? s = some cs ↔ s = encode cs := by
  refine ⟨fun h => ?_, fun h => h ▸ decode?_encode cs⟩
  unfold decode? at h
  split at h
  · next ds hd =>
    have := encode_append_decodePrefix s
    rw [hd, List.append_nil] at this
    rw [← this, Option.some.inj h]
  · simp at h

end Utf8

end ListingSnapshot
