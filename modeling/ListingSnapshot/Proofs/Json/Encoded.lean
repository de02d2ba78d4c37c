import ListingSnapshot.Proofs.Json.Escapes
import ListingSnapshot.Proofs.Json.Numbers
import ListingSnapshot.Proofs.Json.Unambiguity

/-!
# Spelled trees are encoded characters

All that the grammar lets stand in a text is the encoding of some characters, with one exception: a
string that spells no text. A tree shows where these strings are, since blots stand for them. So a
text that spells a tree without blots is well-formed UTF-8, although no reader looks at a text as a
whole.

## Main definitions

* `Json.Encoded`: what stands between two places of a text are characters.
* `Json.Tree.Unblotted`: a tree without blots.

## Main results

* `Json.Spells.strict`: a tree without blots is spelled by the strict grammar.
* `Json.Spells.encoded`: by that grammar a tree is spelled by characters.
* `Json.Text.exists_encode`: so is a whole text.
-/

namespace ListingSnapshot.Json

/-! ### Characters between two places -/

/-- What is in front of `rest` in `s` are encoded characters. -/
def Encoded (s rest : Bytes) : Prop :=
  ∃ cs, s = Utf8.encode cs ++ rest

theorem Encoded.refl (s : Bytes) : Encoded s s :=
  ⟨[], rfl⟩

theorem Encoded.trans {s middle rest : Bytes} (h : Encoded s middle) (h' : Encoded middle rest) :
    Encoded s rest := by
  obtain ⟨cs, rfl⟩ := h
  obtain ⟨ds, rfl⟩ := h'
  exact ⟨cs ++ ds, by rw [Utf8.encode_append, List.append_assoc]⟩

theorem encoded_encode (cs : List Char) (rest : Bytes) : Encoded (Utf8.encode cs ++ rest) rest :=
  ⟨cs, rfl⟩

theorem encoded_byte {c : Char} (h : c.toNat < 0x80) (rest : Bytes) :
    Encoded (byte c :: rest) rest :=
  ⟨[c], by rw [encode_cons_of_lt h]; rfl⟩

/-! ### Blanks and separators -/

theorem exists_byte_of_mem_blankBytes {b : UInt8} (h : b ∈ blankBytes) :
    ∃ c : Char, c.toNat < 0x80 ∧ b = byte c := by
  simp only [blankBytes, List.mem_cons, List.not_mem_nil, or_false] at h
  rcases h with rfl | rfl | rfl | rfl
  · exact ⟨' ', by decide, rfl⟩
  · exact ⟨'\n', by decide, rfl⟩
  · exact ⟨'\t', by decide, rfl⟩
  · exact ⟨'\r', by decide, rfl⟩

theorem encoded_unblank (s : Bytes) : Encoded s (unblank s) := by
  induction s with
  | nil => exact .refl []
  | cons b s ih =>
    by_cases hb : b ∈ blankBytes
    · have hs : unblank (b :: s) = unblank s := by simp [unblank, hb]
      obtain ⟨c, hc, rfl⟩ := exists_byte_of_mem_blankBytes hb
      rw [hs]
      exact (encoded_byte hc s).trans ih
    · rw [unblank_of_notMem hb]
      exact .refl _

theorem encoded_of_unblank_eq_cons {c : Char} {s m : Bytes} (hc : c.toNat < 0x80)
    (h : unblank s = byte c :: m) : Encoded s m :=
  (encoded_unblank s).trans (h ▸ encoded_byte hc m)

theorem Separated.encoded {first : Bool} {s s' : Bytes} (h : Separated first s s') :
    Encoded s s' := by
  cases first with
  | true =>
    have hs : s' = unblank s := h
    exact hs ▸ encoded_unblank s
  | false =>
    obtain ⟨m, hm, rfl⟩ := h
    exact (encoded_of_unblank_eq_cons (by decide) hm).trans (encoded_unblank m)

/-! ### Strings -/

theorem SpellsFigure.exists_byte {figure : Nat} {b : UInt8} (h : SpellsFigure figure b) :
    ∃ c : Char, c.toNat < 0x80 ∧ b = byte c := by
  have hfigures : ∀ n < 16, n.digitChar.toNat < 0x80 ∧ n.digitChar.toUpper.toNat < 0x80 := by
    decide
  rcases h.2 with hb | hb
  · exact ⟨_, (hfigures figure h.1).1, hb⟩
  · exact ⟨_, (hfigures figure h.1).2, hb⟩

theorem SpellsUnit.encoded {unit : Nat} {ds : Bytes} (h : SpellsUnit unit ds) (rest : Bytes) :
    Encoded (ds ++ rest) rest := by
  obtain ⟨figures, hds, -⟩ := h
  induction hds with
  | nil => exact .refl rest
  | cons hb _ ih =>
    obtain ⟨c, hc, rfl⟩ := hb.exists_byte
    exact (encoded_byte hc _).trans ih

theorem SpellsEscape.encoded {c : Char} {e : Bytes} (h : SpellsEscape c e) (rest : Bytes) :
    Encoded (e ++ rest) rest := by
  cases h with
  | @letter letter _ h =>
    have hletters : ∀ pair ∈ escapeLetters, pair.1.toNat < 0x80 :=
      List.all_iff_forall_prop.mp (by decide)
    exact encoded_byte (hletters _ h) rest
  | unit h => exact (encoded_byte (by decide) _).trans (h.encoded rest)
  | pair _ _ _ hds hes =>
    rw [List.append_assoc]
    refine (encoded_byte (by decide) _).trans ((hds.encoded _).trans ?_)
    exact (encoded_byte (by decide) _).trans ((encoded_byte (by decide) _).trans (hes.encoded rest))

theorem SpellsChars.encoded {cs : List Char} {body : Bytes} (h : SpellsChars cs body)
    (rest : Bytes) : Encoded (body ++ rest) rest := by
  induction h with
  | nil => exact .refl rest
  | @bare c _ body _ _ ih =>
    rw [List.append_assoc]
    have hc : Encoded (String.utf8EncodeChar c ++ (body ++ rest)) (body ++ rest) :=
      ⟨[c], by rw [Utf8.encode_cons, Utf8.encode_nil, List.append_nil]⟩
    exact hc.trans ih
  | escaped he _ ih =>
    rw [List.append_assoc]
    exact (encoded_byte (by decide) _).trans ((he.encoded _).trans ih)

theorem SpellsChars.quoted_encoded {cs : List Char} {body : Bytes} (h : SpellsChars cs body)
    (rest : Bytes) : Encoded (byte '"' :: body ++ byte '"' :: rest) rest :=
  (encoded_byte (by decide) _).trans ((h.encoded _).trans (encoded_byte (by decide) rest))

/-- What cannot be decoded is the content of no text, but may be passed over. -/
theorem lenient_none_of_decodeChar? {body : Bytes} (hp : Passable body) (hb : body ≠ [])
    (h : Utf8.decodeChar? body = none) : Lenient none body := by
  refine ⟨hp, fun cs hcs => ?_⟩
  obtain ⟨ds, hds⟩ := hcs.encoded []
  have hnone := Utf8.decode?_append_of_none [] hb h
  rw [Utf8.encode_nil, List.nil_append] at hnone
  rw [List.append_nil, List.append_nil] at hds
  rw [Utf8.decode?_eq_some_iff.mpr hds] at hnone
  cases hnone

/-! ### Trees -/

/-- No part of the tree stands for a string that spells no text. -/
inductive Tree.Unblotted : Tree → Prop
  | null : Unblotted .null
  | bool {value : Bool} : Unblotted (.bool value)
  | number {cs : List Char} (h : cs ≠ []) : Unblotted (.number cs)
  | string {text : String} : Unblotted (.string text)
  | list {items : List Tree} (h : ∀ item ∈ items, Unblotted item) : Unblotted (.list items)
  | object {members : List (String × Tree)} (h : ∀ member ∈ members, Unblotted member.2) :
      Unblotted (.object members)

theorem Tree.not_unblotted_blot : ¬ Tree.blot.Unblotted := by
  intro h
  cases h with
  | number h => exact h rfl

/-- Without blots there are no ill-formed strings, so the tree is spelled by the strict grammar. -/
theorem Spells.strict {t : Tree} {s rest : Bytes} (h : Spells Lenient t s rest)
    (ht : t.Unblotted) : Spells Strict t s rest := by
  induction h using Spells.induct with
  | null rest => exact .null
  | bool value rest => exact .bool
  | number cs rest h => exact .number h
  | string text? body rest h =>
    cases text? with
    | none => exact (Tree.not_unblotted_blot ht).elim
    | some text => exact @Spells.string Strict (some text) _ _ h
  | list items s rest _ ih =>
    cases ht with
    | list hitems => exact .list (ih.imp fun item hmem _ _ hitem => hitem.2 (hitems item hmem))
  | object members? s rest _ ih =>
    cases hm : members?.mapM Tree.namedMember? with
    | none =>
      rw [Tree.ofMembers?, hm] at ht
      exact (Tree.not_unblotted_blot ht).elim
    | some members =>
      obtain rfl := eq_named_of_mapM hm
      rw [Tree.ofMembers?_named] at ht
      cases ht with
      | object hmembers =>
        refine .object (ih.imp (fun member hmember body hn => ?_)
          fun member hmember _ _ hvalue => ?_)
        · obtain ⟨_, _, rfl⟩ := List.mem_map.mp hmember
          exact hn
        · obtain ⟨_, hmem, rfl⟩ := List.mem_map.mp hmember
          exact hvalue.2 (hmembers _ hmem)

theorem Text.strict {t : Tree} {text : Bytes} (h : Text Lenient t text) (ht : t.Unblotted) :
    Text Strict t text := by
  obtain ⟨rest, hs, hrest⟩ := h
  exact ⟨rest, hs.strict ht, hrest⟩

/-! ### Spellings -/

variable {R : Tree → Bytes → Bytes → Prop} (hR : ∀ t s rest, R t s rest → Encoded s rest)

include hR in
theorem Items.encoded {first : Bool} {items : List Tree} {s rest : Bytes}
    (h : Items R first items s rest) : Encoded s rest := by
  induction h with
  | nil hs => exact encoded_of_unblank_eq_cons (by decide) hs
  | cons hs hi _ ih => exact hs.encoded.trans ((hR _ _ _ hi).trans ih)

include hR in
theorem Members.encoded {first : Bool} {members : List (Option String × Tree)} {s rest : Bytes}
    (h : Members Strict R first members s rest) : Encoded s rest := by
  induction h with
  | nil hs => exact encoded_of_unblank_eq_cons (by decide) hs
  | @cons _ name? _ _ _ _ behind _ _ _ hs hn hc hv _ ih =>
    cases name? with
    | none => exact hn.elim
    | some name =>
      have hname := SpellsChars.quoted_encoded hn behind
      have hvalue := (encoded_unblank _).trans (hR _ _ _ hv)
      refine hs.encoded.trans (hname.trans ?_)
      exact (encoded_of_unblank_eq_cons (by decide) hc).trans (hvalue.trans ih)

/-- **Characters only.** By the strict grammar a tree is spelled by encoded characters. -/
theorem Spells.encoded {t : Tree} {s rest : Bytes} (h : Spells Strict t s rest) :
    Encoded s rest := by
  induction h using Spells.induct with
  | null rest => exact encoded_encode _ rest
  | bool value rest => exact encoded_encode _ rest
  | number cs rest _ => exact encoded_encode cs rest
  | string text? body rest h =>
    cases text? with
    | none => exact h.elim
    | some text => exact SpellsChars.quoted_encoded h rest
  | list items s rest _ ih =>
    exact (encoded_byte (by decide) s).trans (ih.encoded fun _ _ _ h => h.2)
  | object members s rest _ ih =>
    exact (encoded_byte (by decide) s).trans (ih.encoded fun _ _ _ h => h.2)

/-- A text that spells a tree by the strict grammar is well-formed UTF-8. -/
theorem Text.exists_encode {t : Tree} {text : Bytes} (h : Text Strict t text) :
    ∃ cs, text = Utf8.encode cs := by
  obtain ⟨rest, hs, hrest⟩ := h
  have hend := encoded_unblank rest
  rw [hrest] at hend
  obtain ⟨cs, hcs⟩ := (encoded_unblank text).trans (hs.encoded.trans hend)
  exact ⟨cs, by rw [hcs, List.append_nil]⟩

end ListingSnapshot.Json
