import ListingSnapshot.Json.Printer
import ListingSnapshot.Proofs.Json.Readings

/-!
# What is printed is spelled

A tree can be spelled in many ways, with blanks and escapes wherever they are allowed. Printing it
gives one of these spellings. So a reader of spelled trees reads printed ones as well, and makes of
them what it makes of the tree.

The only condition is on numbers, since a tree holds them as they are spelled.

## Main definitions

* `Json.Tree.Proper`: a tree whose numbers are spelled as numbers.
* `Json.Tree.Legible`: a tree that is spelled by what is printed of it.

## Main results

* `Json.spellsChars_flatMap_escaped`: the content of a string with its escapes.
* `Json.Tree.Proper.legible`: proper trees are legible.
* `Json.Reader.Reads.decode_print_iff`: what is read from a printed tree.
-/

namespace ListingSnapshot.Json

/-! ### Strings -/

private theorem toNat_digitChar_lt : ∀ n < 16, (Nat.digitChar n).toNat < 0x80 := by
  decide

/-- A control is escaped by its code unit, of which the first two digits are zeros. -/
theorem spellsEscape_control {c : Char} (h : c.toNat < 0x20) :
    SpellsEscape c (Utf8.encode
      ['u', '0', '0', Nat.digitChar (c.toNat / 16), Nat.digitChar (c.toNat % 16)]) := by
  have hhigh : c.toNat / 16 < 16 := by omega
  have hlow : c.toNat % 16 < 16 := by omega
  have hbytes : Utf8.encode
      ['u', '0', '0', Nat.digitChar (c.toNat / 16), Nat.digitChar (c.toNat % 16)] =
        [byte 'u', byte (Nat.digitChar 0), byte (Nat.digitChar 0),
          byte (Nat.digitChar (c.toNat / 16)), byte (Nat.digitChar (c.toNat % 16))] := by
    rw [encode_cons_of_lt (by decide), encode_cons_of_lt (by decide),
      encode_cons_of_lt (by decide), encode_cons_of_lt (toNat_digitChar_lt _ hhigh),
      encode_cons_of_lt (toNat_digitChar_lt _ hlow), Utf8.encode_nil]
    rfl
  have hfigure {n : Nat} (hn : n < 16) : SpellsFigure n (byte (Nat.digitChar n)) :=
    ⟨hn, Or.inl rfl⟩
  rw [hbytes]
  refine .unit ⟨[0, 0, c.toNat / 16, c.toNat % 16], ?_, rfl, ?_⟩
  · exact .cons (hfigure (by decide)) (.cons (hfigure (by decide))
      (.cons (hfigure hhigh) (.cons (hfigure hlow) .nil)))
  · simp only [List.foldl_cons, List.foldl_nil]
    omega

/-- A character is printed in front of the content of a string as one of its spellings. -/
theorem spellsChars_escaped_append (c : Char) {cs : List Char} {body : Bytes}
    (h : SpellsChars cs body) : SpellsChars (c :: cs) (Utf8.encode (escaped c) ++ body) := by
  have hletter {letter c : Char} (hmem : (letter, c) ∈ escapeLetters)
      (hlt : letter.toNat < 0x80) :
      SpellsChars (c :: cs) (Utf8.encode ['\\', letter] ++ body) := by
    rw [encode_cons_of_lt (by decide), encode_cons_of_lt hlt, Utf8.encode_nil]
    exact .escaped (.letter hmem) h
  unfold escaped
  split
  case h_8 hquote hbackslash _ _ _ _ _ =>
    split
    · next hc =>
      rw [encode_cons_of_lt (by decide)]
      exact .escaped (spellsEscape_control hc) h
    · next hc =>
      rw [Utf8.encode_cons, Utf8.encode_nil, List.append_nil]
      exact .bare ⟨Nat.le_of_not_lt hc, hquote, hbackslash⟩ h
  all_goals exact hletter (by simp [escapeLetters]) (by decide)

/-- The content of a string is printed as one of its spellings. -/
theorem spellsChars_flatMap_escaped (cs : List Char) :
    SpellsChars cs (Utf8.encode (cs.flatMap escaped)) := by
  induction cs with
  | nil => exact .nil
  | cons c cs ih =>
    rw [List.flatMap_cons, Utf8.encode_append]
    exact spellsChars_escaped_append c ih

theorem encode_printString_append (text : String) (rest : Bytes) :
    Utf8.encode (printString text) ++ rest =
      byte '"' :: Utf8.encode (text.toList.flatMap escaped) ++ byte '"' :: rest := by
  rw [printString, List.cons_append, encode_cons_of_lt (by decide), Utf8.encode_append,
    encode_cons_of_lt (by decide), Utf8.encode_nil, List.cons_append, List.append_assoc]
  rfl

/-! ### Trees -/

theorem separated_comma {s : Bytes} (h : unblank s = s) : Separated false (byte ',' :: s) s :=
  ⟨s, unblank_of_notMem (by decide), h.symm⟩

namespace Tree

/-- Every number in the tree is spelled as one. -/
inductive Proper : Tree → Prop
  | null : Proper .null
  | bool {value : Bool} : Proper (.bool value)
  | number {cs : List Char} (h : IsNumber cs) : Proper (.number cs)
  | string {text : String} : Proper (.string text)
  | list {items : List Tree} (h : ∀ item ∈ items, Proper item) : Proper (.list items)
  | object {members : List (String × Tree)} (h : ∀ member ∈ members, Proper member.2) :
      Proper (.object members)

/-- What is printed of the tree spells it in front of whatever follows. -/
def Legible (t : Tree) : Prop :=
  ∀ rest, Spells Strict t (Utf8.encode t.print ++ rest) rest

theorem legible_string (text : String) : (string text).Legible := by
  intro rest
  rw [print, encode_printString_append]
  exact @Spells.string Strict (some text) _ _ (spellsChars_flatMap_escaped text.toList)

/-! ### Lists -/

theorem items_printMoreItems {items : List Tree} (h : ∀ item ∈ items, item.Legible)
    (rest : Bytes) :
    Items (Spells Strict) false items
      (Utf8.encode (printMoreItems items) ++ byte ']' :: rest) rest := by
  induction items with
  | nil => exact .nil (unblank_of_notMem (by decide))
  | cons item items ih =>
    rw [List.forall_mem_cons] at h
    have hitem := h.1 (Utf8.encode (printMoreItems items) ++ byte ']' :: rest)
    rw [printMoreItems, List.cons_append, encode_cons_of_lt (by decide), Utf8.encode_append,
      List.cons_append, List.append_assoc]
    exact .cons (separated_comma hitem.unblank_eq) hitem (ih h.2)

theorem legible_list {items : List Tree} (h : ∀ item ∈ items, item.Legible) :
    (list items).Legible := by
  intro rest
  have hclosing : Utf8.encode [']'] ++ rest = byte ']' :: rest := rfl
  rw [print, List.cons_append, encode_cons_of_lt (by decide), Utf8.encode_append,
    List.cons_append, List.append_assoc, hclosing]
  refine .list ?_
  cases items with
  | nil => exact .nil (unblank_of_notMem (by decide))
  | cons item items =>
    rw [List.forall_mem_cons] at h
    have hitem := h.1 (Utf8.encode (printMoreItems items) ++ byte ']' :: rest)
    rw [printItems, Utf8.encode_append, List.append_assoc]
    exact .cons hitem.unblank_eq.symm hitem (items_printMoreItems h.2 rest)

/-! ### Objects -/

/-- A member is printed as its name, a colon and its value. -/
theorem encode_member_append (name : String) (value : Tree) (cs : List Char) (rest : Bytes) :
    Utf8.encode (printString name ++ ':' :: value.print ++ cs) ++ rest =
      byte '"' :: Utf8.encode (name.toList.flatMap escaped) ++ byte '"' ::
        byte ':' :: (Utf8.encode value.print ++ (Utf8.encode cs ++ rest)) := by
  rw [List.append_assoc, Utf8.encode_append, List.append_assoc, encode_printString_append,
    List.cons_append, List.cons_append, encode_cons_of_lt (by decide), Utf8.encode_append,
    List.cons_append, List.append_assoc]
  rfl

theorem members_cons (cs : List Char) {first : Bool} {name : String} {value : Tree}
    {s rest : Bytes} {members : List (String × Tree)} (hvalue : value.Legible)
    (hs : Separated first s
      (Utf8.encode (printString name ++ ':' :: value.print ++ cs) ++ byte '\x7d' :: rest))
    (h : Members Strict (Spells Strict) false (named members)
      (Utf8.encode cs ++ byte '\x7d' :: rest) rest) :
    Members Strict (Spells Strict) first (named ((name, value) :: members)) s rest := by
  have hspelled := hvalue (Utf8.encode cs ++ byte '\x7d' :: rest)
  rw [encode_member_append] at hs
  refine @Members.cons _ _ _ (some name) _ _ _ _ _ _ _ _ hs
    (spellsChars_flatMap_escaped name.toList) (unblank_of_notMem (by decide)) ?_ h
  rwa [hspelled.unblank_eq]

/-- A member of a name that is spelled as it is. There may be blanks around its colon. -/
theorem members_cons_of_bare {name : String}
    (hname : ∀ c ∈ name.toList, '\x20' ≤ c ∧ c ≠ '"' ∧ c ≠ '\\') (behind : Bytes)
    {first : Bool} {value : Tree} {s s' middle rest : Bytes} {members : List (String × Tree)}
    (hs : Separated first s (byte '"' :: Utf8.encode name.toList ++ byte '"' :: behind))
    (hc : unblank behind = byte ':' :: s') (hvalue : Spells Strict value (unblank s') middle)
    (h : Members Strict (Spells Strict) false (named members) middle rest) :
    Members Strict (Spells Strict) first (named ((name, value) :: members)) s rest :=
  @Members.cons _ _ _ (some name) _ _ _ _ _ _ _ _ hs (spellsChars_encode hname) hc hvalue h

theorem members_printMoreMembers {members : List (String × Tree)}
    (h : ∀ member ∈ members, member.2.Legible) (rest : Bytes) :
    Members Strict (Spells Strict) false (named members)
      (Utf8.encode (printMoreMembers members) ++ byte '\x7d' :: rest) rest := by
  induction members with
  | nil => exact .nil (unblank_of_notMem (by decide))
  | cons member members ih =>
    rw [List.forall_mem_cons] at h
    refine members_cons (printMoreMembers members) h.1 ?_ (ih h.2)
    rw [printMoreMembers, List.cons_append, List.cons_append, encode_cons_of_lt (by decide),
      List.cons_append, encode_member_append]
    refine separated_comma ?_
    exact unblank_of_notMem (by decide)

theorem legible_object {members : List (String × Tree)}
    (h : ∀ member ∈ members, member.2.Legible) : (object members).Legible := by
  intro rest
  have hclosing : Utf8.encode ['\x7d'] ++ rest = byte '\x7d' :: rest := rfl
  rw [print, List.cons_append, encode_cons_of_lt (by decide), Utf8.encode_append,
    List.cons_append, List.append_assoc, hclosing, ← ofMembers?_named]
  refine .object ?_
  cases members with
  | nil => exact .nil (unblank_of_notMem (by decide))
  | cons member members =>
    rw [List.forall_mem_cons] at h
    refine members_cons (printMoreMembers members) h.1 ?_ (members_printMoreMembers h.2 rest)
    rw [printMembers, encode_member_append]
    exact (unblank_of_notMem (by decide)).symm

/-! ### Proper trees -/

/-- **Printing spells.** What is printed of a tree with proper numbers spells that tree, whatever
follows. -/
theorem Proper.legible {t : Tree} (h : t.Proper) : t.Legible := by
  induction h with
  | null => exact fun rest => .null
  | @bool value =>
    intro rest
    cases value <;> exact .bool
  | number h =>
    intro rest
    rw [print]
    exact .number h
  | string => exact legible_string _
  | list _ ih => exact legible_list ih
  | object _ ih => exact legible_object ih

/-- The whole text that is printed of a tree spells it. -/
theorem Proper.text_print {t : Tree} (h : t.Proper) : Text Strict t (Utf8.encode t.print) := by
  have hspells := h.legible []
  rw [List.append_nil] at hspells
  exact ⟨[], hspells.unblank_eq.symm ▸ hspells, rfl⟩

/-- A natural number is written as a number that has no zero in front. -/
theorem isWhole_toDigits (n : Nat) : IsWhole (Nat.toDigits 10 n) := by
  refine ⟨isDigitRun_toDigits n, fun hhead => ?_⟩
  have hn : n = 0 := by_contra fun hn => head?_toDigits_ne hn hhead
  rw [hn, Nat.toDigits_zero]

theorem proper_ofNat (n : Nat) : (ofNat n).Proper :=
  .number (isWhole_toDigits n).isNumber

end Tree

/-- A reader makes of a printed tree what it makes of the tree. -/
theorem Reader.Reads.decode_print_iff {α : Type} {r : Reader α} {M : Tree → α → Prop}
    (h : r.Reads M) {t : Tree} (ht : t.Proper) {a : α} :
    decode r (Utf8.encode t.print) = .ok a ↔ M t a :=
  h.decode_eq_ok_iff_of_text (ht.text_print.mono fun _ _ => Strict.lenient)

end ListingSnapshot.Json
