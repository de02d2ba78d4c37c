import ListingSnapshot.Proofs.Json.Passed

/-!
# The grammar is unambiguous

A text spells at most one tree. Where a value ends is settled first, since passing over it ends at
one place only; with that known, two spellings of the same bytes are compared production by
production.

## Main results

* `Json.Spells.unique`: at most one tree in front of a byte string.
* `Json.Text.unique`: at most one tree in a text.
* `Json.Spells.spelledAs`: how a given tree is spelled.
-/

namespace ListingSnapshot.Json

/-! ### Strings -/

theorem Passable.unique {body body' rest rest' : Bytes} (h : Passable body) (h' : Passable body')
    (hs : body ++ byte '"' :: rest = body' ++ byte '"' :: rest') : body' = body ∧ rest' = rest := by
  have hrun : Reader.passText.run (body ++ byte '"' :: rest) = .value () rest :=
    Reader.run_passText_eq_value_iff.mpr ⟨body, h, rfl⟩
  have hrun' : Reader.passText.run (body ++ byte '"' :: rest) = .value () rest' :=
    Reader.run_passText_eq_value_iff.mpr ⟨body', h', hs⟩
  rw [hrun, Outcome.value.injEq] at hrun'
  obtain ⟨_, rfl⟩ := hrun'
  exact ⟨(List.append_cancel_right hs).symm, rfl⟩

theorem SpellsChars.unique {text text' : String} {body : Bytes}
    (h : SpellsChars text.toList body) (h' : SpellsChars text'.toList body) : text' = text := by
  have hrun : Reader.text.run (body ++ [byte '"']) = .value text [] :=
    Reader.run_text_eq_value_iff.mpr ⟨body, h, rfl⟩
  have hrun' : Reader.text.run (body ++ [byte '"']) = .value text' [] :=
    Reader.run_text_eq_value_iff.mpr ⟨body, h', rfl⟩
  rw [hrun, Outcome.value.injEq] at hrun'
  exact hrun'.1.symm

theorem Lenient.unique {text? text?' : Option String} {body : Bytes} (h : Lenient text? body)
    (h' : Lenient text?' body) : text?' = text? := by
  cases text? with
  | some text =>
    cases text?' with
    | some text' => exact congrArg some (SpellsChars.unique h h')
    | none => exact (h'.2 _ h).elim
  | none =>
    cases text?' with
    | some text' => exact (h.2 _ h').elim
    | none => rfl

theorem encode_injective {cs ds : List Char} (h : Utf8.encode cs = Utf8.encode ds) : cs = ds := by
  have := congrArg Utf8.decode? h
  rw [Utf8.decode?_encode, Utf8.decode?_encode] at this
  exact Option.some.inj this

/-! ### Lists and objects -/

variable {R : Tree → Bytes → Bytes → Prop}

theorem Separated.unique {first : Bool} {s s' s'' : Bytes} (h : Separated first s s')
    (h' : Separated first s s'') : s'' = s' := by
  cases first with
  | true => exact Eq.trans h' h.symm
  | false =>
    obtain ⟨m, hm, rfl⟩ := h
    obtain ⟨m', hm', rfl⟩ := h'
    rw [hm] at hm'
    rw [(List.cons.inj hm').2]

/-- A closing bracket and an item do not come at the same place. -/
theorem Separated.ne_closing {first : Bool} {s m rest : Bytes} {b : UInt8}
    (h : Separated first s (b :: m)) (kind : Container) (hb : Lead.ofByte b ≠ .other) :
    unblank s ≠ byte kind.closing :: rest := by
  intro hs
  cases first with
  | true =>
    have := (List.cons.inj (h.trans hs)).1
    exact Reader.closing_ne_of_ofByte hb kind this
  | false =>
    obtain ⟨m', hm', _⟩ := h
    rw [hm'] at hs
    have := (List.cons.inj hs).1
    cases kind <;> exact absurd this (by decide)

/-- Nothing else is spelled in front of `s`, if it ends at a delimiter. -/
def Unique (t : Tree) (s rest : Bytes) : Prop :=
  Delimited rest → ∀ t' rest', Spells Lenient t' s rest' → Delimited rest' → t' = t ∧ rest' = rest

theorem Items.unique {first : Bool} {items items' : List Tree} {s rest rest' : Bytes}
    (h : Items (fun t s rest => ∃ _ : Spells Lenient t s rest, Unique t s rest) first items s rest)
    (h' : Items (Spells Lenient) first items' s rest') : items' = items ∧ rest' = rest := by
  induction h generalizing items' with
  | nil hs =>
    cases h' with
    | nil hs' =>
      rw [hs] at hs'
      exact ⟨rfl, (List.cons.inj hs').2.symm⟩
    | cons hsep hi _ =>
      obtain ⟨b, m, rfl, hb⟩ := hi.exists_lead
      exact (hsep.ne_closing .list hb hs).elim
  | cons hsep hi h ih =>
    obtain ⟨hitem, hunique⟩ := hi
    cases h' with
    | nil hs' =>
      obtain ⟨b, m, rfl, hb⟩ := hitem.exists_lead
      exact (hsep.ne_closing .list hb hs').elim
    | cons hsep' hi' h' =>
      obtain rfl := hsep.unique hsep'
      obtain ⟨rfl, rfl⟩ := hunique h.delimited _ _ hi' h'.delimited
      obtain ⟨rfl, rfl⟩ := ih h'
      exact ⟨rfl, rfl⟩

theorem Members.unique {first : Bool} {members members' : List (Option String × Tree)}
    {s rest rest' : Bytes}
    (h : Members Lenient (fun t s rest => ∃ _ : Spells Lenient t s rest, Unique t s rest)
      first members s rest)
    (h' : Members Lenient (Spells Lenient) first members' s rest') :
    members' = members ∧ rest' = rest := by
  induction h generalizing members' with
  | nil hs =>
    cases h' with
    | nil hs' =>
      rw [hs] at hs'
      exact ⟨rfl, (List.cons.inj hs').2.symm⟩
    | cons hsep _ _ _ _ => exact (hsep.ne_closing .object (by decide) hs).elim
  | cons hsep hn hc hv h ih =>
    obtain ⟨_, hunique⟩ := hv
    cases h' with
    | nil hs' => exact (hsep.ne_closing .object (by decide) hs').elim
    | cons hsep' hn' hc' hv' h' =>
      have hname := (List.cons.inj (hsep.unique hsep')).2
      obtain ⟨rfl, rfl⟩ := hn'.passable.unique hn.passable hname
      obtain rfl := hn.unique hn'
      rw [hc] at hc'
      obtain rfl := (List.cons.inj hc').2
      obtain ⟨rfl, rfl⟩ := hunique h.delimited _ _ hv' h'.delimited
      obtain ⟨rfl, rfl⟩ := ih h'
      exact ⟨rfl, rfl⟩

/-! ### Trees -/

theorem Spells.rest_unique {t t' : Tree} {s rest rest' : Bytes} (h : Spells Lenient t s rest)
    (hr : Delimited rest) (h' : Spells Lenient t' s rest') (hr' : Delimited rest') :
    rest' = rest := by
  have hs := h.unblank_eq
  have hrun : Reader.passValue.run s = .value () rest := Reader.run_passValue (hs.symm ▸ h) hr
  have hrun' : Reader.passValue.run s = .value () rest' := Reader.run_passValue (hs.symm ▸ h') hr'
  rw [hrun, Outcome.value.injEq] at hrun'
  exact hrun'.2.symm

/-- Since the end of a value is settled, only spellings up to the same rest have to be compared. -/
theorem unique_of_forall {t : Tree} {s rest : Bytes} (h : Spells Lenient t s rest)
    (ht : ∀ t', Spells Lenient t' s rest → t' = t) : Unique t s rest := by
  intro hr t' rest' h' hr'
  obtain rfl := h.rest_unique hr h' hr'
  exact ⟨ht t' h', rfl⟩

/-- **The grammar is unambiguous.** At most one tree is spelled in front of a byte string up to a
delimiter, even if strings are let through that spell no text. -/
theorem Spells.unique {t : Tree} {s rest : Bytes} (h : Spells Lenient t s rest) :
    Unique t s rest := by
  induction h using Spells.induct with
  | null rest => exact unique_of_forall .null fun _ h' => h'.production_of_cons.1
  | bool value rest =>
    refine unique_of_forall .bool fun _ h' => ?_
    cases value <;> exact h'.production_of_cons.1
  | number cs rest h =>
    refine unique_of_forall (.number h) fun _ h' => ?_
    rcases isNumber_iff.mp h with hm | ⟨magnitude, _, rfl⟩
    · obtain ⟨c, ds, hc, rfl⟩ := hm.exists_cons
      rw [encode_cons_of_lt hc.lt] at h'
      have hp := h'.production_of_cons
      rw [Lead.ofByte_of_isDigit (isDigit_byte hc)] at hp
      obtain ⟨cs', rfl, _, hs⟩ := hp
      have hencode : Utf8.encode (c :: ds) ++ rest = Utf8.encode cs' ++ rest := by
        rw [encode_cons_of_lt hc.lt]
        exact hs
      rw [encode_injective (List.append_cancel_right hencode)]
    · rw [encode_cons_of_lt (by decide)] at h'
      obtain ⟨cs', rfl, _, hs⟩ := h'.production_of_cons
      rw [encode_injective (List.append_cancel_right (List.cons.inj hs).2)]
  | string text? body rest h =>
    refine unique_of_forall (.string h) fun _ h' => ?_
    obtain ⟨text?', body', rfl, hbody', hs⟩ := h'.production_of_cons
    obtain ⟨rfl, _⟩ := h.passable.unique hbody'.passable (List.cons.inj hs).2
    rw [h.unique hbody']
  | list items s rest h ih =>
    refine unique_of_forall (.list h) fun _ h' => ?_
    obtain ⟨items', m, rfl, hitems, hs⟩ := h'.production_of_cons
    obtain rfl := (List.cons.inj hs).2
    rw [(ih.unique hitems).1]
  | object members s rest h ih =>
    refine unique_of_forall (.object h) fun _ h' => ?_
    obtain ⟨members', m, rfl, hmembers, hs⟩ := h'.production_of_cons
    obtain rfl := (List.cons.inj hs).2
    rw [(ih.unique hmembers).1]

/-- A text spells at most one tree. -/
theorem Text.unique {t t' : Tree} {text : Bytes} (h : Text Lenient t text)
    (h' : Text Lenient t' text) : t' = t := by
  obtain ⟨rest, hspells, hrest⟩ := h
  obtain ⟨rest', hspells', hrest'⟩ := h'
  exact (hspells.unique (delimited_of_unblank_eq_nil hrest) _ _ hspells'
    (delimited_of_unblank_eq_nil hrest')).1

/-! ### How a given tree is spelled -/

variable {N : Option String → Bytes → Prop}

/-- The members with their names as texts. -/
def named (members : List (String × Tree)) : List (Option String × Tree) :=
  members.map fun (name, value) => (some name, value)

/-- The spellings of a tree. -/
def SpelledAs (N : Option String → Bytes → Prop) (s rest : Bytes) : Tree → Prop
  | .null => s = Utf8.encode ['n', 'u', 'l', 'l'] ++ rest
  | .bool value => s = Utf8.encode (toString value).toList ++ rest
  | .number cs => IsNumber cs ∧ s = Utf8.encode cs ++ rest
  | .string text => ∃ body, N (some text) body ∧ s = byte '"' :: body ++ byte '"' :: rest
  | .list items => ∃ m, Items (Spells N) true items m rest ∧ s = byte '[' :: m
  | .object members => ∃ m, Members N (Spells N) true (named members) m rest ∧
      s = byte '\x7b' :: m

theorem mapM_named (members : List (String × Tree)) :
    (named members).mapM Tree.namedMember? = some members := by
  induction members with
  | nil => rfl
  | cons member members ih =>
    rw [named] at ih ⊢
    rw [List.map_cons, List.mapM_cons, ih]
    rfl

theorem eq_named_of_mapM {members? : List (Option String × Tree)} {members : List (String × Tree)}
    (h : members?.mapM Tree.namedMember? = some members) : members? = named members := by
  induction members? generalizing members with
  | nil =>
    obtain rfl := Option.some.inj h
    rfl
  | cons member members? ih =>
    obtain ⟨name?, value⟩ := member
    rw [List.mapM_cons] at h
    obtain ⟨first, hfirst, h⟩ := Option.bind_eq_some_iff.mp h
    obtain ⟨others, hothers, h⟩ := Option.bind_eq_some_iff.mp h
    obtain ⟨name, rfl, rfl⟩ := Option.map_eq_some_iff.mp hfirst
    obtain rfl := Option.some.inj h
    rw [ih hothers]
    rfl

theorem Tree.ofMembers?_named (members : List (String × Tree)) :
    ofMembers? (named members) = .object members := by
  rw [ofMembers?, mapM_named]

/-- A tree that is not a blot is spelled by the production for its constructor. -/
theorem Spells.spelledAs {t : Tree} {s rest : Bytes} (h : Spells N t s rest) (ht : t ≠ .blot) :
    SpelledAs N s rest t := by
  cases h with
  | null => rfl
  | bool => rfl
  | number h => exact ⟨h, rfl⟩
  | @string text? body _ h =>
    cases text? with
    | none => exact (ht rfl).elim
    | some text => exact ⟨body, h, rfl⟩
  | list h => exact ⟨_, h, rfl⟩
  | object h =>
    rw [Tree.ofMembers?] at ht ⊢
    split
    · next members hm => exact ⟨_, eq_named_of_mapM hm ▸ h, rfl⟩
    · next hm =>
      rw [hm] at ht
      exact (ht rfl).elim

end ListingSnapshot.Json
