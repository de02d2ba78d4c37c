import ListingSnapshot.Proofs.Json.Escapes

/-!
# Reading strings

A string that is wanted is read exactly if what stands in front of its closing quote spells a text,
and the answer is that text. The reader gathers bytes and checks them at the end, whereas the
grammar goes from character to character; the two agree because an escape always ends one character
and begins another, so no encoding can be put together from an escape and bare bytes.

A string that is passed over only has to have the right form. Whatever spells a text has it, but not
the other way round.

## Main results

* `Json.Reader.run_text_eq_value_iff`: strings that are wanted.
* `Json.Reader.run_passText_eq_value_iff`: strings that are passed over.
* `Json.SpellsChars.passable`: what spells a text can be passed over.
-/

namespace ListingSnapshot.Json

/-! ### Strings that are wanted -/

/-- What a reader gathers from the content of a string: bare bytes, and the encodings of characters
that are escaped. -/
inductive Content : Bytes → Bytes → Prop
  | nil : Content [] []
  | bare {b : UInt8} {bs body : Bytes} (hb : IsBare b) (h : Content bs body) :
      Content (b :: bs) (b :: body)
  | escaped {c : Char} {e bs body : Bytes} (he : SpellsEscape c e) (h : Content bs body) :
      Content (String.utf8EncodeChar c ++ bs) (byte '\\' :: e ++ body)

namespace Reader

theorem run_contentTurn_eq_done_iff {gathered bs s rest : Bytes} :
    (contentTurn gathered).run s = .value (.done bs) rest ↔
      s = byte '"' :: rest ∧ bs = gathered.reverse := by
  rw [contentTurn, run_bind, run_next?]
  cases s with
  | nil => simp [continueWith]
  | cons b s =>
    simp only [continueWith, List.head?_cons, List.tail_cons, List.cons.injEq]
    split
    · next hb => simp [hb, and_comm, eq_comm]
    · next hb =>
      refine iff_of_false (fun h => ?_) (fun h => hb h.1.1)
      split at h
      · obtain ⟨_, _, _, h⟩ := run_bind_eq_value_iff.mp h
        cases h
      split at h
      · cases h
      · cases h

theorem run_contentTurn_bare {b : UInt8} (hb : IsBare b) (gathered s : Bytes) :
    (contentTurn gathered).run (b :: s) = .value (.again (b :: gathered)) s := by
  obtain ⟨hcontrol, hquote, hbackslash⟩ := hb
  simp [contentTurn, run_bind, continueWith, hquote, hbackslash, UInt8.not_lt.mpr hcontrol]

theorem run_contentTurn_escaped {c : Char} {e : Bytes} (he : SpellsEscape c e)
    (gathered s : Bytes) : (contentTurn gathered).run (byte '\\' :: e ++ s) =
      .value (.again ((String.utf8EncodeChar c).reverse ++ gathered)) s := by
  have hne : byte '\\' ≠ byte '"' := by decide
  have hescape : escape.run (e ++ s) = .value (String.utf8EncodeChar c) s :=
    run_escape_eq_value_iff.mpr ⟨c, e, he, rfl, rfl⟩
  simp only [contentTurn, run_bind, run_next?, continueWith, List.cons_append, List.head?_cons,
    List.tail_cons, if_neg hne, if_true, hescape]
  rfl

theorem run_contentTurn_eq_again_iff {gathered next s rest : Bytes} :
    (contentTurn gathered).run s = .value (.again next) rest ↔
      (∃ b, IsBare b ∧ s = b :: rest ∧ next = b :: gathered) ∨
        ∃ c e, SpellsEscape c e ∧ s = byte '\\' :: e ++ rest ∧
          next = (String.utf8EncodeChar c).reverse ++ gathered := by
  rw [contentTurn, run_bind, run_next?]
  constructor
  · intro h
    cases s with
    | nil => cases h
    | cons b s =>
      simp only [continueWith, List.head?_cons, List.tail_cons] at h
      split at h
      · cases h
      next hquote =>
      split at h
      · next hbackslash =>
        obtain ⟨bs, _, hescape, hpure⟩ := run_bind_eq_value_iff.mp h
        obtain ⟨c, e, he, rfl, rfl⟩ := run_escape_eq_value_iff.mp hescape
        rw [run_pure, Outcome.value.injEq, Turn.again.injEq] at hpure
        obtain ⟨rfl, rfl⟩ := hpure
        exact Or.inr ⟨c, e, he, by rw [hbackslash]; rfl, rfl⟩
      next hbackslash =>
      split at h
      · cases h
      next hcontrol =>
      rw [run_pure, Outcome.value.injEq, Turn.again.injEq] at h
      obtain ⟨rfl, rfl⟩ := h
      exact Or.inl ⟨b, ⟨UInt8.not_lt.mp hcontrol, hquote, hbackslash⟩, rfl, rfl⟩
  · rintro (⟨b, hb, rfl, rfl⟩ | ⟨c, e, he, rfl, rfl⟩)
    · exact run_contentTurn_bare hb gathered rest
    · exact run_contentTurn_escaped he gathered rest

theorem run_content_eq_value_iff {bs s rest : Bytes} :
    content.run s = .value bs rest ↔ ∃ body, Content bs body ∧ s = body ++ byte '"' :: rest := by
  constructor
  · intro h
    have hgathered : ∃ more body, Content more body ∧ s = body ++ byte '"' :: rest ∧
        bs = [].reverse ++ more := by
      refine iterate_induct (P := fun gathered s bs rest => ∃ more body, Content more body ∧
        s = body ++ byte '"' :: rest ∧ bs = gathered.reverse ++ more) ?_ ?_ h
      · intro gathered s bs rest h
        obtain ⟨rfl, rfl⟩ := run_contentTurn_eq_done_iff.mp h
        exact ⟨[], [], .nil, rfl, (List.append_nil _).symm⟩
      · rintro gathered s next middle bs rest h ⟨more, body, hbody, rfl, rfl⟩
        rcases run_contentTurn_eq_again_iff.mp h with ⟨b, hb, rfl, rfl⟩ | ⟨c, e, he, rfl, rfl⟩
        · exact ⟨b :: more, b :: body, .bare hb hbody, rfl, by simp⟩
        · exact ⟨_, _, .escaped he hbody, by simp, by simp⟩
    obtain ⟨more, body, hbody, rfl, rfl⟩ := hgathered
    exact ⟨body, hbody, rfl⟩
  · rintro ⟨body, hbody, rfl⟩
    have hgathered (gathered : Bytes) : (iterate contentTurn takes_contentTurn gathered).run
        (body ++ byte '"' :: rest) = .value (gathered.reverse ++ bs) rest := by
      induction hbody generalizing gathered with
      | nil =>
        rw [List.append_nil]
        exact run_iterate_of_done (run_contentTurn_eq_done_iff.mpr ⟨rfl, rfl⟩)
      | @bare b bs body hb _ ih =>
        rw [List.cons_append, run_iterate_of_again (run_contentTurn_bare hb gathered _), ih]
        simp
      | @escaped c e bs body he _ ih =>
        rw [List.append_assoc, run_iterate_of_again (run_contentTurn_escaped he gathered _), ih]
        simp
    exact hgathered []

end Reader

/-- Bytes behind the first of a character were bare, since an escape begins a character. -/
theorem Content.exists_of_append {more bs body : Bytes}
    (hmore : ∀ b ∈ more, 0x80 ≤ b.toNat ∧ b.toNat < 0xC0) (h : Content (more ++ bs) body) :
    ∃ behind, body = more ++ behind ∧ Content bs behind := by
  induction more generalizing body with
  | nil => exact ⟨body, rfl, h⟩
  | cons b more ih =>
    obtain ⟨hb, hmore⟩ := List.forall_mem_cons.mp hmore
    generalize hbs : b :: more ++ bs = whole at h
    cases h with
    | nil => cases hbs
    | bare _ h =>
      obtain ⟨rfl, rfl⟩ := List.cons.inj hbs
      obtain ⟨behind, rfl, hbehind⟩ := ih hmore h
      exact ⟨behind, rfl, hbehind⟩
    | @escaped c e _ _ he h =>
      rcases Utf8.utf8EncodeChar_cases c with ⟨hlt, hc⟩ | ⟨_, lead, others, hc, hlead, _⟩
      · rw [hc] at hbs
        obtain rfl := (List.cons.inj hbs).1
        rw [UInt8.toNat_ofNat'] at hb
        omega
      · rw [hc] at hbs
        obtain rfl := (List.cons.inj hbs).1
        omega

theorem isBare_of_le {b : UInt8} (h : 0x80 ≤ b.toNat) : IsBare b := by
  refine ⟨UInt8.le_iff_toNat_le.mpr (Nat.le_trans (by decide) h), ?_, ?_⟩
  · rintro rfl
    exact absurd h (by decide)
  · rintro rfl
    exact absurd h (by decide)

theorem isBare_ofNat_iff {c : Char} (h : c.toNat < 0x80) :
    IsBare (UInt8.ofNat c.toNat) ↔ '\x20' ≤ c ∧ c ≠ '"' ∧ c ≠ '\\' := by
  have hmod : (UInt8.ofNat c.toNat).toNat = c.toNat := by
    rw [UInt8.toNat_ofNat']
    omega
  have heq (d : Char) (hd : d.toNat < 0x80) : UInt8.ofNat c.toNat = byte d ↔ c = d := by
    rw [← UInt8.toNat_inj, hmod, byte, UInt8.toNat_ofNat', Nat.mod_eq_of_lt (by omega),
      Char.toNat_inj]
  rw [IsBare, ne_eq, ne_eq, heq '"' (by decide), heq '\\' (by decide), UInt8.le_iff_toNat_le, hmod]
  rfl

theorem utf8EncodeChar_append_ne_nil (c : Char) (bs : Bytes) :
    String.utf8EncodeChar c ++ bs ≠ [] := by
  obtain ⟨lead, more, he, _⟩ := Utf8.exists_utf8EncodeChar_eq_cons c
  rw [he]
  exact List.cons_ne_nil _ _

/-- The bytes gathered are the encoding of a text only if the content goes from character to
character. -/
theorem Content.spellsChars {cs : List Char} {body : Bytes} (h : Content (Utf8.encode cs) body) :
    SpellsChars cs body := by
  generalize hbs : Utf8.encode cs = bs at h
  induction cs generalizing bs body with
  | nil =>
    cases h with
    | nil => exact .nil
    | bare _ _ => cases hbs
    | escaped _ _ => exact (utf8EncodeChar_append_ne_nil _ _ hbs.symm).elim
  | cons c cs ih =>
    rw [Utf8.encode_cons] at hbs
    cases h with
    | nil => exact (utf8EncodeChar_append_ne_nil _ _ hbs).elim
    | @bare b bs body hb h =>
      rcases Utf8.utf8EncodeChar_cases c with ⟨hlt, hc⟩ | ⟨hle, lead, more, hc, _, hmore⟩
      · rw [hc] at hbs
        obtain ⟨rfl, rfl⟩ := List.cons.inj hbs
        have := SpellsChars.bare ((isBare_ofNat_iff hlt).mp hb) (ih _ rfl h)
        rwa [hc] at this
      · rw [hc] at hbs
        obtain ⟨rfl, rfl⟩ := List.cons.inj hbs
        obtain ⟨behind, rfl, hbehind⟩ := h.exists_of_append hmore
        have hbare : '\x20' ≤ c ∧ c ≠ '"' ∧ c ≠ '\\' := by
          refine ⟨Nat.le_trans (by decide) hle, ?_, ?_⟩
          · rintro rfl
            exact absurd hle (by decide)
          · rintro rfl
            exact absurd hle (by decide)
        have := SpellsChars.bare hbare (ih _ rfl hbehind)
        rwa [hc] at this
    | @escaped d e bs body he h =>
      have hd := congrArg Utf8.decodeChar? hbs
      rw [Utf8.decodeChar?_append, Utf8.decodeChar?_append] at hd
      obtain ⟨rfl, rfl⟩ := Prod.mk.inj (Option.some.inj hd)
      exact .escaped he (ih _ rfl h)

theorem Content.append {more bs body : Bytes} (hmore : ∀ b ∈ more, IsBare b)
    (h : Content bs body) : Content (more ++ bs) (more ++ body) := by
  induction more with
  | nil => exact h
  | cons b more ih =>
    obtain ⟨hb, hmore⟩ := List.forall_mem_cons.mp hmore
    exact .bare hb (ih hmore)

theorem isBare_of_mem_utf8EncodeChar {c : Char} (hc : '\x20' ≤ c ∧ c ≠ '"' ∧ c ≠ '\\') :
    ∀ b ∈ String.utf8EncodeChar c, IsBare b := by
  rcases Utf8.utf8EncodeChar_cases c with ⟨hlt, he⟩ | ⟨_, lead, more, he, hlead, hmore⟩
  · rw [he, List.forall_mem_singleton]
    exact (isBare_ofNat_iff hlt).mpr hc
  · rw [he, List.forall_mem_cons]
    exact ⟨isBare_of_le (by omega), fun b hb => isBare_of_le (hmore b hb).1⟩

theorem SpellsChars.content {cs : List Char} {body : Bytes} (h : SpellsChars cs body) :
    Content (Utf8.encode cs) body := by
  induction h with
  | nil => exact .nil
  | bare hc _ ih => exact ih.append (isBare_of_mem_utf8EncodeChar hc)
  | escaped he _ ih => exact .escaped he ih

/-- A string that is wanted is the text that its content spells. -/
theorem Reader.run_text_eq_value_iff {text : String} {s rest : Bytes} :
    Reader.text.run s = .value text rest ↔
      ∃ body, SpellsChars text.toList body ∧ s = body ++ byte '"' :: rest := by
  rw [Reader.text, run_bind_eq_value_iff]
  constructor
  · rintro ⟨bs, middle, hbs, h⟩
    obtain ⟨body, hbody, hs⟩ := run_content_eq_value_iff.mp hbs
    split at h
    · next cs hcs =>
      obtain ⟨rfl, rfl⟩ := Outcome.value.inj h
      have := Utf8.encode_append_decodePrefix bs
      rw [hcs, List.append_nil] at this
      exact ⟨body, Content.spellsChars (by rwa [String.toList_ofList, this]), hs⟩
    · cases h
  · rintro ⟨body, hbody, hs⟩
    refine ⟨_, rest, run_content_eq_value_iff.mpr ⟨body, hbody.content, hs⟩, ?_⟩
    have := Utf8.decodePrefix_encode_append text.toList []
    rw [List.append_nil, Utf8.decodePrefix_nil, List.append_nil] at this
    simp [this]

/-! ### Strings that are passed over -/

theorem Passable.append {more body : Bytes} (hmore : ∀ b ∈ more, IsBare b) (h : Passable body) :
    Passable (more ++ body) := by
  induction more with
  | nil => exact h
  | cons b more ih =>
    obtain ⟨hb, hmore⟩ := List.forall_mem_cons.mp hmore
    exact .bare hb (ih hmore)

/-- What spells a text has the form of a string. -/
theorem SpellsChars.passable {cs : List Char} {body : Bytes} (h : SpellsChars cs body) :
    Passable body := by
  induction h with
  | nil => exact .nil
  | bare hc _ ih => exact ih.append (isBare_of_mem_utf8EncodeChar hc)
  | escaped he _ ih =>
    cases he with
    | letter hmem => exact .letter hmem ih
    | unit hu => exact .unit hu ih
    | pair _ _ _ hds hes =>
      have := Passable.unit hds (.unit hes ih)
      simpa using this

theorem Lenient.passable {text? : Option String} {body : Bytes} (h : Lenient text? body) :
    Passable body := by
  cases text? with
  | none => exact h.1
  | some text => exact SpellsChars.passable h

namespace Reader

theorem run_passEscape_eq_value_iff {s rest : Bytes} {u : Unit} :
    passEscape.run s = .value u rest ↔
      (∃ letter c, (letter, c) ∈ escapeLetters ∧ s = byte letter :: rest) ∨
        ∃ unit ds, SpellsUnit unit ds ∧ s = byte 'u' :: ds ++ rest := by
  have hu : plainEscape? (byte 'u') = none := by decide
  constructor
  · intro h
    rw [passEscape, run_bind, run_next?] at h
    cases s with
    | nil => cases h
    | cons b s =>
      simp only [continueWith, List.head?_cons, List.tail_cons] at h
      cases hb : plainEscape? b with
      | some meaning =>
        rw [hb] at h
        obtain ⟨_, rfl⟩ := Outcome.value.inj h
        obtain ⟨letter, c, hmem, rfl, _⟩ := plainEscape?_eq_some_iff.mp hb
        exact Or.inl ⟨letter, c, hmem, rfl⟩
      | none =>
        rw [hb] at h
        dsimp only at h
        split at h
        · next hbu =>
          obtain ⟨unit, hunit, _⟩ := exists_of_run_bind_pure h
          obtain ⟨ds, hds, rfl⟩ := run_codeUnit_eq_value_iff.mp hunit
          exact Or.inr ⟨unit, ds, hds, by rw [hbu]; rfl⟩
        · cases h
  · rintro (⟨letter, c, hmem, rfl⟩ | ⟨unit, ds, hds, rfl⟩)
    · have hletter := plainEscape?_eq_some_iff.mpr ⟨letter, c, hmem, rfl, rfl⟩
      simp only [passEscape, run_bind, run_next?, continueWith, List.head?_cons, List.tail_cons,
        hletter]
      rfl
    · have hunit : codeUnit.run (ds ++ rest) = .value unit rest :=
        run_codeUnit_eq_value_iff.mpr ⟨ds, hds, rfl⟩
      simp only [passEscape, run_bind, run_next?, continueWith, List.cons_append, List.head?_cons,
        List.tail_cons, hu, if_true, hunit]
      rfl

/-- Bytes that may stand by themselves make no difference to what comes behind them. -/
theorem run_passTextTurn_bare {b : UInt8} (hb : IsBare b) (s : Bytes) :
    (passTextTurn ()).run (b :: s) = (passTextTurn ()).run s := by
  obtain ⟨hcontrol, hquote, hbackslash⟩ := hb
  simp [passTextTurn, run_bind, continueWith, hquote, hbackslash, hcontrol]

theorem run_passTextTurn_quote (s : Bytes) :
    (passTextTurn ()).run (byte '"' :: s) = .value (.done ()) s :=
  rfl

theorem run_passTextTurn_backslash (s : Bytes) : (passTextTurn ()).run (byte '\\' :: s) =
    (passEscape >>= fun _ => pure (Turn.again ())).run s :=
  rfl

/-- A turn comes to an end at the first quote or backslash. -/
theorem exists_of_run_passTextTurn {s rest : Bytes} {turn : Turn Unit Unit}
    (h : (passTextTurn ()).run s = .value turn rest) :
    ∃ more, (∀ b ∈ more, IsBare b) ∧ (turn = .done () ∧ s = more ++ byte '"' :: rest ∨
      turn = .again () ∧ ∃ behind, s = more ++ byte '\\' :: behind ∧
        passEscape.run behind = .value () rest) := by
  induction s with
  | nil => cases h
  | cons b s ih =>
    by_cases hb : IsBare b
    · rw [run_passTextTurn_bare hb] at h
      obtain ⟨more, hmore, hs⟩ := ih h
      refine ⟨b :: more, List.forall_mem_cons.mpr ⟨hb, hmore⟩, ?_⟩
      rcases hs with ⟨ht, rfl⟩ | ⟨ht, behind, rfl, he⟩
      · exact Or.inl ⟨ht, rfl⟩
      · exact Or.inr ⟨ht, behind, rfl, he⟩
    refine ⟨[], fun _ hb => (List.not_mem_nil hb).elim, ?_⟩
    by_cases hquote : b = byte '"'
    · subst hquote
      obtain ⟨rfl, rfl⟩ := Outcome.value.inj h
      exact Or.inl ⟨rfl, rfl⟩
    by_cases hbackslash : b = byte '\\'
    · subst hbackslash
      rw [run_passTextTurn_backslash] at h
      obtain ⟨_, he, rfl⟩ := exists_of_run_bind_pure h
      exact Or.inr ⟨rfl, s, rfl, he⟩
    have hcontrol : b < 0x20 := by
      rw [← UInt8.not_le]
      exact fun hle => hb ⟨hle, hquote, hbackslash⟩
    simp [passTextTurn, run_bind, continueWith, hquote, hbackslash,
      UInt8.not_le.mpr hcontrol] at h

theorem run_passText_eq_value_iff {s rest : Bytes} {u : Unit} :
    passText.run s = .value u rest ↔ ∃ body, Passable body ∧ s = body ++ byte '"' :: rest := by
  constructor
  · intro h
    refine iterate_induct (P := fun _ s _ rest => ∃ body, Passable body ∧
      s = body ++ byte '"' :: rest) ?_ ?_ h
    · intro _ s _ rest h
      obtain ⟨more, hmore, ⟨_, hs⟩ | ⟨ht, _⟩⟩ := exists_of_run_passTextTurn h
      · exact ⟨more, by simpa using Passable.nil.append hmore, hs⟩
      · cases ht
    · rintro _ s next middle _ rest h ⟨body, hbody, rfl⟩
      obtain ⟨more, hmore, ⟨ht, _⟩ | ⟨_, behind, rfl, he⟩⟩ := exists_of_run_passTextTurn h
      · cases ht
      rcases run_passEscape_eq_value_iff.mp he with ⟨letter, c, hmem, rfl⟩ | ⟨unit, ds, hds, rfl⟩
      · exact ⟨_, (Passable.letter hmem hbody).append hmore, by simp⟩
      · exact ⟨_, (Passable.unit hds hbody).append hmore, by simp⟩
  · rintro ⟨body, hbody, rfl⟩
    induction hbody with
    | nil => exact run_iterate_of_done (run_passTextTurn_quote rest)
    | @bare b body hb _ ih =>
      rw [passText, run_iterate] at ih ⊢
      rwa [List.cons_append, run_passTextTurn_bare hb]
    | @letter letter c body hmem _ ih =>
      have he : passEscape.run (byte letter :: (body ++ byte '"' :: rest)) = .value () _ :=
        run_passEscape_eq_value_iff.mpr (Or.inl ⟨letter, c, hmem, rfl⟩)
      exact (run_iterate_of_again (run_bind_of_value _ he)).trans ih
    | @unit unit ds body hu _ ih =>
      have he : passEscape.run (byte 'u' :: ds ++ (body ++ byte '"' :: rest)) = .value () _ :=
        run_passEscape_eq_value_iff.mpr (Or.inr ⟨unit, ds, hu, rfl⟩)
      rw [← ih, List.append_assoc]
      exact run_iterate_of_again (run_bind_of_value _ he)

end Reader

end ListingSnapshot.Json
