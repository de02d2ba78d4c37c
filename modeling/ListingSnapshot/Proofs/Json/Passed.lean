import ListingSnapshot.Proofs.Json.Leads

/-!
# Values that are passed over

A value is passed over exactly if it is spelled as the grammar says, with its strings looked at in
their form only. The reader keeps a list of open brackets instead of calling itself, so there is
nothing in it that follows a tree. The proof relates the list to the grammar: open brackets demand
of the text, from the innermost outwards, the items that are missing and the closing bracket.

## Main definitions

* `Json.Closes`: what open brackets demand of the text.

## Main results

* `Json.Reader.exists_of_run_passValue`, `Json.Reader.run_passValue`: passing over a value.
-/

namespace ListingSnapshot.Json

/-! ### Values without parts -/

theorem Passable.exists_lenient {body : Bytes} (h : Passable body) :
    ∃ text?, Lenient text? body := by
  by_cases htext : ∃ cs, SpellsChars cs body
  · obtain ⟨cs, hcs⟩ := htext
    exact ⟨some (String.ofList cs), by rwa [Lenient, String.toList_ofList]⟩
  · exact ⟨none, h, fun cs hcs => htext ⟨cs, hcs⟩⟩

namespace Reader

theorem exists_of_run_passScalar {s rest : Bytes} {u : Unit}
    (h : passScalar.run s = .value u rest) : ∃ t, Spells Lenient t (unblank s) rest := by
  rw [passScalar, run_bind_eq_value_iff] at h
  obtain ⟨kind, middle, hlead, h⟩ := h
  obtain ⟨b, m, hs, hb, rfl⟩ := run_lead_eq_value_iff.mp hlead
  rw [hs]
  cases kind with
  | null => exact ⟨.null, eq_of_run_null hb h ▸ .null⟩
  | bool value => exact ⟨.bool value, eq_of_run_bool hb h ▸ .bool⟩
  | string =>
    obtain rfl := Lead.eq_quote hb
    dsimp only at h
    rw [run_bind_of_value _ (run_pass _), List.tail_cons, run_passText_eq_value_iff] at h
    obtain ⟨body, hbody, rfl⟩ := h
    obtain ⟨text?, htext⟩ := hbody.exists_lenient
    exact ⟨_, .string htext⟩
  | minus =>
    obtain rfl := Lead.eq_minus hb
    dsimp only at h
    rw [run_bind_of_value _ (run_pass _), List.tail_cons] at h
    obtain ⟨cs, hcs, rfl⟩ := exists_of_run_passNumber h
    exact ⟨_, .number (isNumber_iff.mpr (Or.inr ⟨cs, hcs, rfl⟩))⟩
  | digit =>
    obtain ⟨cs, hcs, hm⟩ := exists_of_run_passNumber h
    rw [hm]
    exact ⟨_, .number (isNumber_iff.mpr (Or.inl hcs))⟩
  | container kind => cases h
  | other => cases h

/-- Of a spelled value without parts the start is the whole. -/
theorem run_passScalar {t : Tree} {s rest : Bytes} (h : Spells Lenient t s rest)
    (hr : Delimited rest) (hs : ∀ b ∈ s.head?, ∀ kind, Lead.ofByte b ≠ .container kind) :
    passScalar.run s = .value () rest := by
  have hblank := h.unblank_eq
  cases h with
  | null =>
    rw [passScalar, run_bind_of_value _ (run_lead_of_unblank hblank)]
    exact run_null rest
  | @bool value =>
    have hrun := run_bool value rest
    cases value <;>
      · rw [passScalar, run_bind_of_value _ (run_lead_of_unblank hblank)]
        exact hrun
  | @number cs _ h =>
    rcases isNumber_iff.mp h with hm | ⟨magnitude, hm, rfl⟩
    · obtain ⟨c, ds, hc, rfl⟩ := hm.exists_cons
      have hrun := run_passNumber hm hr
      rw [encode_cons_of_lt hc.lt, List.cons_append] at hblank hrun ⊢
      rw [passScalar, run_bind_of_value _ (run_lead_of_unblank hblank),
        Lead.ofByte_of_isDigit (isDigit_byte hc)]
      exact hrun
    · rw [encode_cons_of_lt (by decide), List.cons_append] at hblank ⊢
      rw [passScalar, run_bind_of_value _ (run_lead_of_unblank hblank)]
      exact run_passNumber hm hr
  | string h =>
    rw [List.cons_append] at hblank ⊢
    rw [passScalar, run_bind_of_value _ (run_lead_of_unblank hblank)]
    exact run_passText_eq_value_iff.mpr ⟨_, Lenient.passable h, rfl⟩
  | list _ => exact (hs _ rfl .list rfl).elim
  | object _ => exact (hs _ rfl .object rfl).elim

/-! ### Openings -/

theorem run_openBracket?_opening (kind : Container) (s : Bytes) :
    openBracket?.run (byte kind.opening :: s) = .value (some kind) s := by
  cases kind <;> rfl

theorem run_openBracket?_none {s : Bytes}
    (h : ∀ b ∈ s.head?, ∀ kind, Lead.ofByte b ≠ .container kind) :
    openBracket?.run s = .value none s := by
  have hnone (kind : Container) : (take? (· = byte kind.opening)).run s = .value none s := by
    refine run_take?_eq_none_iff.mpr ⟨fun b hb => decide_eq_false fun heq => ?_, rfl⟩
    exact h b hb kind (heq ▸ Lead.ofByte_opening kind)
  rw [openBracket?, run_bind_of_value _ (hnone .list), run_bind_of_value _ (hnone .object)]
  rfl

theorem exists_of_run_openBracket? {s rest : Bytes} {kind? : Option Container}
    (h : openBracket?.run s = .value kind? rest) :
    (kind? = none ∧ rest = s) ∨ ∃ kind, kind? = some kind ∧ s = byte kind.opening :: rest := by
  rw [openBracket?, run_bind_eq_value_iff] at h
  obtain ⟨b?, middle, hb, h⟩ := h
  cases b? with
  | some b =>
    obtain ⟨hlist, rfl⟩ := run_take?_eq_some_iff.mp hb
    obtain ⟨rfl, rfl⟩ := Outcome.value.inj h
    exact Or.inr ⟨.list, rfl, congrArg (· :: _) (of_decide_eq_true hlist)⟩
  | none =>
    obtain ⟨_, rfl⟩ := run_take?_eq_none_iff.mp hb
    dsimp only at h
    rw [run_bind_eq_value_iff] at h
    obtain ⟨c?, behind, hc, h⟩ := h
    cases c? with
    | some c =>
      obtain ⟨hobject, rfl⟩ := run_take?_eq_some_iff.mp hc
      obtain ⟨rfl, rfl⟩ := Outcome.value.inj h
      exact Or.inr ⟨.object, rfl, congrArg (· :: _) (of_decide_eq_true hobject)⟩
    | none =>
      obtain ⟨_, rfl⟩ := run_take?_eq_none_iff.mp hc
      obtain ⟨rfl, rfl⟩ := Outcome.value.inj h
      exact Or.inl ⟨rfl, rfl⟩

theorem run_passStart_opening {kind : Container} {s m : Bytes}
    (hs : unblank s = byte kind.opening :: m) : passStart.run s = .value (some kind) m := by
  rw [passStart, run_bind_of_value _ (run_passWhile_isBlank s), hs,
    run_bind_of_value _ (run_openBracket?_opening kind m)]
  rfl

theorem run_passStart_scalar {s rest : Bytes}
    (hs : ∀ b ∈ (unblank s).head?, ∀ kind, Lead.ofByte b ≠ .container kind)
    (h : passScalar.run (unblank s) = .value () rest) : passStart.run s = .value none rest := by
  rw [passStart, run_bind_of_value _ (run_passWhile_isBlank s),
    run_bind_of_value _ (run_openBracket?_none hs)]
  exact run_bind_of_value _ h

theorem exists_of_run_passStart {s rest : Bytes} {kind? : Option Container}
    (h : passStart.run s = .value kind? rest) :
    (kind? = none ∧ ∃ t, Spells Lenient t (unblank s) rest) ∨
      ∃ kind, kind? = some kind ∧ unblank s = byte kind.opening :: rest := by
  rw [passStart, run_bind_of_value _ (run_passWhile_isBlank s), run_bind_eq_value_iff] at h
  obtain ⟨opening?, middle, hopening, h⟩ := h
  rcases exists_of_run_openBracket? hopening with ⟨rfl, rfl⟩ | ⟨kind, rfl, hs⟩
  · dsimp only at h
    rw [run_bind_eq_value_iff] at h
    obtain ⟨_, _, hscalar, h⟩ := h
    obtain ⟨rfl, rfl⟩ := Outcome.value.inj h
    refine Or.inl ⟨rfl, ?_⟩
    have := exists_of_run_passScalar hscalar
    rwa [unblank_unblank] at this
  · obtain ⟨rfl, rfl⟩ := Outcome.value.inj h
    exact Or.inr ⟨kind, rfl, hs⟩

end Reader

/-! ### Open brackets -/

/-- What a bracket of this kind encloses from here on, its closing bracket included. -/
inductive Encloses (first : Bool) : Container → Bytes → Bytes → Prop
  | list {items : List Tree} {s rest : Bytes}
      (h : Items (Spells Lenient) first items s rest) : Encloses first .list s rest
  | object {members : List (Option String × Tree)} {s rest : Bytes}
      (h : Members Lenient (Spells Lenient) first members s rest) : Encloses first .object s rest

/-- What open brackets demand of the text. -/
inductive Closes : Reader.OpenBrackets → Bytes → Bytes → Prop
  | nil {fresh : Bool} {s : Bytes} : Closes ⟨fresh, []⟩ s s
  | cons {fresh : Bool} {kind : Container} {outer : List Container} {s middle rest : Bytes}
      (h : Encloses fresh kind s middle) (ho : Closes ⟨false, outer⟩ middle rest) :
      Closes ⟨fresh, kind :: outer⟩ s rest

theorem Encloses.spells {kind : Container} {s rest : Bytes} (h : Encloses true kind s rest) :
    ∃ t, Spells Lenient t (byte kind.opening :: s) rest := by
  cases h with
  | list h => exact ⟨_, .list h⟩
  | object h => exact ⟨_, .object h⟩

namespace Reader

/-- The brackets that are open behind the start of a value inside of others. -/
def entered (kind? : Option Container) (outer : List Container) : OpenBrackets :=
  match kind? with
  | none => ⟨false, outer⟩
  | some kind => ⟨true, kind :: outer⟩

theorem run_passItem_eq_value_iff {kind : Container} {outer : List Container}
    {turn : Turn OpenBrackets Unit} {s rest : Bytes} :
    (passItem kind outer).run s = .value turn rest ↔
      ∃ kind?, (passItemStart kind).run s = .value kind? rest ∧
        turn = .again (entered kind? (kind :: outer)) := by
  rw [passItem, run_bind_eq_value_iff]
  constructor
  · rintro ⟨kind?, middle, hstart, h⟩
    cases kind? with
    | none =>
      obtain ⟨rfl, rfl⟩ := Outcome.value.inj h
      exact ⟨none, hstart, rfl⟩
    | some inner =>
      obtain ⟨rfl, rfl⟩ := Outcome.value.inj h
      exact ⟨some inner, hstart, rfl⟩
  · rintro ⟨kind?, hstart, rfl⟩
    exact ⟨kind?, rest, hstart, by cases kind? <;> rfl⟩

/-- What is passed over from the start of a value on is the whole of it, if the brackets that it
opens are closed. -/
theorem exists_of_closes_entered {kind? : Option Container} {outer : List Container}
    {s middle rest : Bytes} (hstart : passStart.run s = .value kind? middle)
    (hc : Closes (entered kind? outer) middle rest) :
    ∃ t behind, Spells Lenient t (unblank s) behind ∧ Closes ⟨false, outer⟩ behind rest := by
  rcases exists_of_run_passStart hstart with ⟨rfl, t, ht⟩ | ⟨kind, rfl, hs⟩
  · exact ⟨t, middle, ht, hc⟩
  · cases hc with
    | cons h ho =>
      obtain ⟨t, ht⟩ := h.spells
      exact ⟨t, _, hs ▸ ht, ho⟩

theorem run_passItemStart_object_eq_value_iff {kind? : Option Container} {s rest : Bytes} :
    (passItemStart .object).run s = .value kind? rest ↔
      ∃ body behind s', Passable body ∧ unblank s = byte '"' :: body ++ byte '"' :: behind ∧
        unblank behind = byte ':' :: s' ∧ passStart.run s' = .value kind? rest := by
  rw [passItemStart, run_bind, run_blanks]
  cases hs : unblank s with
  | nil => simp [continueWith]
  | cons b m =>
    simp only [continueWith, List.head?_cons, List.cons_append, List.cons.injEq]
    split
    · next hb =>
      rw [run_bind_of_value _ (run_pass _), List.tail_cons]
      simp only [run_bind_eq_value_iff, run_passText_eq_value_iff, run_colon_eq_value_iff]
      constructor
      · rintro ⟨_, behind, ⟨body, hbody, hm⟩, _, s', hcolon, hstart⟩
        exact ⟨body, behind, s', hbody, ⟨hb, hm⟩, hcolon, hstart⟩
      · rintro ⟨body, behind, s', hbody, ⟨_, hm⟩, hcolon, hstart⟩
        exact ⟨(), behind, ⟨body, hbody, hm⟩, (), s', hcolon, hstart⟩
    · next hb =>
      refine iff_of_false (by simp) ?_
      rintro ⟨_, _, _, _, ⟨h, _⟩, _⟩
      exact hb h

/-- A turn inside a bracket meets the closing bracket or starts another item. -/
theorem cases_of_run_passTurn {fresh : Bool} {kind : Container} {outer : List Container}
    {turn : Turn OpenBrackets Unit} {s rest : Bytes}
    (h : (passTurn ⟨fresh, kind :: outer⟩).run s = .value turn rest) :
    (unblank s = byte kind.closing :: rest ∧ turn = .again ⟨false, outer⟩) ∨
      ∃ s', Separated fresh s (unblank s') ∧ (passItem kind outer).run s' = .value turn rest := by
  rw [passTurn, run_bind_of_value _ (run_passWhile_isBlank s), run_bind_eq_value_iff] at h
  obtain ⟨closing?, behind, hclosing, h⟩ := h
  cases closing? with
  | some closing =>
    obtain ⟨htest, hs⟩ := run_take?_eq_some_iff.mp hclosing
    obtain rfl := of_decide_eq_true htest
    obtain ⟨rfl, rfl⟩ := Outcome.value.inj h
    exact Or.inl ⟨hs, rfl⟩
  | none =>
    obtain ⟨_, rfl⟩ := run_take?_eq_none_iff.mp hclosing
    dsimp only at h
    rw [run_bind_eq_value_iff] at h
    obtain ⟨b?, _, hpeek, h⟩ := h
    obtain ⟨hb, rfl⟩ := Outcome.value.inj hpeek
    cases b? with
    | none => cases h
    | some b =>
      dsimp only at h
      split at h
      · next hfresh =>
        subst hfresh
        exact Or.inr ⟨unblank s, unblank_unblank s, h⟩
      · next hfresh =>
        rw [Bool.not_eq_true] at hfresh
        subst hfresh
        rw [run_bind_eq_value_iff] at h
        obtain ⟨comma?, last, hcomma, h⟩ := h
        cases comma? with
        | none => cases h
        | some comma =>
          obtain ⟨htest, hs⟩ := run_take?_eq_some_iff.mp hcomma
          obtain rfl := of_decide_eq_true htest
          exact Or.inr ⟨last, ⟨last, hs, rfl⟩, h⟩

theorem closes_of_run_passItemStart {first : Bool} {kind : Container} {outer : List Container}
    {kind? : Option Container} {s s' middle rest : Bytes} (hs : Separated first s (unblank s'))
    (hstart : (passItemStart kind).run s' = .value kind? middle)
    (hc : Closes (entered kind? (kind :: outer)) middle rest) :
    Closes ⟨first, kind :: outer⟩ s rest := by
  cases kind with
  | list =>
    obtain ⟨t, behind, ht, hclosing⟩ := exists_of_closes_entered hstart hc
    cases hclosing with
    | cons h ho =>
      cases h with
      | list h => exact .cons (.list (.cons hs ht h)) ho
  | object =>
    obtain ⟨body, behind, s'', hbody, hname, hcolon, hvalue⟩ :=
      run_passItemStart_object_eq_value_iff.mp hstart
    obtain ⟨t, last, ht, hclosing⟩ := exists_of_closes_entered hvalue hc
    obtain ⟨name?, hn⟩ := hbody.exists_lenient
    rw [hname] at hs
    cases hclosing with
    | cons h ho =>
      cases h with
      | object h => exact .cons (.object (.cons hs hn hcolon ht h)) ho

/-- If what is open after a turn is closed by the text behind it, then what is open before it is
closed by the whole text. -/
theorem closes_of_run_passTurn {brackets next : OpenBrackets} {s middle rest : Bytes}
    (h : (passTurn brackets).run s = .value (.again next) middle)
    (hc : Closes next middle rest) : Closes brackets s rest := by
  obtain ⟨fresh, kinds⟩ := brackets
  cases kinds with
  | nil => cases h
  | cons kind outer =>
    rcases cases_of_run_passTurn h with ⟨hs, hturn⟩ | ⟨s', hs, hitem⟩
    · obtain rfl := Turn.again.inj hturn
      refine .cons ?_ hc
      cases kind with
      | list => exact .list (.nil hs)
      | object => exact .object (.nil hs)
    · obtain ⟨kind?, hstart, hturn⟩ := run_passItem_eq_value_iff.mp hitem
      obtain rfl := Turn.again.inj hturn
      exact closes_of_run_passItemStart hs hstart hc

/-- The last turn comes when nothing is open. -/
theorem closes_of_run_passTurn_done {brackets : OpenBrackets} {s rest : Bytes} {u : Unit}
    (h : (passTurn brackets).run s = .value (.done u) rest) : Closes brackets s rest := by
  obtain ⟨fresh, kinds⟩ := brackets
  cases kinds with
  | nil =>
    obtain ⟨_, rfl⟩ := Outcome.value.inj h
    exact .nil
  | cons kind outer =>
    rcases cases_of_run_passTurn h with ⟨_, hturn⟩ | ⟨s', _, hitem⟩
    · cases hturn
    · obtain ⟨_, _, hturn⟩ := run_passItem_eq_value_iff.mp hitem
      cases hturn

/-- What is passed over is spelled as a value. -/
theorem exists_of_run_passValue {s rest : Bytes} {u : Unit}
    (h : passValue.run s = .value u rest) : ∃ t, Spells Lenient t (unblank s) rest := by
  rw [passValue, run_bind_eq_value_iff] at h
  obtain ⟨kind?, middle, hstart, h⟩ := h
  have hc : Closes (entered kind? []) middle rest := by
    cases kind? with
    | none =>
      obtain ⟨_, rfl⟩ := Outcome.value.inj h
      exact .nil
    | some kind =>
      exact iterate_induct (P := fun brackets s _ rest => Closes brackets s rest)
        (fun _ _ _ _ hturn => closes_of_run_passTurn_done hturn)
        (fun _ _ _ _ _ _ hturn hc => closes_of_run_passTurn hturn hc) h
  obtain ⟨t, behind, ht, hclosing⟩ := exists_of_closes_entered hstart hc
  cases hclosing
  exact ⟨t, ht⟩

/-! ### From the grammar to the reader -/

/-- The loop that closes what is open. -/
def passOpen (brackets : OpenBrackets) : Reader Unit :=
  iterate passTurn takes_passTurn brackets

/-- Passing over a value comes down to its start and to closing what that opens. -/
def Passes (s rest : Bytes) : Prop :=
  ∀ s', unblank s' = s → ∃ kind? middle, passStart.run s' = .value kind? middle ∧
    ∀ outer, (passOpen (entered kind? outer)).run middle = (passOpen ⟨false, outer⟩).run rest

theorem passes_of_spells_scalar {t : Tree} {s rest : Bytes} (h : Spells Lenient t s rest)
    (hr : Delimited rest) (hs : ∀ b ∈ s.head?, ∀ kind, Lead.ofByte b ≠ .container kind) :
    Passes s rest := by
  rintro s' rfl
  exact ⟨none, rest, run_passStart_scalar hs (run_passScalar h hr hs), fun _ => rfl⟩

theorem passes_opening {kind : Container} {s rest : Bytes}
    (h : ∀ outer, (passOpen ⟨true, kind :: outer⟩).run s = (passOpen ⟨false, outer⟩).run rest) :
    Passes (byte kind.opening :: s) rest := by
  intro s' hs'
  exact ⟨some kind, s, run_passStart_opening hs', h⟩

theorem run_passOpen_closing {fresh : Bool} {kind : Container} {s rest : Bytes}
    (hs : unblank s = byte kind.closing :: rest) (outer : List Container) :
    (passOpen ⟨fresh, kind :: outer⟩).run s = (passOpen ⟨false, outer⟩).run rest := by
  refine run_iterate_of_again ?_
  rw [passTurn, run_bind_of_value _ (run_passWhile_isBlank s), hs, run_bind_of_value _
    (run_take?_eq_some_iff.mpr ⟨decide_eq_true rfl, rfl⟩)]
  rfl

theorem closing_ne_of_ofByte {b : UInt8} (hb : Lead.ofByte b ≠ .other) (kind : Container) :
    b ≠ byte kind.closing := by
  rintro rfl
  cases kind <;> exact hb rfl

/-- In front of an item, a turn starts to pass over it. -/
theorem exists_run_passTurn {first : Bool} {kind : Container} {s m : Bytes} {b : UInt8}
    (hs : Separated first s (b :: m)) (hb : Lead.ofByte b ≠ .other) (outer : List Container) :
    ∃ s', unblank s' = b :: m ∧
      (passTurn ⟨first, kind :: outer⟩).run s = (passItem kind outer).run s' := by
  have hne := closing_ne_of_ofByte hb kind
  cases first with
  | true =>
    have hs : unblank s = b :: m := hs.symm
    have hblank : unblank (b :: m) = b :: m := by rw [← hs, unblank_unblank]
    refine ⟨b :: m, hblank, ?_⟩
    rw [passTurn, run_bind_of_value _ (run_passWhile_isBlank s), hs]
    simp [run_bind, continueWith, hne]
  | false =>
    obtain ⟨m', hs, hm⟩ := hs
    have hcomma : byte ',' ≠ byte kind.closing := by cases kind <;> decide
    refine ⟨m', hm.symm, ?_⟩
    rw [passTurn, run_bind_of_value _ (run_passWhile_isBlank s), hs]
    simp [run_bind, continueWith, hcomma]

theorem run_passOpen_items {first : Bool} {items : List Tree} {s rest : Bytes}
    (h : Items (fun t s rest => ∃ _ : Spells Lenient t s rest, Delimited rest → Passes s rest)
      first items s rest) (outer : List Container) :
    (passOpen ⟨first, .list :: outer⟩).run s = (passOpen ⟨false, outer⟩).run rest := by
  induction h with
  | nil hs => exact run_passOpen_closing hs outer
  | @cons first item items s s' middle rest hs hi h ih =>
    obtain ⟨hitem, hpasses⟩ := hi
    obtain ⟨b, m, rfl, hb⟩ := hitem.exists_lead
    obtain ⟨s₀, hs₀, hturn⟩ := exists_run_passTurn hs hb outer
    obtain ⟨kind?, behind, hstart, hopen⟩ := hpasses h.delimited s₀ hs₀
    have hitem : (passItemStart .list).run s₀ = .value kind? behind := hstart
    have hagain := hturn.trans (run_passItem_eq_value_iff.mpr ⟨kind?, hitem, rfl⟩)
    rw [passOpen, run_iterate_of_again hagain]
    exact (hopen _).trans ih

theorem run_passOpen_members {first : Bool} {members : List (Option String × Tree)}
    {s rest : Bytes}
    (h : Members Lenient (fun t s rest => ∃ _ : Spells Lenient t s rest,
      Delimited rest → Passes s rest) first members s rest) (outer : List Container) :
    (passOpen ⟨first, .object :: outer⟩).run s = (passOpen ⟨false, outer⟩).run rest := by
  induction h with
  | nil hs => exact run_passOpen_closing hs outer
  | @cons first name? value members s body behind s' middle rest hs hn hc hv h ih =>
    obtain ⟨_, hpasses⟩ := hv
    obtain ⟨s₀, hs₀, hturn⟩ := exists_run_passTurn hs (by decide) outer
    obtain ⟨kind?, last, hstart, hopen⟩ := hpasses h.delimited s' rfl
    have hitem : (passItemStart .object).run s₀ = .value kind? last :=
      run_passItemStart_object_eq_value_iff.mpr
        ⟨body, behind, s', Lenient.passable hn, hs₀, hc, hstart⟩
    have hagain := hturn.trans (run_passItem_eq_value_iff.mpr ⟨kind?, hitem, rfl⟩)
    rw [passOpen, run_iterate_of_again hagain]
    exact (hopen _).trans ih

theorem passes_of_spells {t : Tree} {s rest : Bytes} (h : Spells Lenient t s rest)
    (hr : Delimited rest) : Passes s rest := by
  induction h using Spells.induct with
  | null rest =>
    refine passes_of_spells_scalar .null hr fun b hb kind => ?_
    obtain rfl := Option.some.inj hb
    cases kind <;> decide
  | bool value rest =>
    refine passes_of_spells_scalar .bool hr fun b hb kind => ?_
    cases value <;>
      · obtain rfl := Option.some.inj hb
        cases kind <;> decide
  | number cs rest h =>
    refine passes_of_spells_scalar (.number h) hr fun b hb kind => ?_
    rcases isNumber_iff.mp h with hm | ⟨magnitude, _, rfl⟩
    · obtain ⟨c, ds, hc, rfl⟩ := hm.exists_cons
      rw [encode_cons_of_lt hc.lt] at hb
      obtain rfl := Option.some.inj hb
      rw [Lead.ofByte_of_isDigit (isDigit_byte hc)]
      exact Lead.noConfusion
    · rw [encode_cons_of_lt (by decide)] at hb
      obtain rfl := Option.some.inj hb
      cases kind <;> decide
  | string text? body rest h =>
    refine passes_of_spells_scalar (.string h) hr fun b hb kind => ?_
    obtain rfl := Option.some.inj hb
    cases kind <;> decide
  | list items s rest _ ih => exact passes_opening (run_passOpen_items ih)
  | object members s rest _ ih => exact passes_opening (run_passOpen_members ih)

/-- A value that is spelled as it should be is passed over, and nothing behind it. -/
theorem run_passValue {t : Tree} {s rest : Bytes} (h : Spells Lenient t (unblank s) rest)
    (hr : Delimited rest) : passValue.run s = .value () rest := by
  obtain ⟨kind?, middle, hstart, hopen⟩ := passes_of_spells h hr s rfl
  have hclosed : (passOpen (entered kind? [])).run middle = .value () rest :=
    (hopen []).trans (run_iterate_of_done rfl)
  rw [passValue, run_bind_of_value _ hstart]
  cases kind? with
  | none =>
    rw [entered, passOpen, run_iterate_of_done rfl] at hclosed
    exact hclosed
  | some kind => exact hclosed

end Reader

end ListingSnapshot.Json
