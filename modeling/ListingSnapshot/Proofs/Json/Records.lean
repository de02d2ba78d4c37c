import ListingSnapshot.Proofs.Json.Readings

/-!
# Reading lists and records

The items of a list are read by a loop, and so are the members of an object. A step lemma says what
one turn of the loop makes of one item or member; induction along the spelled items or members, and
along the turns, says the same of all of them.

A record gathers its members into a draft. What is known about the draft at the end is put down as
`Gathers`: the steps from the first member to the last, each from the draft that the one before it
led to.

## Main definitions

* `Json.Reader.ReadsItems`, `Json.Reader.ReadsMembers`: what the body of a record makes of the items
  of a list, and of the members of an object.
* `Json.Reader.ReadsMember`, `Json.Reader.ReadsMemberOnly`: what is made of the value behind a name,
  and what value is needed for it.
* `Json.Reader.next`: how lists and objects go on.
* `Json.Reader.Gathers`: what comes of the members of an object, one after the other.

## Main results

* `Json.Reader.ReadsOnly.exists_items`, `Json.Reader.exists_members`: what is read comes from items
  or members that are spelled.
* `Json.Reader.Reads.list`: a list of values of one type.
* `Json.Reader.reads_record`: a record.
* `Json.Reader.readsMembers_members`: the members of an object.
-/

namespace ListingSnapshot.Json.Reader

variable {σ α β : Type}

/-! ### Closing brackets -/

/-- A closing bracket is passed if it is there; what is done otherwise does not matter as long as it
gives no answer. -/
theorem run_close_eq_value_iff {b : UInt8} {k : Option UInt8 → Reader Unit}
    (hsome : k (some b) = pure ()) (hnone : ∀ s u rest, (k none).run s ≠ .value u rest)
    {s rest : Bytes} {u : Unit} :
    (passWhile isBlank >>= fun _ => take? (· = b) >>= k).run s = .value u rest ↔
      unblank s = b :: rest := by
  rw [run_bind_of_value _ (run_passWhile_isBlank s), run_bind_eq_value_iff]
  constructor
  · rintro ⟨b?, middle, hb, h⟩
    cases b? with
    | some c =>
      obtain ⟨htest, hs⟩ := run_take?_eq_some_iff.mp hb
      obtain rfl : c = b := of_decide_eq_true htest
      rw [hsome] at h
      obtain ⟨_, rfl⟩ := Outcome.value.inj h
      exact hs
    | none => exact (hnone _ _ _ h).elim
  · intro hs
    refine ⟨some b, rest, run_take?_eq_some_iff.mpr ⟨decide_eq_true rfl, hs⟩, ?_⟩
    rw [hsome]
    rfl

theorem run_closeList_eq_value_iff {s rest : Bytes} {u : Unit} :
    closeList.run s = .value u rest ↔ unblank s = byte ']' :: rest := by
  refine run_close_eq_value_iff rfl fun s u rest h => ?_
  dsimp only at h
  obtain ⟨c?, _, _, h⟩ := run_bind_eq_value_iff.mp h
  cases c? with
  | none => cases h
  | some c =>
    dsimp only at h
    split at h
    · obtain ⟨_, _, _, h⟩ := run_bind_eq_value_iff.mp h
      obtain ⟨d?, _, _, h⟩ := run_bind_eq_value_iff.mp h
      split at h <;> cases h
    · cases h

theorem run_closeObject_eq_value_iff {s rest : Bytes} {u : Unit} :
    closeObject.run s = .value u rest ↔ unblank s = byte '\x7d' :: rest := by
  refine run_close_eq_value_iff rfl fun s u rest h => ?_
  dsimp only at h
  obtain ⟨c?, _, _, h⟩ := run_bind_eq_value_iff.mp h
  cases c? with
  | none => cases h
  | some c =>
    dsimp only at h
    split at h <;> cases h

/-! ### What separates items and members -/

/-- How a list or an object goes on: with `stop` in front of its closing bracket, else with `go`
where the next item or member begins. -/
def next (kind : Container) (first : Bool) (stop : α) (go : Reader α) : Reader α := do
  match ← blanks with
  | none => failNext (.truncated kind.construct)
  | some b =>
    if b = byte kind.closing then return stop
    else if first then go
    else if b = byte ',' then
      pass
      match ← blanks with
      | none => failNext (.truncated .value)
      | some b => if b = byte kind.closing then failNext (.malformed .danglingComma) else go
    else failNext (.malformed (.commaExpected kind))

section Next

variable {kind : Container} {first : Bool} {stop : α} {go : Reader α} {s : Bytes}

/-- Either the closing bracket comes next, or an item or a member does. -/
theorem cases_of_run_next {a : α} {rest : Bytes}
    (h : (next kind first stop go).run s = .value a rest) :
    (a = stop ∧ rest = unblank s ∧ ∃ m, unblank s = byte kind.closing :: m) ∨
      ∃ middle, Separated first s middle ∧ go.run middle = .value a rest := by
  rw [next, run_bind_of_value _ (run_blanks s)] at h
  cases hs : unblank s with
  | nil =>
    rw [hs] at h
    cases h
  | cons b m =>
    rw [hs] at h
    dsimp only [List.head?_cons] at h
    split at h
    · next hb =>
      obtain ⟨rfl, rfl⟩ := Outcome.value.inj h
      exact Or.inl ⟨rfl, rfl, m, by rw [hb]⟩
    split at h
    · next hfirst =>
      subst hfirst
      exact Or.inr ⟨_, hs.symm, h⟩
    next hfirst =>
    rw [Bool.not_eq_true] at hfirst
    subst hfirst
    split at h
    · next hb =>
      rw [run_bind_of_value _ (run_pass _), List.tail_cons, run_bind_of_value _ (run_blanks m)] at h
      cases hm : (unblank m).head? with
      | none =>
        rw [hm] at h
        cases h
      | some c =>
        rw [hm] at h
        dsimp only at h
        split at h
        · cases h
        · exact Or.inr ⟨_, ⟨m, by rw [hs, hb], rfl⟩, h⟩
    · cases h

theorem run_next_closing (kind : Container) {m : Bytes} (hs : unblank s = byte kind.closing :: m) :
    (next kind first stop go).run s = .value stop (byte kind.closing :: m) := by
  rw [next, run_bind_of_value _ (run_blanks_of_unblank hs)]
  simp only [if_true]
  rfl

theorem run_next_of_separated {m : Bytes} {b : UInt8} (hs : Separated first s (b :: m))
    (hb : b ≠ byte kind.closing) : (next kind first stop go).run s = go.run (b :: m) := by
  cases first with
  | true =>
    have hs : unblank s = b :: m := hs.symm
    rw [next, run_bind_of_value _ (run_blanks_of_unblank hs)]
    simp only [if_neg hb, if_true]
  | false =>
    obtain ⟨m', hs, hm⟩ := hs
    have hcomma : byte ',' ≠ byte kind.closing := by cases kind <;> decide
    rw [next, run_bind_of_value _ (run_blanks_of_unblank hs)]
    simp only [if_neg hcomma, Bool.false_eq_true, if_false, if_true]
    rw [run_bind_of_value _ (run_pass _), List.tail_cons,
      run_bind_of_value _ (run_blanks_of_unblank hm.symm)]
    simp only [if_neg hb]

end Next

theorem nextItem_eq (first : Bool) : nextItem first = next .list first false (pure true) :=
  rfl

theorem nextName_eq (first : Bool) :
    nextName first = next .object first none (name >>= fun name => pure (some name)) :=
  rfl

theorem cases_of_run_nextName {first : Bool} {name? : Option String} {s rest : Bytes}
    (h : (nextName first).run s = .value name? rest) :
    (name? = none ∧ rest = unblank s ∧ ∃ m, unblank s = byte '\x7d' :: m) ∨
      ∃ name middle, name? = some name ∧ Separated first s middle ∧
        Reader.name.run middle = .value name rest := by
  rw [nextName_eq] at h
  rcases cases_of_run_next h with hclosing | ⟨middle, hs, hgo⟩
  · exact Or.inl hclosing
  · obtain ⟨name, hname, rfl⟩ := exists_of_run_bind_pure hgo
    exact Or.inr ⟨name, middle, rfl, hs, hname⟩

theorem run_nextName_of_separated {first : Bool} {name : String} {s body behind : Bytes}
    (hs : Separated first s (byte '"' :: body ++ byte '"' :: behind))
    (hn : SpellsChars name.toList body) :
    (nextName first).run s = .value (some name) behind := by
  have hname : Reader.name.run (byte '"' :: (body ++ byte '"' :: behind)) = .value name behind :=
    run_name_eq_value_iff.mpr ⟨body, hn, rfl⟩
  rw [List.cons_append] at hs
  rw [nextName_eq, run_next_of_separated hs (by decide), run_bind_of_value _ hname]
  rfl

/-! ### Items of one type -/

section Items

variable {r : Reader α} {M : Tree → α → Prop}

theorem run_item?_closing {first : Bool} {s m : Bytes} (hs : unblank s = byte ']' :: m) :
    (item? first r).run s = .value none (byte ']' :: m) := by
  rw [item?, nextItem_eq, run_bind_of_value _ (run_next_closing .list hs)]
  rfl

theorem Reads.run_item? (h : r.Reads M) {first : Bool} {t : Tree} {s s' rest : Bytes} {a : α}
    (hs : Separated first s s') (ht : Spells Lenient t s' rest) (hr : Delimited rest)
    (hm : M t a) : (item? first r).run s = .value (some a) rest := by
  obtain ⟨b, m, rfl, hb⟩ := ht.exists_lead
  have hrun : r.run (b :: m) = .value a rest := h.complete (ht.unblank_eq.symm ▸ ht) hr hm
  have hnext : (next .list first false (pure true)).run s = .value true (b :: m) :=
    run_next_of_separated hs (closing_ne_of_ofByte hb .list)
  rw [item?, nextItem_eq, run_bind_of_value _ hnext]
  simp only [if_true]
  rw [run_bind_of_value _ hrun]
  rfl

theorem ReadsOnly.cases_of_run_item? (h : r.ReadsOnly M) {first : Bool} {s rest : Bytes}
    {a? : Option α}
    (hrun : (item? first r).run s = .value a? rest) :
    (a? = none ∧ rest = unblank s ∧ ∃ m, unblank s = byte ']' :: m) ∨
      ∃ a t s', a? = some a ∧ Separated first s s' ∧ Spells Lenient t s' rest ∧ M t a := by
  rw [item?, nextItem_eq, run_bind_eq_value_iff] at hrun
  obtain ⟨more, middle, hnext, hrun⟩ := hrun
  rcases cases_of_run_next hnext with ⟨rfl, rfl, hclosing⟩ | ⟨s', hs, hgo⟩
  · obtain ⟨rfl, rfl⟩ := Outcome.value.inj hrun
    exact Or.inl ⟨rfl, rfl, hclosing⟩
  · obtain ⟨rfl, rfl⟩ := Outcome.value.inj hgo
    simp only [if_true] at hrun
    obtain ⟨a, ha, rfl⟩ := exists_of_run_bind_pure hrun
    obtain ⟨t, ht, hm⟩ := h.sound ha
    rw [hs.unblank_eq] at ht
    exact Or.inr ⟨a, t, s', rfl, hs, ht, hm⟩

end Items

/-- The body of a record answers with `a` in front of the items of a list if `M` relates `a` to the
items, and it stops somewhere in front of the closing bracket. -/
structure ReadsItems (body : Reader α) (M : List Tree → α → Prop) : Prop where
  complete : ∀ {items s rest a}, Items (Spells Lenient) true items s rest → M items a →
    ∃ middle, body.run s = .value a middle ∧ unblank middle = byte ']' :: rest
  sound : ∀ {s middle rest a}, body.run s = .value a middle → unblank middle = byte ']' :: rest →
    ∃ items, Items (Spells Lenient) true items s rest ∧ M items a

theorem unblank_closing (kind : Container) (s : Bytes) :
    unblank (byte kind.closing :: s) = byte kind.closing :: s := by
  cases kind <;> rfl

theorem Reads.run_items {r : Reader α} {M : Tree → α → Prop} (h : r.Reads M)
    (htakes : r.Takes fun _ => True) (gathered : List α) {items : List Tree} {as : List α}
    {s rest : Bytes} (hitems : Items (Spells Lenient) gathered.isEmpty items s rest)
    (hm : List.Forall₂ M items as) :
    (iterate (itemTurn r) (takes_itemTurn htakes) gathered).run s =
      .value (gathered.reverse ++ as) (byte ']' :: rest) := by
  induction hm generalizing gathered s with
  | nil =>
    cases hitems with
    | nil hs =>
      rw [List.append_nil]
      exact run_iterate_of_done (run_bind_of_value _ (run_item?_closing hs))
  | @cons item a items as ha _ ih =>
    cases hitems with
    | cons hs hi hitems =>
      have hturn : (itemTurn r gathered).run s = .value (.again (a :: gathered)) _ :=
        run_bind_of_value _ (h.run_item? hs hi hitems.delimited ha)
      rw [run_iterate_of_again hturn, ih (a :: gathered) hitems, List.reverse_cons,
        List.append_assoc]
      rfl

/-- Items that are read in front of a closing bracket are spelled there. -/
theorem ReadsOnly.exists_items {r : Reader α} {M : Tree → α → Prop} (h : r.ReadsOnly M)
    {htakes : r.Takes fun _ => True} {s middle rest : Bytes} {as : List α}
    (hrun : (items r htakes).run s = .value as middle)
    (hmiddle : unblank middle = byte ']' :: rest) :
    ∃ trees, Items (Spells Lenient) true trees s rest ∧ List.Forall₂ M trees as := by
  have hgathered : ∃ trees bs, Items (Spells Lenient) true trees s rest ∧
      List.Forall₂ M trees bs ∧ as = [].reverse ++ bs := by
    refine iterate_induct (P := fun gathered s as middle => unblank middle = byte ']' :: rest →
      ∃ trees bs, Items (Spells Lenient) gathered.isEmpty trees s rest ∧
        List.Forall₂ M trees bs ∧ as = gathered.reverse ++ bs) ?_ ?_ hrun hmiddle
    · intro gathered s as middle hturn hmiddle
      obtain ⟨a?, behind, hitem, hpure⟩ := run_bind_eq_value_iff.mp hturn
      rcases h.cases_of_run_item? hitem with ⟨rfl, rfl, _⟩ | ⟨a, t, s', rfl, _⟩
      · obtain ⟨hdone, rfl⟩ := Outcome.value.inj hpure
        obtain rfl := Turn.done.inj hdone
        rw [unblank_unblank] at hmiddle
        exact ⟨[], [], .nil hmiddle, .nil, (List.append_nil _).symm⟩
      · cases hpure
    · intro gathered s next behind as middle hturn ih hmiddle
      obtain ⟨trees, bs, hitems, hm, rfl⟩ := ih hmiddle
      obtain ⟨a?, last, hitem, hpure⟩ := run_bind_eq_value_iff.mp hturn
      rcases h.cases_of_run_item? hitem with ⟨rfl, _, _⟩ | ⟨a, t, s', rfl, hs, ht, ha⟩
      · cases hpure
      · obtain ⟨hagain, rfl⟩ := Outcome.value.inj hpure
        obtain rfl := Turn.again.inj hagain
        exact ⟨t :: trees, a :: bs, .cons hs ht hitems, .cons ha hm, by simp⟩
  obtain ⟨trees, bs, hitems, hm, rfl⟩ := hgathered
  exact ⟨trees, hitems, hm⟩

theorem Reads.readsItems_items {r : Reader α} {M : Tree → α → Prop} (h : r.Reads M)
    (htakes : r.Takes fun _ => True) : (items r htakes).ReadsItems (List.Forall₂ M) where
  complete := by
    intro trees s rest as hitems hm
    exact ⟨_, h.run_items htakes [] hitems hm, unblank_closing .list rest⟩
  sound := h.toReadsOnly.exists_items

/-! ### Items of two types -/

/-- The items are one or two values, the second of which may be missing. -/
inductive OneOrTwo (M : Tree → α → Prop) (M' : Tree → β → Prop) :
    List Tree → α → Option β → Prop
  | one {t : Tree} {a : α} (h : M t a) : OneOrTwo M M' [t] a none
  | two {t t' : Tree} {a : α} {b : β} (h : M t a) (h' : M' t' b) : OneOrTwo M M' [t, t'] a (some b)

theorem readsItems_oneOrTwo {r : Reader α} {r' : Reader β} {M : Tree → α → Prop}
    {M' : Tree → β → Prop} (h : r.Reads M) (h' : r'.Reads M') {f : α → Option β → σ}
    {next : Option α → Reader σ} (hnone : ∀ s c rest, (next none).run s ≠ .value c rest)
    (hsome : ∀ a, next (some a) = item? false r' >>= fun b? => pure (f a b?)) :
    ReadsItems (item? true r >>= next)
      (fun items c => ∃ a b?, OneOrTwo M M' items a b? ∧ c = f a b?) where
  complete := by
    rintro items s rest _ hitems ⟨a, b?, hm, rfl⟩
    cases hm with
    | one hm =>
      cases hitems with
      | cons hs hi hitems =>
        rw [run_bind_of_value _ (h.run_item? hs hi hitems.delimited hm), hsome]
        cases hitems with
        | nil hclosing =>
          rw [run_bind_of_value _ (run_item?_closing hclosing)]
          exact ⟨_, rfl, unblank_closing .list rest⟩
    | two hm hm' =>
      cases hitems with
      | cons hs hi hitems =>
        rw [run_bind_of_value _ (h.run_item? hs hi hitems.delimited hm), hsome]
        cases hitems with
        | cons hs' hi' hitems =>
          rw [run_bind_of_value _ (h'.run_item? hs' hi' hitems.delimited hm')]
          cases hitems with
          | nil hclosing => exact ⟨_, rfl, hclosing⟩
  sound := by
    intro s middle rest c hrun hmiddle
    obtain ⟨a?, behind, ha, hrun⟩ := run_bind_eq_value_iff.mp hrun
    rcases h.toReadsOnly.cases_of_run_item? ha with ⟨rfl, _⟩ | ⟨a, t, s', rfl, hs, ht, hm⟩
    · exact (hnone _ _ _ hrun).elim
    rw [hsome] at hrun
    obtain ⟨b?, hb, rfl⟩ := exists_of_run_bind_pure hrun
    rcases h'.toReadsOnly.cases_of_run_item? hb with
      ⟨rfl, rfl, _⟩ | ⟨b, t', s'', rfl, hs', ht', hm'⟩
    · rw [unblank_unblank] at hmiddle
      exact ⟨[t], .cons hs ht (.nil hmiddle), a, none, .one hm, rfl⟩
    · exact ⟨[t, t'], .cons hs ht (.cons hs' ht' (.nil hmiddle)), a, some b, .two hm hm', rfl⟩

/-! ### Members -/

/-- Behind a name, the reader answers only in front of the value of a member, with what `M` relates
to the value. -/
structure ReadsMemberOnly (r : Reader α) (M : Tree → α → Prop) : Prop where
  sound : ∀ {s rest a}, r.run s = .value a rest →
    ∃ s' t, unblank s = byte ':' :: s' ∧ Spells Lenient t (unblank s') rest ∧ M t a

/-- Behind a name, the reader answers with `a` if `M` relates `a` to the value of the member. -/
structure ReadsMember (r : Reader α) (M : Tree → α → Prop) : Prop extends ReadsMemberOnly r M where
  complete : ∀ {t s s' rest a}, unblank s = byte ':' :: s' → Spells Lenient t (unblank s') rest →
    Delimited rest → M t a → r.run s = .value a rest

theorem Reads.readsMember_once {r : Reader α} {M : Tree → α → Prop} (h : r.Reads M)
    (name : String) (before? : Option α) :
    ReadsMember (once name before? r) fun t a => before? = none ∧ M t a where
  complete := by
    rintro t s s' rest a hs ht hr ⟨rfl, hm⟩
    have hcolon : colon.run s = .value () s' := run_colon_eq_value_iff.mpr hs
    rw [once, if_neg (by simp), run_bind_of_value _ hcolon]
    exact h.complete ht hr hm
  sound := by
    intro s rest a hrun
    cases before? with
    | some _ => cases hrun
    | none =>
      rw [once, if_neg (by simp)] at hrun
      obtain ⟨_, s', hs, ha⟩ := run_bind_eq_value_iff.mp hrun
      obtain ⟨t, ht, hm⟩ := h.sound ha
      exact ⟨s', t, run_colon_eq_value_iff.mp hs, ht, rfl, hm⟩

theorem readsMember_passMember : ReadsMember passMember fun _ _ => True where
  complete := by
    intro t s s' rest _ hs ht hr _
    have hcolon : colon.run s = .value () s' := run_colon_eq_value_iff.mpr hs
    rw [passMember, run_bind_of_value _ hcolon]
    exact run_passValue ht hr
  sound := by
    intro s rest _ hrun
    rw [passMember] at hrun
    obtain ⟨_, s', hs, hvalue⟩ := run_bind_eq_value_iff.mp hrun
    obtain ⟨t, ht⟩ := exists_of_run_passValue hvalue
    exact ⟨s', t, run_colon_eq_value_iff.mp hs, ht, trivial⟩

theorem ReadsMember.congr {r : Reader α} {M M' : Tree → α → Prop} (h : r.ReadsMember M)
    (hm : ∀ t a, M t a ↔ M' t a) : r.ReadsMember M' where
  complete := fun hs ht hr hm' => h.complete hs ht hr ((hm _ _).mpr hm')
  sound := by
    intro s rest a hrun
    obtain ⟨s', t, hs, ht, hmt⟩ := h.sound hrun
    exact ⟨s', t, hs, ht, (hm t a).mp hmt⟩

theorem ReadsMember.map {r : Reader α} {M : Tree → α → Prop} (h : r.ReadsMember M) (f : α → β) :
    ReadsMember (r >>= fun a => pure (f a)) fun t b => ∃ a, M t a ∧ b = f a where
  complete := by
    rintro t s s' rest _ hs ht hr ⟨a, hm, rfl⟩
    rw [run_bind_of_value _ (h.complete hs ht hr hm), run_pure]
  sound := by
    intro s rest b hrun
    obtain ⟨a, ha, rfl⟩ := exists_of_run_bind_pure hrun
    obtain ⟨s', t, hs, ht, hm⟩ := h.sound ha
    exact ⟨s', t, hs, ht, a, hm, rfl⟩

/-- The steps from the first member to the last lead from one draft to another. -/
inductive Gathers (step : σ → String → Tree → σ → Prop) : σ → List (String × Tree) → σ → Prop
  | nil {state : σ} : Gathers step state [] state
  | cons {state next last : σ} {name : String} {value : Tree} {members : List (String × Tree)}
      (hs : step state name value next) (h : Gathers step next members last) :
      Gathers step state ((name, value) :: members) last

/-- The body of a record answers with `a` in front of the members of an object if `M` relates `a` to
the members, and it stops in front of the closing bracket. -/
structure ReadsMembers (body : Reader α) (M : List (String × Tree) → α → Prop) : Prop where
  complete : ∀ {members s rest a}, Members Lenient (Spells Lenient) true (named members) s rest →
    M members a → ∃ middle, body.run s = .value a middle ∧ unblank middle = byte '\x7d' :: rest
  sound : ∀ {s middle rest a}, body.run s = .value a middle →
    unblank middle = byte '\x7d' :: rest →
      ∃ members, Members Lenient (Spells Lenient) true (named members) s rest ∧ M members a

theorem ReadsItems.congr {body : Reader α} {M M' : List Tree → α → Prop} (h : body.ReadsItems M)
    (hm : ∀ items a, M items a ↔ M' items a) : body.ReadsItems M' :=
  (funext fun items => funext fun a => propext (hm items a) : M = M') ▸ h

theorem ReadsMembers.congr {body : Reader α} {M M' : List (String × Tree) → α → Prop}
    (h : body.ReadsMembers M) (hm : ∀ members a, M members a ↔ M' members a) :
    body.ReadsMembers M' :=
  (funext fun members => funext fun a => propext (hm members a) : M = M') ▸ h

variable {member : σ → String → Reader σ} {step : σ → String → Tree → σ → Prop}

theorem run_members (h : ∀ state name, (member state name).ReadsMember (step state name))
    {first : Bool} {state last : σ} {members : List (String × Tree)} {s rest : Bytes}
    (hmembers : Members Lenient (Spells Lenient) first (named members) s rest)
    (hg : Gathers step state members last) :
    (iterate (memberTurn member) (takes_memberTurn member) (first, state)).run s =
      .value last (byte '\x7d' :: rest) := by
  induction hg generalizing first s with
  | nil =>
    cases hmembers with
    | nil hs => exact run_iterate_of_done (run_bind_of_value _ (run_next_closing .object hs))
  | @cons state next last name value members hstep _ ih =>
    cases hmembers with
    | @cons _ _ _ _ _ _ _ _ middle _ hs hn hc hv hmembers =>
      have hvalue := (h state name).complete hc hv hmembers.delimited hstep
      have hturn : (memberTurn member (first, state)).run s =
          .value (.again (false, next)) middle := by
        rw [memberTurn, run_bind_of_value _ (run_nextName_of_separated hs hn)]
        exact run_bind_of_value _ hvalue
      rw [run_iterate_of_again hturn]
      exact ih hmembers

/-- Members that are read in front of a closing bracket are spelled there. -/
theorem exists_members (h : ∀ state name, (member state name).ReadsMemberOnly (step state name))
    {state last : σ} {s middle rest : Bytes}
    (hrun : (members member state).run s = .value last middle)
    (hmiddle : unblank middle = byte '\x7d' :: rest) :
    ∃ members, Members Lenient (Spells Lenient) true (named members) s rest ∧
      Gathers step state members last := by
  refine iterate_induct (P := fun state s last middle => unblank middle = byte '\x7d' :: rest →
    ∃ members, Members Lenient (Spells Lenient) state.1 (named members) s rest ∧
      Gathers step state.2 members last) ?_ ?_ hrun hmiddle
  · rintro ⟨first, state⟩ s last middle hturn hmiddle
    obtain ⟨name?, behind, hname, hpure⟩ := run_bind_eq_value_iff.mp hturn
    rcases cases_of_run_nextName hname with ⟨rfl, rfl, _⟩ | ⟨name, _, rfl, _⟩
    · obtain ⟨hdone, rfl⟩ := Outcome.value.inj hpure
      obtain rfl := Turn.done.inj hdone
      rw [unblank_unblank] at hmiddle
      exact ⟨[], .nil hmiddle, .nil⟩
    · obtain ⟨_, _, _, hpure⟩ := run_bind_eq_value_iff.mp hpure
      cases hpure
  · rintro ⟨first, state⟩ s next behind last middle hturn ih hmiddle
    obtain ⟨members, hmembers, hg⟩ := ih hmiddle
    obtain ⟨name?, before, hname, hmember⟩ := run_bind_eq_value_iff.mp hturn
    rcases cases_of_run_nextName hname with ⟨rfl, _, _⟩ | ⟨name, s', rfl, hs, htext⟩
    · cases hmember
    obtain ⟨draft, hdraft, hagain⟩ := exists_of_run_bind_pure hmember
    obtain rfl := Turn.again.inj hagain
    obtain ⟨s'', value, hc, hv, hstep⟩ := (h state name).sound hdraft
    obtain ⟨body, hbody, rfl⟩ := run_name_eq_value_iff.mp htext
    exact ⟨(name, value) :: members, .cons hs hbody hc hv hmembers, .cons hstep hg⟩

theorem readsMembers_members (h : ∀ state name, (member state name).ReadsMember (step state name))
    (state : σ) : (members member state).ReadsMembers (Gathers step state) where
  complete := fun hmembers hg => ⟨_, run_members h hmembers hg, unblank_closing .object _⟩
  sound := exists_members fun state name => (h state name).toReadsMemberOnly

theorem ReadsMembers.bind {body : Reader σ} {M : List (String × Tree) → σ → Prop}
    (h : body.ReadsMembers M) {finish : σ → Reader α} {F : σ → α → Prop}
    (hf : ∀ state s a rest, (finish state).run s = .value a rest ↔ F state a ∧ rest = s) :
    (body >>= finish).ReadsMembers fun members a => ∃ state, M members state ∧ F state a where
  complete := by
    rintro members s rest a hmembers ⟨state, hm, ha⟩
    obtain ⟨middle, hrun, hmiddle⟩ := h.complete hmembers hm
    exact ⟨middle, (run_bind_of_value _ hrun).trans ((hf _ _ _ _).mpr ⟨ha, rfl⟩), hmiddle⟩
  sound := by
    intro s middle rest a hrun hmiddle
    obtain ⟨state, behind, hbody, hfinish⟩ := run_bind_eq_value_iff.mp hrun
    obtain ⟨ha, rfl⟩ := (hf _ _ _ _).mp hfinish
    obtain ⟨members, hmembers, hm⟩ := h.sound hbody hmiddle
    exact ⟨members, hmembers, state, hm, ha⟩

/-! ### Lists and records -/

theorem Reads.list {r : Reader α} {M : Tree → α → Prop} (h : r.Reads M)
    (htakes : r.Takes fun _ => True) :
    (list r htakes).Reads fun t as => ∃ items, t = .list items ∧ List.Forall₂ M items as where
  complete := by
    rintro t s rest as ht _ ⟨items, rfl, hm⟩
    obtain ⟨m, hitems, hs⟩ := ht.spelledAs Tree.noConfusion
    obtain ⟨middle, hrun, hmiddle⟩ := (h.readsItems_items htakes).complete hitems hm
    rw [Reader.list, run_bind_of_value _ (run_lead_of_unblank hs)]
    exact run_enclosed_eq_value_iff.mpr ⟨middle, hrun, run_closeList_eq_value_iff.mpr hmiddle⟩
  sound := by
    intro s as rest hrun
    obtain ⟨kind, middle, hlead, hrun⟩ := run_bind_eq_value_iff.mp hrun
    obtain ⟨b, m, hs, hb, rfl⟩ := run_lead_eq_value_iff.mp hlead
    rw [hs]
    split at hrun
    · obtain rfl := Lead.eq_opening hb
      rw [run_bind_of_value _ (run_pass _), List.tail_cons, run_enclosed_eq_value_iff] at hrun
      obtain ⟨last, hbody, hclose⟩ := hrun
      obtain ⟨items, hitems, hm⟩ :=
        (h.readsItems_items htakes).sound hbody (run_closeList_eq_value_iff.mp hclose)
      exact ⟨.list items, .list hitems, items, rfl, hm⟩
    · exact (run_wrongType_ne_value hrun).elim

theorem reads_record {fromList fromObject : Reader α} {L : List Tree → α → Prop}
    {O : List (String × Tree) → α → Prop} (hl : fromList.ReadsItems L)
    (ho : fromObject.ReadsMembers O) (name : String) :
    (record name fromList fromObject).Reads fun t a =>
      (∃ items, t = .list items ∧ L items a) ∨ ∃ members, t = .object members ∧ O members a where
  complete := by
    rintro t s rest a ht _ (⟨items, rfl, hm⟩ | ⟨members, rfl, hm⟩)
    · obtain ⟨m, hitems, hs⟩ := ht.spelledAs Tree.noConfusion
      obtain ⟨middle, hrun, hmiddle⟩ := hl.complete hitems hm
      rw [record, run_bind_of_value _ (run_lead_of_unblank hs)]
      exact run_enclosed_eq_value_iff.mpr ⟨middle, hrun, run_closeList_eq_value_iff.mpr hmiddle⟩
    · obtain ⟨m, hmembers, hs⟩ := ht.spelledAs Tree.noConfusion
      obtain ⟨middle, hrun, hmiddle⟩ := ho.complete hmembers hm
      rw [record, run_bind_of_value _ (run_lead_of_unblank hs)]
      exact run_enclosed_eq_value_iff.mpr ⟨middle, hrun, run_closeObject_eq_value_iff.mpr hmiddle⟩
  sound := by
    intro s a rest hrun
    obtain ⟨kind, middle, hlead, hrun⟩ := run_bind_eq_value_iff.mp hrun
    obtain ⟨b, m, hs, hb, rfl⟩ := run_lead_eq_value_iff.mp hlead
    rw [hs]
    split at hrun
    · obtain rfl := Lead.eq_opening hb
      rw [run_bind_of_value _ (run_pass _), List.tail_cons, run_enclosed_eq_value_iff] at hrun
      obtain ⟨last, hbody, hclose⟩ := hrun
      obtain ⟨items, hitems, hm⟩ := hl.sound hbody (run_closeList_eq_value_iff.mp hclose)
      exact ⟨.list items, .list hitems, Or.inl ⟨items, rfl, hm⟩⟩
    · obtain rfl := Lead.eq_opening hb
      rw [run_bind_of_value _ (run_pass _), List.tail_cons, run_enclosed_eq_value_iff] at hrun
      obtain ⟨last, hbody, hclose⟩ := hrun
      obtain ⟨members, hmembers, hm⟩ := ho.sound hbody (run_closeObject_eq_value_iff.mp hclose)
      have hspells : Spells Lenient _ (byte '\x7b' :: m) rest := .object hmembers
      rw [Tree.ofMembers?_named] at hspells
      exact ⟨.object members, hspells, Or.inr ⟨members, rfl, hm⟩⟩
    · exact (run_wrongType_ne_value hrun).elim

end ListingSnapshot.Json.Reader
