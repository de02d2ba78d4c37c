import ListingSnapshot.Proofs.Json.Fields
import Mathlib.Logic.Equiv.Basic

/-!
# Records of many fields

A record with any number of fields, of which some have to be there and others need not. The fields
are a family over a type of indices, each with a name, a type of its own and a reader, and a draft
is what has been read of each. No two fields have the same name, so a member touches at most one of
them, and what becomes of a field depends on the members of its name only.

## Main definitions

* `Json.FamilyStep`: what one member makes of a draft.
* `Json.IsField`: the value of a field, given all members.
* `Json.Reader.ReadsMore`: what a reader makes of the items of a list from some item on.

## Main results

* `Json.gathers_family_iff`: the fields of a record, whatever the order of its members.
* `Json.readsMembers_family`: a record is read field by field.
* `Json.Reader.Reads.readsMore_bind`: a record is read item by item.
-/

namespace ListingSnapshot.Json

variable {ι σ α : Type} {β : ι → Type} {name : ι → String} {M : ∀ i, Tree → β i → Prop}

/-! ### One member -/

theorem field_cons_iff {γ : Type} {name : String} {M : Tree → γ → Prop} {member : String × Tree}
    {members : List (String × Tree)} {before? after? : Option γ} :
    Field name M (member :: members) before? after? ↔
      ∃ between?,
        Field name M [member] before? between? ∧ Field name M members between? after? := by
  obtain ⟨n, t⟩ := member
  by_cases hn : n = name
  · subst hn
    simp only [field_cons_self_iff, field_nil_iff]
    constructor
    · rintro ⟨hnone, b, hm, h⟩
      exact ⟨some b, ⟨hnone, b, hm, rfl⟩, h⟩
    · rintro ⟨_, ⟨hnone, b, hm, rfl⟩, h⟩
      exact ⟨hnone, b, hm, h⟩
  · simp only [field_cons_of_ne_iff hn, field_nil_iff, exists_eq_left]

/-- What a member makes of a draft is what it makes of each field. -/
def FamilyStep (name : ι → String) (M : ∀ i, Tree → β i → Prop) (draft : ∀ i, Option (β i))
    (n : String) (t : Tree) (next : ∀ i, Option (β i)) : Prop :=
  ∀ i, Field (name i) (M i) [(n, t)] (draft i) (next i)

section FamilyStep

variable {draft next : ∀ i, Option (β i)} {t : Tree}

/-- A member of a field's name gives that field a value, and leaves the others alone. -/
theorem familyStep_name_iff [DecidableEq ι] (hname : Function.Injective name) {i : ι} :
    FamilyStep name M draft (name i) t next ↔
      ∃ b, (draft i = none ∧ M i t b) ∧ next = Function.update draft i (some b) := by
  constructor
  · intro h
    obtain ⟨hnone, b, hm, hb⟩ := field_cons_self_iff.mp (h i)
    refine ⟨b, ⟨hnone, hm⟩, Function.eq_update_iff.mpr ⟨field_nil_iff.mp hb, fun j hj => ?_⟩⟩
    exact field_nil_iff.mp ((field_cons_of_ne_iff (hname.ne hj.symm)).mp (h j))
  · rintro ⟨b, ⟨hnone, hm⟩, rfl⟩ j
    by_cases hj : j = i
    · subst hj
      rw [Function.update_self]
      exact field_cons_self_iff.mpr ⟨hnone, b, hm, field_nil_iff.mpr rfl⟩
    · rw [Function.update_of_ne hj, field_cons_of_ne_iff (hname.ne (Ne.symm hj)), field_nil_iff]

/-- A member of another name leaves all fields alone. -/
theorem familyStep_of_ne_iff {n : String} (h : ∀ i, n ≠ name i) :
    FamilyStep name M draft n t next ↔ next = draft := by
  simp only [FamilyStep, field_cons_of_ne_iff (h _), field_nil_iff]
  exact funext_iff.symm

end FamilyStep

/-! ### All members -/

/-- The members of an object lead from one draft to another if they make of each field what becomes
of it. -/
theorem gathers_family_iff (e : σ ≃ ∀ i, Option (β i)) {state last : σ}
    {members : List (String × Tree)} :
    Reader.Gathers (fun state n t next => FamilyStep name M (e state) n t (e next))
        state members last ↔
      ∀ i, Field (name i) (M i) members (e state i) (e last i) := by
  induction members generalizing state with
  | nil =>
    simp only [field_nil_iff]
    rw [← funext_iff, e.apply_eq_iff_eq]
    constructor
    · intro h
      cases h
      rfl
    · rintro rfl
      exact .nil
  | cons member members ih =>
    obtain ⟨n, t⟩ := member
    simp only [gathers_cons_iff, ih]
    rw [forall_congr' fun i => field_cons_iff, Classical.skolem, e.exists_congr_left]
    simp only [FamilyStep, forall_and, e.apply_symm_apply]

/-- The value of a field: that of the only member of its name, or the one for a field that is
missing, if it may be. -/
def IsField {γ : Type} (name : String) (M : Tree → γ → Prop) (absent? : Option γ)
    (members : List (String × Tree)) (value : γ) : Prop :=
  (Tree.valuesOf name members = [] ∧ absent? = some value) ∨
    ∃ t, Tree.valuesOf name members = [t] ∧ M t value

theorem isField_iff {γ : Type} {name : String} {M : Tree → γ → Prop} {absent? : Option γ}
    {members : List (String × Tree)} {value : γ} :
    IsField name M absent? members value ↔
      ∃ after?, Field name M members none after? ∧ after?.or absent? = some value := by
  simp only [field_none_iff, IsField]
  constructor
  · rintro (⟨hnil, h⟩ | ⟨t, ht, hm⟩)
    · exact ⟨none, Or.inl ⟨hnil, rfl⟩, h⟩
    · exact ⟨some value, Or.inr ⟨t, value, ht, hm, rfl⟩, rfl⟩
  · rintro ⟨_, ⟨hnil, rfl⟩ | ⟨t, b, ht, hm, rfl⟩, h⟩
    · exact Or.inl ⟨hnil, h⟩
    · obtain rfl := Option.some.inj h
      exact Or.inr ⟨t, ht, hm⟩

/-- **Field by field.** A record whose member of a field's name is read by the reader of that field,
and no more than once, is read from an object if each of its fields has a value there. -/
theorem readsMembers_family [DecidableEq ι] (hname : Function.Injective name)
    {r : ∀ i, Reader (β i)} (hr : ∀ i, (r i).Reads (M i)) (e : σ ≃ ∀ i, Option (β i))
    {member : σ → String → Reader σ}
    (hmember : ∀ draft i, member draft (name i) = Reader.once (name i) (e draft i) (r i) >>=
      fun b => pure (e.symm (Function.update (e draft) i (some b))))
    (hpass : ∀ draft n, (∀ i, n ≠ name i) →
      member draft n = Reader.passMember >>= fun _ => pure draft)
    {finish : σ → Reader α} {absent? : ∀ i, Option (β i)} {field : α → ∀ i, β i}
    (hfinish : ∀ draft s a rest, (finish draft).run s = .value a rest ↔
      (∀ i, (e draft i).or (absent? i) = some (field a i)) ∧ rest = s) :
    (Reader.members member (e.symm fun _ => none) >>= finish).ReadsMembers fun members a =>
      ∀ i, IsField (name i) (M i) (absent? i) members (field a i) := by
  have hstep : ∀ draft n, (member draft n).ReadsMember fun t next =>
      FamilyStep name M (e draft) n t (e next) := by
    intro draft n
    by_cases hn : ∃ i, n = name i
    · obtain ⟨i, rfl⟩ := hn
      rw [hmember]
      refine (((hr i).readsMember_once (name i) _).map _).congr fun t next => ?_
      simp only [familyStep_name_iff hname, e.eq_symm_apply]
    · rw [not_exists] at hn
      rw [hpass draft n hn]
      refine (Reader.readsMember_passMember.map _).congr fun t next => ?_
      rw [familyStep_of_ne_iff hn, e.apply_eq_iff_eq]
      simp only [true_and, exists_const]
  refine ((Reader.readsMembers_members hstep _).bind hfinish).congr fun members a => ?_
  simp only [isField_iff, Classical.skolem, gathers_family_iff, e.apply_symm_apply, forall_and]
  rw [e.exists_congr_left]
  simp only [e.apply_symm_apply]

/-! ### Fields as items -/

namespace Reader

variable {γ δ : Type}

/-- The reader answers with `a` in front of the other items of a list, before which at least one has
been read unless `first` holds, if `M` relates `a` to these items, and it stops somewhere in front
of the closing bracket. -/
structure ReadsMore (first : Bool) (body : Reader γ) (M : List Tree → γ → Prop) : Prop where
  complete : ∀ {items s rest a}, Items (Spells Lenient) first items s rest → M items a →
    ∃ middle, body.run s = .value a middle ∧ unblank middle = byte ']' :: rest
  sound : ∀ {s middle rest a}, body.run s = .value a middle → unblank middle = byte ']' :: rest →
    ∃ items, Items (Spells Lenient) first items s rest ∧ M items a

theorem ReadsMore.readsItems {body : Reader γ} {M : List Tree → γ → Prop}
    (h : ReadsMore true body M) : body.ReadsItems M :=
  ⟨h.complete, h.sound⟩

/-- Behind the last item nothing more is read. -/
theorem readsMore_pure (first : Bool) (c : γ) :
    ReadsMore first (pure c) fun items a => items = [] ∧ a = c where
  complete := by
    rintro _ s rest _ hitems ⟨rfl, rfl⟩
    cases hitems with
    | nil hclosing => exact ⟨s, rfl, hclosing⟩
  sound := by
    intro s middle rest a hrun hmiddle
    obtain ⟨rfl, rfl⟩ := Outcome.value.inj hrun
    exact ⟨[], .nil hmiddle, rfl, rfl⟩

/-- One item is read, and then the others. -/
theorem Reads.readsMore_bind {r : Reader γ} {M : Tree → γ → Prop} (h : r.Reads M) {first : Bool}
    {item : Reader γ} (hitem : ∀ s c rest, item.run s = .value c rest ↔
      (item? first r).run s = .value (some c) rest)
    {next : γ → Reader δ} {N : γ → List Tree → δ → Prop}
    (hnext : ∀ c, ReadsMore false (next c) (N c)) :
    ReadsMore first (item >>= next) fun items d =>
      ∃ t c more, items = t :: more ∧ M t c ∧ N c more d where
  complete := by
    rintro _ s rest d hitems ⟨t, c, more, rfl, hm, hd⟩
    cases hitems with
    | cons hs ht hmore =>
      have hrun := (hitem _ _ _).mpr (h.run_item? hs ht hmore.delimited hm)
      rw [run_bind_of_value _ hrun]
      exact (hnext c).complete hmore hd
  sound := by
    intro s middle rest d hrun hmiddle
    obtain ⟨c, behind, hc, hd⟩ := run_bind_eq_value_iff.mp hrun
    rcases h.toReadsOnly.cases_of_run_item? ((hitem _ _ _).mp hc) with
      ⟨hnone, _⟩ | ⟨c', t, s', hsome, hs, ht, hm⟩
    · cases hnone
    · obtain rfl := Option.some.inj hsome
      obtain ⟨more, hmore, hn⟩ := (hnext c).sound hd hmiddle
      exact ⟨t :: more, .cons hs ht hmore, t, c, more, rfl, hm, hn⟩

end Reader

end ListingSnapshot.Json
