import ListingSnapshot.Proofs.Json.Records
import Mathlib.Logic.Equiv.Defs

/-!
# Fields of a record

A record looks at the members of two names and passes over all others. Members are met one by one
and in any order, but what comes of them can be said without any order: for each of the two names,
there is at most one member, and its value is that of the field.

## Main definitions

* `Json.Tree.valuesOf`: the values of all members with a given name.
* `Json.Field`: what the members of a name make of a field.
* `Json.FieldStep`: what one member makes of a draft.

## Main results

* `Json.gathers_iff`: the two fields of a record, whatever the order of its members.
* `Json.readsMembers_fields`: a record with a field that has to be there and one that need not be.
-/

namespace ListingSnapshot.Json

variable {σ α β γ : Type}

/-- The values of the members with this name. -/
def Tree.valuesOf (name : String) (members : List (String × Tree)) : List Tree :=
  (members.filter fun member => member.1 = name).map Prod.snd

/-- The members make of the field `before` the field `after`: there is none of this name, or there
is one and the field was not there before. -/
def Field (name : String) (M : Tree → β → Prop) (members : List (String × Tree))
    (before? after? : Option β) : Prop :=
  (Tree.valuesOf name members = [] ∧ after? = before?) ∨
    before? = none ∧ ∃ t b, Tree.valuesOf name members = [t] ∧ M t b ∧ after? = some b

section Field

variable {name : String} {M : Tree → β → Prop} {members : List (String × Tree)}

theorem mem_valuesOf_iff {value : Tree} :
    value ∈ Tree.valuesOf name members ↔ (name, value) ∈ members := by
  simp [Tree.valuesOf]

theorem valuesOf_cons_self (value : Tree) :
    Tree.valuesOf name ((name, value) :: members) = value :: Tree.valuesOf name members := by
  simp [Tree.valuesOf]

theorem valuesOf_cons_of_ne {name' : String} (h : name' ≠ name) (value : Tree) :
    Tree.valuesOf name ((name', value) :: members) = Tree.valuesOf name members := by
  simp [Tree.valuesOf, h]

theorem field_nil_iff {before? after? : Option β} :
    Field name M [] before? after? ↔ after? = before? := by
  simp [Field, Tree.valuesOf]

theorem field_some_iff {b : β} {after? : Option β} :
    Field name M members (some b) after? ↔
      Tree.valuesOf name members = [] ∧ after? = some b := by
  simp [Field]

theorem field_none_iff {after? : Option β} : Field name M members none after? ↔
    (Tree.valuesOf name members = [] ∧ after? = none) ∨
      ∃ t b, Tree.valuesOf name members = [t] ∧ M t b ∧ after? = some b := by
  simp [Field]

theorem field_none_some_iff {b : β} : Field name M members none (some b) ↔
    ∃ t, Tree.valuesOf name members = [t] ∧ M t b := by
  rw [field_none_iff]
  constructor
  · rintro (⟨_, h⟩ | ⟨t, c, ht, hm, h⟩)
    · cases h
    · obtain rfl := Option.some.inj h
      exact ⟨t, ht, hm⟩
  · rintro ⟨t, ht, hm⟩
    exact Or.inr ⟨t, b, ht, hm, rfl⟩

theorem field_none_getD_iff {b d : β} :
    (∃ after?, Field name M members none after? ∧ after?.getD d = b) ↔
      (Tree.valuesOf name members = [] ∧ b = d) ∨
        ∃ t, Tree.valuesOf name members = [t] ∧ M t b := by
  simp only [field_none_iff]
  constructor
  · rintro ⟨_, ⟨hnil, rfl⟩ | ⟨t, c, ht, hm, rfl⟩, rfl⟩
    · exact Or.inl ⟨hnil, rfl⟩
    · exact Or.inr ⟨t, ht, hm⟩
  · rintro (⟨hnil, rfl⟩ | ⟨t, ht, hm⟩)
    · exact ⟨none, Or.inl ⟨hnil, rfl⟩, rfl⟩
    · exact ⟨some b, Or.inr ⟨t, b, ht, hm, rfl⟩, rfl⟩

theorem field_cons_self_iff {value : Tree} {before? after? : Option β} :
    Field name M ((name, value) :: members) before? after? ↔
      before? = none ∧ ∃ b, M value b ∧ Field name M members (some b) after? := by
  rw [Field, valuesOf_cons_self]
  simp only [field_some_iff]
  constructor
  · rintro (⟨h, _⟩ | ⟨hb, t, b, ht, hm, ha⟩)
    · cases h
    · obtain ⟨rfl, hnil⟩ := List.cons.inj ht
      exact ⟨hb, b, hm, hnil, ha⟩
  · rintro ⟨hb, b, hm, hnil, ha⟩
    exact Or.inr ⟨hb, value, b, by rw [hnil], hm, ha⟩

theorem field_cons_of_ne_iff {name' : String} (h : name' ≠ name) {value : Tree}
    {before? after? : Option β} :
    Field name M ((name', value) :: members) before? after? ↔
      Field name M members before? after? := by
  rw [Field, Field, valuesOf_cons_of_ne h]

end Field

/-- What a member makes of the two fields of a draft. -/
def FieldStep (name : String) (M : Tree → β → Prop) (name' : String) (M' : Tree → γ → Prop)
    (draft : Option β × Option γ) (n : String) (t : Tree) (next : Option β × Option γ) : Prop :=
  if n = name then draft.1 = none ∧ ∃ b, M t b ∧ next = (some b, draft.2)
  else if n = name' then draft.2 = none ∧ ∃ c, M' t c ∧ next = (draft.1, some c)
  else next = draft

section FieldStep

variable {name name' : String} {M : Tree → β → Prop} {M' : Tree → γ → Prop}
  (e : σ ≃ Option β × Option γ) {state next : σ} {t : Tree}

theorem fieldStep_self_iff : FieldStep name M name' M' (e state) name t (e next) ↔
    ∃ b, ((e state).1 = none ∧ M t b) ∧ next = e.symm (some b, (e state).2) := by
  rw [FieldStep, if_pos rfl]
  simp only [e.eq_symm_apply, and_assoc, exists_and_left]

theorem fieldStep_other_iff (hne : name' ≠ name) :
    FieldStep name M name' M' (e state) name' t (e next) ↔
      ∃ c, ((e state).2 = none ∧ M' t c) ∧ next = e.symm ((e state).1, some c) := by
  rw [FieldStep, if_neg hne, if_pos rfl]
  simp only [e.eq_symm_apply, and_assoc, exists_and_left]

theorem fieldStep_of_ne_iff {n : String} (hn : n ≠ name) (hn' : n ≠ name') :
    FieldStep name M name' M' (e state) n t (e next) ↔ next = state := by
  rw [FieldStep, if_neg hn, if_neg hn', e.apply_eq_iff_eq]

end FieldStep

theorem gathers_cons_iff {step : σ → String → Tree → σ → Prop} {state last : σ} {name : String}
    {value : Tree} {members : List (String × Tree)} :
    Reader.Gathers step state ((name, value) :: members) last ↔
      ∃ next, step state name value next ∧ Reader.Gathers step next members last := by
  constructor
  · intro h
    cases h with
    | cons hs h => exact ⟨_, hs, h⟩
  · rintro ⟨next, hs, h⟩
    exact .cons hs h

/-- **The order of members does not matter.** The members of an object lead from one draft to
another if they make of each of its two fields what becomes of it. The names must differ. -/
theorem gathers_iff {name name' : String} (hne : name ≠ name') {M : Tree → β → Prop}
    {M' : Tree → γ → Prop} (e : σ ≃ Option β × Option γ) {state last : σ}
    {members : List (String × Tree)} :
    Reader.Gathers (fun state n t next => FieldStep name M name' M' (e state) n t (e next))
        state members last ↔
      Field name M members (e state).1 (e last).1 ∧
        Field name' M' members (e state).2 (e last).2 := by
  induction members generalizing state with
  | nil =>
    rw [field_nil_iff, field_nil_iff, ← Prod.ext_iff, e.apply_eq_iff_eq]
    constructor
    · intro h
      cases h
      rfl
    · rintro rfl
      exact .nil
  | cons member members ih =>
    obtain ⟨n, t⟩ := member
    rw [gathers_cons_iff]
    simp only [ih]
    by_cases hn : n = name
    · subst hn
      rw [field_cons_self_iff, field_cons_of_ne_iff hne]
      simp only [fieldStep_self_iff]
      constructor
      · rintro ⟨_, ⟨b, ⟨hnone, hm⟩, rfl⟩, h, h'⟩
        rw [e.apply_symm_apply] at h h'
        exact ⟨⟨hnone, b, hm, h⟩, h'⟩
      · rintro ⟨⟨hnone, b, hm, h⟩, h'⟩
        refine ⟨_, ⟨b, ⟨hnone, hm⟩, rfl⟩, ?_⟩
        rw [e.apply_symm_apply]
        exact ⟨h, h'⟩
    rw [field_cons_of_ne_iff hn]
    by_cases hn' : n = name'
    · subst hn'
      rw [field_cons_self_iff]
      simp only [fieldStep_other_iff e hn]
      constructor
      · rintro ⟨_, ⟨c, ⟨hnone, hm⟩, rfl⟩, h, h'⟩
        rw [e.apply_symm_apply] at h h'
        exact ⟨h, hnone, c, hm, h'⟩
      · rintro ⟨h, hnone, c, hm, h'⟩
        refine ⟨_, ⟨c, ⟨hnone, hm⟩, rfl⟩, ?_⟩
        rw [e.apply_symm_apply]
        exact ⟨h, h'⟩
    · rw [field_cons_of_ne_iff hn']
      simp only [fieldStep_of_ne_iff e hn hn', exists_eq_left]

/-- The members of an object with a field that has to be there and one that need not be. -/
theorem gathers_none_iff {name name' : String} (hne : name ≠ name') {M : Tree → β → Prop}
    {M' : Tree → γ → Prop} (e : σ ≃ Option β × Option γ) {members : List (String × Tree)} {b : β}
    {c d : γ} :
    (∃ last, Reader.Gathers
        (fun state n t next => FieldStep name M name' M' (e state) n t (e next))
        (e.symm (none, none)) members last ∧ (e last).1 = some b ∧ (e last).2.getD d = c) ↔
      (∃ t, Tree.valuesOf name members = [t] ∧ M t b) ∧
        ((Tree.valuesOf name' members = [] ∧ c = d) ∨
          ∃ t, Tree.valuesOf name' members = [t] ∧ M' t c) := by
  simp only [gathers_iff hne, e.apply_symm_apply]
  rw [← field_none_some_iff, ← field_none_getD_iff]
  constructor
  · rintro ⟨last, ⟨h, h'⟩, hb, hc⟩
    rw [hb] at h
    exact ⟨h, _, h', hc⟩
  · rintro ⟨h, after?, h', hc⟩
    refine ⟨e.symm (some b, after?), ?_⟩
    rw [e.apply_symm_apply]
    exact ⟨⟨h, h'⟩, rfl, hc⟩

/-- A record with a field that has to be there and one that need not be: what its members are read
as. -/
theorem readsMembers_fields {name name' : String} {r : Reader β} {r' : Reader γ}
    {M : Tree → β → Prop} {M' : Tree → γ → Prop} (h : r.Reads M) (h' : r'.Reads M')
    (hne : name ≠ name') (e : σ ≃ Option β × Option γ) {member : σ → String → Reader σ}
    (hmember : ∀ draft, member draft name =
      Reader.once name (e draft).1 r >>= fun b => pure (e.symm (some b, (e draft).2)))
    (hmember' : ∀ draft, member draft name' =
      Reader.once name' (e draft).2 r' >>= fun c => pure (e.symm ((e draft).1, some c)))
    (hpass : ∀ draft n, n ≠ name → n ≠ name' →
      member draft n = Reader.passMember >>= fun _ => pure draft)
    {finish : σ → Reader α} {required : α → β} {given : α → γ} {absent : γ}
    (hfinish : ∀ draft s a rest, (finish draft).run s = .value a rest ↔
      ((e draft).1 = some (required a) ∧ (e draft).2.getD absent = given a) ∧ rest = s) :
    (Reader.members member (e.symm (none, none)) >>= finish).ReadsMembers fun members a =>
      (∃ t, Tree.valuesOf name members = [t] ∧ M t (required a)) ∧
        ((Tree.valuesOf name' members = [] ∧ given a = absent) ∨
          ∃ t, Tree.valuesOf name' members = [t] ∧ M' t (given a)) := by
  have hstep : ∀ draft n, (member draft n).ReadsMember fun t next =>
      FieldStep name M name' M' (e draft) n t (e next) := by
    intro draft n
    by_cases hn : n = name
    · subst hn
      rw [hmember]
      exact ((h.readsMember_once n _).map _).congr fun _ _ => (fieldStep_self_iff e).symm
    by_cases hn' : n = name'
    · subst hn'
      rw [hmember']
      exact ((h'.readsMember_once n _).map _).congr fun _ _ => (fieldStep_other_iff e hn).symm
    · rw [hpass draft n hn hn']
      refine (Reader.readsMember_passMember.map _).congr fun t next => ?_
      rw [fieldStep_of_ne_iff e hn hn']
      simp only [true_and, exists_const]
  refine ((Reader.readsMembers_members hstep _).bind hfinish).congr fun members a => ?_
  exact gathers_none_iff hne e

end ListingSnapshot.Json
