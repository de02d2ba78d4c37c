import ListingSnapshot.Proofs.Json.Encoded
import ListingSnapshot.Proofs.Json.Fields
import ListingSnapshot.Proofs.Json.Literals

/-!
# Reading documents of any shape

A text is read as a tree just if it spells that tree, as far as the limits go: brackets may be
nested to a certain depth only, and numbers have to be ones that can be read.

## Main definitions

* `Json.Tree.Fits`: the trees within the limits.

## Main results

* `Json.Reader.reads_treeWithin`: what is read is what is spelled.
* `Json.document?_eq_some_iff`: the document that a text is.
-/

namespace ListingSnapshot.Json

/-! ### Limits -/

/-- The tree has brackets nested to at most this depth, and only numbers that can be read. -/
inductive Tree.Fits : Nat → Tree → Prop
  | null {depth : Nat} : Fits depth .null
  | bool {depth : Nat} {value : Bool} : Fits depth (.bool value)
  | number {depth : Nat} {cs : List Char} (h : InRange cs) : Fits depth (.number cs)
  | string {depth : Nat} {text : String} : Fits depth (.string text)
  | list {depth : Nat} {items : List Tree} (h : ∀ item ∈ items, Fits depth item) :
      Fits (depth + 1) (.list items)
  | object {depth : Nat} {members : List (String × Tree)}
      (h : ∀ member ∈ members, Fits depth member.2) : Fits (depth + 1) (.object members)

theorem Tree.Fits.unblotted {depth : Nat} {t : Tree} (h : t.Fits depth) : t.Unblotted := by
  induction h with
  | null => exact .null
  | bool => exact .bool
  | number h => exact .number fun hnil => not_inRange_nil (hnil ▸ h)
  | string => exact .string
  | list _ ih => exact .list ih
  | object _ ih => exact .object ih

theorem Tree.Fits.ne_blot {depth : Nat} {t : Tree} (h : t.Fits depth) : t ≠ .blot := by
  rintro rfl
  exact not_unblotted_blot h.unblotted

namespace Reader

/-! ### Items and members -/

/-- Members that are added one by one are those of the whole object. -/
theorem gathers_append_iff {P : Tree → Prop} {gathered members last : List (String × Tree)} :
    Gathers (fun gathered name t next => P t ∧ next = gathered ++ [(name, t)]) gathered members
        last ↔
      (∀ member ∈ members, P member.2) ∧ last = gathered ++ members := by
  induction members generalizing gathered with
  | nil =>
    constructor
    · intro h
      cases h
      exact ⟨List.forall_mem_nil _, (List.append_nil _).symm⟩
    · rintro ⟨_, rfl⟩
      rw [List.append_nil]
      exact .nil
  | cons member members ih =>
    rw [List.forall_mem_cons]
    constructor
    · intro h
      cases h with
      | cons hs h =>
        obtain ⟨hp, rfl⟩ := hs
        obtain ⟨hall, rfl⟩ := ih.mp h
        exact ⟨⟨hp, hall⟩, by rw [List.append_assoc, List.singleton_append]⟩
    · rintro ⟨⟨hp, hall⟩, rfl⟩
      refine .cons ⟨hp, rfl⟩ (ih.mpr ⟨hall, ?_⟩)
      rw [List.append_assoc, List.singleton_append]

/-- A tree is kept as it is, if it is within the limits. -/
def Kept (depth : Nat) (t t' : Tree) : Prop :=
  t.Fits depth ∧ t = t'

section Inside

variable {value : Reader Tree} {depth : Nat} (h : value.Reads (Kept depth))

include h

theorem readsItems_trees (htakes : value.Takes fun _ => True) :
    (items value htakes).ReadsItems fun items trees =>
      (∀ item ∈ items, item.Fits depth) ∧ items = trees := by
  refine (h.readsItems_items htakes).congr fun items trees => ?_
  unfold Kept
  rw [List.forall₂_and_left, List.forall₂_eq_eq_eq]

theorem readsMember_treeMember (gathered : List (String × Tree)) (name : String) :
    (treeMember value gathered name).ReadsMember fun t next =>
      t.Fits depth ∧ next = gathered ++ [(name, t)] where
  complete := by
    rintro t s s' rest _ hs ht hr ⟨hfits, rfl⟩
    have hcolon : colon.run s = .value () s' := run_colon_eq_value_iff.mpr hs
    rw [treeMember, run_bind_of_value _ hcolon]
    exact run_bind_of_value _ (h.complete ht hr ⟨hfits, rfl⟩)
  sound := by
    intro s rest next hrun
    obtain ⟨_, s', hcolon, hrun⟩ := run_bind_eq_value_iff.mp hrun
    obtain ⟨t, hvalue, rfl⟩ := exists_of_run_bind_pure hrun
    obtain ⟨t, ht, hfits, rfl⟩ := h.sound hvalue
    exact ⟨s', t, run_colon_eq_value_iff.mp hcolon, ht, hfits, rfl⟩

theorem readsMembers_trees :
    (members (treeMember value) []).ReadsMembers fun members trees =>
      (∀ member ∈ members, member.2.Fits depth) ∧ trees = members :=
  (readsMembers_members (readsMember_treeMember h) []).congr fun _ _ => gathers_append_iff

end Inside

/-! ### Trees -/

/-- The values inside of brackets are kept, if there may be any at this depth. -/
inductive Admits : Nat → Option {r : Reader Tree // r.Takes fun _ => True} → Prop
  | none : Admits 0 none
  | some {depth : Nat} {inside : {r : Reader Tree // r.Takes fun _ => True}}
      (h : inside.1.Reads (Kept depth)) : Admits (depth + 1) (some inside)

section Over

variable {depth : Nat} {inside? : Option {r : Reader Tree // r.Takes fun _ => True}}
  (h : Admits depth inside?)

include h

/-- A tree within the limits is read where it is spelled. -/
theorem run_treeOver {t : Tree} {s rest : Bytes} (ht : Spells Lenient t (unblank s) rest)
    (hr : Delimited rest) (hfits : t.Fits depth) : (treeOver inside?).run s = .value t rest := by
  have hs := ht.spelledAs hfits.ne_blot
  cases hfits with
  | null =>
    rw [treeOver, run_bind_of_value _ (run_lead_of_unblank hs)]
    exact run_bind_of_value _ (run_null rest)
  | @bool _ value =>
    rw [treeOver]
    cases value with
    | false =>
      rw [run_bind_of_value _ (run_lead_of_unblank hs)]
      exact run_bind_of_value _ (run_bool false rest)
    | true =>
      rw [run_bind_of_value _ (run_lead_of_unblank hs)]
      exact run_bind_of_value _ (run_bool true rest)
  | number hrange =>
    obtain ⟨_, hs⟩ := hs
    cases hrange with
    | @plain cs x hx =>
      have hrun := run_spelledNumber hx hr
      obtain ⟨c, ds, hc, rfl⟩ := (isMagnitude_of_run_number hx).exists_cons
      rw [encode_cons_of_lt hc.lt, List.cons_append] at hs hrun
      rw [treeOver, run_bind_of_value _ (run_lead_of_unblank hs),
        Lead.ofByte_of_isDigit (isDigit_byte hc)]
      exact hrun
    | minus hx =>
      rw [encode_cons_of_lt (by decide), List.cons_append] at hs
      rw [treeOver, run_bind_of_value _ (run_lead_of_unblank hs)]
      exact run_spelledNumber hx hr
  | string =>
    obtain ⟨body, hbody, hs⟩ := hs
    rw [List.cons_append] at hs
    rw [treeOver, run_bind_of_value _ (run_lead_of_unblank hs)]
    exact run_bind_of_value _ (run_text_eq_value_iff.mpr ⟨body, hbody, rfl⟩)
  | list hitems =>
    obtain ⟨m, hspelled, hs⟩ := hs
    cases h with
    | some hinside =>
      obtain ⟨middle, hrun, hmiddle⟩ :=
        (readsItems_trees hinside _).complete hspelled ⟨hitems, rfl⟩
      have hclose : closeList.run middle = .value () rest := run_closeList_eq_value_iff.mpr hmiddle
      rw [treeOver, run_bind_of_value _ (run_lead_of_unblank hs)]
      exact run_bind_of_value _ (run_enclosed_eq_value_iff.mpr ⟨middle, hrun, hclose⟩)
  | object hmembers =>
    obtain ⟨m, hspelled, hs⟩ := hs
    cases h with
    | some hinside =>
      obtain ⟨middle, hrun, hmiddle⟩ :=
        (readsMembers_trees hinside).complete hspelled ⟨hmembers, rfl⟩
      have hclose : closeObject.run middle = .value () rest :=
        run_closeObject_eq_value_iff.mpr hmiddle
      rw [treeOver, run_bind_of_value _ (run_lead_of_unblank hs)]
      exact run_bind_of_value _ (run_enclosed_eq_value_iff.mpr ⟨middle, hrun, hclose⟩)

/-- What is read is spelled there, and is within the limits. -/
theorem spells_of_run_treeOver {t : Tree} {s rest : Bytes}
    (hrun : (treeOver inside?).run s = .value t rest) :
    Spells Lenient t (unblank s) rest ∧ t.Fits depth := by
  obtain ⟨kind, middle, hlead, hrun⟩ := run_bind_eq_value_iff.mp hrun
  obtain ⟨b, m, hs, hb, rfl⟩ := run_lead_eq_value_iff.mp hlead
  rw [hs]
  cases kind with
  | null =>
    obtain ⟨_, hword, rfl⟩ := exists_of_run_bind_pure hrun
    exact ⟨eq_of_run_null hb hword ▸ .null, .null⟩
  | bool value =>
    obtain ⟨_, hword, rfl⟩ := exists_of_run_bind_pure hrun
    exact ⟨eq_of_run_bool hb hword ▸ .bool, .bool⟩
  | string =>
    obtain rfl := Lead.eq_quote hb
    rw [run_bind_of_value _ (run_pass _), List.tail_cons] at hrun
    obtain ⟨text, htext, rfl⟩ := exists_of_run_bind_pure hrun
    obtain ⟨body, hbody, rfl⟩ := run_text_eq_value_iff.mp htext
    have hlenient : Lenient (some text) body := hbody
    exact ⟨.string hlenient, .string⟩
  | minus =>
    obtain rfl := Lead.eq_minus hb
    rw [run_bind_of_value _ (run_pass _), List.tail_cons] at hrun
    obtain ⟨cs, x, hcs, hx, rfl, rfl⟩ := exists_of_run_spelledNumber hrun
    have hnumber : Spells Lenient (.number ('-' :: cs)) (Utf8.encode ('-' :: cs) ++ rest) rest :=
      .number (isNumber_iff.mpr (Or.inr ⟨cs, hcs, rfl⟩))
    rw [encode_cons_of_lt (by decide), List.cons_append] at hnumber
    exact ⟨hnumber, .number (.minus hx)⟩
  | digit =>
    obtain ⟨cs, x, hcs, hx, hm, rfl⟩ := exists_of_run_spelledNumber hrun
    rw [hm]
    exact ⟨.number (isNumber_iff.mpr (Or.inl hcs)), .number (.plain hx)⟩
  | container kind =>
    obtain rfl := Lead.eq_opening hb
    cases h with
    | none => cases hrun
    | some hinside =>
      cases kind with
      | list =>
        rw [run_bind_of_value _ (run_pass _), List.tail_cons] at hrun
        obtain ⟨trees, henclosed, rfl⟩ := exists_of_run_bind_pure hrun
        obtain ⟨last, hbody, hclose⟩ := run_enclosed_eq_value_iff.mp henclosed
        obtain ⟨items, hitems, hfits, rfl⟩ :=
          (readsItems_trees hinside _).sound hbody (run_closeList_eq_value_iff.mp hclose)
        exact ⟨.list hitems, .list hfits⟩
      | object =>
        rw [run_bind_of_value _ (run_pass _), List.tail_cons] at hrun
        obtain ⟨trees, henclosed, rfl⟩ := exists_of_run_bind_pure hrun
        obtain ⟨last, hbody, hclose⟩ := run_enclosed_eq_value_iff.mp henclosed
        obtain ⟨members, hmembers, hfits, rfl⟩ :=
          (readsMembers_trees hinside).sound hbody (run_closeObject_eq_value_iff.mp hclose)
        have hspells : Spells Lenient _ (byte '\x7b' :: m) rest := .object hmembers
        rw [Tree.ofMembers?_named] at hspells
        exact ⟨hspells, .object hfits⟩
  | other => cases hrun

theorem reads_treeOver : (treeOver inside?).Reads (Kept depth) where
  complete := fun ht hr ⟨hfits, heq⟩ => heq ▸ run_treeOver h ht hr hfits
  sound := fun hrun =>
    have ⟨ht, hfits⟩ := spells_of_run_treeOver h hrun
    ⟨_, ht, hfits, rfl⟩

end Over

theorem reads_treeWithin (depth : Nat) : (treeWithin depth).1.Reads (Kept depth) := by
  induction depth with
  | zero => exact reads_treeOver .none
  | succ depth ih => exact reads_treeOver (.some ih)

end Reader

/-! ### Whole documents -/

/-- **Documents.** A text is read as a tree if it spells the tree and the tree is within the limits,
and only then. -/
theorem document?_eq_some_iff {text : Bytes} {t : Tree} :
    document? text = some t ↔ Text Strict t text ∧ t.Fits Reader.depthLimit := by
  have hdecode : document? text = some t ↔ decode Reader.tree text = .ok t := by
    rw [document?]
    cases decode Reader.tree text <;> simp [Except.toOption]
  rw [hdecode, Reader.tree, (Reader.reads_treeWithin Reader.depthLimit).decode_eq_ok_iff]
  constructor
  · rintro ⟨_, ht, hfits, rfl⟩
    exact ⟨ht.strict hfits.unblotted, hfits⟩
  · rintro ⟨ht, hfits⟩
    exact ⟨t, ht.mono fun _ _ => Strict.lenient, hfits, rfl⟩

namespace Tree

theorem lookup_eq_head? (name : String) (members : List (String × Tree)) :
    members.lookup name = (valuesOf name members).head? := by
  induction members with
  | nil => rfl
  | cons member members ih =>
    obtain ⟨name', value⟩ := member
    by_cases h : name' = name
    · subst h
      rw [valuesOf_cons_self, List.lookup_cons_self, List.head?_cons]
    · rw [valuesOf_cons_of_ne h, List.lookup_cons, beq_eq_false_iff_ne.mpr (Ne.symm h)]
      exact ih

/-- Of several members with one name the last one counts. -/
theorem member?_object (name : String) (members : List (String × Tree)) :
    (object members).member? name = (valuesOf name members).getLast? := by
  rw [member?, lookup_eq_head?, valuesOf, List.filter_reverse, List.map_reverse,
    List.head?_reverse]
  rfl

end Tree

end ListingSnapshot.Json
