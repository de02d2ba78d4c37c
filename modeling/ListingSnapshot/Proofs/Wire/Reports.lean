import ListingSnapshot.Proofs.Json.Families
import ListingSnapshot.Proofs.Wire.Listings
import ListingSnapshot.Wire.Report

/-!
# Which trees are reports

A text is read as a report if it spells an object that has a value for each of the six parts of a
report, or a list of six values. In an object the order does not matter, members of other names may
have any values, and four of the parts may be missing, which means the same as `null`.

The parts are a family: each has a name, a type, a reader, a shape and perhaps a value for the case
that it is missing. What differs from part to part is said there and nowhere else.

## Main definitions

* `Report.Part`: the parts of a report.
* `IsReport`: the shape of a report.

## Main results

* `Report.reads_reader`: the reader accepts this shape and no other.
-/

namespace ListingSnapshot

open Json

namespace Report

/-! ### Parts -/

/-- The parts of a report. -/
inductive Part
  | id
  | historical
  | currentId
  | isCurrent
  | latestBlock
  | error
deriving DecidableEq

namespace Part

/-- All parts, in the order in which they are written. -/
def all : List Part :=
  [id, historical, currentId, isCurrent, latestBlock, error]

/-- The name of a part. -/
def name : Part → String
  | id => "id"
  | historical => "historical"
  | currentId => "currentId"
  | isCurrent => "isCurrent"
  | latestBlock => "latestBlock"
  | error => "error"

theorem forall_iff {P : Part → Prop} :
    (∀ part, P part) ↔
      P id ∧ P historical ∧ P currentId ∧ P isCurrent ∧ P latestBlock ∧ P error := by
  constructor
  · exact fun h => ⟨h _, h _, h _, h _, h _, h _⟩
  · rintro ⟨hid, hhistorical, hcurrentId, hisCurrent, hlatestBlock, herror⟩ part
    cases part <;> assumption

theorem name_injective : Function.Injective name := by
  intro part other h
  cases part <;> cases other <;> first | rfl | exact absurd h (by decide)

/-- The values that a part can have. -/
def Value : Part → Type
  | id => String
  | historical => Bool
  | currentId => Option String
  | isCurrent => Option Bool
  | latestBlock => Option Block
  | error => Option String

/-- The part of a report. -/
def of (report : Report) : (part : Part) → part.Value
  | id => report.id
  | historical => report.historical
  | currentId => report.currentId?
  | isCurrent => report.isCurrent?
  | latestBlock => report.latestBlock?
  | error => report.error?

/-- What a part is taken to be if it is missing, unless it has to be there. -/
def absent? : (part : Part) → Option part.Value
  | id => none
  | historical => none
  | currentId => some none
  | isCurrent => some none
  | latestBlock => some none
  | error => some none

/-- The trees of the values of a part. -/
def Is : (part : Part) → Tree → part.Value → Prop
  | id => fun t text => t = .string text
  | historical => fun t value => t = .bool value
  | currentId => OrNull fun t text => t = .string text
  | isCurrent => OrNull fun t value => t = .bool value
  | latestBlock => OrNull IsBlock
  | error => OrNull fun t text => t = .string text

/-- The reader of a part. -/
def reader : (part : Part) → Reader part.Value
  | id => Reader.string
  | historical => Reader.truth
  | currentId => Reader.optional Reader.string
  | isCurrent => Reader.optional Reader.truth
  | latestBlock => Reader.optional Block.reader
  | error => Reader.optional Reader.string

theorem reads_reader (part : Part) : part.reader.Reads part.Is := by
  have htext := Reader.reads_string.optional fun _ h => nomatch h
  have htruth := Reader.reads_truth.optional fun _ h => nomatch h
  have hblock := Block.reads_reader.optional fun _ ⟨_, h, _⟩ => nomatch h
  cases part with
  | id => exact Reader.reads_string
  | historical => exact Reader.reads_truth
  | currentId => exact htext
  | isCurrent => exact htruth
  | latestBlock => exact hblock
  | error => exact htext

end Part

end Report

/-! ### The shape -/

/-- The tree is an object with a value for each part, or the list of all parts. -/
inductive IsReport : Tree → Report → Prop
  | object {members : List (String × Tree)} {report : Report}
      (h : ∀ part : Report.Part,
        IsField part.name part.Is part.absent? members (part.of report)) :
      IsReport (.object members) report
  | list {trees : Report.Part → Tree} {report : Report}
      (h : ∀ part : Report.Part, part.Is (trees part) (part.of report)) :
      IsReport (.list (Report.Part.all.map trees)) report

namespace Report

/-! ### Objects -/

/-- A draft is what has been read of each part. -/
def Draft.parts : Draft ≃ ((part : Part) → Option part.Value) where
  toFun draft
    | .id => draft.id?
    | .historical => draft.historical?
    | .currentId => draft.currentId?
    | .isCurrent => draft.isCurrent?
    | .latestBlock => draft.latestBlock?
    | .error => draft.error?
  invFun parts :=
    ⟨parts .id, parts .historical, parts .currentId, parts .isCurrent, parts .latestBlock,
      parts .error⟩
  left_inv _ := rfl
  right_inv parts := by
    funext part
    cases part <;> rfl

theorem member_name (draft : Draft) (part : Part) :
    member draft part.name = Reader.once part.name (draft.parts part) part.reader >>=
      fun value => pure (Draft.parts.symm (Function.update draft.parts part (some value))) := by
  cases part <;> rfl

theorem member_of_ne (draft : Draft) (n : String) (h : ∀ part : Part, n ≠ part.name) :
    member draft n = Reader.passMember >>= fun _ => pure draft := by
  unfold member
  split
  · exact absurd rfl (h .id)
  · exact absurd rfl (h .historical)
  · exact absurd rfl (h .currentId)
  · exact absurd rfl (h .isCurrent)
  · exact absurd rfl (h .latestBlock)
  · exact absurd rfl (h .error)
  · rfl

theorem or_some_none_eq_some_iff {γ : Type} {a?? : Option (Option γ)} {a? : Option γ} :
    a??.or (some none) = some a? ↔ a??.getD none = a? := by
  cases a?? <;> simp

theorem run_finish_eq_value_iff (draft : Draft) (s : Bytes) (report : Report) (rest : Bytes) :
    (finish draft).run s = .value report rest ↔
      (∀ part : Part, (draft.parts part).or part.absent? = some (part.of report)) ∧ rest = s := by
  rw [Part.forall_iff]
  change _ ↔ (draft.id?.or none = some report.id ∧
    draft.historical?.or none = some report.historical ∧
    draft.currentId?.or (some none) = some report.currentId? ∧
    draft.isCurrent?.or (some none) = some report.isCurrent? ∧
    draft.latestBlock?.or (some none) = some report.latestBlock? ∧
    draft.error?.or (some none) = some report.error?) ∧ rest = s
  simp only [or_some_none_eq_some_iff, Option.or_none]
  rw [finish]
  split
  · next hid =>
    rw [hid]
    exact iff_of_false (fun h => nomatch h) fun h => nomatch h.1.1
  · next hid hhistorical =>
    rw [hhistorical]
    exact iff_of_false (fun h => nomatch h) fun h => nomatch h.1.2.1
  · next id historical hid hhistorical =>
    rw [hid, hhistorical, Reader.run_pure, Outcome.value.injEq, Report.mk.injEq,
      Option.some.injEq, Option.some.injEq]
    exact and_congr_right fun _ => eq_comm

theorem isReport_object_iff {members : List (String × Tree)} {report : Report} :
    IsReport (.object members) report ↔
      ∀ part : Part, IsField part.name part.Is part.absent? members (part.of report) := by
  constructor
  · intro h
    cases h with
    | object h => exact h
  · exact .object

theorem readsMembers_fromObject :
    fromObject.ReadsMembers fun members report => IsReport (.object members) report := by
  refine Reader.ReadsMembers.congr ?_ fun _ _ => isReport_object_iff.symm
  exact readsMembers_family Part.name_injective Part.reads_reader Draft.parts member_name
    member_of_ne run_finish_eq_value_iff

/-! ### Lists -/

theorem run_part_eq_value_iff {α : Type} (before : Nat) (r : Reader α) (s : Bytes) (a : α)
    (rest : Bytes) :
    (part before r).run s = .value a rest ↔
      (Reader.item? (before = 0) r).run s = .value (some a) rest := by
  rw [part, Reader.run_bind_eq_value_iff]
  constructor
  · rintro ⟨a?, middle, hitem, h⟩
    cases a? with
    | none => cases h
    | some _ =>
      obtain ⟨rfl, rfl⟩ := Outcome.value.inj h
      exact hitem
  · exact fun h => ⟨some a, rest, h, rfl⟩

theorem isReport_list_iff {items : List Tree} {report : Report} :
    IsReport (.list items) report ↔
      ∃ trees : Part → Tree, items = Part.all.map trees ∧
        ∀ part : Part, part.Is (trees part) (part.of report) := by
  constructor
  · intro h
    cases h with
    | list h => exact ⟨_, rfl, h⟩
  · rintro ⟨trees, rfl, h⟩
    exact .list h

theorem readsItems_fromList :
    fromList.ReadsItems fun items report => IsReport (.list items) report := by
  have hread := (Part.reads_reader .id).readsMore_bind (run_part_eq_value_iff 0 _) fun id =>
    (Part.reads_reader .historical).readsMore_bind (run_part_eq_value_iff 1 _) fun historical =>
    (Part.reads_reader .currentId).readsMore_bind (run_part_eq_value_iff 2 _) fun currentId? =>
    (Part.reads_reader .isCurrent).readsMore_bind (run_part_eq_value_iff 3 _) fun isCurrent? =>
    (Part.reads_reader .latestBlock).readsMore_bind (run_part_eq_value_iff 4 _) fun latestBlock? =>
    (Part.reads_reader .error).readsMore_bind (run_part_eq_value_iff 5 _) fun error? =>
    Reader.readsMore_pure false
      (Report.mk id historical currentId? isCurrent? latestBlock? error?)
  refine hread.readsItems.congr fun items report => ?_
  rw [isReport_list_iff]
  constructor
  · rintro ⟨t₁, _, _, rfl, h₁, t₂, _, _, rfl, h₂, t₃, _, _, rfl, h₃, t₄, _, _, rfl, h₄,
      t₅, _, _, rfl, h₅, t₆, _, _, rfl, h₆, rfl, rfl⟩
    refine ⟨fun
      | .id => t₁
      | .historical => t₂
      | .currentId => t₃
      | .isCurrent => t₄
      | .latestBlock => t₅
      | .error => t₆, rfl, Part.forall_iff.mpr ⟨h₁, h₂, h₃, h₄, h₅, h₆⟩⟩
  · rintro ⟨trees, rfl, h⟩
    exact ⟨_, _, _, rfl, h .id, _, _, _, rfl, h .historical, _, _, _, rfl, h .currentId,
      _, _, _, rfl, h .isCurrent, _, _, _, rfl, h .latestBlock, _, _, _, rfl, h .error, rfl, rfl⟩

/-- **Reports.** A report is read from a tree of the shape of a report, and from no other. -/
theorem reads_reader : reader.Reads IsReport := by
  refine (Reader.reads_record readsItems_fromList readsMembers_fromObject _).congr
    fun t report => ?_
  constructor
  · rintro (⟨_, rfl, h⟩ | ⟨_, rfl, h⟩) <;> exact h
  · intro h
    cases h with
    | object h => exact Or.inr ⟨_, rfl, .object h⟩
    | list h => exact Or.inl ⟨_, rfl, .list h⟩

end Report

end ListingSnapshot
