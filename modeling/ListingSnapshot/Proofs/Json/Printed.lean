import ListingSnapshot.Proofs.Text.Encoding
import ListingSnapshot.Stream.Record
import Mathlib.Data.Bool.AllAny
import Mathlib.Tactic.SplitIfs

/-!
# What is printed stays on one line

Strings are printed without controls, whatever characters they have, and nothing else that is
printed has any. So the bytes of a listing or of a report do not contain a line feed, and what is
written one to a line can be told apart again.

## Main definitions

* `Json.Tree.OnOneLine`: a tree that is printed without controls.

## Main results

* `Json.Tree.onOneLine_string`, `Json.Tree.onOneLine_list`, `Json.Tree.onOneLine_object`: the trees
  with this property.
* `Listing.onOneLine_toJson`, `Report.onOneLine_toJson`: listings and reports.
* `Report.le_of_mem_bytes`: no byte of a report is a control.
-/

namespace ListingSnapshot

namespace Json

/-! ### Strings -/

private theorem le_toNat_digitChar : ∀ n < 16, 0x20 ≤ (Nat.digitChar n).toNat := by
  decide

theorem le_of_mem_escaped {c d : Char} (h : d ∈ escaped c) : 0x20 ≤ d.toNat := by
  unfold escaped at h
  split at h
  case h_8 =>
    split_ifs at h with hc
    · have h1 := le_toNat_digitChar (c.toNat / 16) (by omega)
      have h2 := le_toNat_digitChar (c.toNat % 16) (by omega)
      simp only [List.mem_cons, List.not_mem_nil, or_false] at h
      rcases h with rfl | rfl | rfl | rfl | rfl | rfl <;> first | assumption | decide
    · rw [List.mem_singleton.mp h]
      omega
  all_goals
    simp only [List.mem_cons, List.not_mem_nil, or_false] at h
    rcases h with rfl | rfl <;> decide

theorem le_of_mem_printString {text : String} {c : Char} (h : c ∈ printString text) :
    0x20 ≤ c.toNat := by
  simp only [printString, List.cons_append, List.mem_cons, List.mem_append, List.mem_flatMap,
    List.not_mem_nil, or_false] at h
  rcases h with rfl | ⟨d, _, hd⟩ | rfl
  · decide
  · exact le_of_mem_escaped hd
  · decide

/-! ### Trees -/

namespace Tree

/-- The tree is printed without controls, so without a line feed. -/
def OnOneLine (tree : Tree) : Prop :=
  ∀ c ∈ tree.print, 0x20 ≤ c.toNat

/-- No byte of what is printed of such a tree is a control. -/
theorem OnOneLine.le_of_mem_encode {tree : Tree} (h : tree.OnOneLine) :
    ∀ b ∈ Utf8.encode tree.print, 0x20 ≤ b.toNat :=
  Utf8.le_of_mem_encode (by decide) h

theorem OnOneLine.lineFeed_notMem {tree : Tree} (h : tree.OnOneLine) :
    Text.lineFeed ∉ Utf8.encode tree.print :=
  fun hmem => absurd (h.le_of_mem_encode _ hmem) (by decide)

theorem onOneLine_null : null.OnOneLine := by
  unfold OnOneLine print
  exact List.all_iff_forall_prop.mp (by decide)

theorem onOneLine_bool (value : Bool) : (bool value).OnOneLine := by
  unfold OnOneLine print
  cases value <;> exact List.all_iff_forall_prop.mp (by decide)

theorem onOneLine_string (text : String) : (string text).OnOneLine :=
  fun _ h => le_of_mem_printString (by simpa only [print] using h)

theorem onOneLine_ofNat (n : Nat) : (ofNat n).OnOneLine := by
  intro c h
  have hd : c.isDigit = true :=
    Nat.isDigit_of_mem_toDigits (b := 10) (by decide) (by decide)
      (by simpa only [ofNat, print] using h)
  simp only [Char.isDigit, Bool.and_eq_true, decide_eq_true_eq] at hd
  exact Nat.le_trans (by decide) (UInt32.le_iff_toNat_le.mp hd.1)

private theorem le_of_mem_printMoreItems {items : List Tree} (h : ∀ t ∈ items, t.OnOneLine) :
    ∀ c ∈ printMoreItems items, 0x20 ≤ c.toNat := by
  induction items with
  | nil => simp [printMoreItems]
  | cons item items ih =>
    rw [List.forall_mem_cons] at h
    intro c hc
    simp only [printMoreItems, List.cons_append, List.mem_cons, List.mem_append] at hc
    rcases hc with rfl | hc | hc
    · decide
    · exact h.1 c hc
    · exact ih h.2 c hc

theorem onOneLine_list {items : List Tree} (h : ∀ t ∈ items, t.OnOneLine) :
    (list items).OnOneLine := by
  intro c hc
  simp only [print, List.cons_append, List.mem_cons, List.mem_append, List.not_mem_nil,
    or_false] at hc
  rcases hc with rfl | hc | rfl
  · decide
  · cases items with
    | nil => simp [printItems] at hc
    | cons item items =>
      rw [List.forall_mem_cons] at h
      rcases List.mem_append.mp (by simpa only [printItems] using hc) with hc | hc
      · exact h.1 c hc
      · exact le_of_mem_printMoreItems h.2 c hc
  · decide

private theorem le_of_mem_printMoreMembers {members : List (String × Tree)}
    (h : ∀ m ∈ members, m.2.OnOneLine) : ∀ c ∈ printMoreMembers members, 0x20 ≤ c.toNat := by
  induction members with
  | nil => simp [printMoreMembers]
  | cons member members ih =>
    rw [List.forall_mem_cons] at h
    intro c hc
    simp only [printMoreMembers, List.cons_append, List.mem_cons, List.mem_append] at hc
    rcases hc with rfl | (hc | rfl | hc) | hc
    · decide
    · exact le_of_mem_printString hc
    · decide
    · exact h.1 c hc
    · exact ih h.2 c hc

theorem onOneLine_object {members : List (String × Tree)} (h : ∀ m ∈ members, m.2.OnOneLine) :
    (object members).OnOneLine := by
  intro c hc
  simp only [print, List.cons_append, List.mem_cons, List.mem_append, List.not_mem_nil,
    or_false] at hc
  rcases hc with rfl | hc | rfl
  · decide
  · cases members with
    | nil => simp [printMembers] at hc
    | cons member members =>
      rw [List.forall_mem_cons] at h
      simp only [printMembers, List.mem_cons, List.mem_append] at hc
      rcases hc with (hc | rfl | hc) | hc
      · exact le_of_mem_printString hc
      · decide
      · exact h.1 c hc
      · exact le_of_mem_printMoreMembers h.2 c hc
  · decide

end Tree

end Json

/-! ### Listings -/

section Listings

open Json.Tree

theorem Event.onOneLine_toJson (event : Event) : event.toJson.OnOneLine := by
  refine onOneLine_object (List.forall_mem_cons.mpr ⟨onOneLine_ofNat _, ?_⟩)
  cases event.kind? with
  | none => exact List.forall_mem_nil _
  | some kind => exact List.forall_mem_singleton.mpr (onOneLine_string _)

theorem Listing.onOneLine_toJson (listing : Listing) : listing.toJson.OnOneLine := by
  refine onOneLine_object (List.forall_mem_cons.mpr ⟨onOneLine_string _, ?_⟩)
  refine List.forall_mem_singleton.mpr (onOneLine_list ?_)
  exact List.forall_mem_map.mpr fun event _ => event.onOneLine_toJson

end Listings

/-! ### Reports -/

namespace Report

open Json.Tree

theorem onOneLine_orNull {α : Type} {toJson : α → Json.Tree} (h : ∀ a, (toJson a).OnOneLine)
    (a? : Option α) : (orNull toJson a?).OnOneLine := by
  cases a? with
  | none => exact onOneLine_null
  | some a => exact h a

theorem onOneLine_toJson (report : Report) : report.toJson.OnOneLine := by
  refine onOneLine_object fun m hm => ?_
  rcases List.mem_append.mp hm with hm | hm
  · simp only [List.mem_cons, List.not_mem_nil, or_false] at hm
    rcases hm with rfl | rfl | rfl | rfl | rfl
    · exact onOneLine_string _
    · exact onOneLine_bool _
    · exact onOneLine_orNull onOneLine_string _
    · exact onOneLine_orNull onOneLine_bool _
    · exact onOneLine_orNull (fun _ => onOneLine_ofNat _) _
  · split at hm
    · simp at hm
    · rw [List.mem_singleton.mp hm]
      exact onOneLine_string _

/-- No byte of a report is a control. -/
theorem le_of_mem_bytes (report : Report) : ∀ b ∈ report.bytes, 0x20 ≤ b.toNat :=
  report.onOneLine_toJson.le_of_mem_encode

theorem lineFeed_notMem_bytes (report : Report) : Text.lineFeed ∉ report.bytes :=
  report.onOneLine_toJson.lineFeed_notMem

end Report

end ListingSnapshot
