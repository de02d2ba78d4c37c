import ListingSnapshot.Text.Blank
import Mathlib.Data.List.DropRight
import Mathlib.Data.List.TakeWhile

/-!
# What stands between blanks

Stripping a text takes it apart into three: blanks, what is left, and blanks. So blanks that are put
around a text are taken away again with those that were there before, and what is left is known once
it is found between blanks and has none at its own ends.

## Main definitions

* `Text.IsCore`: the part of a text between its blank ends.

## Main results

* `Text.exists_strip`: a text is what is left of it between blanks.
* `Text.strip_padded`: blanks around a text make no difference.
* `Text.strip_eq_iff`: which part of a text is left.
* `Text.isCore_iff`: there is one such part of every text.
-/

namespace ListingSnapshot.Text

variable {α : Type} {blank : α → Bool} {text left right : List α}

/-! ### Blanks at one end -/

theorem strip_append_left (h : ∀ a ∈ left, blank a = true) (text : List α) :
    strip blank (left ++ text) = strip blank text := by
  rw [strip, strip, List.dropWhile_append_of_pos h]

theorem stripEnd_append (h : ∀ a ∈ right, blank a = true) (text : List α) :
    stripEnd blank (text ++ right) = stripEnd blank text := by
  have hreverse : ∀ a ∈ right.reverse, blank a = true := fun a ha => h a (List.mem_reverse.mp ha)
  rw [stripEnd, stripEnd, List.reverse_append, List.dropWhile_append_of_pos hreverse]

theorem strip_append_right (h : ∀ a ∈ right, blank a = true) (text : List α) :
    strip blank (text ++ right) = strip blank text := by
  rw [strip, strip, List.dropWhile_append]
  split
  · next htext =>
    -- The whole text is blank, and nothing is left of either.
    rw [List.isEmpty_iff.mp htext, List.dropWhile_eq_nil_iff.mpr h]
  · exact stripEnd_append h _

/-! ### Blanks at both ends -/

/-- Blanks around a text make no difference to what is left of it. -/
theorem strip_padded (hleft : ∀ a ∈ left, blank a = true) (hright : ∀ a ∈ right, blank a = true)
    (text : List α) : strip blank (left ++ text ++ right) = strip blank text := by
  rw [strip_append_right hright, strip_append_left hleft]

theorem strip_eq_nil (h : ∀ a ∈ text, blank a = true) : strip blank text = [] := by
  rw [← List.append_nil text, strip_append_left h]
  rfl

/-- A text is what is left of it between blanks. -/
theorem exists_strip (blank : α → Bool) (text : List α) :
    ∃ left right, text = left ++ strip blank text ++ right ∧ (∀ a ∈ left, blank a = true) ∧
      ∀ a ∈ right, blank a = true := by
  refine ⟨text.takeWhile blank, ((text.dropWhile blank).reverse.takeWhile blank).reverse, ?_,
    fun a ha => List.mem_takeWhile_imp ha,
    fun a ha => List.mem_takeWhile_imp (List.mem_reverse.mp ha)⟩
  rw [strip, stripEnd, List.append_assoc, ← List.reverse_append, List.takeWhile_append_dropWhile,
    List.reverse_reverse, List.takeWhile_append_dropWhile]

/-- Nothing is taken from a text that has no blank at either end. -/
theorem strip_eq_self (hfirst : ∀ a ∈ text.head?, blank a = false)
    (hlast : ∀ a ∈ text.getLast?, blank a = false) : strip blank text = text := by
  have hfront {text : List α} (h : ∀ a ∈ text.head?, blank a = false) :
      text.dropWhile blank = text := by
    cases text with
    | nil => rfl
    | cons a text => exact List.dropWhile_cons_of_neg (by simp [h a rfl])
  rw [strip, stripEnd, hfront hfirst, hfront (by rwa [List.head?_reverse]), List.reverse_reverse]

/-- What is left of a text is the part of it that stands between blanks and has none at its ends. -/
theorem strip_eq_iff {body : List α} (hfirst : ∀ a ∈ body.head?, blank a = false)
    (hlast : ∀ a ∈ body.getLast?, blank a = false) :
    strip blank text = body ↔ ∃ left right, text = left ++ body ++ right ∧
      (∀ a ∈ left, blank a = true) ∧ ∀ a ∈ right, blank a = true := by
  constructor
  · rintro rfl
    exact exists_strip blank text
  · rintro ⟨left, right, rfl, hleft, hright⟩
    rw [strip_padded hleft hright, strip_eq_self hfirst hlast]

/-! ### What is left -/

/-- The part of a text that stands between blanks and has none at its own ends. -/
structure IsCore (blank : α → Bool) (text body : List α) : Prop where
  exists_eq : ∃ left right, text = left ++ body ++ right ∧ (∀ a ∈ left, blank a = true) ∧
    ∀ a ∈ right, blank a = true
  first : ∀ a ∈ body.head?, blank a = false
  last : ∀ a ∈ body.getLast?, blank a = false

theorem eq_false_of_mem_head?_dropWhile {a : α} (h : a ∈ (text.dropWhile blank).head?) :
    blank a = false := by
  have hhead := List.head?_dropWhile_not blank text
  rw [Option.mem_def.mp h] at hhead
  exact hhead

theorem eq_false_of_mem_head?_strip {a : α} (h : a ∈ (strip blank text).head?) :
    blank a = false := by
  obtain ⟨right, hright⟩ : strip blank text <+: text.dropWhile blank :=
    List.rdropWhile_prefix blank _
  have hhead : a ∈ (text.dropWhile blank).head? := by
    rw [← hright, List.head?_append, Option.mem_def.mp h]
    rfl
  exact eq_false_of_mem_head?_dropWhile hhead

theorem eq_false_of_mem_getLast?_strip {a : α} (h : a ∈ (strip blank text).getLast?) :
    blank a = false := by
  rw [strip, stripEnd, List.getLast?_reverse] at h
  exact eq_false_of_mem_head?_dropWhile h

/-- Every text has one part between its blank ends, which is what is left when it is stripped. -/
theorem isCore_iff {body : List α} : IsCore blank text body ↔ body = strip blank text := by
  constructor
  · intro h
    exact ((strip_eq_iff h.first h.last).mpr h.exists_eq).symm
  · rintro rfl
    exact ⟨exists_strip blank text, fun _ => eq_false_of_mem_head?_strip,
      fun _ => eq_false_of_mem_getLast?_strip⟩

end ListingSnapshot.Text
