import ListingSnapshot.Text.Blank
import ListingSnapshot.Text.Utf8
import Mathlib.Data.List.DropRight

/-!
# Whole lines

A text that breaks off somewhere has some lines that are complete and perhaps an initial part of one
more. The complete ones are those up to its last line feed.

## Main definitions

* `Text.wholeLines`: a text up to its last line feed.

## Main results

* `Text.prefix_wholeLines`: it is the longest initial part that ends in a line feed.
* `Text.dropLast_splitOn`: what is behind the last line feed is the last piece of the text.
* `Text.prefix_dropLast_splitOn`: breaking off somewhere leaves the complete lines what they are.
-/

namespace ListingSnapshot

namespace Text

/-- A text up to its last line feed; nothing if there is none. -/
def wholeLines (text : Bytes) : Bytes :=
  text.rdropWhile (· ≠ lineFeed)

theorem wholeLines_prefix_self (text : Bytes) : wholeLines text <+: text :=
  List.rdropWhile_prefix _ text

theorem exists_wholeLines_append (text : Bytes) :
    ∃ rest, wholeLines text ++ rest = text ∧ lineFeed ∉ rest := by
  refine ⟨text.rtakeWhile (· ≠ lineFeed), List.rdropWhile_append_rtakeWhile .., fun h => ?_⟩
  simpa using List.mem_rtakeWhile_imp h

theorem wholeLines_cases (text : Bytes) :
    wholeLines text = [] ∨ ∃ lines, wholeLines text = lines ++ [lineFeed] := by
  refine or_iff_not_imp_left.mpr fun h => ⟨(wholeLines text).dropLast, ?_⟩
  have hlast := List.rdropWhile_last_not _ _ h
  rw [decide_eq_true_eq, not_not] at hlast
  rw [← hlast]
  exact (List.dropLast_append_getLast h).symm

/-- Every initial part that ends in a line feed is within the whole lines. -/
theorem prefix_wholeLines {lines text : Bytes} (h : lines ++ [lineFeed] <+: text) :
    lines ++ [lineFeed] <+: wholeLines text := by
  obtain hle | hle := List.prefix_or_prefix_of_prefix h (wholeLines_prefix_self text)
  · exact hle
  · rcases List.prefix_concat_iff.mp hle with heq | ⟨more, rfl⟩
    · exact heq ▸ List.prefix_rfl
    · -- The line feed would stand behind the whole lines.
      obtain ⟨rest, htext, hrest⟩ := exists_wholeLines_append text
      obtain ⟨others, hothers⟩ := h
      have hfeed : more ++ [lineFeed] ++ others = rest := by
        refine List.append_cancel_left (Eq.trans ?_ htext.symm)
        rw [← List.append_assoc, ← List.append_assoc]
        exact hothers
      exact absurd (hfeed ▸ by simp) hrest

/-- What stands behind whole lines is cut by itself. -/
theorem splitOn_wholeLines_append (text rest : Bytes) :
    (wholeLines text ++ rest).splitOn lineFeed =
      ((wholeLines text).splitOn lineFeed).dropLast ++ rest.splitOn lineFeed := by
  obtain h | ⟨lines, h⟩ := wholeLines_cases text
  · rw [h]
    rfl
  · have hsplit : (lines ++ [lineFeed]).splitOn lineFeed = lines.splitOn lineFeed ++ [[]] :=
      List.splitOn_append_cons_self lines []
    rw [h, List.append_assoc, List.singleton_append, List.splitOn_append_cons_self, hsplit,
      List.dropLast_concat]

/-- Nothing stands behind whole lines. -/
theorem splitOn_wholeLines (text : Bytes) :
    (wholeLines text).splitOn lineFeed =
      ((wholeLines text).splitOn lineFeed).dropLast ++ [[]] := by
  have h := splitOn_wholeLines_append text []
  rwa [List.append_nil] at h

/-- The pieces of a text but the last are those of its whole lines. -/
theorem dropLast_splitOn (text : Bytes) :
    (text.splitOn lineFeed).dropLast = ((wholeLines text).splitOn lineFeed).dropLast := by
  obtain ⟨rest, htext, hrest⟩ := exists_wholeLines_append text
  conv_lhs => rw [← htext, splitOn_wholeLines_append, List.splitOn_eq_singleton hrest,
    List.dropLast_concat]

/-- A text that breaks off somewhere has the same complete lines up to there. -/
theorem prefix_dropLast_splitOn {first text : Bytes} (h : first <+: text) :
    (first.splitOn lineFeed).dropLast <+: (text.splitOn lineFeed).dropLast := by
  obtain ⟨rest, hfirst, _⟩ := exists_wholeLines_append first
  obtain ⟨others, rfl⟩ := h
  have hsplit : (first ++ others).splitOn lineFeed =
      ((wholeLines first).splitOn lineFeed).dropLast ++ (rest ++ others).splitOn lineFeed := by
    rw [← splitOn_wholeLines_append, ← List.append_assoc, hfirst]
  rw [dropLast_splitOn first, hsplit, List.dropLast_append_of_ne_nil (by simp)]
  exact List.prefix_append _ _

end Text

end ListingSnapshot
