import ListingSnapshot.Proofs.Stream.Lines
import ListingSnapshot.Stream.Run

/-!
# Lines on demand and all lines at once

A run asks for a line only when it has replied to the one before, so reading and writing take turns.
What the source hands out is not affected by what is written, and a source breaks off behind all
that it hands out. So the run may as well be told in three parts: all records of the source, the
replies to them, and what comes behind the last record.

## Main definitions

* `Source.Supply.Fits`: the right answer for what stands between line feeds.
* `Progress.checked`: what comes behind the last record, as far as the source is concerned.
* `Run.ending`: what comes behind the last record.

## Main results

* `Source.supplyFrom_fits`: an answer of a source is what stands in front of the next line feed.
* `Progress.replyFrom_eq`: replies on demand are the replies to all records.
* `Run.ofSource_eq`: the three parts of a run.
-/

namespace ListingSnapshot

/-! ### Answers of a source -/

namespace Source

/-- The answer is the right one for a source that has these pieces between line feeds. -/
def Supply.Fits (fault? : Option String) (pieces : List Bytes) : Supply → Prop
  | line bytes left =>
    left.fault? = fault? ∧ pieces = bytes :: left.chunks.flatten.splitOn Text.lineFeed
  | last bytes => fault? = none ∧ pieces = [bytes]
  | broken reason => fault? = some reason ∧ ∃ lost, pieces = [lost]

/-- However the bytes are spread over chunks, the answer is what stands in front of the next line
feed. There is none in what is held from the chunks before. -/
theorem supplyFrom_fits (fault? : Option String) (held chunks : List Bytes)
    (h : Text.lineFeed ∉ held.reverse.flatten) :
    (supplyFrom fault? held chunks).Fits fault?
      ((held.reverse.flatten ++ chunks.flatten).splitOn Text.lineFeed) := by
  fun_induction supplyFrom fault? held chunks with
  | case1 held hfault =>
    rw [List.flatten_nil, List.append_nil]
    exact ⟨hfault, List.splitOn_eq_singleton h⟩
  | case2 held reason hfault =>
    rw [List.flatten_nil, List.append_nil]
    exact ⟨hfault, _, List.splitOn_eq_singleton h⟩
  | case3 held chunk chunks hnone ih =>
    have hchunk : Text.lineFeed ∉ chunk := fun hmem => by
      simpa using List.dropWhile_eq_nil_iff.mp hnone _ hmem
    rw [List.reverse_cons, List.flatten_append, List.flatten_singleton, List.append_assoc] at ih
    exact ih fun hmem => (List.mem_append.mp hmem).elim h hchunk
  | case4 held chunk chunks b behind hbehind =>
    obtain rfl : b = Text.lineFeed := by
      have hb := List.head_dropWhile_not (· ≠ Text.lineFeed) (hbehind ▸ List.cons_ne_nil b behind)
      simp only [hbehind, List.head_cons] at hb
      simpa using hb
    have hbefore : Text.lineFeed ∉ chunk.takeWhile (· ≠ Text.lineFeed) := fun hmem => by
      simpa using List.mem_takeWhile_imp hmem
    have hchunk : chunk.takeWhile (· ≠ Text.lineFeed) ++ Text.lineFeed :: behind = chunk :=
      hbehind ▸ List.takeWhile_append_dropWhile
    generalize chunk.takeWhile (· ≠ Text.lineFeed) = before at hbefore hchunk ⊢
    subst hchunk
    have hheld : Text.lineFeed ∉ held.reverse.flatten ++ before := fun hmem =>
      (List.mem_append.mp hmem).elim h hbefore
    refine ⟨rfl, ?_⟩
    rw [List.reverse_cons, List.flatten_append, List.flatten_singleton, List.flatten_cons,
      List.flatten_cons, List.append_assoc, List.cons_append, ← List.append_assoc,
      List.splitOn_append_cons_self_of_not_mem hheld]

theorem supply_fits (source : Source) :
    source.supply.Fits source.fault? (source.chunks.flatten.splitOn Text.lineFeed) :=
  supplyFrom_fits source.fault? [] source.chunks List.not_mem_nil

section Supply

variable {source left : Source} {bytes : Bytes} {reason : String}

theorem fault?_of_line (h : source.supply = .line bytes left) : left.fault? = source.fault? :=
  (h ▸ source.supply_fits).1

theorem cut_of_line (h : source.supply = .line bytes left) : source.cut = bytes :: left.cut := by
  obtain ⟨hfault, hpieces⟩ := h ▸ source.supply_fits
  rw [cut, cut, hfault, hpieces]
  cases source.fault? with
  | none => rfl
  | some reason => exact List.dropLast_cons_of_ne_nil (List.splitOn_ne_nil _ _)

theorem cut_of_last (h : source.supply = .last bytes) :
    source.fault? = none ∧ source.cut = [bytes] := by
  obtain ⟨hfault, hpieces⟩ := h ▸ source.supply_fits
  exact ⟨hfault, by rw [cut, hfault, hpieces]⟩

theorem cut_of_broken (h : source.supply = .broken reason) :
    source.fault? = some reason ∧ source.cut = [] := by
  obtain ⟨hfault, lost, hpieces⟩ := h ▸ source.supply_fits
  exact ⟨hfault, by rw [cut, hfault, hpieces]; rfl⟩

end Supply

end Source

/-! ### Replies on demand -/

namespace Progress

variable (policy : Policy)

theorem replyLine_eq (progress : Progress) (number : Nat) (line : Bytes) :
    progress.replyLine policy number line =
      (Record.ofLine? number line).toList.foldlM (reply policy) progress := by
  rw [replyLine]
  cases Record.ofLine? number line with
  | none => rfl
  | some record => exact (bind_pure _).symm

/-- Goes on, unless the source breaks off. -/
def checked (fault? : Option String) (progress : Progress) : Except (Failure × Progress) Progress :=
  match fault? with
  | none => .ok progress
  | some reason => .error (.io reason, progress)

/-- Replies on demand are the replies to all records in front of the place where the source may
break off. -/
theorem replyFrom_eq (number : Nat) (source : Source) (progress : Progress) :
    replyFrom policy number source progress =
      (Record.ofLines number source.cut).foldlM (reply policy) progress >>=
        checked source.fault? := by
  fun_induction replyFrom policy number source progress with
  | case1 number source progress reason h =>
    obtain ⟨hfault, hcut⟩ := Source.cut_of_broken h
    rw [hcut, hfault]
    rfl
  | case2 number source progress line h =>
    obtain ⟨hfault, hcut⟩ := Source.cut_of_last h
    rw [hcut, hfault, replyLine_eq, Record.ofLines, Record.ofLines, List.append_nil]
    exact (bind_pure _).symm
  | case3 number source progress line left h ih =>
    simp only [Source.cut_of_line h, ← Source.fault?_of_line h, ih, replyLine_eq, Record.ofLines,
      List.foldlM_append, bind_assoc]

end Progress

/-! ### The run -/

namespace Run

/-- The end of a run that has replied to all records: a failure of the source or in flushing the
sink, or the proper end. -/
def ending (fault? : Option String) (progress : Progress) : Run :=
  match fault? with
  | some reason => failed (.io reason) progress
  | none => finished progress

/-- A run replies to all records of the source. What comes behind them is left to the source and,
if it has not broken off, to flushing the sink. -/
theorem ofSource_eq (policy : Policy) (source : Source) (sink : Sink) :
    ofSource policy source sink =
      match source.records.foldlM (Progress.reply policy) (.start sink) with
      | .error (failure, progress) => failed failure progress
      | .ok progress => ending (source.fault?.or progress.sink.flushFault?) progress := by
  rw [ofSource, Progress.replyFrom_eq, ← Source.records_eq]
  cases source.records.foldlM (Progress.reply policy) (.start sink) with
  | error stopped => rfl
  | ok progress =>
    cases source.fault? with
    | some reason => rfl
    | none =>
      have hchecked : (.ok progress >>= Progress.checked none) = Except.ok progress := rfl
      simp only [hchecked, Option.none_or]
      cases progress.sink.flushFault? <;> rfl

end Run

end ListingSnapshot
