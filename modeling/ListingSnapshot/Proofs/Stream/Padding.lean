import ListingSnapshot.Proofs.Stream.Breakoff
import ListingSnapshot.Proofs.Text.Blanks

/-!
# Blanks between records

Blanks at the ends of lines, and lines of nothing but blanks, make no difference to what a run
writes: they are gone before a record is decoded, so that they do not even show in the columns that
an error names. They show in the numbers of the lines, which count all lines of the text, and so in
what is left on record about a record that is no listing, and nowhere else.

This holds for any sink, and for a run that fails as well. So the proof follows the replies one by
one: what one does to the progress of a run does not depend on how lines are numbered, except for
the log (`Progress.reply_moved`).

## Main definitions

* `Padding`: blanks to be put into a text.
* `Padding.text`: a text with the blanks put in.
* `Padding.inserted`: how many lines are put in before a line.
* `Log.Entry.moved`: an entry with other numbers for the lines.

## Main results

* `Padding.splitOn_text`: the lines of a text with blanks put in.
* `Padding.records_text`: the records of a text with blanks put in.
* `Run.ofSource_padding`: the run over a text with blanks put in.
-/

namespace ListingSnapshot

/-! ### Putting blanks into a text -/

/-- Blanks to be put into a text at the ends of its lines and in lines of their own. -/
structure Padding where
  /-- What is put in front of the line that has so many lines before it. -/
  front : Nat → Bytes
  /-- What is put behind it. -/
  back : Nat → Bytes
  /-- The lines that are put in behind the first so many lines. -/
  between : Nat → List Bytes
  isBlank : ∀ n, ∀ piece ∈ front n :: back n :: between n,
    ∀ b ∈ piece, b ∈ [0x09, 0x0C, 0x0D, 0x20]

namespace Padding

/-- The lines that are left of a text behind the first `n`, with the blanks put in. -/
def linesFrom (padding : Padding) (n : Nat) : List Bytes → List Bytes
  | [] => padding.between n
  | line :: lines =>
    padding.between n ++
      (padding.front n ++ line ++ padding.back n) :: padding.linesFrom (n + 1) lines

/-- The text with the blanks put in. -/
def text (padding : Padding) (text : Bytes) : Bytes :=
  [Text.lineFeed].intercalate (padding.linesFrom 0 (text.splitOn Text.lineFeed))

/-- How many lines are put in before a line of the text, the first of which is number one. -/
def inserted (padding : Padding) : Nat → Nat
  | 0 => 0
  | n + 1 => padding.inserted n + (padding.between n).length

end Padding

/-! ### Lines of a padded text -/

/-- No piece of a text has a line feed in it. -/
theorem Text.lineFeed_notMem_of_mem_splitOn {text piece : Bytes}
    (h : piece ∈ text.splitOn lineFeed) : lineFeed ∉ piece := by
  induction text generalizing piece with
  | nil =>
    rw [List.splitOn_nil, List.mem_singleton] at h
    exact h ▸ List.not_mem_nil
  | cons b text ih =>
    obtain ⟨first, others, hpieces⟩ := List.exists_cons_of_ne_nil (text.splitOn_ne_nil lineFeed)
    rw [List.splitOn_cons_eq_if_modifyHead, hpieces] at h
    rw [hpieces] at ih
    split_ifs at h with hb
    · rcases List.mem_cons.mp h with rfl | h
      · exact List.not_mem_nil
      · exact ih h
    · rcases List.mem_cons.mp h with rfl | h
      · rw [List.mem_cons, not_or]
        exact ⟨fun heq => hb (beq_iff_eq.mpr heq.symm), ih List.mem_cons_self⟩
      · exact ih (List.mem_cons_of_mem _ h)

namespace Padding

variable (padding : Padding)

theorem isBlank_of_mem (n : Nat) :
    (∀ b ∈ padding.front n, Record.isBlank b = true) ∧
      (∀ b ∈ padding.back n, Record.isBlank b = true) ∧
      ∀ line ∈ padding.between n, ∀ b ∈ line, Record.isBlank b = true := by
  have hblank : ∀ b ∈ [0x09, 0x0C, 0x0D, 0x20], Record.isBlank b = true :=
    List.all_iff_forall_prop.mp (by decide)
  have h : ∀ piece ∈ padding.front n :: padding.back n :: padding.between n,
      ∀ b ∈ piece, Record.isBlank b = true :=
    fun piece hpiece b hb => hblank b (padding.isBlank n piece hpiece b hb)
  rwa [List.forall_mem_cons, List.forall_mem_cons] at h

theorem lineFeed_notMem (n : Nat) :
    Text.lineFeed ∉ padding.front n ∧ Text.lineFeed ∉ padding.back n ∧
      ∀ line ∈ padding.between n, Text.lineFeed ∉ line := by
  have h : ∀ piece ∈ padding.front n :: padding.back n :: padding.between n,
      Text.lineFeed ∉ piece :=
    fun piece hpiece hb => absurd (padding.isBlank n piece hpiece _ hb) (by decide)
  rwa [List.forall_mem_cons, List.forall_mem_cons] at h

theorem linesFrom_ne_nil {lines : List Bytes} (h : lines ≠ []) (n : Nat) :
    padding.linesFrom n lines ≠ [] := by
  cases lines with
  | nil => exact absurd rfl h
  | cons line lines => exact List.append_ne_nil_of_right_ne_nil _ (List.cons_ne_nil _ _)

theorem lineFeed_notMem_of_mem_linesFrom {lines : List Bytes}
    (h : ∀ line ∈ lines, Text.lineFeed ∉ line) (n : Nat) :
    ∀ line ∈ padding.linesFrom n lines, Text.lineFeed ∉ line := by
  induction lines generalizing n with
  | nil => exact (padding.lineFeed_notMem n).2.2
  | cons line lines ih =>
    obtain ⟨hfront, hback, hbetween⟩ := padding.lineFeed_notMem n
    rw [linesFrom, List.forall_mem_append, List.forall_mem_cons, List.mem_append, List.mem_append,
      not_or, not_or]
    obtain ⟨hline, hlines⟩ := List.forall_mem_cons.mp h
    exact ⟨hbetween, ⟨⟨hfront, hline⟩, hback⟩, ih hlines (n + 1)⟩

/-- Cutting a text with blanks put in gives the lines with their blanks and those put in between. -/
theorem splitOn_text (text : Bytes) :
    (padding.text text).splitOn Text.lineFeed =
      padding.linesFrom 0 (text.splitOn Text.lineFeed) :=
  List.splitOn_intercalate Text.lineFeed
    (padding.lineFeed_notMem_of_mem_linesFrom (fun _ => Text.lineFeed_notMem_of_mem_splitOn) 0)
    (padding.linesFrom_ne_nil (text.splitOn_ne_nil Text.lineFeed) 0)

/-- A line feed becomes a carriage return with a line feed, behind which a blank line is put in. -/
example :
    let padding : Padding := ⟨fun _ => [], fun n => if n = 0 then [0x0D] else [],
      fun n => if n = 1 then [[0x20]] else [], fun n => by by_cases n = 0 <;> simp_all⟩
    padding.text [0x31, 0x0A, 0x32] = [0x31, 0x0D, 0x0A, 0x20, 0x0A, 0x32] ∧
      [1, 2].map padding.inserted = [0, 1] := by
  decide +kernel

end Padding

/-! ### Records of a padded text -/

/-- The entry with as many lines put in before each line as `inserted` says. -/
def Log.Entry.moved (inserted : Nat → Nat) : Entry → Entry
  | undecodable line error => .undecodable (line + inserted line) error
  | entry => entry

namespace Record

/-- The same record, with as many lines put in before each line as `inserted` says. -/
def moved (inserted : Nat → Nat) (record : Record) : Record :=
  { record with line := record.line + inserted record.line }

theorem ofLine?_padded {left right : Bytes} (hleft : ∀ b ∈ left, isBlank b = true)
    (hright : ∀ b ∈ right, isBlank b = true) (number : Nat) (line : Bytes) :
    ofLine? number (left ++ line ++ right) = ofLine? number line := by
  rw [ofLine?, ofLine?, Text.strip_padded hleft hright]

theorem ofLine?_moved (inserted : Nat → Nat) (number : Nat) (line : Bytes) :
    ofLine? (number + inserted number) line = (ofLine? number line).map (moved inserted) := by
  rw [ofLine?, ofLine?]
  by_cases h : (Text.strip isBlank line).isEmpty <;> simp [h, moved]

/-- Blank lines are no records. -/
theorem ofLines_blank {lines : List Bytes} (h : ∀ line ∈ lines, ∀ b ∈ line, isBlank b = true)
    (first : Nat) : ofLines first lines = [] := by
  induction lines generalizing first with
  | nil => rfl
  | cons line lines ih =>
    obtain ⟨hline, hlines⟩ := List.forall_mem_cons.mp h
    rw [ofLines, ih hlines, ofLine?, Text.strip_eq_nil hline]
    rfl

theorem logEntry?_moved (inserted : Nat → Nat) (policy : Policy) (record : Record) :
    Record.logEntry? policy (record.moved inserted) =
      (record.logEntry? policy).map (Log.Entry.moved inserted) := by
  have hlisting : (record.moved inserted).listing = record.listing := rfl
  rw [Record.logEntry?, Record.logEntry?, hlisting]
  cases record.listing with
  | error e => rfl
  | ok listing =>
    change listing.logEntry? policy = (listing.logEntry? policy).map (Log.Entry.moved inserted)
    rw [Listing.logEntry?]
    cases listing.currency policy <;> rfl

end Record

namespace Padding

variable (padding : Padding)

/-- The records are the same, but for the numbers of their lines. -/
theorem ofLines_linesFrom (n : Nat) (lines : List Bytes) :
    Record.ofLines (n + 1 + padding.inserted n) (padding.linesFrom n lines) =
      (Record.ofLines (n + 1) lines).map (Record.moved padding.inserted) := by
  induction lines generalizing n with
  | nil => exact Record.ofLines_blank (padding.isBlank_of_mem n).2.2 _
  | cons line lines ih =>
    obtain ⟨hfront, hback, hbetween⟩ := padding.isBlank_of_mem n
    have hnumber : n + 1 + padding.inserted n + (padding.between n).length =
        n + 1 + padding.inserted (n + 1) := Nat.add_assoc ..
    have hnext : n + 1 + padding.inserted (n + 1) + 1 =
        n + 1 + 1 + padding.inserted (n + 1) := Nat.add_right_comm ..
    rw [linesFrom, Record.ofLines_append, Record.ofLines_blank hbetween, List.nil_append, hnumber,
      Record.ofLines, Record.ofLine?_padded hfront hback, Record.ofLine?_moved, hnext, ih,
      Record.ofLines, List.map_append]
    cases Record.ofLine? (n + 1) line <;> rfl

/-- However the two texts are handed out, the records are the same but for the numbers of their
lines. -/
theorem records_text (text : Bytes) (chunk? chunk?' : Option Nat) :
    (Source.ofBytes (padding.text text) chunk?' none).records =
      (Source.ofBytes text chunk? none).records.map (Record.moved padding.inserted) := by
  obtain ⟨chunks, hsource, hchunks⟩ := Source.exists_ofBytes text chunk?
  obtain ⟨chunks', hsource', hchunks'⟩ := Source.exists_ofBytes (padding.text text) chunk?'
  rw [hsource, hsource', Source.records_eq, Source.records_eq]
  simp only [Source.cut, hchunks, hchunks', splitOn_text]
  exact padding.ofLines_linesFrom 0 _

end Padding

/-! ### Runs over the same records on other lines -/

section Moved

variable (inserted : Nat → Nat)

namespace Progress

/-- The same progress over a text with lines put in. -/
def moved (progress : Progress) : Progress :=
  { progress with log := progress.log.map (Log.Entry.moved inserted) }

/-- The same result over a text with lines put in. -/
def movedResult : Except (Failure × Progress) Progress → Except (Failure × Progress) Progress
  | .ok progress => .ok (progress.moved inserted)
  | .error (failure, progress) => .error (failure, progress.moved inserted)

theorem movedResult_bind {next next' : Progress → Except (Failure × Progress) Progress}
    (h : ∀ progress, next' (progress.moved inserted) = movedResult inserted (next progress))
    (result : Except (Failure × Progress) Progress) :
    (movedResult inserted result).bind next' = movedResult inserted (result.bind next) := by
  cases result with
  | ok progress => exact h progress
  | error stopped => rfl

theorem write_moved (failure : String → Failure) (bytes : Bytes) (progress : Progress) :
    (progress.moved inserted).write failure bytes =
      movedResult inserted (progress.write failure bytes) := by
  have hsink : (progress.moved inserted).sink = progress.sink := rfl
  rw [write, write, hsink]
  rcases progress.sink.write bytes with ⟨sink, - | reason⟩ <;> rfl

variable (policy : Policy)

theorem counted_moved (progress : Progress) (record : Record) :
    (progress.moved inserted).counted policy (record.moved inserted) =
      (progress.counted policy record).moved inserted := by
  have hreport : (record.moved inserted).report policy = record.report policy := rfl
  rw [counted, counted, Record.logEntry?_moved, hreport]
  cases record.logEntry? policy <;> rfl

/-- What a reply does to the progress of a run does not depend on how lines are numbered. -/
theorem reply_moved (progress : Progress) (record : Record) :
    (progress.moved inserted).reply policy (record.moved inserted) =
      movedResult inserted (progress.reply policy record) := by
  have hreport : (record.moved inserted).report policy = record.report policy := rfl
  rw [reply_eq, reply_eq, counted_moved, hreport, write_moved]
  exact movedResult_bind inserted (write_moved inserted .io [Text.lineFeed]) _

theorem foldlM_reply_moved (progress : Progress) (records : List Record) :
    (records.map (Record.moved inserted)).foldlM (reply policy) (progress.moved inserted) =
      movedResult inserted (records.foldlM (reply policy) progress) := by
  induction records generalizing progress with
  | nil => rfl
  | cons record records ih =>
    rw [List.map_cons, List.foldlM_cons, List.foldlM_cons, reply_moved]
    exact movedResult_bind inserted ih _

end Progress

namespace Run

/-- The same run over a text with lines put in. -/
def moved (run : Run) : Run :=
  { run with log := run.log.map (Log.Entry.moved inserted) }

theorem failed_moved (failure : Failure) (progress : Progress) :
    failed failure (progress.moved inserted) = (failed failure progress).moved inserted := by
  simp only [failed, moved, Progress.moved, List.map_reverse]

theorem finished_moved (progress : Progress) :
    finished (progress.moved inserted) = (finished progress).moved inserted := by
  simp only [finished, moved, Progress.moved, List.map_reverse, List.map_cons, Log.Entry.moved]

/-- Runs over the same records on other lines differ in their logs only. -/
theorem ofSource_moved {source source' : Source} (policy : Policy) (sink : Sink)
    (hrecords : source'.records = source.records.map (Record.moved inserted))
    (hfault : source'.fault? = source.fault?) :
    ofSource policy source' sink = (ofSource policy source sink).moved inserted := by
  have hreplies : source'.records.foldlM (Progress.reply policy) (.start sink) =
      Progress.movedResult inserted
        (source.records.foldlM (Progress.reply policy) (.start sink)) :=
    hrecords ▸ Progress.foldlM_reply_moved inserted policy (.start sink) source.records
  rw [ofSource_eq, ofSource_eq, hreplies, hfault]
  cases source.records.foldlM (Progress.reply policy) (.start sink) with
  | error stopped => exact failed_moved inserted stopped.1 stopped.2
  | ok progress =>
    change ending (source.fault?.or progress.sink.flushFault?) (progress.moved inserted) =
      (ending (source.fault?.or progress.sink.flushFault?) progress).moved inserted
    cases source.fault?.or progress.sink.flushFault? with
    | none => exact finished_moved inserted progress
    | some reason => exact failed_moved inserted (.io reason) progress

end Run

end Moved

/-- **Blanks between records make no difference.** Put blanks into a text, at the ends of its lines
and in lines of their own. The runs over the two texts write the same bytes and come to the same
end, which is the proper one if the sink takes everything. They leave the same on record, except
that about a record that is no listing the number of its line is greater by the number of lines put
in before it. -/
theorem Run.ofSource_padding (policy : Policy) (padding : Padding) (text : Bytes)
    (chunk? chunk?' : Option Nat) :
    let run (sink : Sink) := ofSource policy (.ofBytes text chunk? none) sink
    let padded (sink : Sink) := ofSource policy (.ofBytes (padding.text text) chunk?' none) sink
    (∃ summary, (run .unlimited).outcome = .ok summary) ∧
    ∀ sink, (padded sink).written = (run sink).written ∧
      (padded sink).outcome = (run sink).outcome ∧
      (padded sink).log = (run sink).log.map (Log.Entry.moved padding.inserted) := by
  intro run padded
  obtain ⟨chunks, hsource, _⟩ := Source.exists_ofBytes text chunk?
  obtain ⟨chunks', hsource', _⟩ := Source.exists_ofBytes (padding.text text) chunk?'
  have hpadded (sink : Sink) : padded sink = (run sink).moved padding.inserted :=
    ofSource_moved padding.inserted policy sink (padding.records_text text chunk? chunk?')
      (by rw [hsource, hsource'])
  refine ⟨⟨_, hsource ▸ outcome_unlimited policy chunks⟩, fun sink => ?_⟩
  rw [hpadded]
  exact ⟨rfl, rfl, rfl⟩

end ListingSnapshot
