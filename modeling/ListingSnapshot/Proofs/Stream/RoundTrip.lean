import ListingSnapshot.Proofs.Resolution
import ListingSnapshot.Proofs.Stream.Cutoff
import ListingSnapshot.Proofs.Wire.RoundTrip

/-!
# Listings in, reports out

A listing is written without a line feed and with braces at its ends. So listings written one to a
line come to a run as just as many records, of which none is cut in two and none loses anything at
its ends, and each is read as the listing that was written. What the run writes in reply can be read
in the same way, a report from every line.

## Main definitions

* `Listing.line`: a listing as a line.
* `Run.lines`: the complete lines that a run has written.

## Main results

* `Record.pieces_flatMap_line`: lines of listings can be told apart.
* `Run.ofSource_listings`: the run over lines of listings.
* `Run.decode_lines`: reading what a run has written.
-/

namespace ListingSnapshot

open Json

/-! ### Lines of listings -/

namespace Listing

/-- The listing as a line. -/
def line (listing : Listing) : Bytes :=
  listing.bytes ++ [Text.lineFeed]

theorem lineFeed_notMem_bytes (listing : Listing) : Text.lineFeed ∉ listing.bytes :=
  listing.onOneLine_toJson.lineFeed_notMem

/-- A listing is written between braces. -/
theorem exists_bytes_eq (listing : Listing) :
    ∃ middle, listing.bytes = byte '\x7b' :: middle ++ [byte '\x7d'] := by
  rw [bytes, toJson, Tree.print, List.cons_append, encode_cons_of_lt (by decide),
    Utf8.encode_append]
  exact ⟨_, rfl⟩

end Listing

namespace Record

/-- What has no blank at either end is all of the line. -/
theorem trimmed_cons_concat {first last : UInt8} (middle : Bytes)
    (hfirst : first ∉ [0x09, 0x0A, 0x0C, 0x0D, 0x20])
    (hlast : last ∉ [0x09, 0x0A, 0x0C, 0x0D, 0x20]) :
    trimmed (first :: middle ++ [last]) = first :: middle ++ [last] := by
  rw [trimmed, List.cons_append, List.dropWhile_cons_of_neg (by simpa using hfirst),
    ← List.cons_append, List.rdropWhile_concat_neg _ _ _ (by simpa using hlast)]

/-- What stands behind a line feed makes pieces of its own. -/
theorem pieces_append_cons (text others : Bytes) :
    pieces (text ++ Text.lineFeed :: others) = pieces text ++ pieces others := by
  rw [pieces, List.splitOn_append_cons_self, List.map_append, List.filter_append, pieces, pieces]

/-- A line feed at the end makes no difference. -/
theorem pieces_concat (text : Bytes) : pieces (text ++ [Text.lineFeed]) = pieces text := by
  rw [pieces_append_cons]
  exact List.append_nil _

theorem pieces_bytes (listing : Listing) : pieces listing.bytes = [listing.bytes] := by
  obtain ⟨middle, hbytes⟩ := listing.exists_bytes_eq
  -- Blanks in the identifier text are behind a brace and a quote, where nothing is trimmed.
  have htrimmed : trimmed listing.bytes = listing.bytes := by
    rw [hbytes]
    exact trimmed_cons_concat middle (by decide) (by decide)
  rw [pieces, List.splitOn_eq_singleton listing.lineFeed_notMem_bytes, List.map_singleton, htrimmed,
    hbytes]
  rfl

/-- The pieces of lines of listings are the listings. -/
theorem pieces_flatMap_line (listings : List Listing) :
    pieces (listings.flatMap Listing.line) = listings.map Listing.bytes := by
  induction listings with
  | nil => rfl
  | cons listing listings ih =>
    rw [List.flatMap_cons, Listing.line, List.append_assoc, List.singleton_append,
      pieces_append_cons, pieces_bytes, ih]
    rfl

/-- The last line needs no line feed behind it. -/
theorem pieces_dropLast_flatMap_line (listings : List Listing) :
    pieces (listings.flatMap Listing.line).dropLast = listings.map Listing.bytes := by
  rw [← pieces_flatMap_line]
  obtain rfl | ⟨listings, listing, rfl⟩ := listings.eq_nil_or_concat'
  · rfl
  · rw [List.flatMap_append, List.flatMap_singleton, Listing.line, ← List.append_assoc,
      List.dropLast_concat, pieces_concat]

end Record

/-! ### Reports on listings -/

/-- Of the reports on listings just those have no answer that are on snapshots without a log, and
they only under the policy to reject these. -/
theorem Listing.countP_map_resolve (policy : Policy) (listings : List Listing) :
    (listings.map (resolve policy)).countP (·.isCurrent? = none) =
      match policy with
      | .reject => listings.countP fun listing => listing.isHistorical ∧ listing.events = []
      | .stale => 0
      | .current => 0 := by
  rw [List.countP_map]
  cases policy with
  | reject =>
    refine List.countP_congr fun listing _ => ?_
    simp [isCurrent?_resolve_eq_none_iff]
  | stale | current =>
    refine List.countP_eq_zero.mpr fun listing _ => ?_
    simp [isCurrent?_resolve_eq_none_iff]

namespace Run

/-- **Listings in, reports out.** Let the text of a source, in whatever chunks, be some listings
written one to a line, with or without the last line feed. A run meets just these listings, and
writes the report on each of them in their order. It counts as failed the snapshots without a log
under the policy to reject these, and nothing under the others. -/
theorem ofSource_listings (policy : Policy) (listings : List Listing) (chunks : List Bytes)
    (h : chunks.flatten = listings.flatMap Listing.line ∨
      chunks.flatten = (listings.flatMap Listing.line).dropLast) :
    let source := Source.mk chunks none
    let run := ofSource policy source .unlimited
    source.records.map Record.listing = listings.map .ok ∧
      run.written = listings.flatMap (fun listing =>
        (listing.resolve policy).bytes ++ [Text.lineFeed]) ∧
      ∃ summary, run.outcome = .ok summary ∧ summary.processed = listings.length ∧
        summary.failed = match policy with
          | .reject => listings.countP fun listing => listing.isHistorical ∧ listing.events = []
          | .stale => 0
          | .current => 0 := by
  intro source run
  have hpieces : Record.pieces chunks.flatten = listings.map Listing.bytes := by
    rcases h with h | h <;> rw [h]
    · exact Record.pieces_flatMap_line listings
    · exact Record.pieces_dropLast_flatMap_line listings
  have hreports : (Record.pieces chunks.flatten).map (Report.ofPiece policy) =
      listings.map (Listing.resolve policy) := by
    rw [hpieces, List.map_map]
    exact List.map_congr_left fun listing _ => Report.ofPiece_of_ok policy listing.decode_bytes
  refine ⟨?_, ?_, _, outcome_unlimited policy chunks, ?_⟩
  · have hread : source.records.map Record.listing =
        (source.records.map Record.bytes).map (decode Listing.reader) := by
      rw [List.map_map]
      rfl
    rw [hread, Source.map_bytes_records, hpieces, List.map_map]
    exact List.map_congr_left fun listing _ => listing.decode_bytes
  · rw [written_unlimited, hreports, List.flatMap_map]
    rfl
  · rw [hreports, Summary.ofReports_eq]
    exact ⟨List.length_map _, Listing.countP_map_resolve policy listings⟩

/-- Two listings in chunks of three bytes, the first with blanks and a line feed in its identifier
text, the second a snapshot without a log. -/
theorem ofSource_listings_lineFeed_in_id :
    let listings : List Listing :=
      [⟨" 1\n2 ", [⟨⟨7⟩, some .unknown⟩, ⟨⟨3⟩, none⟩]⟩, ⟨"1-2-3-4", []⟩]
    let text := (listings.flatMap Listing.line).dropLast
    let source := Source.mk (Source.chunked 2 text) none
    let run := ofSource .reject source .unlimited
    source.records.map Record.listing = listings.map .ok ∧
      run.written = listings.flatMap (fun listing =>
        (listing.resolve .reject).bytes ++ [Text.lineFeed]) ∧
      ∃ summary, run.outcome = .ok summary ∧ summary.processed = 2 ∧ summary.failed = 1 := by
  intro listings text source run
  obtain ⟨hlistings, hwritten, summary, houtcome, hprocessed, hfailed⟩ :=
    ofSource_listings .reject listings (Source.chunked 2 text)
      (Or.inr (Source.flatten_chunked 2 text))
  refine ⟨hlistings, hwritten, summary, houtcome, hprocessed, hfailed.trans ?_⟩
  rfl

/-! ### Lines of reports -/

/-- The complete lines that a run has written, without the line feeds. -/
def lines (run : Run) : List Bytes :=
  (run.written.splitOn Text.lineFeed).dropLast

/-- **Reports are read from what is written.** Whatever is in its parts, a report is read from the
text that is printed of it. So the lines that a run writes are read as the reports on the records,
in their order: on all of them if the sink has no limit, and on the first ones in any case. -/
theorem decode_lines :
    (∀ report : Report, decode Report.reader (Utf8.encode report.toJson.print) = .ok report) ∧
      ∀ (policy : Policy) (source : Source) (flushFault? : Option String),
        let reports := source.records.map (Record.report policy)
        (ofSource policy source ⟨[], none, flushFault?⟩).lines.map (decode Report.reader) =
            reports.map .ok ∧
          ∀ room?,
            (ofSource policy source ⟨[], room?, flushFault?⟩).lines.map (decode Report.reader) <+:
              reports.map .ok := by
  refine ⟨Report.decode_bytes, fun policy source flushFault? => ?_⟩
  have hread (reports : List Report) :
      (reports.map Report.bytes).map (decode Report.reader) = reports.map .ok := by
    rw [List.map_map]
    exact List.map_congr_left fun report _ => report.decode_bytes
  constructor
  · rw [lines, written_of_room?_eq_none, replies, Report.splitOn_flatMap_line,
      List.dropLast_concat, hread]
  · intro room?
    rw [← hread]
    exact (complete_prefix_map_report policy source room? flushFault?).map _

end Run

end ListingSnapshot
