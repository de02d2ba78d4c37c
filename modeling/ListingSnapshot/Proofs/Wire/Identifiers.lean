import ListingSnapshot.Proofs.Identifier.Pieces
import ListingSnapshot.Proofs.Json.Spelled
import ListingSnapshot.Wire.Identifier

/-!
# Identifiers in strings

An identifier is read from any spelling of its string form, with escapes or without, and it is
written without them, since there is nothing in it but digits and dashes. A string that is read but
is no identifier is refused for the reason for which it is none.

## Main results

* `Json.Reader.decode_string_eq_ok_iff`: a whole text is read as a string if it spells it.
* `Identifier.reads_reader`: what identifiers are read from.
* `Identifier.print_toJson`: identifiers are printed without escapes.
* `Identifier.decode_reader_of_error`: a string that is no identifier.
* `Identifier.decode_reader_string`: reading and writing identifiers in strings.
-/

namespace ListingSnapshot

/-! ### Strings -/

namespace Json

/-- A string of the grammar is a text under either rule. -/
theorem text_string_iff {s : String} {text : Bytes} :
    Text Lenient (.string s) text ↔ Text Strict (.string s) text := by
  refine ⟨?_, Text.mono fun _ _ => Strict.lenient⟩
  rintro ⟨rest, hspells, hrest⟩
  obtain ⟨body, hbody, hs⟩ := hspells.spelledAs Tree.noConfusion
  refine ⟨rest, ?_, hrest⟩
  rw [hs]
  exact @Spells.string Strict (some s) _ _ hbody

theorem Reader.decode_string_eq_ok_iff {s : String} {text : Bytes} :
    decode Reader.string text = .ok s ↔ Text Strict (.string s) text := by
  rw [reads_string.decode_eq_ok_iff, ← text_string_iff]
  constructor
  · rintro ⟨_, ht, rfl⟩
    exact ht
  · exact fun ht => ⟨_, ht, rfl⟩

theorem escaped_eq_singleton {c : Char} (h : 0x20 ≤ c.toNat) (hquote : c ≠ '"')
    (hbackslash : c ≠ '\\') : escaped c = [c] := by
  unfold escaped
  split
  case h_8 => exact if_neg (Nat.not_lt.mpr h)
  case h_1 => exact (hquote rfl).elim
  case h_2 => exact (hbackslash rfl).elim
  all_goals exact absurd h (by decide)

end Json

open Json

namespace Identifier

variable {id : Identifier} {s : String} {e : ParseError}

/-! ### Reading -/

/-- An identifier is read from a string that spells its string form, and from nothing else. -/
theorem reads_reader : reader.Reads fun t id => t = .string id.text where
  complete := by
    rintro t s rest id ht hr rfl
    rw [reader, Reader.run_bind_of_value _ (Reader.reads_string.complete ht hr rfl), parse_text]
    rfl
  sound := by
    intro s id rest h
    obtain ⟨text, middle, htext, h⟩ := Reader.run_bind_eq_value_iff.mp h
    obtain ⟨t, ht, rfl⟩ := Reader.reads_string.sound htext
    cases hparse : parse text with
    | error e =>
      rw [hparse] at h
      cases h
    | ok id' =>
      rw [hparse] at h
      obtain ⟨rfl, rfl⟩ := Outcome.value.inj h
      exact ⟨_, ht, congrArg Tree.string (text_eq_of_parse hparse).symm⟩

theorem decode_reader_eq_ok_iff {text : Bytes} :
    decode reader text = .ok id ↔ Json.Text Strict (.string id.text) text := by
  rw [reads_reader.decode_eq_ok_iff, ← text_string_iff]
  constructor
  · rintro ⟨_, ht, rfl⟩
    exact ht
  · exact fun ht => ⟨_, ht, rfl⟩

/-- A string that is no identifier is refused without a place, for the reason that parsing gives.
What is behind the string is not looked at before. -/
theorem run_reader_of_error {bytes rest : Bytes} (h : Reader.string.run bytes = .value s rest)
    (he : parse s = .error e) :
    reader.run bytes = .fault ⟨.unfit (.refused e.message), none⟩ rest := by
  rw [reader, Reader.run_bind_of_value _ h, he]
  rfl

theorem decode_reader_of_error {text : Bytes} (h : decode Reader.string text = .ok s)
    (he : parse s = .error e) :
    decode reader text = .error ⟨.unfit (.refused e.message), none⟩ := by
  obtain ⟨rest, hrun, _⟩ := Reader.decode_eq_ok_iff_run.mp h
  have hfault : reader.whole.run text = .fault ⟨.unfit (.refused e.message), none⟩ rest :=
    Reader.run_bind_of_fault _ (run_reader_of_error hrun he)
  rw [decode, hfault]
  rfl

/-! ### Writing -/

theorem mem_chars_iff {c : Char} :
    c ∈ id.chars ↔ c = separator ∨ ∃ segment ∈ id.segments, c ∈ segment.chars := by
  obtain ⟨network, contract, index, snapshot?⟩ := id
  cases snapshot? <;> simp [chars, segments] <;> tauto

/-- Nothing in an identifier has to be escaped. -/
theorem escaped_of_mem_chars {c : Char} (h : c ∈ id.chars) : escaped c = [c] := by
  rcases mem_chars_iff.mp h with rfl | ⟨segment, _, hc⟩
  · rfl
  · obtain ⟨hlow, hhigh⟩ := isFigure_iff.mp (segment.isDigitRun.2 c hc)
    refine escaped_eq_singleton (by omega) ?_ ?_
    · rintro rfl
      exact absurd hlow (by decide)
    · rintro rfl
      exact absurd hhigh (by decide)

theorem print_toJson (id : Identifier) : id.toJson.print = '"' :: id.text.toList ++ ['"'] := by
  have hbody : id.chars.flatMap escaped = id.chars := by
    rw [List.flatMap_congr fun c hc => escaped_of_mem_chars hc]
    exact List.flatMap_singleton' id.chars
  rw [toJson, Tree.print, printString, toList_text, hbody]

/-! ### Strings that hold identifiers -/

/-- **Identifiers in strings.** A text is read as an identifier if it is read as a string, which it
is if it spells one, and the string is parsed as this identifier; so any spelling of its string form
will do. An identifier is written as its string form between quotes, as it stands, and is read from
that. If a text is read as a string that cannot be parsed, the fault is one of data, without a
position, and its message is that of parsing. -/
theorem decode_reader_string :
    (∀ (text : Bytes) (s : String),
      decode Reader.string text = .ok s ↔ Json.Text Strict (.string s) text) ∧
    (∀ (text : Bytes) (id : Identifier),
      (decode reader text = .ok id ↔
        ∃ s, decode Reader.string text = .ok s ∧ parse s = .ok id) ∧
      (decode reader text = .ok id ↔ Json.Text Strict (.string id.text) text)) ∧
    (∀ id : Identifier, id.toJson.print = '"' :: id.text.toList ++ ['"'] ∧
      decode reader (Utf8.encode id.toJson.print) = .ok id) ∧
    ∀ (text : Bytes) (s : String) (e : ParseError),
      decode Reader.string text = .ok s → parse s = .error e →
        ∃ d, decode reader text = .error d ∧ d.cause.category = .data ∧ d.position? = none ∧
          d.message = e.message := by
  refine ⟨fun text s => Reader.decode_string_eq_ok_iff,
    fun text id => ⟨?_, decode_reader_eq_ok_iff⟩, fun id => ⟨id.print_toJson, ?_⟩,
    fun text s e h he => ⟨_, decode_reader_of_error h he, rfl, rfl, rfl⟩⟩
  · simp only [decode_reader_eq_ok_iff, Reader.decode_string_eq_ok_iff, parse_eq_ok_iff]
    exact ⟨fun ht => ⟨id.text, ht, rfl⟩, fun ⟨_, ht, hs⟩ => hs ▸ ht⟩
  · exact (reads_reader.decode_print_iff .string).mpr rfl

/-- Two pieces between quotes are read as a string and refused as an identifier. -/
theorem decode_reader_string_too_short :
    let text := Utf8.encode "\"4-5\"".toList
    decode Reader.string text = .ok "4-5" ∧ parse "4-5" = .error (.segmentCount 2) ∧
      ∃ d, decode reader text = .error d ∧ d.cause.category = .data ∧ d.position? = none ∧
        d.message = "expected 3 or 4 segments, got 2" := by
  intro text
  have hsome : (decode Reader.string text).toOption = some "4-5" := by decide +kernel
  have hparse : parse "4-5" = .error (.segmentCount 2) := by rfl
  cases hstring : decode Reader.string text with
  | error e =>
    rw [hstring] at hsome
    cases hsome
  | ok s =>
    rw [hstring] at hsome
    obtain rfl : s = "4-5" := Option.some.inj hsome
    obtain ⟨_, _, _, hrefused⟩ := decode_reader_string
    exact ⟨rfl, hparse, hrefused text "4-5" _ hstring hparse⟩

/-- Digits and dashes may be escaped; a text of two pieces is refused, as is one with a plus. -/
example :
    let read (text : String) :=
      (decode reader (Utf8.encode text.toList)).toOption.map Identifier.text
    read " \"\\u0034-5\\u002d6-07\" " = some "4-5-6-07" ∧ read "\"4-5\"" = none ∧
      read "\"4-5-+6\"" = none := by
  decide +kernel

end Identifier

end ListingSnapshot
