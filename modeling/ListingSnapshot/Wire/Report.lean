import ListingSnapshot.Json.Passing
import ListingSnapshot.Report
import ListingSnapshot.Wire.Identifier

/-!
# Reports in JSON

A report is an object with a member for each of its parts. Those that are absent are written as
`null`, except for the error, which is left out. Read from a list, a report needs all six parts.

## Main definitions

* `Report.toJson`, `Report.text`: writing reports.
* `Report.reader`: reading reports.
-/

namespace ListingSnapshot

open Json

namespace Report

/-- A value or `null`. -/
def orNull {α : Type} (toJson : α → Tree) : Option α → Tree
  | none => .null
  | some a => toJson a

/-- The parts of the report in order. -/
def toJson (report : Report) : Tree :=
  .object <|
    [("id", .string report.id),
      ("historical", .bool report.historical),
      ("currentId", orNull .string report.currentId?),
      ("isCurrent", orNull .bool report.isCurrent?),
      ("latestBlock", orNull Block.toJson report.latestBlock?)] ++
    match report.error? with
    | none => []
    | some error => [("error", .string error)]

/-- The report as a line of text, without the end of the line. -/
def text (report : Report) : String :=
  report.toJson.text

/-! ### Reading -/

/-- What has been read of a report. -/
structure Draft where
  id? : Option String
  historical? : Option Bool
  currentId? : Option (Option String)
  isCurrent? : Option (Option Bool)
  latestBlock? : Option (Option Block)
  error? : Option (Option String)

/-- Nothing read yet. -/
def Draft.empty : Draft := ⟨none, none, none, none, none, none⟩

/-- Reads the member of this name. -/
def member (draft : Draft) (name : String) : Reader Draft := do
  match name with
  | "id" => return { draft with id? := some (← Reader.once name draft.id? Reader.string) }
  | "historical" =>
    return { draft with historical? := some (← Reader.once name draft.historical? Reader.truth) }
  | "currentId" =>
    let currentId? ← Reader.once name draft.currentId? (Reader.optional Reader.string)
    return { draft with currentId? := some currentId? }
  | "isCurrent" =>
    let isCurrent? ← Reader.once name draft.isCurrent? (Reader.optional Reader.truth)
    return { draft with isCurrent? := some isCurrent? }
  | "latestBlock" =>
    let latestBlock? ← Reader.once name draft.latestBlock? (Reader.optional Block.reader)
    return { draft with latestBlock? := some latestBlock? }
  | "error" =>
    let error? ← Reader.once name draft.error? (Reader.optional Reader.string)
    return { draft with error? := some error? }
  | _ => do
    Reader.passMember
    return draft

/-- The report that has been read. -/
def finish (draft : Draft) : Reader Report :=
  match draft.id?, draft.historical? with
  | none, _ => Reader.failUnplaced (.unfit (.missingField "id"))
  | some _, none => Reader.failUnplaced (.unfit (.missingField "historical"))
  | some id, some historical =>
    return ⟨id, historical, draft.currentId?.getD none, draft.isCurrent?.getD none,
      draft.latestBlock?.getD none, draft.error?.getD none⟩

/-- The part of a report that is the item of a list after `before` others. -/
def part {α : Type} (before : Nat) (r : Reader α) : Reader α := do
  match ← Reader.item? (before = 0) r with
  | some a => return a
  | none => Reader.failUnplaced (.unfit (.wrongLength before "Resolution" 6))

/-- The report whose parts are the items of a list. -/
def fromList : Reader Report := do
  let id ← part 0 Reader.string
  let historical ← part 1 Reader.truth
  let currentId? ← part 2 (Reader.optional Reader.string)
  let isCurrent? ← part 3 (Reader.optional Reader.truth)
  let latestBlock? ← part 4 (Reader.optional Block.reader)
  let error? ← part 5 (Reader.optional Reader.string)
  return ⟨id, historical, currentId?, isCurrent?, latestBlock?, error?⟩

/-- The report whose parts are the members of an object. -/
def fromObject : Reader Report := do
  finish (← Reader.members member Draft.empty)

/-- A report. -/
def reader : Reader Report :=
  Reader.record "Resolution" fromList fromObject

end Report

end ListingSnapshot
