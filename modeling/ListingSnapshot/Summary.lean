import ListingSnapshot.Report

/-!
# Summaries of reports

A run over many records ends with a count of its reports: how many there were, and how many of them
found their listing current, found it out of date, or found no answer.

## Main definitions

* `Summary`: the four counts.
* `Summary.record`: one more report.
* `Summary.ofReports`: the counts of a list of reports.
-/

namespace ListingSnapshot

/-- Counts of reports by their outcome. -/
structure Summary where
  processed : Nat
  current : Nat
  stale : Nat
  failed : Nat
deriving DecidableEq

namespace Summary

/-- The summary of no reports. -/
def empty : Summary := ⟨0, 0, 0, 0⟩

/-- Counts one more report. -/
def record (summary : Summary) (report : Report) : Summary :=
  let summary := { summary with processed := summary.processed + 1 }
  match report.isCurrent? with
  | some true => { summary with current := summary.current + 1 }
  | some false => { summary with stale := summary.stale + 1 }
  | none => { summary with failed := summary.failed + 1 }

/-- The summary of a list of reports. -/
def ofReports (reports : List Report) : Summary :=
  reports.foldl record empty

end Summary

end ListingSnapshot
