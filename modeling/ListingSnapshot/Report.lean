import ListingSnapshot.Currency

/-!
# Reports

The report on a listing gathers all that is found out about it. A record that could not be read as
a listing has a report as well, with the identifier text as far as it is known and the error.

## Main definitions

* `Report`: what is found out about a listing.
* `Listing.resolve`: the report on a listing under a policy.
* `Report.rejected`: the report on a record that is no listing.
-/

namespace ListingSnapshot

/-- What is found out about a listing. In the reports made here `isCurrent?` is absent exactly when
`error?` is present; one that is read from outside need not keep to that. -/
structure Report where
  id : String
  historical : Bool
  currentId? : Option String
  isCurrent? : Option Bool
  latestBlock? : Option Block
  error? : Option String
deriving DecidableEq

namespace Report

/-- The report on a record that could not be read. -/
def rejected (id error : String) : Report where
  id := id
  historical := false
  currentId? := none
  isCurrent? := none
  latestBlock? := none
  error? := some error

/-- Whether the report states no error. -/
def isOk (report : Report) : Bool :=
  report.error?.isNone

end Report

/-- The report on a listing. -/
def Listing.resolve (policy : Policy) (listing : Listing) : Report where
  id := listing.id
  historical := listing.isHistorical
  currentId? := listing.currentId?
  isCurrent? := (listing.isCurrent policy).toOption
  latestBlock? := listing.latestBlock?
  error? := match listing.isCurrent policy with
    | .ok _ => none
    | .error e => some e.message

end ListingSnapshot
