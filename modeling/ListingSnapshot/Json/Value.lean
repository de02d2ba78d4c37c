import ListingSnapshot.Json.Number
import ListingSnapshot.Json.Text

/-!
# Values of a given type

A value of the type asked for is read; a value of another type is read as far as it takes to say
what it is, and the fault is placed behind that.

## Main definitions

* `Json.Reader.wrongType`: the fault of a value of another type.
* `Json.Reader.natural`, `Json.Reader.string`, `Json.Reader.truth`, `Json.Reader.nothing`: values of
  the types without parts.
* `Json.Reader.optional`: a value or `null`.
-/

namespace ListingSnapshot.Json.Reader

variable {α : Type}

/-! ### Values of another type -/

/-- What the next value is, given its kind. Of a value with parts nothing is taken. -/
def found : Lead → Reader Found
  | .null => do
    null
    return .null
  | .bool value => do
    bool value
    return .bool value
  | .string => do
    pass
    return .string (← text)
  | .minus => do
    pass
    return (← number true).found
  | .digit => return (← number false).found
  | .container .list => return .list
  | .container .object => return .object
  | .other => failNext (.malformed .valueExpected)

/-- Stops because the next value, which is of this kind, is not what was expected. -/
def wrongType (expected : Expected) (kind : Lead) : Reader α := do
  failHere (.unfit (.wrongType (← found kind) expected))

theorem takes_wrongType {p : α → Prop} (expected : Expected) (kind : Lead) :
    (wrongType expected kind : Reader α).Takes p :=
  Takes.bind_right fun _ => takes_failHere _

/-! ### Values without parts -/

/-- The natural number that a number is, if it is one that 64 bits hold. -/
def naturalOf : Number → Reader Nat
  | .natural n => return n
  | .negative magnitude => failHere (.unfit (.wrongValue (.negative magnitude) .natural))
  | .real x => failHere (.unfit (.wrongType (.real x) .natural))

/-- A natural number of at most 64 bits. -/
def natural : Reader Nat := do
  match ← lead with
  | .digit => naturalOf (← number false)
  | .minus => do
    pass
    naturalOf (← number true)
  | kind => wrongType .natural kind

/-- A string. -/
def string : Reader String := do
  match ← lead with
  | .string => do
    pass
    text
  | kind => wrongType .string kind

/-- A truth value. -/
def truth : Reader Bool := do
  match ← lead with
  | .bool value => do
    bool value
    return value
  | kind => wrongType .bool kind

/-- The value `null`. -/
def nothing : Reader Unit := do
  match ← lead with
  | .null => null
  | kind => wrongType .null kind

/-- A value that may be `null`. Only the first letter tells. -/
def optional (r : Reader α) : Reader (Option α) := do
  match ← blanks with
  | some b =>
    if Lead.ofByte b = .null then
      null
      return none
    else return some (← r)
  | none => return some (← r)

end ListingSnapshot.Json.Reader
