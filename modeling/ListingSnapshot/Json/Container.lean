import ListingSnapshot.Json.Value

/-!
# Lists and objects

The items of a list and the members of an object are read one at a time, each after the comma that
separates it from the one before. The closing bracket is left for the end of the whole, which is
read in any case: it may come with more text before it than was wanted.

## Main definitions

* `Json.Reader.nextItem`, `Json.Reader.nextName`: whether a list or an object goes on.
* `Json.Reader.closeList`, `Json.Reader.closeObject`: the end of a list or an object.
* `Json.Reader.items`, `Json.Reader.members`: all items, all members.
* `Json.Reader.list`: a list of values of one type.
* `Json.Reader.once`: the value of a member that must not be repeated.
* `Json.Reader.record`: a record, written as a list or as an object.
-/

namespace ListingSnapshot.Json.Reader

variable {σ α : Type}

/-! ### Lists -/

/-- Whether another item follows; if so, the reader stands before it or before blanks. -/
def nextItem (first : Bool) : Reader Bool := do
  match ← blanks with
  | none => failNext (.truncated .list)
  | some b =>
    if b = byte ']' then return false
    else if first then return true
    else if b = byte ',' then
      pass
      match ← blanks with
      | none => failNext (.truncated .value)
      | some b => if b = byte ']' then failNext (.malformed .danglingComma) else return true
    else failNext (.malformed (.commaExpected .list))

/-- The next item, if there is one. -/
def item? (first : Bool) (r : Reader α) : Reader (Option α) := do
  if ← nextItem first then return some (← r) else return none

/-- The end of a list. -/
def closeList : Reader Unit := do
  let _ ← passWhile isBlank
  match ← take? (· = byte ']') with
  | some _ => return
  | none =>
    match ← peek? with
    | none => failNext (.truncated .list)
    | some b =>
      if b = byte ',' then
        pass
        if (← blanks) = some (byte ']') then failNext (.malformed .danglingComma)
        else failNext (.malformed .trailingText)
      else failNext (.malformed .trailingText)

theorem takes_closeList : closeList.Takes fun _ => True := by
  refine Takes.bind_right fun _ => Takes.bind (takes_take? _) fun b hb => ?_
  cases b with
  | some b => exact (hb (by simp)).elim
  | none =>
    refine Takes.bind_right fun b => ?_
    cases b with
    | none => exact takes_failNext _
    | some b =>
      dsimp only
      split
      · refine Takes.bind_right fun _ => Takes.bind_right fun b => ?_
        split <;> exact takes_failNext _
      · exact takes_failNext _

/-- One more item before those gathered backwards so far, or else all of them in order. -/
def itemTurn (r : Reader α) (gathered : List α) : Reader (Turn (List α) (List α)) := do
  match ← item? gathered.isEmpty r with
  | some a => return .again (a :: gathered)
  | none => return .done gathered.reverse

theorem takes_itemTurn {r : Reader α} (h : r.Takes fun _ => True) (gathered : List α) :
    (itemTurn r gathered).Takes Turn.GoesOn := by
  have hi : (item? gathered.isEmpty r).Takes fun a => a ≠ none := by
    refine Takes.bind_right fun more => ?_
    cases more with
    | true => exact h.bind_left
    | false => exact takes_pure fun hn => hn rfl
  refine Takes.bind hi fun a ha => ?_
  cases a with
  | none => exact takes_pure id
  | some a => exact (ha (by simp)).elim

/-- All items of a list. -/
def items (r : Reader α) (h : r.Takes fun _ => True) : Reader (List α) :=
  iterate (itemTurn r) (takes_itemTurn h) []

/-- A list of values of one type. -/
def list (r : Reader α) (h : r.Takes fun _ => True) : Reader (List α) := do
  match ← lead with
  | .container .list => do
    pass
    enclosed (items r h) closeList
  | kind => wrongType .list kind

/-! ### Objects -/

/-- The name of the next member, which has to be a string. -/
def name : Reader String := do
  match ← take? (· = byte '"') with
  | some _ => text
  | none => failNext (.malformed .nameExpected)

/-- The name of the next member, if there is one. -/
def nextName (first : Bool) : Reader (Option String) := do
  match ← blanks with
  | none => failNext (.truncated .object)
  | some b =>
    if b = byte '\x7d' then return none
    else if first then return some (← name)
    else if b = byte ',' then
      pass
      match ← blanks with
      | none => failNext (.truncated .value)
      | some b =>
        if b = byte '\x7d' then failNext (.malformed .danglingComma) else return some (← name)
    else failNext (.malformed (.commaExpected .object))

/-- The colon between a name and its value. -/
def colon : Reader Unit := do
  match ← blanks with
  | none => failNext (.truncated .object)
  | some b => if b = byte ':' then pass else failNext (.malformed .colonExpected)

/-- The end of an object. -/
def closeObject : Reader Unit := do
  let _ ← passWhile isBlank
  match ← take? (· = byte '\x7d') with
  | some _ => return
  | none =>
    match ← peek? with
    | none => failNext (.truncated .object)
    | some b =>
      if b = byte ',' then failNext (.malformed .danglingComma)
      else failNext (.malformed .trailingText)

theorem takes_closeObject : closeObject.Takes fun _ => True := by
  refine Takes.bind_right fun _ => Takes.bind (takes_take? _) fun b hb => ?_
  cases b with
  | some b => exact (hb (by simp)).elim
  | none =>
    refine Takes.bind_right fun b => ?_
    cases b with
    | none => exact takes_failNext _
    | some b =>
      dsimp only
      split <;> exact takes_failNext _

theorem takes_name : name.Takes fun _ => True := by
  refine Takes.bind (takes_take? _) fun b hb => ?_
  cases b with
  | some b => exact (hb (by simp)).elim
  | none => exact takes_failNext _

theorem takes_nextName (first : Bool) : (nextName first).Takes fun n => n ≠ none := by
  refine Takes.bind_right fun b => ?_
  cases b with
  | none => exact takes_failNext _
  | some b =>
    dsimp only
    split
    · exact takes_pure fun hn => hn rfl
    split
    · exact takes_name.bind_left
    split
    · refine Takes.bind_right fun _ => Takes.bind_right fun b => ?_
      cases b with
      | none => exact takes_failNext _
      | some b =>
        dsimp only
        split
        · exact takes_failNext _
        · exact takes_name.bind_left
    · exact takes_failNext _

/-- One more member, which `member` reads behind its name into what has been gathered so far, or
else all that has been gathered. -/
def memberTurn (member : σ → String → Reader σ) (state : Bool × σ) :
    Reader (Turn (Bool × σ) σ) := do
  match ← nextName state.1 with
  | some name => return .again (false, ← member state.2 name)
  | none => return .done state.2

theorem takes_memberTurn (member : σ → String → Reader σ) (state : Bool × σ) :
    (memberTurn member state).Takes Turn.GoesOn := by
  refine Takes.bind (takes_nextName _) fun name hn => ?_
  cases name with
  | none => exact takes_pure id
  | some name => exact (hn (by simp)).elim

/-- The value behind the name of a member that may be there only once, given what has been read
under that name before. -/
def once (name : String) (before? : Option α) (r : Reader α) : Reader α := do
  if before?.isSome then failUnplaced (.unfit (.duplicateField name))
  else
    colon
    r

/-- All members of an object, gathered from the left. -/
def members (member : σ → String → Reader σ) (state : σ) : Reader σ :=
  iterate (memberTurn member) (takes_memberTurn member) (true, state)

/-! ### Records -/

/-- A record of this name, written as a list of its fields in order or as an object. -/
def record (name : String) (fromList fromObject : Reader α) : Reader α := do
  match ← lead with
  | .container .list => do
    pass
    enclosed fromList closeList
  | .container .object => do
    pass
    enclosed fromObject closeObject
  | kind => wrongType (.record name) kind

theorem takes_record {p : α → Prop} (name : String) (fromList fromObject : Reader α) :
    (record name fromList fromObject).Takes p := by
  refine Takes.bind_right fun kind => ?_
  split
  · exact Takes.bind_right fun _ => takes_enclosed takes_closeList
  · exact Takes.bind_right fun _ => takes_enclosed takes_closeObject
  · exact takes_wrongType _ _

end ListingSnapshot.Json.Reader
