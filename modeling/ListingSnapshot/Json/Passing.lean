import ListingSnapshot.Json.Container

/-!
# Passing over values

The value of a member that is not asked for is passed over. Its brackets may be nested to any depth,
since only the list of those still open is kept; its numbers may be of any size and its strings need
not be well-formed.

## Main definitions

* `Json.Reader.passNumber`: passes over a number.
* `Json.Reader.passStart`: passes over a value without parts, or over an opening bracket.
* `Json.Reader.passValue`: passes over a value.
-/

namespace ListingSnapshot.Json.Reader

/-! ### Numbers -/

/-- Passes over the exponent of a number behind its letter. -/
def passExponent : Reader Unit := do
  let _ ← take? fun b => b = byte '+' || b = byte '-'
  match ← next? with
  | none => failHere (.malformed .badNumber)
  | some b =>
    if Numeral.isDigit b then
      let _ ← digits
      return
    else failHere (.malformed .badNumber)

/-- Passes over an exponent, if there is one. -/
def passExponent? : Reader Unit := do
  match ← take? fun b => b = byte 'e' || b = byte 'E' with
  | some _ => passExponent
  | none => return

/-- Passes over what may follow the digits before the point. -/
def passFraction? : Reader Unit := do
  match ← take? (· = byte '.') with
  | some _ =>
    if (← digits) = 0 then failNext (.malformed .badNumber) else passExponent?
  | none => passExponent?

/-- Passes over a number, its minus sign already taken if it has one. -/
def passNumber : Reader Unit := do
  match ← next? with
  | none => failHere (.malformed .badNumber)
  | some b =>
    if b = byte '0' then
      if ← digitAhead then failNext (.malformed .badNumber) else passFraction?
    else if Numeral.isDigit b then
      let _ ← digits
      passFraction?
    else failHere (.malformed .badNumber)

/-! ### Values -/

/-- Passes over a value without parts. -/
def passScalar : Reader Unit := do
  match ← lead with
  | .null => null
  | .bool value => bool value
  | .string => do
    pass
    passText
  | .minus => do
    pass
    passNumber
  | .digit => passNumber
  | _ => failNext (.malformed .valueExpected)

/-- Takes an opening bracket, if there is one, and tells what it opens. -/
def openBracket? : Reader (Option Container) := do
  match ← take? (· = byte Container.list.opening) with
  | some _ => return some .list
  | none =>
    match ← take? (· = byte Container.object.opening) with
    | some _ => return some .object
    | none => return none

/-- Passes over a value without parts. Of a value with parts only the opening bracket is passed, and
the answer tells what it opens. -/
def passStart : Reader (Option Container) := do
  let _ ← passWhile isBlank
  match ← openBracket? with
  | some kind => return some kind
  | none => do
    passScalar
    return none

/-- Passes over the start of an item: of its value, and in an object of the name before it. -/
def passItemStart : Container → Reader (Option Container)
  | .list => passStart
  | .object => do
    match ← blanks with
    | none => failNext (.truncated .object)
    | some b =>
      if b = byte '"' then
        pass
        passText
        colon
        passStart
      else failNext (.malformed .nameExpected)

/-- The brackets that are open, the innermost first. A bracket is fresh when nothing has been passed
since it was opened. -/
structure OpenBrackets where
  fresh : Bool
  kinds : List Container

/-- Passes over the start of an item of the innermost bracket and adds what it opens. -/
def passItem (kind : Container) (outer : List Container) : Reader (Turn OpenBrackets Unit) := do
  match ← passItemStart kind with
  | none => return .again ⟨false, kind :: outer⟩
  | some inner => return .again ⟨true, inner :: kind :: outer⟩

/-- Passes over what comes next inside the innermost bracket: its closing bracket or another item,
which needs a comma before it unless the bracket is fresh. -/
def passTurn : OpenBrackets → Reader (Turn OpenBrackets Unit)
  | ⟨_, []⟩ => return .done ()
  | ⟨fresh, kind :: outer⟩ => do
    let _ ← passWhile isBlank
    match ← take? (· = byte kind.closing) with
    | some _ => return .again ⟨false, outer⟩
    | none =>
      match ← peek? with
      | none => failNext (.truncated kind.construct)
      | some _ =>
        if fresh then passItem kind outer
        else
          match ← take? (· = byte ',') with
          | some _ => passItem kind outer
          | none => failNext (.malformed (.commaExpected kind))

/-! ### Bytes taken -/

theorem takes_passNumber : passNumber.Takes fun _ => True := by
  refine Takes.bind takes_next? fun b hb => ?_
  cases b with
  | none => exact takes_failHere _
  | some b => exact (hb (by simp)).elim

theorem takes_passScalar : passScalar.Takes fun _ => True := by
  refine Takes.bind_right fun kind => ?_
  cases kind with
  | null => exact takes_null
  | bool value => exact takes_bool value
  | string => exact Takes.bind_right fun _ => takes_passText
  | minus => exact Takes.bind_right fun _ => takes_passNumber
  | digit => exact takes_passNumber
  | container kind => exact takes_failNext _
  | other => exact takes_failNext _

theorem takes_openBracket? : openBracket?.Takes fun kind => kind ≠ none := by
  refine Takes.bind (takes_take? _) fun b hb => ?_
  cases b with
  | some b => exact (hb (by simp)).elim
  | none =>
    refine Takes.bind (takes_take? _) fun b hb => ?_
    cases b with
    | some b => exact (hb (by simp)).elim
    | none => exact takes_pure fun hn => hn rfl

theorem takes_passStart : passStart.Takes fun _ => True := by
  refine Takes.bind_right fun _ => Takes.bind takes_openBracket? fun kind hk => ?_
  cases kind with
  | some kind => exact (hk (by simp)).elim
  | none => exact takes_passScalar.bind_left

theorem takes_passItemStart (kind : Container) : (passItemStart kind).Takes fun _ => True := by
  cases kind with
  | list => exact takes_passStart
  | object =>
    refine Takes.bind_right fun b => ?_
    cases b with
    | none => exact takes_failNext _
    | some b =>
      dsimp only
      split
      · exact Takes.bind_right fun _ => takes_passText.bind_left
      · exact takes_failNext _

theorem takes_passItem {p : Turn OpenBrackets Unit → Prop} (kind : Container)
    (outer : List Container) : (passItem kind outer).Takes p :=
  (takes_passItemStart kind).bind_left

theorem takes_passTurn (brackets : OpenBrackets) : (passTurn brackets).Takes Turn.GoesOn := by
  obtain ⟨fresh, kinds⟩ := brackets
  cases kinds with
  | nil => exact takes_pure id
  | cons kind outer =>
    refine Takes.bind_right fun _ => Takes.bind (takes_take? _) fun b hb => ?_
    cases b with
    | some b => exact (hb (by simp)).elim
    | none =>
      refine Takes.bind_right fun b => ?_
      cases b with
      | none => exact takes_failNext _
      | some b =>
        dsimp only
        split
        · exact takes_passItem kind outer
        · refine Takes.bind (takes_take? _) fun b hb => ?_
          cases b with
          | some b => exact (hb (by simp)).elim
          | none => exact takes_failNext _

/-! ### The whole value -/

/-- Passes over a value of any size and depth. -/
def passValue : Reader Unit := do
  match ← passStart with
  | none => return
  | some kind => iterate passTurn takes_passTurn ⟨true, [kind]⟩

/-- Passes over the value of a member behind its name. -/
def passMember : Reader Unit := do
  colon
  passValue

end ListingSnapshot.Json.Reader
