import ListingSnapshot.Json.Container
import ListingSnapshot.Json.Decode

/-!
# Documents of any shape

A text that is not what was asked for may still be JSON. Here it is read as a tree of any shape,
with a limit on the depth of its brackets.

## Main definitions

* `Json.Reader.tree`: a value of any type.
* `Json.document?`: the tree that a text spells.
-/

namespace ListingSnapshot.Json

namespace Reader

/-- A number, kept as it is spelled. It has to be one that can be read. -/
def spelledNumber (minus : Bool) : Reader Tree := do
  let (spelling, _) ← spelled (number minus)
  let digits := spelling.map fun b => Char.ofNat b.toNat
  return .number (if minus then '-' :: digits else digits)

/-- The value behind a name, added to the members read before it. -/
def treeMember (value : Reader Tree) (gathered : List (String × Tree)) (name : String) :
    Reader (List (String × Tree)) := do
  colon
  return gathered ++ [(name, ← value)]

/-- A value of any type, given how the values inside it are read; `none` if there may be no brackets
here. -/
def treeOver (inside? : Option {r : Reader Tree // r.Takes fun _ => True}) : Reader Tree := do
  match ← lead with
  | .null => do
    null
    return .null
  | .bool value => do
    bool value
    return .bool value
  | .string => do
    pass
    return .string (← text)
  | .minus => do
    pass
    spelledNumber true
  | .digit => spelledNumber false
  | .container kind =>
    match inside?, kind with
    | none, _ => failNext (.malformed .nestedTooDeep)
    | some inside, .list => do
      pass
      return .list (← enclosed (items inside.1 inside.2) closeList)
    | some inside, .object => do
      pass
      return .object (← enclosed (members (treeMember inside.1) []) closeObject)
  | .other => failNext (.malformed .valueExpected)

theorem takes_spelled {α : Type} {r : Reader α} (h : r.Takes fun _ => True) :
    (spelled r).Takes fun _ => True := by
  intro s a rest hs _
  simp only [spelled] at hs
  split at hs
  · next b middle hr =>
    obtain ⟨_, rfl⟩ := Outcome.value.inj hs
    exact h s b middle hr trivial
  · simp at hs

theorem takes_spelledNumber (minus : Bool) : (spelledNumber minus).Takes fun _ => True :=
  (takes_spelled (takes_number minus)).bind_left

theorem takes_treeOver (inside? : Option {r : Reader Tree // r.Takes fun _ => True}) :
    (treeOver inside?).Takes fun _ => True := by
  refine Takes.bind_right fun kind => ?_
  split
  · exact takes_null.bind_left
  · exact (takes_bool _).bind_left
  · exact Takes.bind_right fun _ => takes_text.bind_left
  · exact Takes.bind_right fun _ => takes_spelledNumber true
  · exact takes_spelledNumber false
  · split
    · exact takes_failNext _
    · exact Takes.bind_right fun _ => (takes_enclosed takes_closeList).bind_left
    · exact Takes.bind_right fun _ => (takes_enclosed takes_closeObject).bind_left
  · exact takes_failNext _

/-- A value of any type with brackets nested to at most this depth, and the fact that reading it
takes at least one byte. -/
def treeWithin : Nat → {r : Reader Tree // r.Takes fun _ => True}
  | 0 => ⟨treeOver none, takes_treeOver none⟩
  | depth + 1 => ⟨treeOver (some (treeWithin depth)), takes_treeOver _⟩

/-- How deep brackets may be nested. -/
def depthLimit : Nat := 127

/-- A value of any type. -/
def tree : Reader Tree :=
  (treeWithin depthLimit).1

end Reader

/-- The tree that a text spells, if it spells one. -/
def document? (text : Bytes) : Option Tree :=
  (decode Reader.tree text).toOption

end ListingSnapshot.Json
