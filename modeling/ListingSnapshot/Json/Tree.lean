/-!
# JSON trees

A JSON document as a tree. Members of an object keep their order and may share a name, and a number
is kept as it is spelled, so that a tree holds all of a document but the blanks between its tokens
and the escapes in its strings.

## Main definitions

* `Json.Tree`: the trees.
* `Json.Tree.ofNat`: the number with these decimal digits.
* `Json.Tree.member?`: the value of the last member with a given name.
-/

namespace ListingSnapshot.Json

/-- The two kinds of brackets, by what they enclose. -/
inductive Container
  | list
  | object
deriving DecidableEq

/-- A JSON document. -/
inductive Tree
  | null
  | bool (value : Bool)
  | number (spelling : List Char)
  | string (text : String)
  | list (items : List Tree)
  | object (members : List (String × Tree))

namespace Tree

/-- The number spelled by the decimal digits of `n`. -/
def ofNat (n : Nat) : Tree :=
  .number (Nat.toDigits 10 n)

/-- The value of the last member with this name, if the tree is an object that has one. -/
def member? (name : String) : Tree → Option Tree
  | object members => members.reverse.lookup name
  | _ => none

/-- The text, if the tree is a string. -/
def string? : Tree → Option String
  | string text => some text
  | _ => none

end Tree

end ListingSnapshot.Json
