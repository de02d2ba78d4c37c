import ListingSnapshot.Json.Tree

/-!
# Printing JSON

A tree is printed without blanks. In a string only what has to be escaped is escaped, so whatever
is printed stays on one line.

## Main definitions

* `Json.escaped`: how a character is written in a string.
* `Json.printString`: a string with its quotes.
* `Json.Tree.print`: a whole tree.
* `Json.Tree.text`: the same as a string.
-/

namespace ListingSnapshot.Json

/-! ### Strings -/

/-- How a character is written in a string: the quote and the backslash after a backslash, five of
the controls by a letter and the other characters below the blank by four hexadecimal digits, all
else by itself. -/
def escaped (c : Char) : List Char :=
  match c with
  | '"' => ['\\', '"']
  | '\\' => ['\\', '\\']
  | '\x08' => ['\\', 'b']
  | '\t' => ['\\', 't']
  | '\n' => ['\\', 'n']
  | '\x0c' => ['\\', 'f']
  | '\r' => ['\\', 'r']
  | c =>
    if c.toNat < 0x20 then
      ['\\', 'u', '0', '0', Nat.digitChar (c.toNat / 16), Nat.digitChar (c.toNat % 16)]
    else [c]

/-- A string between its quotes. -/
def printString (text : String) : List Char :=
  '"' :: text.toList.flatMap escaped ++ ['"']

/-! ### Trees -/

namespace Tree

mutual

/-- The characters of a tree. -/
def print : Tree → List Char
  | .null => ['n', 'u', 'l', 'l']
  | .bool true => ['t', 'r', 'u', 'e']
  | .bool false => ['f', 'a', 'l', 's', 'e']
  | .number spelling => spelling
  | .string text => printString text
  | .list items => '[' :: printItems items ++ [']']
  | .object members => '\x7b' :: printMembers members ++ ['\x7d']

/-- Items with a comma between any two. -/
def printItems : List Tree → List Char
  | [] => []
  | item :: items => item.print ++ printMoreItems items

/-- Items with a comma before each. -/
def printMoreItems : List Tree → List Char
  | [] => []
  | item :: items => ',' :: item.print ++ printMoreItems items

/-- Members with a comma between any two. -/
def printMembers : List (String × Tree) → List Char
  | [] => []
  | (name, value) :: members => printString name ++ ':' :: value.print ++ printMoreMembers members

/-- Members with a comma before each. -/
def printMoreMembers : List (String × Tree) → List Char
  | [] => []
  | (name, value) :: members =>
    ',' :: printString name ++ ':' :: value.print ++ printMoreMembers members

end

/-- The characters of a tree as a string. -/
def text (tree : Tree) : String :=
  String.ofList tree.print

end Tree

end ListingSnapshot.Json
