import ListingSnapshot.Text.Unprintable

/-!
# Quoted texts

A message that shows a piece of its input shows it between double quotes, so that blank ends and
unprintable characters can be seen.

## Main definitions

* `Text.quotedChar`: how one character is written between the quotes.
* `Text.quoted`: the whole text, quotes included.
-/

namespace ListingSnapshot.Text

/-- How a character is written between quotes: a quote and a backslash after a backslash, the
commonest controls by a letter, other characters that are not shown by their code point in
lowercase hexadecimal digits, and all others by themselves. -/
def quotedChar (c : Char) : List Char :=
  match c with
  | '"' => ['\\', '"']
  | '\\' => ['\\', '\\']
  | '\x00' => ['\\', '0']
  | '\t' => ['\\', 't']
  | '\n' => ['\\', 'n']
  | '\r' => ['\\', 'r']
  | c =>
    if isUnprintable c then ['\\', 'u', '\x7b'] ++ Nat.toDigits 16 c.toNat ++ ['\x7d'] else [c]

/-- The text between double quotes. -/
def quoted (text : String) : String :=
  String.ofList ('"' :: text.toList.flatMap quotedChar ++ ['"'])

end ListingSnapshot.Text
