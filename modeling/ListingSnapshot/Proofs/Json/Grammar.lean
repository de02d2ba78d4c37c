import ListingSnapshot.Json.Decode
import ListingSnapshot.Json.Tree
import ListingSnapshot.Proofs.Text.Digits
import Mathlib.Algebra.Group.Nat.Defs
import Mathlib.Data.Bool.AllAny
import Mathlib.Data.List.DropRight
import Mathlib.Data.List.Forall2

/-!
# Which texts spell a tree

The grammar of JSON, as a relation between a tree, the text in front of which the tree is spelled,
and what is left behind it. Blanks may stand between any two tokens, and a string may be spelled
with or without escapes, so that a tree has many spellings.

The relation has a parameter for strings, because a value that nobody asks for is passed over under
weaker rules: there the content of a string has to be of the right form, but it need not be the
content of any text. A tree cannot hold such a string, and `Tree.blot` stands for it.

## Main definitions

* `Json.SpellsEscape`, `Json.SpellsChars`: the spellings of a character behind a backslash, and of
  the content of a string.
* `Json.Passable`: what may stand between quotes when nobody asks what it means.
* `Json.IsNumber`: the spellings of numbers.
* `Json.Strict`, `Json.Lenient`: which strings are let through.
* `Json.Spells`: the grammar.
* `Json.Text`: a tree with nothing but blanks around it.

## Main results

* `Json.Spells.induct`: induction on a tree as it is spelled.
* `Json.Spells.mono`: fewer strings, fewer spellings.
-/

namespace ListingSnapshot.Json

/-! ### Blanks -/

/-- The bytes of a space, a line feed, a tab and a carriage return. -/
def blankBytes : Bytes := [0x20, 0x0A, 0x09, 0x0D]

/-- What is left behind the blanks in front. -/
def unblank (s : Bytes) : Bytes :=
  s.dropWhile (· ∈ blankBytes)

/-! ### Strings -/

/-- The byte of a hexadecimal digit of either case. -/
def SpellsFigure (figure : Nat) (b : UInt8) : Prop :=
  figure < 16 ∧ (b = byte figure.digitChar ∨ b = byte figure.digitChar.toUpper)

/-- Four hexadecimal digits of a code unit. -/
def SpellsUnit (unit : Nat) (ds : Bytes) : Prop :=
  ∃ figures, List.Forall₂ SpellsFigure figures ds ∧ figures.length = 4 ∧
    figures.foldl (fun n figure => 16 * n + figure) 0 = unit

/-- The characters that have a one-letter escape, each behind its letter. -/
def escapeLetters : List (Char × Char) :=
  [('"', '"'), ('\\', '\\'), ('/', '/'), ('b', '\x08'), ('f', '\x0c'), ('n', '\n'), ('r', '\r'),
    ('t', '\t')]

/-- How a character may be spelled behind a backslash: by a letter, by its code unit, or by its pair
of surrogates. -/
inductive SpellsEscape : Char → Bytes → Prop
  | letter {letter c : Char} (h : (letter, c) ∈ escapeLetters) : SpellsEscape c [byte letter]
  | unit {c : Char} {ds : Bytes} (h : SpellsUnit c.toNat ds) : SpellsEscape c (byte 'u' :: ds)
  | pair {c : Char} {leading trailing : Nat} {ds es : Bytes}
      (hl : 0xD800 ≤ leading ∧ leading ≤ 0xDBFF) (ht : 0xDC00 ≤ trailing ∧ trailing ≤ 0xDFFF)
      (hc : c.toNat = 0x10000 + (leading - 0xD800) * 0x400 + (trailing - 0xDC00))
      (hds : SpellsUnit leading ds) (hes : SpellsUnit trailing es) :
      SpellsEscape c (byte 'u' :: ds ++ byte '\\' :: byte 'u' :: es)

/-- A byte that may stand in a string by itself. -/
def IsBare (b : UInt8) : Prop :=
  0x20 ≤ b ∧ b ≠ byte '"' ∧ b ≠ byte '\\'

/-- The spellings of the content of a string. -/
inductive SpellsChars : List Char → Bytes → Prop
  | nil : SpellsChars [] []
  | bare {c : Char} {cs : List Char} {body : Bytes} (hc : '\x20' ≤ c ∧ c ≠ '"' ∧ c ≠ '\\')
      (h : SpellsChars cs body) : SpellsChars (c :: cs) (String.utf8EncodeChar c ++ body)
  | escaped {c : Char} {cs : List Char} {e body : Bytes} (he : SpellsEscape c e)
      (h : SpellsChars cs body) : SpellsChars (c :: cs) (byte '\\' :: e ++ body)

/-- What a string may contain when only its form is looked at: any bytes that may stand by
themselves, the letters of escapes, and any code units. -/
inductive Passable : Bytes → Prop
  | nil : Passable []
  | bare {b : UInt8} {body : Bytes} (hb : IsBare b) (h : Passable body) : Passable (b :: body)
  | letter {letter c : Char} {body : Bytes} (hc : (letter, c) ∈ escapeLetters)
      (h : Passable body) : Passable (byte '\\' :: byte letter :: body)
  | unit {unit : Nat} {ds body : Bytes} (hu : SpellsUnit unit ds) (h : Passable body) :
      Passable (byte '\\' :: byte 'u' :: ds ++ body)

/-- The strings of JSON: all are texts, and none is let through without its text. -/
def Strict : Option String → Bytes → Prop
  | some text, body => SpellsChars text.toList body
  | none, _ => False

/-- The strings of JSON, and besides those whose form is right although they spell no text. -/
def Lenient : Option String → Bytes → Prop
  | some text, body => SpellsChars text.toList body
  | none, body => Passable body ∧ ∀ cs, ¬ SpellsChars cs body

theorem Strict.lenient {text? : Option String} {body : Bytes} (h : Strict text? body) :
    Lenient text? body := by
  cases text? with
  | none => exact h.elim
  | some text => exact h

/-- A text without controls, quotes and backslashes may be spelled as it is. -/
theorem spellsChars_encode {cs : List Char} (h : ∀ c ∈ cs, '\x20' ≤ c ∧ c ≠ '"' ∧ c ≠ '\\') :
    SpellsChars cs (Utf8.encode cs) := by
  induction cs with
  | nil => exact .nil
  | cons c cs ih =>
    rw [List.forall_mem_cons] at h
    exact .bare h.1 (ih h.2)

/-! ### Numbers -/

/-- Digits that do not begin with a zero, or that one zero. -/
def IsWhole (ds : List Char) : Prop :=
  IsDigitRun ds ∧ (ds.head? = some '0' → ds = ['0'])

/-- A point and digits, or nothing. -/
def IsFraction (cs : List Char) : Prop :=
  cs = [] ∨ ∃ ds, IsDigitRun ds ∧ cs = '.' :: ds

/-- The letter of the exponent, perhaps a sign, and digits; or nothing. -/
def IsExponent (cs : List Char) : Prop :=
  cs = [] ∨ ∃ letter ∈ ['e', 'E'], ∃ sign ∈ [[], ['+'], ['-']], ∃ ds, IsDigitRun ds ∧
    cs = letter :: sign ++ ds

/-- The spelling of a number behind its sign. -/
def IsMagnitude (cs : List Char) : Prop :=
  ∃ whole fraction exponent, IsWhole whole ∧ IsFraction fraction ∧ IsExponent exponent ∧
    cs = whole ++ fraction ++ exponent

/-- The spelling of a number. -/
def IsNumber (cs : List Char) : Prop :=
  ∃ sign ∈ [[], ['-']], ∃ magnitude, IsMagnitude magnitude ∧ cs = sign ++ magnitude

/-! ### Lists and objects -/

/-- A byte string goes on with an item at `s'`: behind blanks if the item is the first, behind a
comma as well if it is not. -/
def Separated (first : Bool) (s s' : Bytes) : Prop :=
  if first then s' = unblank s else ∃ m, unblank s = byte ',' :: m ∧ s' = unblank m

/-- The items of a list, in front of which at least one has been read unless `first` holds, and the
closing bracket. -/
inductive Items (R : Tree → Bytes → Bytes → Prop) : Bool → List Tree → Bytes → Bytes → Prop
  | nil {first : Bool} {s rest : Bytes} (h : unblank s = byte ']' :: rest) :
      Items R first [] s rest
  | cons {first : Bool} {item : Tree} {items : List Tree} {s s' middle rest : Bytes}
      (hs : Separated first s s') (hi : R item s' middle) (h : Items R false items middle rest) :
      Items R first (item :: items) s rest

/-- The members of an object, in front of which at least one has been read unless `first` holds, and
the closing bracket. -/
inductive Members (N : Option String → Bytes → Prop) (R : Tree → Bytes → Bytes → Prop) :
    Bool → List (Option String × Tree) → Bytes → Bytes → Prop
  | nil {first : Bool} {s rest : Bytes} (h : unblank s = byte '\x7d' :: rest) :
      Members N R first [] s rest
  | cons {first : Bool} {name? : Option String} {value : Tree}
      {members : List (Option String × Tree)} {s body behind s' middle rest : Bytes}
      (hs : Separated first s (byte '"' :: body ++ byte '"' :: behind)) (hn : N name? body)
      (hc : unblank behind = byte ':' :: s') (hv : R value (unblank s') middle)
      (h : Members N R false members middle rest) :
      Members N R first ((name?, value) :: members) s rest

/-! ### Trees -/

namespace Tree

/-- What stands for a value that no tree is equal to. It is spelled by nothing itself. -/
def blot : Tree :=
  .number []

/-- The tree of a string. -/
def ofText? : Option String → Tree
  | some text => .string text
  | none => blot

/-- The member, if its name is a text. -/
def namedMember? (member : Option String × Tree) : Option (String × Tree) :=
  member.1.map (·, member.2)

/-- The tree of an object. -/
def ofMembers? (members : List (Option String × Tree)) : Tree :=
  match members.mapM namedMember? with
  | some members => .object members
  | none => blot

end Tree

/-- The tree is spelled in front of a byte string, up to the given rest; `N` says which strings are
let through. -/
inductive Spells (N : Option String → Bytes → Prop) : Tree → Bytes → Bytes → Prop
  | null {rest : Bytes} : Spells N .null (Utf8.encode ['n', 'u', 'l', 'l'] ++ rest) rest
  | bool {value : Bool} {rest : Bytes} :
      Spells N (.bool value) (Utf8.encode (toString value).toList ++ rest) rest
  | number {cs : List Char} {rest : Bytes} (h : IsNumber cs) :
      Spells N (.number cs) (Utf8.encode cs ++ rest) rest
  | string {text? : Option String} {body rest : Bytes} (h : N text? body) :
      Spells N (Tree.ofText? text?) (byte '"' :: body ++ byte '"' :: rest) rest
  | list {items : List Tree} {s rest : Bytes} (h : Items (Spells N) true items s rest) :
      Spells N (.list items) (byte '[' :: s) rest
  | object {members : List (Option String × Tree)} {s rest : Bytes}
      (h : Members N (Spells N) true members s rest) :
      Spells N (Tree.ofMembers? members) (byte '\x7b' :: s) rest

/-- The whole text spells the tree, with nothing but blanks around it. -/
def Text (N : Option String → Bytes → Prop) (t : Tree) (text : Bytes) : Prop :=
  ∃ rest, Spells N t (unblank text) rest ∧ unblank rest = []

/-! ### Induction -/

variable {N N' : Option String → Bytes → Prop} {R R' : Tree → Bytes → Bytes → Prop}

theorem Items.imp {first : Bool} {items : List Tree} {s rest : Bytes}
    (hR : ∀ item ∈ items, ∀ s rest, R item s rest → R' item s rest)
    (h : Items R first items s rest) : Items R' first items s rest := by
  induction h with
  | nil h => exact .nil h
  | cons hs hi _ ih =>
    obtain ⟨hitem, hitems⟩ := List.forall_mem_cons.mp hR
    exact .cons hs (hitem _ _ hi) (ih hitems)

theorem Members.imp {first : Bool} {members : List (Option String × Tree)} {s rest : Bytes}
    (hN : ∀ member ∈ members, ∀ body, N member.1 body → N' member.1 body)
    (hR : ∀ member ∈ members, ∀ s rest, R member.2 s rest → R' member.2 s rest)
    (h : Members N R first members s rest) : Members N' R' first members s rest := by
  induction h with
  | nil h => exact .nil h
  | cons hs hn hc hv _ ih =>
    obtain ⟨hname, hnames⟩ := List.forall_mem_cons.mp hN
    obtain ⟨hvalue, hvalues⟩ := List.forall_mem_cons.mp hR
    exact .cons hs (hname _ hn) hc (hvalue _ _ hv) (ih hnames hvalues)

/-- Induction on a tree as it is spelled. What is to be shown may be used for each item of a list
and for each value of an object. -/
theorem Spells.induct {P : ∀ t s rest, Spells N t s rest → Prop}
    (null : ∀ rest, P _ _ rest .null)
    (bool : ∀ value rest, P (.bool value) _ rest .bool)
    (number : ∀ cs rest (h : IsNumber cs), P (.number cs) _ rest (.number h))
    (string : ∀ text? body rest (h : N text? body),
      P (Tree.ofText? text?) (byte '"' :: body ++ byte '"' :: rest) rest (.string h))
    (list : ∀ items s rest (h : Items (Spells N) true items s rest),
      Items (fun t s rest => ∃ h, P t s rest h) true items s rest →
        P (.list items) (byte '[' :: s) rest (.list h))
    (object : ∀ members s rest (h : Members N (Spells N) true members s rest),
      Members N (fun t s rest => ∃ h, P t s rest h) true members s rest →
        P (Tree.ofMembers? members) (byte '\x7b' :: s) rest (.object h))
    {t : Tree} {s rest : Bytes} (h : Spells N t s rest) : P t s rest h :=
  @Spells.rec N P
    (fun first items s rest _ => Items (fun t s rest => ∃ h, P t s rest h) first items s rest)
    (fun first members s rest _ =>
      Members N (fun t s rest => ∃ h, P t s rest h) first members s rest)
    (fun {rest} => null rest) (fun {value rest} => bool value rest)
    (fun {cs rest} h => number cs rest h) (fun {text? body rest} h => string text? body rest h)
    (fun {items s rest} h ih => list items s rest h ih)
    (fun {members s rest} h ih => object members s rest h ih)
    (fun h => .nil h) (fun hs hi _ ih ih' => .cons hs ⟨hi, ih⟩ ih')
    (fun h => .nil h) (fun hs hn hc hv _ ih ih' => .cons hs hn hc ⟨hv, ih⟩ ih') t s rest h

theorem Spells.mono (hN : ∀ text? body, N text? body → N' text? body) {t : Tree} {s rest : Bytes}
    (h : Spells N t s rest) : Spells N' t s rest := by
  induction h using Spells.induct with
  | null rest => exact .null
  | bool value rest => exact .bool
  | number cs rest h => exact .number h
  | string text? body rest h => exact .string (hN _ _ h)
  | list items s rest _ ih => exact .list (ih.imp fun _ _ _ _ ⟨_, h⟩ => h)
  | object members s rest _ ih =>
    exact .object (ih.imp (fun _ _ => hN _) fun _ _ _ _ ⟨_, h⟩ => h)

theorem Text.mono (hN : ∀ text? body, N text? body → N' text? body) {t : Tree} {text : Bytes}
    (h : Text N t text) : Text N' t text := by
  obtain ⟨rest, ht, hrest⟩ := h
  exact ⟨rest, ht.mono hN, hrest⟩

/-! ### What stands between values -/

/-- The bytes that cannot be part of a value without being inside it. -/
def delimiters : Bytes :=
  blankBytes ++ [byte ',', byte ']', byte '\x7d']

/-- Nothing follows that could be part of a value: only a delimiter or the end of the text. -/
def Delimited (s : Bytes) : Prop :=
  ∀ b ∈ s.head?, b ∈ delimiters

theorem unblank_unblank (s : Bytes) : unblank (unblank s) = unblank s :=
  List.dropWhile_idempotent _ s

theorem unblank_of_notMem {b : UInt8} {s : Bytes} (h : b ∉ blankBytes) :
    unblank (b :: s) = b :: s := by
  simp [unblank, h]

theorem head?_of_unblank {s : Bytes} {b : UInt8} (hb : b ∈ s.head?) :
    b ∈ blankBytes ∨ unblank s = s := by
  cases s with
  | nil => simp at hb
  | cons c s =>
    obtain rfl : c = b := by simpa using hb
    by_cases h : c ∈ blankBytes
    · exact Or.inl h
    · exact Or.inr (unblank_of_notMem h)

theorem delimited_nil : Delimited [] :=
  fun _ hb => nomatch hb

theorem delimited_of_unblank_eq_nil {s : Bytes} (h : unblank s = []) : Delimited s := by
  intro b hb
  rcases head?_of_unblank hb with hblank | hs
  · exact List.mem_append_left _ hblank
  · rw [← hs, h] at hb
    simp at hb

theorem delimited_of_unblank_eq_cons {b : UInt8} {s m : Bytes} (h : unblank s = b :: m)
    (hb : b ∈ [byte ',', byte ']', byte '\x7d']) : Delimited s := by
  intro c hc
  rcases head?_of_unblank hc with hblank | hs
  · exact List.mem_append_left _ hblank
  · rw [← hs, h, List.head?_cons] at hc
    obtain rfl := Option.some.inj hc
    exact List.mem_append_right _ hb

theorem Separated.unblank_eq {first : Bool} {s s' : Bytes}
    (h : Separated first s s') : unblank s' = s' := by
  cases first with
  | true =>
    have h : s' = unblank s := h
    rw [h, unblank_unblank]
  | false =>
    obtain ⟨m, _, rfl⟩ := h
    exact unblank_unblank m

theorem Separated.delimited {s s' : Bytes} (h : Separated false s s') : Delimited s := by
  obtain ⟨m, hm, _⟩ := h
  exact delimited_of_unblank_eq_cons hm (by simp)

theorem Items.delimited {items : List Tree} {s rest : Bytes} (h : Items R false items s rest) :
    Delimited s := by
  cases h with
  | nil h => exact delimited_of_unblank_eq_cons h (by simp)
  | cons hs _ _ => exact hs.delimited

theorem Members.delimited {members : List (Option String × Tree)} {s rest : Bytes}
    (h : Members N R false members s rest) : Delimited s := by
  cases h with
  | nil h => exact delimited_of_unblank_eq_cons h (by simp)
  | cons hs _ _ _ _ => exact hs.delimited

end ListingSnapshot.Json
