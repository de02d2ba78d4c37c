import ListingSnapshot.Proofs.Json.Fields
import ListingSnapshot.Proofs.Json.Spelled
import ListingSnapshot.Wire.Listing

/-!
# Which trees are listings

A text is read as a listing if it spells a tree of one of the shapes of a listing, and the shape
says which listing that is. A listing is an object with an identifier and perhaps an event log, or a
list of these; an event is an object with a block and perhaps a kind, or a list of these. Members of
other names may have any values.

## Main definitions

* `IsBlock`, `IsKind`, `IsEvent`, `IsListing`: the shapes.

## Main results

* `Event.reads_reader`, `Listing.reads_reader`: the readers accept these shapes and no others.
* `Listing.decode_reader_iff`: a text that spells a tree is read by the shape of the tree.
-/

namespace ListingSnapshot

open Json

/-! ### Shapes -/

/-- The tree is a number of digits only, and the block is that of this height. -/
def IsBlock (t : Tree) (block : Block) : Prop :=
  IsNatural t block.height.toNat

/-- The kind is the one of this name, or `unknown` if no kind has the name. -/
def EventKind.Called (kind : EventKind) (name : String) : Prop :=
  kind.name = name ∨ kind = .unknown ∧ ∀ other : EventKind, other.name ≠ name

/-- The tree is the name of a kind, or an object of one member with that name and the value
`null`. -/
inductive IsKind : Tree → EventKind → Prop
  | string {name : String} {kind : EventKind} (h : kind.Called name) : IsKind (.string name) kind
  | object {name : String} {kind : EventKind} (h : kind.Called name) :
      IsKind (.object [(name, .null)]) kind

/-- The tree is an object with exactly one block and at most one kind, or a list of these. -/
inductive IsEvent : Tree → Event → Prop
  | object {members : List (String × Tree)} {block : Tree} {event : Event}
      (hb : Tree.valuesOf "blockNumber" members = [block]) (hblock : IsBlock block event.block)
      (hk : (Tree.valuesOf "event" members = [] ∧ event.kind? = none) ∨
        ∃ kind, Tree.valuesOf "event" members = [kind] ∧ OrNull IsKind kind event.kind?) :
      IsEvent (.object members) event
  | one {t : Tree} {block : Block} (hb : IsBlock t block) : IsEvent (.list [t]) ⟨block, none⟩
  | two {t t' : Tree} {block : Block} {kind? : Option EventKind} (hb : IsBlock t block)
      (hk : OrNull IsKind t' kind?) : IsEvent (.list [t, t']) ⟨block, kind?⟩

/-- The tree is the list of these events. -/
def IsEventLog (t : Tree) (events : List Event) : Prop :=
  ∃ items, t = .list items ∧ List.Forall₂ IsEvent items events

/-- The tree is an object with exactly one identifier and at most one event log, or a list of
these. -/
inductive IsListing : Tree → Listing → Prop
  | object {members : List (String × Tree)} {listing : Listing}
      (hid : Tree.valuesOf "id" members = [.string listing.id])
      (he : (Tree.valuesOf "events" members = [] ∧ listing.events = []) ∨
        ∃ log, Tree.valuesOf "events" members = [log] ∧ IsEventLog log listing.events) :
      IsListing (.object members) listing
  | one {id : String} : IsListing (.list [.string id]) ⟨id, []⟩
  | two {id : String} {log : Tree} {events : List Event} (he : IsEventLog log events) :
      IsListing (.list [.string id, log]) ⟨id, events⟩

/-! ### Blocks and kinds -/

theorem Block.reads_reader : Block.reader.Reads IsBlock := by
  refine (Reader.reads_natural.map fun n => (⟨UInt64.ofNat n⟩ : Block)).congr fun t block => ?_
  constructor
  · rintro ⟨n, hn, rfl⟩
    have hlt : n < 2 ^ 64 := by
      obtain ⟨_, _, _, _, hlt⟩ := hn
      exact hlt
    rw [IsBlock, UInt64.toNat_ofNat_of_lt' hlt]
    exact hn
  · intro h
    exact ⟨_, h, by rw [UInt64.ofNat_toNat]⟩

namespace EventKind

theorem mem_all (kind : EventKind) : kind ∈ all := by
  cases kind <;> decide

theorem ofName_eq_iff {name : String} {kind : EventKind} :
    ofName name = kind ↔ kind.Called name := by
  rw [ofName]
  cases hfind : all.find? fun kind => kind.name = name with
  | some found =>
    have hname : found.name = name := by simpa using List.find?_some hfind
    rw [Option.getD_some]
    constructor
    · rintro rfl
      exact Or.inl hname
    · rintro (h | ⟨_, h⟩)
      · rw [← ofName_name found, ← ofName_name kind, hname, h]
      · exact (h found hname).elim
  | none =>
    have hnone : ∀ other : EventKind, other.name ≠ name := by
      intro other hother
      have := List.find?_eq_none.mp hfind other other.mem_all
      exact this (decide_eq_true hother)
    rw [Option.getD_none]
    constructor
    · rintro rfl
      exact Or.inr ⟨rfl, hnone⟩
    · rintro (h | ⟨rfl, _⟩)
      · exact (hnone kind h).elim
      · rfl

/-- How an object of one member with the value `null` is read, step by step. -/
theorem members_null_iff {name : String} {m rest : Bytes} :
    Members Lenient (Spells Lenient) true (named [(name, .null)]) m rest ↔
      ∃ s s' middle, Reader.name.run (unblank m) = .value name s ∧
        Reader.colon.run s = .value () s' ∧ Reader.nothing.run s' = .value () middle ∧
        unblank middle = byte '\x7d' :: rest := by
  constructor
  · intro h
    cases h with
    | @cons _ _ _ _ _ body behind s' middle _ hsep hn hc hv h =>
      have hm : byte '"' :: (body ++ byte '"' :: behind) = unblank m := hsep
      refine ⟨behind, s', middle, ?_, Reader.run_colon_eq_value_iff.mpr hc,
        Reader.reads_nothing.complete hv h.delimited rfl, ?_⟩
      · rw [← hm]
        exact Reader.run_name_eq_value_iff.mpr ⟨body, hn, rfl⟩
      · cases h with
        | nil hclosing => exact hclosing
  · rintro ⟨s, s', middle, hname, hcolon, hnull, hclosing⟩
    obtain ⟨body, hbody, hm⟩ := Reader.run_name_eq_value_iff.mp hname
    obtain ⟨value, hv, rfl⟩ := Reader.reads_nothing.sound hnull
    exact .cons hm.symm hbody (Reader.run_colon_eq_value_iff.mp hcolon) hv (.nil hclosing)

theorem run_reader_string {name : String} {s body rest : Bytes}
    (hs : unblank s = byte '"' :: (body ++ byte '"' :: rest))
    (hbody : SpellsChars name.toList body) : reader.run s = .value (ofName name) rest := by
  have htext : Reader.text.run (body ++ byte '"' :: rest) = .value name rest :=
    Reader.run_text_eq_value_iff.mpr ⟨body, hbody, rfl⟩
  rw [reader, Reader.run_bind_of_value _ (Reader.run_lead_of_unblank hs)]
  change (Reader.text >>= fun name => pure (ofName name)).run (body ++ byte '"' :: rest) = _
  rw [Reader.run_bind_of_value _ htext]
  rfl

theorem run_reader_object {name : String} {s m rest : Bytes} (hs : unblank s = byte '\x7b' :: m)
    (h : Members Lenient (Spells Lenient) true (named [(name, .null)]) m rest) :
    reader.run s = .value (ofName name) rest := by
  obtain ⟨s₁, s₂, s₃, hname, hcolon, hnull, hclosing⟩ := members_null_iff.mp h
  obtain ⟨body, _, hm⟩ := Reader.run_name_eq_value_iff.mp hname
  have hlead : Lead.ofByte (byte '\x7b') = .container .object := rfl
  have hne : byte '"' ≠ byte '\x7d' := by decide
  rw [List.cons_append] at hm
  rw [hm] at hname
  rw [reader, Reader.run_bind_of_value _ (Reader.run_lead_of_unblank hs)]
  simp only [hlead]
  rw [Reader.run_bind_of_value _ (Reader.run_pass _), List.tail_cons,
    Reader.run_bind_of_value _ (Reader.run_blanks_of_unblank hm)]
  simp only [if_neg hne]
  rw [Reader.run_bind_of_value _ hname, Reader.run_bind_of_value _ hcolon,
    Reader.run_bind_of_value _ hnull,
    Reader.run_bind_of_value _ (Reader.run_blanks_of_unblank hclosing)]
  simp only [if_true]
  rw [Reader.run_bind_of_value _ (Reader.run_pass _)]
  rfl

/-- A kind is read from a string or from an object with the one member. -/
theorem cases_of_run_reader {s rest : Bytes} {kind : EventKind}
    (h : reader.run s = .value kind rest) :
    ∃ name, kind = ofName name ∧
      ((∃ body, unblank s = byte '"' :: (body ++ byte '"' :: rest) ∧
          SpellsChars name.toList body) ∨
        ∃ m, unblank s = byte '\x7b' :: m ∧
          Members Lenient (Spells Lenient) true (named [(name, .null)]) m rest) := by
  rw [reader] at h
  obtain ⟨lead, middle, hlead, h⟩ := Reader.run_bind_eq_value_iff.mp h
  obtain ⟨b, m, hs, hb, rfl⟩ := Reader.run_lead_eq_value_iff.mp hlead
  rw [hs]
  split at h
  · obtain rfl := Lead.eq_quote hb
    rw [Reader.run_bind_of_value _ (Reader.run_pass _), List.tail_cons] at h
    obtain ⟨name, htext, rfl⟩ := Reader.exists_of_run_bind_pure h
    obtain ⟨body, hbody, rfl⟩ := Reader.run_text_eq_value_iff.mp htext
    exact ⟨name, rfl, Or.inl ⟨body, rfl, hbody⟩⟩
  · obtain rfl := Lead.eq_opening hb
    rw [Reader.run_bind_of_value _ (Reader.run_pass _), List.tail_cons,
      Reader.run_bind_of_value _ (Reader.run_blanks m)] at h
    cases hm : (unblank m).head? with
    | none =>
      rw [hm] at h
      cases h
    | some c =>
      rw [hm] at h
      dsimp only at h
      split at h
      · cases h
      obtain ⟨name, s₁, hname, h⟩ := Reader.run_bind_eq_value_iff.mp h
      obtain ⟨_, s₂, hcolon, h⟩ := Reader.run_bind_eq_value_iff.mp h
      obtain ⟨_, s₃, hnull, h⟩ := Reader.run_bind_eq_value_iff.mp h
      rw [Reader.run_bind_of_value _ (Reader.run_blanks s₃)] at h
      cases hs₃ : unblank s₃ with
      | nil =>
        rw [hs₃] at h
        cases h
      | cons d m₃ =>
        rw [hs₃] at h
        dsimp only [List.head?_cons] at h
        split at h
        · next hd =>
          obtain ⟨rfl, rfl⟩ := Outcome.value.inj h
          rw [hd] at hs₃
          have hmembers := members_null_iff.mpr ⟨s₁, s₂, s₃, hname, hcolon, hnull, hs₃⟩
          exact ⟨name, rfl, Or.inr ⟨m, rfl, hmembers⟩⟩
        · cases h
  · cases h

theorem reads_reader : reader.Reads IsKind where
  complete := by
    intro t s rest kind ht _ h
    cases h with
    | string h =>
      obtain ⟨body, hbody, hs⟩ := ht.spelledAs Tree.noConfusion
      rw [← ofName_eq_iff.mpr h]
      exact run_reader_string hs hbody
    | object h =>
      obtain ⟨m, hmembers, hs⟩ := ht.spelledAs Tree.noConfusion
      rw [← ofName_eq_iff.mpr h]
      exact run_reader_object hs hmembers
  sound := by
    intro s kind rest h
    obtain ⟨name, rfl, ⟨body, hs, hbody⟩ | ⟨m, hs, hmembers⟩⟩ := cases_of_run_reader h
    · have hlenient : Lenient (some name) body := hbody
      exact ⟨_, hs ▸ .string hlenient, .string (ofName_eq_iff.mp rfl)⟩
    · have hspells : Spells Lenient _ (byte '\x7b' :: m) rest := .object hmembers
      rw [Tree.ofMembers?_named] at hspells
      exact ⟨_, hs ▸ hspells, .object (ofName_eq_iff.mp rfl)⟩

end EventKind

/-! ### Events -/

namespace Event

/-- A draft is its two fields. -/
def Draft.fields : Draft ≃ Option Block × Option (Option EventKind) where
  toFun draft := (draft.block?, draft.kind?)
  invFun fields := ⟨fields.1, fields.2⟩

theorem reads_kind? : (Reader.optional EventKind.reader).Reads (OrNull IsKind) :=
  EventKind.reads_reader.optional fun _ h => nomatch h

theorem run_finish_eq_value_iff {draft : Draft} {event : Event} {s rest : Bytes} :
    (finish draft).run s = .value event rest ↔
      (draft.block? = some event.block ∧ draft.kind?.getD none = event.kind?) ∧ rest = s := by
  rw [finish]
  cases hb : draft.block? with
  | none => exact iff_of_false (fun h => nomatch h) fun h => nomatch h.1.1
  | some block =>
    obtain ⟨block', kind?⟩ := event
    rw [Reader.run_pure, Outcome.value.injEq, Event.mk.injEq, Option.some.injEq]
    exact and_congr_right fun _ => eq_comm

theorem isEvent_object_iff {members : List (String × Tree)} {event : Event} :
    IsEvent (.object members) event ↔
      (∃ block, Tree.valuesOf "blockNumber" members = [block] ∧ IsBlock block event.block) ∧
        ((Tree.valuesOf "event" members = [] ∧ event.kind? = none) ∨
          ∃ kind, Tree.valuesOf "event" members = [kind] ∧ OrNull IsKind kind event.kind?) := by
  constructor
  · intro h
    cases h with
    | object hb hblock hk => exact ⟨⟨_, hb, hblock⟩, hk⟩
  · rintro ⟨⟨block, hb, hblock⟩, hk⟩
    exact .object hb hblock hk

theorem isEvent_list_iff {items : List Tree} {event : Event} : IsEvent (.list items) event ↔
    ∃ block kind??, Reader.OneOrTwo IsBlock (OrNull IsKind) items block kind?? ∧
      event = ⟨block, kind??.getD none⟩ := by
  constructor
  · intro h
    cases h with
    | one hb => exact ⟨_, none, .one hb, rfl⟩
    | two hb hk => exact ⟨_, some _, .two hb hk, rfl⟩
  · rintro ⟨block, _, h, rfl⟩
    cases h with
    | one hb => exact .one hb
    | two hb hk => exact .two hb hk

theorem readsMembers_fromObject :
    fromObject.ReadsMembers fun members event => IsEvent (.object members) event := by
  refine Reader.ReadsMembers.congr ?_ fun _ _ => isEvent_object_iff.symm
  exact readsMembers_fields Block.reads_reader reads_kind? (by decide) Draft.fields (fun _ => rfl)
    (fun _ => rfl) (fun _ _ hb hk => by simp only [member]) fun _ _ _ _ => run_finish_eq_value_iff

theorem readsItems_fromList :
    fromList.ReadsItems fun items event => IsEvent (.list items) event := by
  refine Reader.ReadsItems.congr ?_ fun _ _ => isEvent_list_iff.symm
  exact Reader.readsItems_oneOrTwo Block.reads_reader reads_kind? (fun _ _ _ h => nomatch h)
    fun _ => rfl

/-- **Events.** An event is read from a tree of the shape of an event, and from no other. -/
theorem reads_reader : reader.Reads IsEvent := by
  refine (Reader.reads_record readsItems_fromList readsMembers_fromObject _).congr fun t event => ?_
  constructor
  · rintro (⟨_, rfl, h⟩ | ⟨_, rfl, h⟩) <;> exact h
  · intro h
    cases h with
    | object hb hblock hk => exact Or.inr ⟨_, rfl, .object hb hblock hk⟩
    | one hb => exact Or.inl ⟨_, rfl, .one hb⟩
    | two hb hk => exact Or.inl ⟨_, rfl, .two hb hk⟩

end Event

/-! ### Listings -/

namespace Listing

/-- A draft is its two fields. -/
def Draft.fields : Draft ≃ Option String × Option (List Event) where
  toFun draft := (draft.id?, draft.events?)
  invFun fields := ⟨fields.1, fields.2⟩

theorem reads_eventLog : eventLog.Reads IsEventLog :=
  Event.reads_reader.list Event.takes_reader

theorem run_finish_eq_value_iff {draft : Draft} {listing : Listing} {s rest : Bytes} :
    (finish draft).run s = .value listing rest ↔
      (draft.id? = some listing.id ∧ draft.events?.getD [] = listing.events) ∧ rest = s := by
  rw [finish]
  cases hid : draft.id? with
  | none => exact iff_of_false (fun h => nomatch h) fun h => nomatch h.1.1
  | some id =>
    obtain ⟨id', events⟩ := listing
    rw [Reader.run_pure, Outcome.value.injEq, Listing.mk.injEq, Option.some.injEq]
    exact and_congr_right fun _ => eq_comm

theorem isListing_object_iff {members : List (String × Tree)} {listing : Listing} :
    IsListing (.object members) listing ↔
      (∃ t, Tree.valuesOf "id" members = [t] ∧ t = .string listing.id) ∧
        ((Tree.valuesOf "events" members = [] ∧ listing.events = []) ∨
          ∃ log, Tree.valuesOf "events" members = [log] ∧ IsEventLog log listing.events) := by
  constructor
  · intro h
    cases h with
    | object hid he => exact ⟨⟨_, hid, rfl⟩, he⟩
  · rintro ⟨⟨_, hid, rfl⟩, he⟩
    exact .object hid he

theorem isListing_list_iff {items : List Tree} {listing : Listing} :
    IsListing (.list items) listing ↔
      ∃ id events?, Reader.OneOrTwo (fun t id => t = .string id) IsEventLog items id events? ∧
        listing = ⟨id, events?.getD []⟩ := by
  constructor
  · intro h
    cases h with
    | one => exact ⟨_, none, .one rfl, rfl⟩
    | two he => exact ⟨_, some _, .two rfl he, rfl⟩
  · rintro ⟨id, _, h, rfl⟩
    cases h with
    | one hid => exact hid ▸ .one
    | two hid he => exact hid ▸ .two he

theorem readsMembers_fromObject :
    fromObject.ReadsMembers fun members listing => IsListing (.object members) listing := by
  refine Reader.ReadsMembers.congr ?_ fun _ _ => isListing_object_iff.symm
  exact readsMembers_fields Reader.reads_string reads_eventLog (by decide) Draft.fields
    (fun _ => rfl) (fun _ => rfl) (fun _ _ hid he => by simp only [member])
    fun _ _ _ _ => run_finish_eq_value_iff

theorem readsItems_fromList :
    fromList.ReadsItems fun items listing => IsListing (.list items) listing := by
  refine Reader.ReadsItems.congr ?_ fun _ _ => isListing_list_iff.symm
  exact Reader.readsItems_oneOrTwo Reader.reads_string reads_eventLog (fun _ _ _ h => nomatch h)
    fun _ => rfl

/-- **Listings.** A listing is read from a tree of the shape of a listing, and from no other. -/
theorem reads_reader : reader.Reads IsListing := by
  refine (Reader.reads_record readsItems_fromList readsMembers_fromObject _).congr
    fun t listing => ?_
  constructor
  · rintro (⟨_, rfl, h⟩ | ⟨_, rfl, h⟩) <;> exact h
  · intro h
    cases h with
    | object hid he => exact Or.inr ⟨_, rfl, .object hid he⟩
    | one => exact Or.inl ⟨_, rfl, .one⟩
    | two he => exact Or.inl ⟨_, rfl, .two he⟩

/-- **Which texts are listings.** A text that spells a tree, in whatever way, is read as a listing
if the tree has the shape of that listing. -/
theorem decode_reader_iff {t : Tree} {text : Bytes} (ht : Text Strict t text) (listing : Listing) :
    decode reader text = .ok listing ↔ IsListing t listing :=
  reads_reader.decode_eq_ok_iff_of_text (ht.mono fun _ _ => Strict.lenient)

/-- A listing with an escape in its identifier, and with two events in its log: one of a name that
is no kind's, and one as a list. Both the listing and the first event have another member. -/
theorem decode_reader_other_parts :
    let event : Tree :=
      .object [("event", .string "Sold"), ("by", .bool true), ("blockNumber", .ofNat 3)]
    let log : Tree := .list [event, .list [.ofNat 9, .null]]
    let tree : Tree := .object [("note", .string "id"), ("events", log), ("id", .string "7")]
    let text := Utf8.encode ("\x7b \"note\" :\"id\",\"events\": ".toList ++
      "[\x7b\"event\":\"Sold\",\"by\":true,\"blockNumber\":3\x7d,[9,null]]".toList ++
      " ,\"id\":\t\"\\u0037\"\x7d ".toList)
    Text Strict tree text ∧
      decode reader text = .ok ⟨"7", [⟨⟨3⟩, some .unknown⟩, ⟨⟨9⟩, none⟩]⟩ := by
  intro event log tree text
  have hunit : SpellsUnit '7'.toNat [byte '0', byte '0', byte '3', byte '7'] := by
    refine ⟨[0, 0, 3, 7], ?_, rfl, rfl⟩
    refine .cons ?_ (.cons ?_ (.cons ?_ (.cons ?_ .nil))) <;> exact ⟨by decide, Or.inl rfl⟩
  have hseven : SpellsChars "7".toList (byte '\\' :: byte 'u' :: _ ++ []) :=
    .escaped (.unit hunit) .nil
  have hevent : event.Proper :=
    .object (List.forall_mem_cons.mpr ⟨.string, List.forall_mem_cons.mpr ⟨.bool,
      List.forall_mem_singleton.mpr (Tree.proper_ofNat 3)⟩⟩)
  have hpair : Tree.Proper (.list [.ofNat 9, .null]) :=
    .list (List.forall_mem_cons.mpr ⟨Tree.proper_ofNat 9, List.forall_mem_singleton.mpr .null⟩)
  have hlog : log.Proper :=
    .list (List.forall_mem_cons.mpr ⟨hevent, List.forall_mem_singleton.mpr hpair⟩)
  -- The members from the last to the first, each in front of those behind it.
  let last := Utf8.encode " ,\"id\":\t\"\\u0037\"\x7d ".toList
  have hlast : Members Strict (Spells Strict) false (named [("id", .string "7")]) last [byte ' '] :=
    Tree.members_cons_of_bare (List.all_iff_forall_prop.mp (by decide))
      (Utf8.encode ":\t\"\\u0037\"\x7d ".toList) ⟨_, rfl, rfl⟩ rfl
      (@Spells.string Strict (some "7") _ (Utf8.encode "\x7d ".toList) hseven) (.nil rfl)
  let events := Utf8.encode ",\"events\": ".toList ++ (Utf8.encode log.print ++ last)
  have hevents : Members Strict (Spells Strict) false
      (named [("events", log), ("id", .string "7")]) events [byte ' '] :=
    Tree.members_cons_of_bare (List.all_iff_forall_prop.mp (by decide))
      (Utf8.encode ": ".toList ++ (Utf8.encode log.print ++ last)) ⟨_, rfl, rfl⟩ rfl
      (hlog.legible last) hlast
  let note := Utf8.encode " \"note\" :\"id\"".toList ++ events
  have hnote : Members Strict (Spells Strict) true
      (named [("note", .string "id"), ("events", log), ("id", .string "7")]) note [byte ' '] :=
    Tree.members_cons_of_bare (List.all_iff_forall_prop.mp (by decide))
      (Utf8.encode " :\"id\"".toList ++ events) rfl rfl (Tree.legible_string "id" events) hevents
  have hprint :
      "[\x7b\"event\":\"Sold\",\"by\":true,\"blockNumber\":3\x7d,[9,null]]".toList =
        log.print := by
    decide +kernel
  have htext : text = byte '\x7b' :: note := by
    dsimp only [text]
    rw [hprint, Utf8.encode_append, Utf8.encode_append, List.append_assoc]
    rfl
  have ht : Text Strict tree text := by
    refine ⟨[byte ' '], ?_, rfl⟩
    rw [htext, unblank_of_notMem (by decide)]
    exact .object hnote
  have hblock (n : Nat) (height : UInt64) (h : height.toNat = n) :
      IsBlock (.ofNat n) ⟨height⟩ :=
    ⟨_, rfl, isDigitRun_toDigits n, by rw [h, Nat.ofDigitChars_ten_toDigits], height.toNat_lt⟩
  have hkind : EventKind.Called .unknown "Sold" :=
    Or.inr ⟨rfl, fun other => by cases other <;> decide⟩
  refine ⟨ht, (decode_reader_iff ht _).mpr (.object rfl (Or.inr ⟨log, rfl, _, rfl, ?_⟩))⟩
  refine .cons ?_ (.cons (.two (hblock 9 9 rfl) .null) .nil)
  exact .object rfl (hblock 3 3 rfl) (Or.inr ⟨_, rfl, .some (.string hkind)⟩)

end Listing

end ListingSnapshot
