import ListingSnapshot.Text.Blank
import ListingSnapshot.Text.Utf8

/-!
# Where lines come from

A source hands out bytes in chunks of any size and then comes to its end, or breaks off. The bytes
are cut into lines at line feeds wherever the chunks end, one line whenever one is asked for. A last
line needs no line feed behind it, unless the source breaks off: then what stands behind the last
line feed is lost.

## Main definitions

* `Source`: chunks, and the reason for breaking off.
* `Source.ofBytes`: the source of a byte string.
* `Source.supply`: the next line.
* `Intake`: the lines assembled from what has been handed out.
* `Source.lines`: the lines to be answered.
-/

namespace ListingSnapshot

/-- Bytes that are handed out chunk after chunk. -/
structure Source where
  chunks : List Bytes
  /-- The reason why the source breaks off after the last chunk, if it does. -/
  fault? : Option String

namespace Source

/-! ### Chunks -/

/-- Cuts bytes into chunks of `size + 1` bytes, the last one perhaps shorter. -/
def chunked (size : Nat) (bytes : Bytes) : List Bytes :=
  match _h : bytes with
  | [] => []
  | b :: rest => (b :: rest.take size) :: chunked size (rest.drop size)
termination_by bytes.length
decreasing_by
  simp only [List.length_drop, List.length_cons]
  omega

@[simp] theorem flatten_chunked (size : Nat) (bytes : Bytes) :
    (chunked size bytes).flatten = bytes := by
  fun_induction chunked size bytes with
  | case1 => rfl
  | case2 b rest ih => rw [List.flatten_cons, ih, List.cons_append, List.take_append_drop]

/-- The source of a byte string, in chunks of the given size (of one byte, if that is zero) or all
at once. With a limit that the byte string reaches, the source breaks off there, as soon as anything
more is asked of it. -/
def ofBytes (bytes : Bytes) (chunk? : Option Nat) (limit? : Option (Nat × String)) : Source :=
  let cut (bytes : Bytes) : List Bytes :=
    match chunk? with
    | none => [bytes]
    | some size => chunked (size - 1) bytes
  match limit? with
  | none => ⟨cut bytes, none⟩
  | some (limit, reason) =>
    if limit ≤ bytes.length then ⟨cut (bytes.take limit), some reason⟩ else ⟨cut bytes, none⟩

end Source

/-! ### Lines on demand -/

namespace Source

/-- What a source answers when it is asked for a line. -/
inductive Supply
  /-- A line, without the line feed that has been taken with it, and what the source has left. -/
  | line (bytes : Bytes) (left : Source)
  /-- The end has come, with these bytes behind the last line feed. -/
  | last (bytes : Bytes)
  /-- The source breaks off. -/
  | broken (reason : String)

/-- Takes chunk after chunk up to the next line feed. What has been taken of the line before is held
piece by piece, the latest first, and is lost if the source breaks off. -/
def supplyFrom (fault? : Option String) (held : List Bytes) : List Bytes → Supply
  | [] =>
    match fault? with
    | none => .last held.reverse.flatten
    | some reason => .broken reason
  | chunk :: chunks =>
    match chunk.dropWhile (· ≠ Text.lineFeed) with
    | [] => supplyFrom fault? (chunk :: held) chunks
    | _ :: behind =>
      .line (chunk.takeWhile (· ≠ Text.lineFeed) :: held).reverse.flatten ⟨behind :: chunks, fault?⟩

/-- Asks for the next line. -/
def supply (source : Source) : Supply :=
  supplyFrom source.fault? [] source.chunks

/-- How many bytes there are to be handed out. -/
def size (source : Source) : Nat :=
  source.chunks.flatten.length

theorem size_lt_of_supplyFrom {fault? : Option String} {held chunks : List Bytes} {bytes : Bytes}
    {left : Source} (h : supplyFrom fault? held chunks = .line bytes left) :
    left.size < chunks.flatten.length := by
  fun_induction supplyFrom fault? held chunks with
  | case1 => cases h
  | case2 => cases h
  | case3 held chunk chunks _ ih =>
    rw [List.flatten_cons, List.length_append]
    exact Nat.lt_add_left _ (ih h)
  | case4 held chunk chunks b behind hbehind =>
    obtain ⟨_, rfl⟩ := Supply.line.inj h
    have hle := (List.dropWhile_suffix (l := chunk) (· ≠ Text.lineFeed)).length_le
    rw [hbehind, List.length_cons] at hle
    rw [size, List.flatten_cons, List.flatten_cons, List.length_append, List.length_append]
    omega

/-- A line is taken with its line feed, so that the source has less to hand out. -/
theorem size_lt_of_supply {source left : Source} {bytes : Bytes}
    (h : source.supply = .line bytes left) : left.size < source.size :=
  size_lt_of_supplyFrom h

end Source

/-! ### All lines -/

/-- Lines in the making: those complete and the bytes behind the last line feed, both backwards. -/
structure Intake where
  complete : List Bytes
  pending : Bytes

namespace Intake

/-- Nothing handed out yet. -/
def empty : Intake := ⟨[], []⟩

/-- Takes in one byte. -/
def byte (intake : Intake) (b : UInt8) : Intake :=
  if b = Text.lineFeed then ⟨intake.pending.reverse :: intake.complete, []⟩
  else { intake with pending := b :: intake.pending }

/-- Takes in a chunk. -/
def chunk (intake : Intake) (bytes : Bytes) : Intake :=
  bytes.foldl byte intake

/-- The lines that end in a line feed, which is not part of them. -/
def closed (intake : Intake) : List Bytes :=
  intake.complete.reverse

/-- All lines, with the bytes behind the last line feed as one more if there are any. -/
def all (intake : Intake) : List Bytes :=
  if intake.pending.isEmpty then intake.closed else intake.closed ++ [intake.pending.reverse]

end Intake

namespace Source

/-- What is assembled from all the chunks. -/
def intake (source : Source) : Intake :=
  source.chunks.foldl Intake.chunk .empty

/-- It does not matter where the chunks end. -/
theorem intake_eq (source : Source) : source.intake = Intake.empty.chunk source.chunks.flatten := by
  rw [intake, Intake.chunk, List.foldl_flatten]
  rfl

/-- The lines to be answered: what is behind the last line feed is one only at a proper end. -/
def lines (source : Source) : List Bytes :=
  match source.fault? with
  | none => source.intake.all
  | some _ => source.intake.closed

end Source

end ListingSnapshot
