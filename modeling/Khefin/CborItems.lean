import Mathlib.Algebra.Group.Nat.Defs
import Mathlib.Data.List.Basic
import Mathlib.Data.Nat.Notation

/-! # CBOR data items, their encoder and their decoder

Integers keep the width of the argument they were written with, arrays and maps
keep whether their length was announced, and indefinite strings keep their
chunks, so that a reader sees everything the bytes say except how wide the head
of a string, an array, a map or a tag was. -/

namespace Cbor

abbrev Bytes := List UInt8

/-- Argument widths. An argument held in the initial byte itself is eight bits wide. -/
inductive Width | w8 | w16 | w32 | w64 deriving DecidableEq, Repr

def Width.size : Width → ℕ
  | .w8 => 1 | .w16 => 2 | .w32 => 4 | .w64 => 8

/-- The additional information announcing an argument of this width. -/
def Width.info : Width → ℕ
  | .w8 => 24 | .w16 => 25 | .w32 => 26 | .w64 => 27

/-- A map lists its keys and values in turn. -/
inductive Item
  | uint (width : Width) (value : ℕ)
  | negint (width : Width) (value : ℕ)
  | bytes (data : Bytes)
  | byteChunks (chunks : List Bytes)
  | text (data : Bytes)
  | textChunks (chunks : List Bytes)
  | array (definite : Bool) (items : List Item)
  | map (definite : Bool) (entries : List Item)
  | tag (number : ℕ) (content : Item)
  | simple (value : ℕ)
  | float (width : Width) (bits : ℕ)
  deriving Repr

/-- The last `k` base-256 digits of `n`, most significant first. -/
def beBytes : ℕ → ℕ → Bytes
  | 0, _ => []
  | k + 1, n => UInt8.ofNat (n / 256 ^ k) :: beBytes k n

def beValue (s : Bytes) : ℕ := s.foldl (fun acc b => acc * 256 + b.toNat) 0

/-! ## Encoding -/

def initialByte (major info : ℕ) : UInt8 := UInt8.ofNat (32 * major + info)

/-- A head whose argument has the given width; small eight-bit ones are immediate. -/
def encodeWide (major : ℕ) (w : Width) (n : ℕ) : Bytes :=
  if w = .w8 ∧ n < 24 then [initialByte major n] else initialByte major w.info :: beBytes w.size n

def minimalWidth (n : ℕ) : Width :=
  if n < 2 ^ 8 then .w8 else if n < 2 ^ 16 then .w16 else if n < 2 ^ 32 then .w32 else .w64

def encodeHead (major n : ℕ) : Bytes := encodeWide major (minimalWidth n) n

def encodeString (major : ℕ) (data : Bytes) : Bytes := encodeHead major data.length ++ data

def breakByte : UInt8 := 0xff

mutual

def encode : Item → Bytes
  | .uint w n => encodeWide 0 w n
  | .negint w n => encodeWide 1 w n
  | .bytes data => encodeString 2 data
  | .byteChunks chunks => initialByte 2 31 :: (chunks.flatMap (encodeString 2) ++ [breakByte])
  | .text data => encodeString 3 data
  | .textChunks chunks => initialByte 3 31 :: (chunks.flatMap (encodeString 3) ++ [breakByte])
  | .array true items => encodeHead 4 items.length ++ encodeAll items
  | .array false items => initialByte 4 31 :: (encodeAll items ++ [breakByte])
  | .map true entries => encodeHead 5 (entries.length / 2) ++ encodeAll entries
  | .map false entries => initialByte 5 31 :: (encodeAll entries ++ [breakByte])
  | .tag n content => encodeHead 6 n ++ encode content
  | .simple v => if v < 24 then [initialByte 7 v] else [initialByte 7 24, UInt8.ofNat v]
  | .float w bits => initialByte 7 w.info :: beBytes w.size bits

def encodeAll : List Item → Bytes
  | [] => []
  | i :: is => encode i ++ encodeAll is

end

/-! ## Decoding -/

def takeBytes (n : ℕ) (s : Bytes) : Option (Bytes × Bytes) :=
  if n ≤ s.length then some (s.take n, s.drop n) else none

def widthOfInfo : ℕ → Option Width
  | 24 => some .w8 | 25 => some .w16 | 26 => some .w32 | 27 => some .w64 | _ => none

def readArgument (info : ℕ) (s : Bytes) : Option (Width × ℕ × Bytes) :=
  if info < 24 then some (.w8, info, s)
  else (widthOfInfo info).bind fun w =>
    (takeBytes w.size s).map fun p => (w, beValue p.1, p.2)

/-- A string of announced length; chunks of indefinite strings are such strings. -/
def readString (major : ℕ) : Bytes → Option (Bytes × Bytes)
  | [] => none
  | b :: s =>
    if b.toNat / 32 = major then (readArgument (b.toNat % 32) s).bind fun a => takeBytes a.2.1 a.2.2
    else none

section Repetition

variable {α : Type} (read : Bytes → Option (α × Bytes))

def readTimes : ℕ → Bytes → Option (List α × Bytes)
  | 0, s => some ([], s)
  | n + 1, s => (read s).bind fun p => (readTimes n p.2).map fun q => (p.1 :: q.1, q.2)

/-- Read until a break byte, at most `n - 1` times. -/
def readUntilBreak : ℕ → Bytes → Option (List α × Bytes)
  | 0, _ => none
  | _ + 1, [] => none
  | n + 1, b :: s =>
    if b = breakByte then some ([], s)
    else (read (b :: s)).bind fun p => (readUntilBreak n p.2).map fun q => (p.1 :: q.1, q.2)

end Repetition

/-- Major type 7. One-byte simple values below 32 are not well formed. -/
def readSimple (info : ℕ) (s : Bytes) : Option (Item × Bytes) :=
  if info < 24 then some (.simple info, s)
  else (readArgument info s).bind fun a =>
    if a.1 = .w8 then if a.2.1 < 32 then none else some (.simple a.2.1, a.2.2)
    else some (.float a.1 a.2.1, a.2.2)

/-- Decode one item nested at most `depth` deep and return the bytes behind it. -/
def decodeItem : ℕ → Bytes → Option (Item × Bytes)
  | 0, _ => none
  | _ + 1, [] => none
  | depth + 1, b :: s =>
    let info := b.toNat % 32
    match b.toNat / 32 with
    | 0 => (readArgument info s).map fun a => (.uint a.1 a.2.1, a.2.2)
    | 1 => (readArgument info s).map fun a => (.negint a.1 a.2.1, a.2.2)
    | 2 =>
      if info = 31 then
        (readUntilBreak (readString 2) s.length s).map fun p => (.byteChunks p.1, p.2)
      else (readString 2 (b :: s)).map fun p => (.bytes p.1, p.2)
    | 3 =>
      if info = 31 then
        (readUntilBreak (readString 3) s.length s).map fun p => (.textChunks p.1, p.2)
      else (readString 3 (b :: s)).map fun p => (.text p.1, p.2)
    | 4 =>
      if info = 31 then
        (readUntilBreak (decodeItem depth) s.length s).map fun p => (.array false p.1, p.2)
      else (readArgument info s).bind fun a =>
        (readTimes (decodeItem depth) a.2.1 a.2.2).map fun p => (.array true p.1, p.2)
    | 5 =>
      if info = 31 then
        (readUntilBreak (decodeItem depth) s.length s).bind fun p =>
          if p.1.length % 2 = 0 then some (.map false p.1, p.2) else none
      else (readArgument info s).bind fun a =>
        (readTimes (decodeItem depth) (2 * a.2.1) a.2.2).map fun p => (.map true p.1, p.2)
    | 6 => (readArgument info s).bind fun a =>
        (decodeItem depth a.2.2).map fun p => (.tag a.2.1 p.1, p.2)
    | _ => readSimple info s

/-- The first item of the input and the bytes behind it. No item is nested deeper
than it has bytes, so the depth bound excludes nothing. -/
def decode (s : Bytes) : Option (Item × Bytes) := decodeItem s.length s

/-! ## Items that have an encoding -/

mutual

/-- Every argument fits its head. -/
def Item.Encodable : Item → Prop
  | .uint w n => n < 256 ^ w.size
  | .negint w n => n < 256 ^ w.size
  | .bytes data => data.length < 2 ^ 64
  | .byteChunks chunks => ∀ data ∈ chunks, data.length < 2 ^ 64
  | .text data => data.length < 2 ^ 64
  | .textChunks chunks => ∀ data ∈ chunks, data.length < 2 ^ 64
  | .array definite items => (definite = true → items.length < 2 ^ 64) ∧ AllEncodable items
  | .map definite entries =>
    (definite = true → entries.length / 2 < 2 ^ 64) ∧ entries.length % 2 = 0 ∧ AllEncodable entries
  | .tag n content => n < 2 ^ 64 ∧ content.Encodable
  | .simple v => v < 24 ∨ 32 ≤ v ∧ v < 256
  | .float w bits => w ≠ .w8 ∧ bits < 256 ^ w.size

def AllEncodable : List Item → Prop
  | [] => True
  | i :: is => i.Encodable ∧ AllEncodable is

end

mutual

/-- Levels of nesting. -/
def Item.depth : Item → ℕ
  | .array _ items => depthAll items + 1
  | .map _ entries => depthAll entries + 1
  | .tag _ content => content.depth + 1
  | _ => 1

def depthAll : List Item → ℕ
  | [] => 0
  | i :: is => max i.depth (depthAll is)

end

mutual

/-- Bytes held in the strings of an item. -/
def Item.payload : Item → ℕ
  | .bytes data => data.length
  | .text data => data.length
  | .byteChunks chunks => chunks.flatten.length
  | .textChunks chunks => chunks.flatten.length
  | .array _ items => payloadAll items
  | .map _ entries => payloadAll entries
  | .tag _ content => content.payload
  | _ => 0

def payloadAll : List Item → ℕ
  | [] => 0
  | i :: is => i.payload + payloadAll is

end

end Cbor
