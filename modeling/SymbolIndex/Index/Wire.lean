/-!
# The wire format of messages

Messages are written as fields, each with a tag that holds the field's number
and the shape of what follows.  Numbers are written in groups of seven bits,
lowest first, where every byte but the last has its high bit set.  Texts and
nested messages are written with their length in front.  A reader accepts any
field and gives it back uninterpreted, so that fields which nobody knows do no
harm.
-/

namespace SymbolIndex

abbrev Bytes := List UInt8

namespace Wire

/-- A number in groups of seven bits. -/
def varint (n : Nat) : Bytes :=
  if n < 128 then [UInt8.ofNat n]
  else UInt8.ofNat (n % 128 + 128) :: varint (n / 128)

/-- The number at the start of some bytes, written in at most so many bytes,
and the bytes after it. -/
def varintWithin : Nat → Bytes → Option (Nat × Bytes)
  | 0, _ => none
  | _ + 1, [] => none
  | most + 1, b :: rest =>
    if b.toNat < 128 then some (b.toNat, rest)
    else
      match varintWithin most rest with
      | some (high, after) => some (b.toNat - 128 + 128 * high, after)
      | none => none

def varint64? (bytes : Bytes) : Option (Nat × Bytes) :=
  match varintWithin 10 bytes with
  | some (n, rest) => if n < UInt64.size then some (n, rest) else none
  | none => none

/-- A number of 64 bits cut to 32.  Numbers that fit and negative ones that were
extended from 32 bits lose nothing; others are refused. -/
def narrow? (n : Nat) : Option UInt32 :=
  if n < UInt32.size || UInt64.size - UInt32.size / 2 ≤ n then some (UInt32.ofNat n) else none

def varint32? (bytes : Bytes) : Option (UInt32 × Bytes) :=
  match varint64? bytes with
  | some (n, rest) => (narrow? n).map fun n => (n, rest)
  | none => none

/-- A signed number of 32 bits as a number of 64 bits. -/
def signExtend (n : Int32) : Nat :=
  (n.toInt % UInt64.size).toNat

/-- The signed number of 32 bits that a number of 64 bits stands for. -/
def int32? (n : Nat) : Option Int32 :=
  (narrow? n).map UInt32.toInt32

inductive Payload where
  | varint (n : Nat)
  | bytes (content : Bytes)
  /-- Something of a shape in which no field of a known message comes. -/
  | other
  deriving DecidableEq, Repr

structure Field where
  number : Nat
  payload : Payload
  deriving DecidableEq, Repr

/-- The first bytes of a list that has so many, and the others. -/
def take? (count : Nat) (bytes : Bytes) : Option (Bytes × Bytes) :=
  if count ≤ bytes.length then some (bytes.take count, bytes.drop count) else none

/-- A tag at the start of some bytes: the number of the field, the shape of what
follows, and the bytes after it.  There is no field zero. -/
def tag? (bytes : Bytes) : Option (Nat × Nat × Bytes) :=
  match varint32? bytes with
  | some (tag, rest) =>
    let number := tag.toNat / 8
    if number = 0 then none else some (number, tag.toNat % 8, rest)
  | none => none

/-- What follows a tag of the given shape, and the bytes after it.  Groups are
not read here. -/
def payload? (shape : Nat) (bytes : Bytes) : Option (Payload × Bytes) :=
  match shape with
  | 0 => (varint64? bytes).map fun (n, rest) => (.varint n, rest)
  | 1 => (take? 8 bytes).map fun (_, rest) => (.other, rest)
  | 2 => do
    let (size, rest) ← varint32? bytes
    let (content, rest) ← take? size.toNat rest
    return (.bytes content, rest)
  | 5 => (take? 4 bytes).map fun (_, rest) => (.other, rest)
  | _ => none

/-- The bytes after the end of a group inside of which `depth` more groups are
open. -/
def skipGroup : Nat → Nat → Bytes → Option Bytes
  | 0, _, _ => none
  | fuel + 1, depth, bytes =>
    match tag? bytes with
    | none => none
    | some (_, 3, rest) => skipGroup fuel (depth + 1) rest
    | some (_, 4, rest) =>
      match depth with
      | 0 => some rest
      | outer + 1 => skipGroup fuel outer rest
    | some (_, shape, rest) =>
      match payload? shape rest with
      | some (_, rest) => skipGroup fuel depth rest
      | none => none

/-- The fields in some bytes, read in at most so many steps. -/
def fieldsWithin : Nat → Bytes → Option (List Field)
  | _, [] => some []
  | 0, _ :: _ => none
  | fuel + 1, bytes =>
    match tag? bytes with
    | none => none
    | some (number, shape, rest) =>
      let payload :=
        if shape = 3 then (skipGroup (rest.length + 1) 0 rest).map fun rest => (.other, rest)
        else payload? shape rest
      match payload with
      | none => none
      | some (payload, rest) => (fieldsWithin fuel rest).map (⟨number, payload⟩ :: ·)

def fields? (bytes : Bytes) : Option (List Field) :=
  fieldsWithin bytes.length bytes

/-- A message read field by field, starting from the message without fields. -/
def message? {α : Type} (start : α) (readField : α → Field → Option α) (bytes : Bytes) :
    Option α :=
  match fields? bytes with
  | some fields => fields.foldlM readField start
  | none => none

def text? (content : Bytes) : Option String :=
  String.fromUTF8? content.toByteArray

def textBytes (s : String) : Bytes :=
  s.toUTF8.data.toList

def packedWithin : Nat → Bytes → Option (List Int32)
  | _, [] => some []
  | 0, _ :: _ => none
  | fuel + 1, bytes =>
    match varint64? bytes with
    | none => none
    | some (n, rest) =>
      match int32? n, packedWithin fuel rest with
      | some n, some more => some (n :: more)
      | _, _ => none

def packed? (bytes : Bytes) : Option (List Int32) :=
  packedWithin bytes.length bytes

def tag (number shape : Nat) : Bytes :=
  varint (number * 8 + shape)

def bytesField (number : Nat) (content : Bytes) : Bytes :=
  tag number 2 ++ varint content.length ++ content

/-- A field that holds a text; nothing for the empty text. -/
def textField (number : Nat) (s : String) : Bytes :=
  if s = "" then [] else bytesField number (textBytes s)

/-- A field that holds a signed number; nothing for zero. -/
def int32Field (number : Nat) (n : Int32) : Bytes :=
  if n = 0 then [] else tag number 0 ++ varint (signExtend n)

/-- A field that holds signed numbers; nothing if there are none. -/
def packedField (number : Nat) (ns : List Int32) : Bytes :=
  if ns.isEmpty then [] else bytesField number (ns.flatMap fun n => varint (signExtend n))

end Wire

end SymbolIndex
