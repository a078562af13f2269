import SchemaLoom.Record.Basic

/-!
# What is hashed

The digest of a value is the sequence of bytes a hasher is fed for it.  The entries of a map go in
as a bag: each entry's digest on its own, sorted, so that their order does not count.  Two values
hash alike when their digests are equal.
-/

namespace SchemaLoom

open Wire (Scalar Atom)

namespace Digest

/-- A number as that many bytes, the lowest first. -/
def littleEndian : (count : Nat) → Nat → List Nat
  | 0, _ => []
  | count + 1, number => number % 256 :: littleEndian count (number / 256)

def word32 (number : Nat) : List Nat := littleEndian 4 number

def word64 (number : Nat) : List Nat := littleEndian 8 number

/-- Shorter-prefix-first order of digests. -/
def le : List Nat → List Nat → Bool
  | [], _ => true
  | _ :: _, [] => false
  | left :: lefts, right :: rights => left < right || (left == right && le lefts rights)

/-- The mark before a bag and the mark after each of its members; neither is a byte. -/
def bagStart : Nat := 256

def bagItemEnd : Nat := 257

/-- A bag of digests.  The empty bag is the sum zero. -/
def bag (items : List (List Nat)) : List Nat :=
  if items.isEmpty then word64 0
  else bagStart :: (items.mergeSort le).flatMap fun item => item ++ [bagItemEnd]

end Digest

open Digest

def ScalarKind.tag : ScalarKind → Nat
  | .bool => 0
  | .bytes => 1
  | .double => 2
  | .entityId => 3
  | .fixed32 => 4
  | .fixed64 => 5
  | .float => 6
  | .int32 => 7
  | .int64 => 8
  | .sfixed32 => 9
  | .sfixed64 => 10
  | .sint32 => 11
  | .sint64 => 12
  | .string => 13
  | .uint32 => 14
  | .uint64 => 15

/-- The bytes of a scalar without its kind. -/
def Wire.Scalar.payload : Scalar → List Nat
  | .bool value => [if value then 1 else 0]
  | .bytes value => word64 value.length ++ value.map UInt8.toNat
  | .double value => word64 value.canonical
  | .entityId value => word64 value.toUInt64.toNat
  | .fixed32 value => word32 value.toNat
  | .fixed64 value => word64 value.toNat
  | .float value => word32 value.canonical
  | .int32 value => word32 value.toUInt32.toNat
  | .int64 value => word64 value.toUInt64.toNat
  | .sfixed32 value => word32 value.toUInt32.toNat
  | .sfixed64 value => word64 value.toUInt64.toNat
  | .sint32 value => word32 value.toUInt32.toNat
  | .sint64 value => word64 value.toUInt64.toNat
  | .string value => value.toUTF8.toList.map UInt8.toNat ++ [0xFF]
  | .uint32 value => word32 value.toNat
  | .uint64 value => word64 value.toNat

def Wire.Atom.digest : Atom → List Nat
  | .scalar value => value.kind.tag :: value.payload
  | .enumeration value => 16 :: word32 value.toNat

mutual

def Value.digest : Value → List Nat
  | .atom value => value.digest
  | .record fields => 17 :: (word64 fields.length ++ Record.digestFields fields)

def FieldValue.digest : FieldValue → List Nat
  | .singular value => value.digest
  | .option none => [0]
  | .option (some value) => 1 :: value.digest
  | .list values => word64 values.length ++ Value.digestList values
  | .map entries => word64 entries.length ++ bag (Value.digestEntries entries)

def Record.digestFields : List (UInt32 × FieldValue) → List Nat
  | [] => []
  | (id, value) :: rest => word32 id.toNat ++ value.digest ++ Record.digestFields rest

def Value.digestList : List Value → List Nat
  | [] => []
  | value :: rest => value.digest ++ Value.digestList rest

def Value.digestEntries : List (Value × Value) → List (List Nat)
  | [] => []
  | (key, value) :: rest => (key.digest ++ value.digest) :: Value.digestEntries rest

end

def Record.digest (record : Record) : List Nat :=
  word64 record.length ++ Record.digestFields record

end SchemaLoom
