import Lnetlib.Stream.Istream

/-!
# Typed messages

A message is a sequence of typed fields. Each field type names one `write_*` member of `ostream` and the
`read_*` member of `istream` that matches it. A data chunk has two writers and two readers; the
pointer reader exists for `char` only. `read` finds all the memory it asks for, and `readIn` what a given
memory grants.
-/

namespace Lnetlib

open Bytes

/-- An array in memory whose number of elements the prefix type `U` can represent. -/
structure Chunk (T U : Type) [Basic T] [Unsigned U] where
  data : List T
  count_lt : data.length < 2 ^ (8 * sizeof U)
  /-- No object has more than `PTRDIFF_MAX` bytes. -/
  bytes_le : data.length * sizeof T ≤ ptrdiffMax

/-- The overloads of `ostream::write_data_chunk`. -/
inductive ChunkWriter where
  | pointer
  | vector
  deriving DecidableEq, Repr

/-- The type of a field: which members write and read it. -/
inductive FieldType : Type 1 where
  | int8
  | uint8
  | int16
  | uint16
  | int32
  | uint32
  | int64
  | uint64
  | float32
  | float64
  /-- A data chunk read with the vector overload. -/
  | chunk (T U : Type) [Basic T] [Unsigned U] (writer : ChunkWriter)
  /-- A chunk of `char` read with the pointer overload. -/
  | charChunk (U : Type) [Unsigned U] (writer : ChunkWriter)

namespace FieldType

/-- What the writer of a field takes. -/
def Value : FieldType → Type
  | int8 => Int8
  | uint8 => UInt8
  | int16 => Int16
  | uint16 => UInt16
  | int32 => Int32
  | uint32 => UInt32
  | int64 => Int64
  | uint64 => UInt64
  | float32 => FloatBits 4
  | float64 => FloatBits 8
  | chunk T U _ => Chunk T U
  | charChunk U _ => Chunk CChar U

/-- What the reader of a field returns. -/
def Result : FieldType → Type
  | int8 => Int8
  | uint8 => UInt8
  | int16 => Int16
  | uint16 => UInt16
  | int32 => Int32
  | uint32 => UInt32
  | int64 => Int64
  | uint64 => UInt64
  | float32 => FloatBits 4
  | float64 => FloatBits 8
  | chunk T _ _ => List T
  | charChunk U _ => U × List CChar

/-- The written value as the reader returns it. -/
def expected : (t : FieldType) → t.Value → t.Result
  | int8, v | uint8, v | int16, v | uint16, v | int32, v | uint32, v | int64, v | uint64, v => v
  | float32, v | float64, v => v
  | chunk _ _ _, v => v.data
  | charChunk _ _, v => (Unsigned.ofNat v.data.length, v.data)

/-- `write_data_chunk` in the chosen overload. -/
def writeChunk (o : ByteOrder) {T U : Type} [Basic T] [Unsigned U] (writer : ChunkWriter)
    (v : Chunk T U) : Ostream → Ostream :=
  match writer with
  | .pointer => Ostream.writeDataChunkPtr o v.data (Unsigned.ofNat v.data.length : U)
  | .vector => Ostream.writeDataChunk o U v.data

/-- The `write_*` call of a field. -/
def write (o : ByteOrder) : (t : FieldType) → t.Value → Ostream → Ostream
  | int8, v => Ostream.writeInt8 o v
  | uint8, v => Ostream.writeUInt8 o v
  | int16, v => Ostream.writeInt16 o v
  | uint16, v => Ostream.writeUInt16 o v
  | int32, v => Ostream.writeInt32 o v
  | uint32, v => Ostream.writeUInt32 o v
  | int64, v => Ostream.writeInt64 o v
  | uint64, v => Ostream.writeUInt64 o v
  | float32, v => Ostream.writeFloat32 o v
  | float64, v => Ostream.writeFloat64 o v
  | chunk _ _ writer, v => writeChunk o writer v
  | charChunk _ writer, v => writeChunk o writer v

/-- The `read_*` call of a field with the memory it finds. -/
def readIn (o : ByteOrder) (memory : Memory) :
    (t : FieldType) → Istream → Except StdException (t.Result × Istream)
  | int8, is => .ok (is.readInt8 o)
  | uint8, is => .ok (is.readUInt8 o)
  | int16, is => .ok (is.readInt16 o)
  | uint16, is => .ok (is.readUInt16 o)
  | int32, is => .ok (is.readInt32 o)
  | uint32, is => .ok (is.readUInt32 o)
  | int64, is => .ok (is.readInt64 o)
  | uint64, is => .ok (is.readUInt64 o)
  | float32, is => .ok (is.readFloat32 o)
  | float64, is => .ok (is.readFloat64 o)
  | chunk T U _, is => is.readDataChunk o memory T U
  | charChunk U _, is => is.readDataChunkPtr o memory U

/-- The `read_*` call of a field that finds all the memory it asks for. -/
def read (o : ByteOrder) (t : FieldType) (is : Istream) : Except StdException (t.Result × Istream) :=
  t.readIn o (.ample []) is

/-- Memory for the payload of a field. -/
def HasRoom (memory : Memory) : (t : FieldType) → t.Value → Prop
  | chunk T _ _, v => memory.HoldsElements (v.data.length * sizeof T)
  | charChunk _ _, v => memory.grants (.newArray v.data.length) = true
  | _, _ => True

end FieldType

/-- A field: its type and the value written. -/
abbrev Field := (t : FieldType) × t.Value

/-- What a sequence of readers returns. -/
abbrev FieldResult := (t : FieldType) × t.Result

/-- The value of a field as its reader returns it. -/
def Field.expected (f : Field) : FieldResult := ⟨f.1, f.1.expected f.2⟩

/-- The writes of a message. -/
def writeFields (o : ByteOrder) : List Field → Ostream → Ostream
  | [], os => os
  | f :: fs, os => writeFields o fs (f.1.write o f.2 os)

/-- The reads of a message, up to the first that throws. -/
def readFields (o : ByteOrder) :
    List FieldType → Istream → Except StdException (List FieldResult × Istream)
  | [], is => .ok ([], is)
  | t :: ts, is =>
    match t.read o is with
    | .error e => .error e
    | .ok (v, is) =>
      match readFields o ts is with
      | .error e => .error e
      | .ok (vs, is) => .ok (⟨t, v⟩ :: vs, is)

end Lnetlib
