import Lnetlib.Stream.Types

/-!
# `ostream`: the output network stream

An `ostream` appends to a stream buffer that its constructor has started with the command and the uid.
`send` hands the buffer to the `dispatch` signal, at most once. Its memory is taken to suffice.
-/

namespace Lnetlib

open Bytes

/-- The state of an `ostream`. -/
structure Ostream where
  /-- The characters of `*_buffer`. -/
  buffer : List UInt8
  sended : Bool
  uid : UInt64

namespace Ostream

variable (o : ByteOrder)

/-- `std::ostream::write`. -/
def write (bs : List UInt8) (os : Ostream) : Ostream := { os with buffer := os.buffer ++ bs }

/-- `ostream::ostream(T command, uint64_t uid)`. -/
def construct (c : CommandType) (command : c.Value) (uid : UInt64) : Ostream :=
  let os : Ostream := { buffer := [], sended := false, uid := uid }
  let cmd := c.toUInt64 command
  (os.write (bytesOf o cmd)).write (bytesOf o uid)

/-- `ostream::write_basic<T>`. -/
def writeBasic {T : Type} [Basic T] (data : T) (os : Ostream) : Ostream := os.write (bytesOf o data)

def writeInt8 (data : Int8) : Ostream → Ostream := writeBasic o data
def writeUInt8 (data : UInt8) : Ostream → Ostream := writeBasic o data
def writeInt16 (data : Int16) : Ostream → Ostream := writeBasic o data
def writeUInt16 (data : UInt16) : Ostream → Ostream := writeBasic o data
def writeInt32 (data : Int32) : Ostream → Ostream := writeBasic o data
def writeUInt32 (data : UInt32) : Ostream → Ostream := writeBasic o data
def writeInt64 (data : Int64) : Ostream → Ostream := writeBasic o data
def writeUInt64 (data : UInt64) : Ostream → Ostream := writeBasic o data
def writeFloat32 (data : FloatBits 4) : Ostream → Ostream := writeBasic o data
def writeFloat64 (data : FloatBits 8) : Ostream → Ostream := writeBasic o data

/-- `ostream::write_data_chunk<T, U>(const T*, U)`; `data` is the array that is pointed to. -/
def writeDataChunkPtr {T U : Type} [Basic T] [Unsigned U] (data : List T) (size : U)
    (os : Ostream) : Ostream :=
  (writeBasic o size os).write
    ((arrayBytes o data).take (sizeMul (Unsigned.toNat size) (sizeof T)))

/-- `ostream::write_data_chunk<T, U>(const std::vector<T>&)`: the number of elements is converted to
    `U` by the call. -/
def writeDataChunk {T : Type} (U : Type) [Basic T] [Unsigned U] (data : List T)
    (os : Ostream) : Ostream :=
  writeDataChunkPtr o data (Unsigned.ofNat data.length : U) os

/-- `basic_streambuf::buffer_delta`. -/
def bufferDelta : Nat := 128

/-- The room for characters in a stream buffer with `n` of them: `overflow` reserves `buffer_delta` more
    where the next one finds it full. -/
def room : Nat → Nat
  | 0 => bufferDelta
  | n + 1 => if n = room n then room n + bufferDelta else room n

/-- The write makes the stream buffer reserve new storage. -/
def outgrows (bs : List UInt8) (os : Ostream) : Bool :=
  room os.buffer.length < os.buffer.length + bs.length

/-- `ostream::send`, with the buffer that it hands to `dispatch`. -/
def send (os : Ostream) : Ostream × Option (List UInt8) :=
  if os.sended then (os, none)
  else ({ os with sended := true }, some os.buffer)

@[simp] theorem write_buffer (bs : List UInt8) (os : Ostream) :
    (os.write bs).buffer = os.buffer ++ bs := rfl

@[simp] theorem construct_buffer (c : CommandType) (command : c.Value) (uid : UInt64) :
    (construct o c command uid).buffer = bytesOf o (c.toUInt64 command) ++ bytesOf o uid := rfl

@[simp] theorem construct_sended (c : CommandType) (command : c.Value) (uid : UInt64) :
    (construct o c command uid).sended = false := rfl

/-- The header of every message has 16 bytes. -/
theorem construct_length (c : CommandType) (command : c.Value) (uid : UInt64) :
    (construct o c command uid).buffer.length = 16 := by
  rw [construct_buffer, List.length_append, bytesOf_length, bytesOf_length]
  rfl

end Ostream

end Lnetlib
