import Lnetlib.Stream.Strings

/-!
# Reading what a peer has sent

The three readers with a size prefix reserve their payload first and read over it then: `read_string` an
array on the stack, the pointer overload of `read_data_chunk` an array on the heap, and the vector
overload a vector. None of them compares the prefix with what is left of the body. Where there is no memory
for what it claims they do not return, and otherwise the state of the stream shows that there was less.
-/

namespace Lnetlib

open Bytes

/-- A reader with a size prefix. -/
inductive SizedReader : Type 1 where
  | string
  /-- The pointer overload of `read_data_chunk`. -/
  | pointer
  /-- The vector overload of `read_data_chunk` for elements of type `T`. -/
  | vector (T : Type) [Basic T]

namespace SizedReader

variable (o : ByteOrder) (U : Type) [Unsigned U]

/-- What the reader returns. -/
def Result : SizedReader → Type
  | string => List CChar
  | pointer => U × List CChar
  | vector T => List T

/-- The call of the reader with a prefix of type `U`. -/
def read (memory : Memory) :
    (r : SizedReader) → Istream → Except ReadFault (r.Result U × Istream)
  | string, is => is.readString o memory U
  | pointer, is => (is.readDataChunkPtr o memory U).mapError .exception
  | vector T, is => (is.readDataChunk o memory T U).mapError .exception

/-- Memory for what the reader asks for, where its payload of `n` characters or elements is read from `is`:
    the payload, and for a string its two copies. -/
def HasRoom (memory : Memory) (n : Nat) (is : Istream) : SizedReader → Prop
  | string => memory.HoldsString ((is.uninit n).2.read (is.uninit n).1).1
  | pointer => memory.grants (.newArray n) = true
  | vector T => memory.HoldsElements (n * sizeof T)

/-- The number of characters or elements that are returned. -/
def count : (r : SizedReader) → r.Result U → Nat
  | string, chars => chars.length
  | pointer, (_, data) => data.length
  | vector _, data => data.length

/-- The bytes that are returned. -/
def bytes : (r : SizedReader) → r.Result U → List UInt8
  | string, chars => chars
  | pointer, (_, data) => data
  | vector _, data => arrayBytes o data

/-- What a reader keeps of its payload: a string ends before the first zero. -/
def kept : SizedReader → List UInt8 → List UInt8
  | string, bs => bs.takeWhile (· != 0)
  | pointer, bs => bs
  | vector _, bs => bs

/-- The number that the prefix at the front of `rest` claims. -/
def claimed (rest : List UInt8) : Nat := Unsigned.toNat (valueOf o U (rest.take (sizeof U)))

end SizedReader

end Lnetlib
