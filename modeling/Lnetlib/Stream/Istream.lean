import Lnetlib.Stream.Ostream

/-!
# `istream`: the input network stream

An `istream` reads from the stream buffer with a package body; its constructor reads the command and
the uid. A read that finds too few bytes stores those there are and sets `eofbit` and `failbit`, and
from then on reads do nothing. What a read does not overwrite keeps the contents its memory had:
`junk` supplies the contents of the objects that are created without an initialiser.

A reader with a size prefix asks for as much memory as the prefix says. Which of these requests are met is
a parameter (`Memory`).
-/

namespace Lnetlib

open Bytes

/-- What an allocation throws: there is no memory, or the size is impossible. -/
inductive StdException where
  | badAlloc
  | badArrayNewLength
  | lengthError
  deriving DecidableEq, Repr

/-- A request for the memory of an object. -/
inductive Request where
  /-- `char data[n]`. -/
  | stackArray (n : Nat)
  /-- `new char[n]`. -/
  | newArray (n : Nat)
  /-- The elements of a vector, `n` bytes. -/
  | elements (n : Nat)
  /-- The string of `n` characters that a C string is converted to. -/
  | converted (n : Nat)
  /-- The string of `n` characters that is returned. -/
  | returned (n : Nat)
  deriving DecidableEq, Repr

/-- The memory that a reader finds: which requests are met, and what the memory behind an array on the stack
    holds before the next zero. -/
structure Memory where
  grants : Request → Bool
  behind : List CChar

namespace Memory

/-- Every request is met. -/
def ample (behind : List CChar) : Memory := { grants := fun _ => true, behind := behind }

/-- A vector of `n` bytes can be made; an empty one asks for nothing. -/
def HoldsElements (memory : Memory) (n : Nat) : Prop := n = 0 ∨ memory.grants (.elements n) = true

instance (memory : Memory) (n : Nat) : Decidable (memory.HoldsElements n) :=
  inferInstanceAs (Decidable (_ ∨ _))

theorem ample_holdsElements (behind : List CChar) (n : Nat) : (ample behind).HoldsElements n := .inr rfl

end Memory

/-- The state of an `istream`. -/
structure Istream where
  /-- The characters of `*_buffer` that have not been read. -/
  rest : List UInt8
  eofbit : Bool
  failbit : Bool
  command : UInt64
  uid : UInt64
  /-- The prior contents of the memory used next for uninitialised objects. -/
  junk : Nat → UInt8

namespace Istream

variable (o : ByteOrder)

/-- `std::ios::good`. -/
def good (is : Istream) : Bool := !is.eofbit && !is.failbit

/-- The bytes of an object of `n` bytes without an initialiser. -/
def uninit (n : Nat) (is : Istream) : List UInt8 × Istream :=
  ((List.range n).map is.junk, { is with junk := fun i => is.junk (i + n) })

/-- `std::istream::read` into the memory `dst`, as many bytes as it has. -/
def read (dst : List UInt8) (is : Istream) : List UInt8 × Istream :=
  if is.good then
    let got := is.rest.take dst.length
    let short := decide (got.length < dst.length)
    (got ++ dst.drop got.length,
      { is with rest := is.rest.drop dst.length, eofbit := short, failbit := short })
  else
    (dst, { is with failbit := true })

/-- `istream::istream`: the members are read over their uninitialised memory. -/
def construct (body : List UInt8) (junk : Nat → UInt8) : Istream :=
  let is : Istream :=
    { rest := body, eofbit := false, failbit := false, command := 0, uid := 0, junk := junk }
  let (command₀, is) := is.uninit (sizeof UInt64)
  let (uid₀, is) := is.uninit (sizeof UInt64)
  let (command, is) := is.read command₀
  let (uid, is) := is.read uid₀
  { is with command := valueOf o UInt64 command, uid := valueOf o UInt64 uid }

/-- `istream::command<T>`. -/
def commandAs (c : CommandType) (is : Istream) : c.Value := c.ofUInt64 is.command

/-- `istream::read_basic<T>`. -/
def readBasic (T : Type) [Basic T] (is : Istream) : T × Istream :=
  let (data, is) := is.uninit (sizeof T)
  let (data, is) := is.read data
  (valueOf o T data, is)

def readInt8 : Istream → Int8 × Istream := readBasic o Int8
def readUInt8 : Istream → UInt8 × Istream := readBasic o UInt8
def readInt16 : Istream → Int16 × Istream := readBasic o Int16
def readUInt16 : Istream → UInt16 × Istream := readBasic o UInt16
def readInt32 : Istream → Int32 × Istream := readBasic o Int32
def readUInt32 : Istream → UInt32 × Istream := readBasic o UInt32
def readInt64 : Istream → Int64 × Istream := readBasic o Int64
def readUInt64 : Istream → UInt64 × Istream := readBasic o UInt64
def readFloat32 : Istream → FloatBits 4 × Istream := readBasic o (FloatBits 4)
def readFloat64 : Istream → FloatBits 8 × Istream := readBasic o (FloatBits 8)

/-- `istream::read_data_chunk<char, U>(U& size)`, with the size and the array it returns. The function
    only compiles for `char`, since it allocates a `char` array whatever `T` is. -/
def readDataChunkPtr (memory : Memory) (U : Type) [Unsigned U] (is : Istream) :
    Except StdException ((U × List CChar) × Istream) :=
  let (size, is) := readBasic o U is
  if ptrdiffMax < Unsigned.toNat size then .error .badArrayNewLength
  else if memory.grants (.newArray (Unsigned.toNat size)) then
    let (data, is) := is.uninit (Unsigned.toNat size)
    let (data, is) := is.read data
    .ok ((size, data), is)
  else .error .badAlloc

/-- `istream::read_data_chunk<T, U>()`: the vector is filled with zeros before the read. -/
def readDataChunk (memory : Memory) (T U : Type) [Basic T] [Unsigned U] (is : Istream) :
    Except StdException (List T × Istream) :=
  let (size, is) := readBasic o U is
  if ptrdiffMax < Unsigned.toNat size * sizeof T then .error .lengthError
  else if memory.HoldsElements (Unsigned.toNat size * sizeof T) then
    let chunk := List.replicate (Unsigned.toNat size * sizeof T) 0
    let (data, is) := is.read chunk
    .ok (arrayOf o T (Unsigned.toNat size) data, is)
  else .error .badAlloc

/-- `istream::create_response`. -/
def createResponse (is : Istream) : Ostream :=
  Ostream.construct o (.integral 64 false (Nat.le_refl 64)) is.command.toBitVec is.uid

end Istream

end Lnetlib
