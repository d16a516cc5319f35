import Lnetlib.Connection.Model
import Lnetlib.Stream.Codec

/-!
# What decoding a body depends on

A body is handed to `read_package_body_handler`, which makes an `istream` of it and looks its uid up, and
then the slot or the callback reads from the stream. The memory of objects without an initialiser is a
second input (`junk`). An exception of a reader may be caught, and reading goes on behind the prefix. The
readers find all the memory they ask for.
-/

namespace Lnetlib

open Bytes

namespace FieldType

variable (o : ByteOrder)

/-- The stream that a reader leaves when it throws: the prefix has been read. -/
def thrown : FieldType → Istream → Istream
  | chunk _ U _, is => (is.readBasic o U).2
  | charChunk U _, is => (is.readBasic o U).2
  | _, is => is

/-- The `read_*` call of a field, with the stream it leaves also where it throws. -/
def readOn (t : FieldType) (is : Istream) : Except StdException t.Result × Istream :=
  match t.read o is with
  | .ok (v, is') => (.ok v, is')
  | .error e => (.error e, t.thrown o is)

/-- The size of what the reader reads first: the value itself or the size prefix. -/
def firstSize : FieldType → Nat
  | int8 => sizeof Int8
  | uint8 => sizeof UInt8
  | int16 => sizeof Int16
  | uint16 => sizeof UInt16
  | int32 => sizeof Int32
  | uint32 => sizeof UInt32
  | int64 => sizeof Int64
  | uint64 => sizeof UInt64
  | float32 => sizeof (FloatBits 4)
  | float64 => sizeof (FloatBits 8)
  | chunk _ U _ => sizeof U
  | charChunk U _ => sizeof U

/-- The bytes of payload that a prefix with the bytes `bs` claims. -/
def payload : FieldType → List UInt8 → Nat
  | chunk T U _, bs => Unsigned.toNat (valueOf o U bs) * sizeof T
  | charChunk U _, bs => Unsigned.toNat (valueOf o U bs)
  | _, _ => 0

/-- The payload is read over memory without an initialiser. -/
def rawPayload : FieldType → Bool
  | charChunk _ _ => true
  | _ => false

/-- What a reader with the bytes `rest` before it leaves. -/
def leaves (t : FieldType) (rest : List UInt8) : List UInt8 :=
  let n := t.payload o (rest.take t.firstSize)
  if n ≤ ptrdiffMax then rest.drop (t.firstSize + n) else rest.drop t.firstSize

/-- The bytes `rest` determine what the reader returns. The value or the prefix is there in full, and so is
    a payload that is read over raw memory, unless it cannot be allocated; or the prefix is cut off, and
    the payload cannot be allocated whatever the missing bytes are. -/
def Determined (t : FieldType) (rest : List UInt8) : Prop :=
  if t.firstSize ≤ rest.length then
    t.rawPayload = true → t.payload o (rest.take t.firstSize) ≤ ptrdiffMax →
      t.firstSize + t.payload o (rest.take t.firstSize) ≤ rest.length
  else
    ∀ missing : List UInt8, rest.length + missing.length = t.firstSize →
      ptrdiffMax < t.payload o (rest ++ missing)

end FieldType

/-- The results of a sequence of reads. -/
def readTrace (o : ByteOrder) :
    List FieldType → Istream → List ((t : FieldType) × Except StdException t.Result)
  | [], _ => []
  | t :: ts, is => ⟨t, (t.readOn o is).1⟩ :: readTrace o ts (t.readOn o is).2

/-- The bytes before each read determine what it returns. -/
def TraceDetermined (o : ByteOrder) : List FieldType → List UInt8 → Prop
  | [], _ => True
  | t :: ts, rest => t.Determined o rest ∧ TraceDetermined o ts (t.leaves o rest)

/-- What is seen of a package: what the stream reports, the callback that was chosen or none for the
    `received` signal, and the results of the reads. -/
structure Decoded (κ : Type) where
  command : UInt64
  uid : UInt64
  callback : Option κ
  reads : List ((t : FieldType) × Except StdException t.Result)

namespace Connection

variable {κ : Type} (o : ByteOrder)

/-- What a received stream shows to the reads `ts`. -/
def observe (ts : List FieldType) : List (Emission κ) → Option (Decoded κ)
  | [.received stream] => some ⟨stream.command, stream.uid, none, readTrace o ts stream⟩
  | [.callback cb stream] => some ⟨stream.command, stream.uid, some cb, readTrace o ts stream⟩
  | _ => none

/-- A body that has arrived, as the reads `ts` see it; none where it is not handed on. -/
def decode (c : Connection κ) (body : List UInt8) (ts : List FieldType) (junk : Nat → UInt8) :
    Option (Decoded κ) :=
  observe o ts (c.readPackageBodyHandler o junk body .success body.length).2.1

/-- Two runs that differ in the contents of raw memory only see the same. -/
def OnlyFromBody (c : Connection κ) (body : List UInt8) (ts : List FieldType) : Prop :=
  ∀ junk₁ junk₂, c.decode o body ts junk₁ = c.decode o body ts junk₂

/-- The bytes of a body determine what is decoded. -/
def BodyDetermined (body : List UInt8) (ts : List FieldType) : Prop :=
  body = [] ∨ sizeof UInt64 + sizeof UInt64 ≤ body.length ∧
    TraceDetermined o ts (body.drop (sizeof UInt64 + sizeof UInt64))

end Connection

end Lnetlib
