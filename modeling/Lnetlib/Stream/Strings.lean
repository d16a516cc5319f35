import Lnetlib.Stream.Codec

/-!
# String fields

`write_string<T>` writes the size of a string as a `T` and then its characters. `read_string<T>` reads
them into an array on the stack and calls `std::string(data, 0, size)`. The constructor that takes a
position and a count takes a `std::string` before them, so `data` is first converted as a C string. Only
the first `size` characters of that string are kept. An array that the stack has no room for overflows it.
-/

namespace Lnetlib

open Bytes

/-- A string whose size the prefix type `T` can represent. -/
structure Text (T : Type) [Unsigned T] where
  chars : List CChar
  size_lt : chars.length < 2 ^ (8 * sizeof T)
  /-- No object has more than `PTRDIFF_MAX` bytes. -/
  size_le : chars.length ≤ ptrdiffMax

/-- How a read ends that does not return. -/
inductive ReadFault where
  | exception (e : StdException)
  /-- An array on the stack of more than `PTRDIFF_MAX` bytes. -/
  | arrayTooLarge
  | stackOverflow
  deriving DecidableEq, Repr

/-- `std::string(data)` for an array with the contents `data`; `behind` is what the memory behind the
    array holds before the next zero. -/
def cString (data behind : List CChar) : List CChar := (data ++ behind).takeWhile (· != 0)

/-- Memory for `std::string(data, 0, size)` and for its array with the contents `data`. -/
def Memory.HoldsString (memory : Memory) (data : List CChar) : Prop :=
  memory.grants (.stackArray data.length) = true ∧
    memory.grants (.converted (cString data memory.behind).length) = true ∧
    memory.grants (.returned ((cString data memory.behind).take data.length).length) = true

instance (memory : Memory) (data : List CChar) : Decidable (memory.HoldsString data) :=
  inferInstanceAs (Decidable (_ ∧ _ ∧ _))

theorem Memory.ample_holdsString (behind data : List CChar) : (ample behind).HoldsString data :=
  ⟨rfl, rfl, rfl⟩

namespace Ostream

variable (o : ByteOrder)

/-- `ostream::write_string<T>`. -/
def writeString (T : Type) [Unsigned T] (data : List CChar) (os : Ostream) : Ostream :=
  (writeBasic o (Unsigned.ofNat data.length : T) os).write data

end Ostream

namespace Istream

variable (o : ByteOrder) (memory : Memory)

/-- `istream::read_string<T>`. -/
def readString (T : Type) [Unsigned T] (is : Istream) : Except ReadFault (List CChar × Istream) :=
  let (size, is) := readBasic o T is
  if ptrdiffMax < Unsigned.toNat size then .error .arrayTooLarge
  else if memory.grants (.stackArray (Unsigned.toNat size)) then
    let (data, is) := is.uninit (Unsigned.toNat size)
    let (data, is) := is.read data
    let str := cString data memory.behind
    if memory.grants (.converted str.length) then
      let str₀ := str.take (Unsigned.toNat size)
      if memory.grants (.returned str₀.length) then .ok (str₀, is) else .error (.exception .badAlloc)
    else .error (.exception .badAlloc)
  else .error .stackOverflow

end Istream

/-- The type of a field of a message with strings. -/
inductive MessageType : Type 1 where
  | field (t : FieldType)
  | string (T : Type) [Unsigned T]

namespace MessageType

/-- What the writer of a field takes. -/
def Value : MessageType → Type
  | field t => t.Value
  | string T => Text T

/-- What the reader of a field returns. -/
def Result : MessageType → Type
  | field t => t.Result
  | string _ => List CChar

/-- The written value in the form in which a reader returns values. -/
def expected : (t : MessageType) → t.Value → t.Result
  | field t, v => t.expected v
  | string _, s => s.chars

/-- The value is a string with a zero among its characters. -/
def hasZero : (t : MessageType) → t.Value → Bool
  | field _, _ => false
  | string _, s => s.chars.contains 0

/-- The `write_*` call of a field. -/
def write (o : ByteOrder) : (t : MessageType) → t.Value → Ostream → Ostream
  | field t, v => t.write o v
  | string T, s => Ostream.writeString o T s.chars

/-- The `read_*` call of a field. -/
def read (o : ByteOrder) (memory : Memory) :
    (t : MessageType) → Istream → Except ReadFault (t.Result × Istream)
  | field t, is => (t.readIn o memory is).mapError .exception
  | string T, is => is.readString o memory T

/-- Memory for what the reader of a field asks for. -/
def HasRoom (memory : Memory) : (t : MessageType) → t.Value → Prop
  | field t, v => t.HasRoom memory v
  | string _, s => memory.HoldsString s.chars

end MessageType

/-- A field of a message with strings: its type and the value written. -/
abbrev MessageField := (t : MessageType) × t.Value

/-- What the reader of a field returns, with the type of the field. -/
abbrev MessageResult := (t : MessageType) × t.Result

/-- The value of a field in the form in which a reader returns values. -/
def MessageField.expected (f : MessageField) : MessageResult := ⟨f.1, f.1.expected f.2⟩

/-- The writes of a message. -/
def writeMessage (o : ByteOrder) : List MessageField → Ostream → Ostream
  | [], os => os
  | f :: fs, os => writeMessage o fs (f.1.write o f.2 os)

/-- The reads of a message, up to the first that does not return; `memory` has for each of them the memory
    it finds. -/
def readMessage (o : ByteOrder) :
    (memory : Nat → Memory) → List MessageType → Istream →
      Except ReadFault (List MessageResult × Istream)
  | _, [], is => .ok ([], is)
  | memory, t :: ts, is =>
    match t.read o (memory 0) is with
    | .error e => .error e
    | .ok (v, is) =>
      match readMessage o (fun i => memory (i + 1)) ts is with
      | .error e => .error e
      | .ok (vs, is) => .ok (⟨t, v⟩ :: vs, is)

/-- Memory for the reads of a message. -/
def HasRoom : (memory : Nat → Memory) → List MessageField → Prop
  | _, [] => True
  | memory, f :: fs => f.1.HasRoom (memory 0) f.2 ∧ HasRoom (fun i => memory (i + 1)) fs

/-- A record with a size prefix of type `U`: a string, or a vector written with the vector overload of
    `write_data_chunk`. Its length is not bounded by what `U` can represent. -/
inductive Record : Type 1 where
  | string (data : List CChar) (size_le : data.length ≤ ptrdiffMax)
  | vector (T : Type) [Basic T] (data : List T) (bytes_le : data.length * sizeof T ≤ ptrdiffMax)

namespace Record

/-- What the reader of a record returns. -/
def Result : Record → Type
  | string _ _ => List CChar
  | vector T _ _ => List T

/-- The whole record. -/
def whole : (r : Record) → r.Result
  | string data _ => data
  | vector _ data _ => data

/-- The write of a record. -/
def write (o : ByteOrder) (U : Type) [Unsigned U] : Record → Ostream → Ostream
  | string data _ => Ostream.writeString o U data
  | vector _ data _ => Ostream.writeDataChunk o U data

/-- The read that matches it. -/
def read (o : ByteOrder) (memory : Memory) (U : Type) [Unsigned U] :
    (r : Record) → Istream → Except ReadFault (r.Result × Istream)
  | string _ _, is => is.readString o memory U
  | vector T _ _, is => (is.readDataChunk o memory T U).mapError .exception

/-- Memory for the whole record. -/
def HasRoom (memory : Memory) : Record → Prop
  | string data _ => memory.HoldsString data
  | vector T data _ => memory.HoldsElements (data.length * sizeof T)

/-- The length can be represented, and a string has no zero among its characters. -/
def Fits (U : Type) [Unsigned U] : Record → Prop
  | string data _ => data.length < 2 ^ (8 * sizeof U) ∧ 0 ∉ data
  | vector _ data _ => data.length < 2 ^ (8 * sizeof U)

end Record

/-- The bytes that the fields of a message append. -/
def messageBytes (o : ByteOrder) (fs : List MessageField) : List UInt8 :=
  (writeMessage o fs { buffer := [], sended := false, uid := 0 }).buffer

section

variable (o : ByteOrder) (c : CommandType) (command : c.Value) (uid : UInt64)
  (pre post : List MessageField) (junk : Nat → UInt8) (memory : Nat → Memory)

/-- In the message with the fields `pre`, the string `s` and the fields `post`, `read_string` returns `s`
    where it was written, and the fields after it are read back unchanged. -/
def StringRoundTrips (T : Type) [Unsigned T] (s : Text T) : Prop :=
  let os := writeMessage o (pre ++ ⟨.string T, s⟩ :: post) (Ostream.construct o c command uid)
  ∃ before is₁ is₂ is₃,
    readMessage o memory (pre.map Sigma.fst) (Istream.construct o os.buffer junk) =
      .ok (before, is₁) ∧
    is₁.readString o (memory pre.length) T = .ok (s.chars, is₂) ∧
    readMessage o (fun i => memory (pre.length + 1 + i)) (post.map Sigma.fst) is₂ =
      .ok (post.map MessageField.expected, is₃)

/-- In the message with the fields `pre`, the record `r` and the fields `post`, the reader of `r` returns
    the whole record, and what it leaves are the bytes of the fields `post`. -/
def RecordRoundTrips (U : Type) [Unsigned U] (r : Record) : Prop :=
  let os := r.write o U (writeMessage o pre (Ostream.construct o c command uid))
  let body := (writeMessage o post os).buffer
  ∃ before is₁ is₂,
    readMessage o memory (pre.map Sigma.fst) (Istream.construct o body junk) = .ok (before, is₁) ∧
    r.read o (memory pre.length) U is₁ = .ok (r.whole, is₂) ∧
    is₂.good = true ∧ is₂.rest = messageBytes o post

end

end Lnetlib
