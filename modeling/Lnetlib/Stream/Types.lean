import Lnetlib.Lib.Bytes
import Mathlib.Logic.Equiv.Defs

/-!
# The C++ types the streams are templated on

`write_basic<T>` and `read_basic<T>` copy the `sizeof(T)` bytes of a value, so a type is its size
and the bit pattern of each value (`Basic`). Floating point numbers are their bit patterns. A size
prefix has an unsigned type (`Unsigned`), a command an integral or enumeration type (`CommandType`).
-/

namespace Lnetlib

open Bytes

/-- A type that is copied byte by byte: its size and the bit pattern of each value. -/
class Basic (T : Type) where
  /-- `sizeof(T)`. -/
  size : Nat
  /-- The bit pattern of a value. -/
  bits : T ≃ BitVec (8 * size)

/-- `sizeof(T)`. -/
abbrev sizeof (T : Type) [Basic T] : Nat := Basic.size T

/-- A floating point number of `n` bytes, as its bit pattern. -/
structure FloatBits (n : Nat) where
  pattern : BitVec (8 * n)
  deriving DecidableEq, Repr

instance : Basic UInt8 := ⟨1, ⟨UInt8.toBitVec, UInt8.ofBitVec, fun _ => rfl, fun _ => rfl⟩⟩
instance : Basic UInt16 := ⟨2, ⟨UInt16.toBitVec, UInt16.ofBitVec, fun _ => rfl, fun _ => rfl⟩⟩
instance : Basic UInt32 := ⟨4, ⟨UInt32.toBitVec, UInt32.ofBitVec, fun _ => rfl, fun _ => rfl⟩⟩
instance : Basic UInt64 := ⟨8, ⟨UInt64.toBitVec, UInt64.ofBitVec, fun _ => rfl, fun _ => rfl⟩⟩
instance : Basic Int8 := ⟨1, ⟨Int8.toBitVec, Int8.ofBitVec, fun _ => rfl, fun _ => rfl⟩⟩
instance : Basic Int16 := ⟨2, ⟨Int16.toBitVec, Int16.ofBitVec, fun _ => rfl, fun _ => rfl⟩⟩
instance : Basic Int32 := ⟨4, ⟨Int32.toBitVec, Int32.ofBitVec, fun _ => rfl, fun _ => rfl⟩⟩
instance : Basic Int64 := ⟨8, ⟨Int64.toBitVec, Int64.ofBitVec, fun _ => rfl, fun _ => rfl⟩⟩

instance (n : Nat) : Basic (FloatBits n) :=
  ⟨n, ⟨FloatBits.pattern, FloatBits.mk, fun _ => rfl, fun _ => rfl⟩⟩

/-- `char`, the default element type of a data chunk. -/
abbrev CChar := UInt8

/-- An unsigned integral type, as size prefixes have. -/
class Unsigned (U : Type) extends Basic U

instance : Unsigned UInt8 := {}
instance : Unsigned UInt16 := {}
instance : Unsigned UInt32 := {}
instance : Unsigned UInt64 := {}

namespace Unsigned

variable {U : Type} [Unsigned U]

/-- The value of a prefix as a `size_t`. -/
def toNat (u : U) : Nat := (Basic.bits u).toNat

/-- The conversion of a `size_t` to the prefix type, modulo `2 ^ (8 * sizeof(U))`. -/
def ofNat (n : Nat) : U := Basic.bits.symm (BitVec.ofNat _ n)

@[simp] theorem toNat_ofNat (n : Nat) : toNat (ofNat n : U) = n % 2 ^ (8 * sizeof U) := by
  simp [toNat, ofNat]

theorem toNat_inj {u v : U} : toNat u = toNat v ↔ u = v :=
  ⟨fun h => Basic.bits.injective (BitVec.eq_of_toNat_eq h), fun h => h ▸ rfl⟩

end Unsigned

/-- The bytes of a value in memory. -/
def bytesOf (o : ByteOrder) {T : Type} [Basic T] (v : T) : List UInt8 := o.encodeBits (Basic.bits v)

/-- The value whose bytes in memory are `bs`. -/
def valueOf (o : ByteOrder) (T : Type) [Basic T] (bs : List UInt8) : T :=
  Basic.bits.symm (o.decodeBits (sizeof T) bs)

/-- The bytes of an array in memory. -/
def arrayBytes (o : ByteOrder) {T : Type} [Basic T] (data : List T) : List UInt8 :=
  data.flatMap (bytesOf o)

/-- The first `n` elements of the array whose bytes in memory are `bs`. -/
def arrayOf (o : ByteOrder) (T : Type) [Basic T] (n : Nat) (bs : List UInt8) : List T :=
  (o.decodeMany (sizeof T) n bs).map Basic.bits.symm

section

variable (o : ByteOrder) {T : Type} [Basic T]

@[simp] theorem bytesOf_length (v : T) : (bytesOf o v).length = sizeof T := o.encodeBits_length _

@[simp] theorem valueOf_bytesOf (v : T) : valueOf o T (bytesOf o v) = v := by
  rw [valueOf, bytesOf, ByteOrder.decodeBits_encodeBits, Equiv.symm_apply_apply]

theorem bytesOf_valueOf {bs : List UInt8} (h : bs.length = sizeof T) :
    bytesOf o (valueOf o T bs) = bs := by
  rw [bytesOf, valueOf, Equiv.apply_symm_apply, o.encodeBits_decodeBits h]

theorem arrayBytes_eq (data : List T) :
    arrayBytes o data = (data.map Basic.bits).flatMap o.encodeBits := by
  rw [arrayBytes, List.flatMap_map]
  rfl

@[simp] theorem arrayBytes_length (data : List T) :
    (arrayBytes o data).length = data.length * sizeof T := by
  rw [arrayBytes_eq, ByteOrder.flatMap_encodeBits_length, List.length_map]

@[simp] theorem arrayOf_length (n : Nat) (bs : List UInt8) : (arrayOf o T n bs).length = n := by
  rw [arrayOf, List.length_map, ByteOrder.decodeMany_length]

theorem arrayOf_arrayBytes (data : List T) :
    arrayOf o T data.length (arrayBytes o data) = data := by
  have h := o.decodeMany_flatMap (data.map (Basic.bits (T := T)))
  rw [List.length_map] at h
  rw [arrayOf, arrayBytes_eq, h, List.map_map]
  simp

end

/-- `PTRDIFF_MAX`, the bound on the bytes of one object. -/
def ptrdiffMax : Nat := 2 ^ 63 - 1

/-- The product of two `size_t` values. -/
def sizeMul (m n : Nat) : Nat := m * n % 2 ^ 64

/-- An integral or enumeration type of at most 64 bits; an enumeration is its underlying type. -/
inductive CommandType where
  | bool
  | integral (width : Nat) (signed : Bool) (h : width ≤ 64)

namespace CommandType

/-- The values of a command type. -/
def Value : CommandType → Type
  | bool => Bool
  | integral width _ _ => BitVec width

/-- `static_cast<uint64_t>(command)`: a signed value is sign extended. -/
def toUInt64 : (c : CommandType) → c.Value → UInt64
  | bool, b => if (show Bool from b) then 1 else 0
  | integral width true _, v => ⟨BitVec.signExtend 64 (show BitVec width from v)⟩
  | integral width false _, v => ⟨BitVec.setWidth 64 (show BitVec width from v)⟩

/-- `static_cast<T>(n)`: the low bits, and for `bool` whether any bit is set. -/
def ofUInt64 : (c : CommandType) → UInt64 → c.Value
  | bool, n => (n != 0 : Bool)
  | integral width _ _, n => n.toBitVec.setWidth width

/-- The cast to `uint64_t` and back gives the command. -/
theorem ofUInt64_toUInt64 (c : CommandType) (command : c.Value) :
    c.ofUInt64 (c.toUInt64 command) = command := by
  cases c with
  | bool =>
    have h : ∀ b : Bool, ((if b then 1 else 0 : UInt64) != 0) = b := by decide
    exact h command
  | integral width signed hw =>
    have hcast : ∀ u : BitVec width, (if signed then u.signExtend 64 else u.setWidth 64).setWidth width
        = u := by
      intro u
      refine BitVec.eq_of_getLsbD_eq fun i hi => ?_
      have hi64 : i < 64 := by omega
      cases signed with
      | true => simp [BitVec.getElem_signExtend, hi, hi64]
      | false => simp [hi, hi64]
    cases signed with
    | true => exact hcast command
    | false => exact hcast command

end CommandType

end Lnetlib
