import Mathlib.Tactic.Common
import Mathlib.Tactic.Ring
import Mathlib.Data.Nat.Digits.Defs

/-!
# Numbers as bytes in memory

A number of `w` bytes is laid out least or most significant byte first (`ByteOrder`). Reading back
what was laid out gives the number modulo `256 ^ w`, for both orders; a bit vector of `8 * w` bits is
given back exactly, and so is a sequence of them laid out one after the other.
-/

namespace Bytes

/-- The order in which the bytes of a number stand in memory. -/
inductive ByteOrder where
  | little
  | big
  deriving DecidableEq, Repr

/-- The low `w` bytes of `n`, least significant first. -/
def littleEndian : Nat → Nat → List UInt8
  | 0, _ => []
  | w + 1, n => UInt8.ofNat n :: littleEndian w (n / 256)

/-- The number whose bytes are `bs`, least significant first. -/
def ofLittleEndian (bs : List UInt8) : Nat := Nat.ofDigits 256 (bs.map UInt8.toNat)

namespace ByteOrder

/-- The `w` bytes of `n` in memory. -/
def encode (o : ByteOrder) (w n : Nat) : List UInt8 :=
  match o with
  | little => littleEndian w n
  | big => (littleEndian w n).reverse

/-- The number that stands in memory as `bs`. -/
def decode (o : ByteOrder) (bs : List UInt8) : Nat :=
  match o with
  | little => ofLittleEndian bs
  | big => ofLittleEndian bs.reverse

/-- The bytes of a bit vector. -/
def encodeBits (o : ByteOrder) {w : Nat} (v : BitVec (8 * w)) : List UInt8 := o.encode w v.toNat

/-- The bit vector that stands in memory as `bs`. -/
def decodeBits (o : ByteOrder) (w : Nat) (bs : List UInt8) : BitVec (8 * w) :=
  BitVec.ofNat (8 * w) (o.decode bs)

/-- The bit vectors of `n` consecutive objects of `w` bytes. -/
def decodeMany (o : ByteOrder) (w : Nat) : Nat → List UInt8 → List (BitVec (8 * w))
  | 0, _ => []
  | n + 1, bs => o.decodeBits w (bs.take w) :: o.decodeMany w n (bs.drop w)

end ByteOrder

@[simp] theorem littleEndian_length (w n : Nat) : (littleEndian w n).length = w := by
  induction w generalizing n with
  | zero => rfl
  | succ w ih => rw [littleEndian, List.length_cons, ih]

theorem ofLittleEndian_littleEndian (w n : Nat) :
    ofLittleEndian (littleEndian w n) = n % 256 ^ w := by
  induction w generalizing n with
  | zero => simp [littleEndian, ofLittleEndian, Nat.mod_one]
  | succ w ih =>
    have hb : (UInt8.ofNat n).toNat = n % 256 := UInt8.toNat_ofNat'
    have hd : ofLittleEndian (littleEndian (w + 1) n) =
        (UInt8.ofNat n).toNat + 256 * ofLittleEndian (littleEndian w (n / 256)) := by
      simp [littleEndian, ofLittleEndian, Nat.ofDigits_cons]
    rw [hd, ih, hb, Nat.pow_succ', Nat.mod_mul]

theorem littleEndian_ofLittleEndian (bs : List UInt8) :
    littleEndian bs.length (ofLittleEndian bs) = bs := by
  induction bs with
  | nil => rfl
  | cons b bs ih =>
    have hb : b.toNat < 256 := b.toNat_lt
    have hcons : ofLittleEndian (b :: bs) = b.toNat + 256 * ofLittleEndian bs := by
      simp [ofLittleEndian, Nat.ofDigits_cons]
    have hhead : UInt8.ofNat (b.toNat + 256 * ofLittleEndian bs) = b := by
      apply UInt8.toNat_inj.mp
      rw [UInt8.toNat_ofNat']
      omega
    have htail : (b.toNat + 256 * ofLittleEndian bs) / 256 = ofLittleEndian bs := by omega
    rw [hcons, List.length_cons, littleEndian, hhead, htail, ih]

theorem ofLittleEndian_lt (bs : List UInt8) : ofLittleEndian bs < 256 ^ bs.length := by
  have hlt := Nat.ofDigits_lt_base_pow_length (b := 256) (l := bs.map UInt8.toNat) (by omega) (by
    intro d hd
    obtain ⟨b, -, rfl⟩ := List.mem_map.mp hd
    exact b.toNat_lt)
  rwa [List.length_map] at hlt

/-- The high bytes of a small number are zero. -/
theorem littleEndian_add {k n : Nat} (m : Nat) (h : n < 256 ^ k) :
    littleEndian (k + m) n = littleEndian k n ++ List.replicate m 0 := by
  induction k generalizing n with
  | zero =>
    obtain rfl : n = 0 := by rwa [Nat.pow_zero, Nat.lt_one_iff] at h
    rw [Nat.zero_add]
    induction m with
    | zero => rfl
    | succ m ih =>
      show UInt8.ofNat 0 :: littleEndian m (0 / 256) = _
      rw [Nat.zero_div, ih]
      rfl
  | succ k ih =>
    have hdiv : n / 256 < 256 ^ k := by
      rw [Nat.pow_succ] at h
      omega
    show littleEndian (k + 1 + m) n = _
    rw [Nat.add_right_comm, littleEndian, ih hdiv]
    rfl

theorem ofLittleEndian_replicate_append (m : Nat) (bs : List UInt8) :
    ofLittleEndian (List.replicate m 0 ++ bs) = 256 ^ m * ofLittleEndian bs := by
  induction m with
  | zero => simp
  | succ m ih =>
    have hcons : ofLittleEndian (0 :: (List.replicate m 0 ++ bs)) =
        0 + 256 * ofLittleEndian (List.replicate m 0 ++ bs) := by
      simp [ofLittleEndian, Nat.ofDigits_cons]
    rw [List.replicate_succ, List.cons_append, hcons, ih, Nat.pow_succ]
    ring

/-- Only zero bytes make the number zero. -/
theorem eq_replicate_of_ofLittleEndian {bs : List UInt8} (h : ofLittleEndian bs = 0) :
    bs = List.replicate bs.length 0 := by
  have hbs := littleEndian_ofLittleEndian bs
  have hzero := littleEndian_add (k := 0) (n := 0) bs.length (by omega)
  rw [Nat.zero_add] at hzero
  rw [h, hzero] at hbs
  exact hbs.symm

namespace ByteOrder

variable (o : ByteOrder)

@[simp] theorem encode_length (w n : Nat) : (o.encode w n).length = w := by
  cases o <;> simp [encode]

theorem decode_encode_mod (w n : Nat) : o.decode (o.encode w n) = n % 256 ^ w := by
  cases o with
  | little => exact ofLittleEndian_littleEndian w n
  | big =>
    simp only [decode, encode, List.reverse_reverse]
    exact ofLittleEndian_littleEndian w n

/-- A number below `256 ^ w` is read back as it was laid out. -/
theorem decode_encode {w n : Nat} (h : n < 256 ^ w) : o.decode (o.encode w n) = n := by
  rw [decode_encode_mod, Nat.mod_eq_of_lt h]

@[simp] theorem encodeBits_length {w : Nat} (v : BitVec (8 * w)) :
    (o.encodeBits v).length = w := o.encode_length w v.toNat

@[simp] theorem decodeBits_encodeBits {w : Nat} (v : BitVec (8 * w)) :
    o.decodeBits w (o.encodeBits v) = v := by
  have hlt : v.toNat < 256 ^ w := by
    have := v.isLt
    rwa [Nat.pow_mul] at this
  rw [decodeBits, encodeBits, o.decode_encode hlt]
  simp

theorem decode_lt (bs : List UInt8) : o.decode bs < 256 ^ bs.length := by
  cases o with
  | little => exact ofLittleEndian_lt bs
  | big =>
    have hlt := ofLittleEndian_lt bs.reverse
    rwa [List.length_reverse] at hlt

/-- Bytes that are read as a number are the bytes of that number. -/
theorem encode_decode (bs : List UInt8) : o.encode bs.length (o.decode bs) = bs := by
  cases o with
  | little => exact littleEndian_ofLittleEndian bs
  | big =>
    have hrev := littleEndian_ofLittleEndian bs.reverse
    rw [List.length_reverse] at hrev
    rw [encode, decode, hrev, List.reverse_reverse]

/-- A small number that is read in the other byte order is large. -/
theorem le_decode_encode_of_ne {o o' : ByteOrder} (hne : o ≠ o') {k m n : Nat} (hpos : 0 < n)
    (h : n < 256 ^ k) : 256 ^ m ≤ o'.decode (o.encode (k + m) n) := by
  have hswap : o'.decode (o.encode (k + m) n) = ofLittleEndian (littleEndian (k + m) n).reverse := by
    cases o with
    | little =>
      cases o' with
      | little => exact absurd rfl hne
      | big => rfl
    | big =>
      cases o' with
      | little => rfl
      | big => exact absurd rfl hne
  have hlow : 0 < ofLittleEndian (littleEndian k n).reverse := by
    by_contra hzero
    have hbytes := eq_replicate_of_ofLittleEndian (Nat.eq_zero_of_not_pos hzero)
    rw [List.reverse_eq_iff, List.reverse_replicate] at hbytes
    have hn := ofLittleEndian_littleEndian k n
    rw [hbytes, ← List.append_nil (List.replicate _ _), ofLittleEndian_replicate_append,
      Nat.mod_eq_of_lt h] at hn
    have hnil : ofLittleEndian [] = 0 := rfl
    rw [hnil, Nat.mul_zero] at hn
    omega
  rw [hswap, littleEndian_add m h, List.reverse_append, List.reverse_replicate,
    ofLittleEndian_replicate_append]
  exact Nat.le_mul_of_pos_right _ hlow

theorem encodeBits_decodeBits {w : Nat} {bs : List UInt8} (h : bs.length = w) :
    o.encodeBits (o.decodeBits w bs) = bs := by
  subst h
  have hlt : o.decode bs < 2 ^ (8 * bs.length) := by
    rw [Nat.pow_mul]
    exact o.decode_lt bs
  rw [encodeBits, decodeBits, BitVec.toNat_ofNat, Nat.mod_eq_of_lt hlt, encode_decode]

@[simp] theorem flatMap_encodeBits_length {w : Nat} (vs : List (BitVec (8 * w))) :
    (vs.flatMap o.encodeBits).length = vs.length * w := by
  induction vs with
  | nil => simp
  | cons v vs ih =>
    rw [List.flatMap_cons, List.length_append, ih, encodeBits_length, List.length_cons]
    ring

/-- A sequence laid out object after object is read back. -/
theorem decodeMany_flatMap {w : Nat} (vs : List (BitVec (8 * w))) :
    o.decodeMany w vs.length (vs.flatMap o.encodeBits) = vs := by
  induction vs with
  | nil => rfl
  | cons v vs ih =>
    have hl : (o.encodeBits v).length = w := o.encodeBits_length v
    rw [List.flatMap_cons, List.length_cons, decodeMany, List.take_left' hl, List.drop_left' hl, ih,
      decodeBits_encodeBits]

@[simp] theorem decodeMany_length (w n : Nat) (bs : List UInt8) :
    (o.decodeMany w n bs).length = n := by
  induction n generalizing bs with
  | zero => rfl
  | succ n ih => rw [decodeMany, List.length_cons, ih]

end ByteOrder

end Bytes
