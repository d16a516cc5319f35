import Lnetlib.Stream.Strings
import Lnetlib.Stream.Proofs.CodecProofs
import Mathlib.Data.List.TakeWhile

/-!
# Strings and size prefixes

A reader takes exactly the bytes off the stream that its writer has appended, for strings too, but it
returns a string only up to the first zero, and it returns only where there is memory for what it reads.
Where the length does not fit the prefix, `write_string` appends more characters than `read_string` takes,
and `write_data_chunk` fewer elements than it was given.
-/

namespace Lnetlib

open Bytes

variable (o : ByteOrder)

/-- What the memory behind the array holds does not matter. -/
theorem cString_take (data behind : List CChar) :
    (cString data behind).take data.length = data.takeWhile (· != 0) := by
  induction data with
  | nil => rfl
  | cons b data ih =>
    by_cases hb : b = 0
    · simp [cString, hb]
    · have hcons : cString (b :: data) behind = b :: cString data behind := by simp [cString, hb]
      rw [hcons, List.length_cons, List.take_succ_cons, ih]
      simp [hb]

theorem takeWhile_nonzero_eq_self_iff (data : List CChar) :
    data.takeWhile (· != 0) = data ↔ 0 ∉ data := by
  rw [List.takeWhile_eq_self_iff]
  constructor
  · intro h hzero
    have := h 0 hzero
    simp at this
  · intro h b hb
    have : b ≠ 0 := fun hb0 => h (hb0 ▸ hb)
    simpa using this

theorem Istream.read_length (dst : List UInt8) (is : Istream) : (is.read dst).1.length = dst.length := by
  unfold Istream.read
  split_ifs
  · rw [List.length_append, List.length_drop, List.length_take]
    omega
  · rfl

/-- `read_string` once the prefix has been read: it returns where there is memory for the string that the
    array holds, and nowhere else. -/
theorem Istream.readString_cases {T : Type} [Unsigned T] {is : Istream} {n : Nat}
    (hn : Unsigned.toNat (is.readBasic o T).1 = n) (hle : n ≤ ptrdiffMax) (memory : Memory) :
    let array := (is.readBasic o T).2.uninit n
    let data := array.2.read array.1
    (memory.HoldsString data.1 →
      is.readString o memory T = .ok ((cString data.1 memory.behind).take n, data.2)) ∧
    (¬ memory.HoldsString data.1 → ∃ e, is.readString o memory T = .error e) := by
  intro array data
  have hlen : data.1.length = n := by rw [Istream.read_length, Istream.uninit_length]
  unfold Istream.readString Memory.HoldsString
  rw [hlen]
  simp only [hn, if_neg (Nat.not_lt.mpr hle)]
  refine ⟨?_, fun hroom => ?_⟩
  · rintro ⟨hstack, hconverted, hreturned⟩
    rw [if_pos hstack, if_pos hconverted, if_pos hreturned]
  · split_ifs with hstack hconverted hreturned
    · exact absurd ⟨hstack, hconverted, hreturned⟩ hroom
    · exact ⟨_, rfl⟩
    · exact ⟨_, rfl⟩
    · exact ⟨_, rfl⟩

/-- `read_string` returns the characters before the first zero and takes all of them off the stream, where
    there is memory for them. -/
theorem Istream.HasLeft.readString {T : Type} [Unsigned T] {is : Istream} {size : T}
    {data post : List UInt8} (h : is.HasLeft (bytesOf o size ++ (data ++ post)))
    (hsize : Unsigned.toNat size = data.length) (hle : data.length ≤ ptrdiffMax) (memory : Memory) :
    (memory.HoldsString data →
      ∃ is', is.readString o memory T = .ok (data.takeWhile (· != 0), is') ∧ is'.HasLeft post) ∧
    (¬ memory.HoldsString data → ∃ e, is.readString o memory T = .error e) := by
  obtain ⟨hs, h₁⟩ := h.readBasic o
  obtain ⟨hdata, h₂⟩ := (h₁.uninit data.length).read ((is.readBasic o T).2.uninit data.length).1
    (by rw [uninit_length])
  have hcases := Istream.readString_cases o ((congrArg Unsigned.toNat hs).trans hsize) hle memory
  simp only [hdata, cString_take] at hcases
  exact ⟨fun hroom => ⟨_, hcases.1 hroom, h₂⟩, hcases.2⟩

theorem writeString_buffer (T : Type) [Unsigned T] (data : List CChar) (os : Ostream) :
    (Ostream.writeString o T data os).buffer =
      os.buffer ++ (bytesOf o (Unsigned.ofNat data.length : T) ++ data) := by
  simp only [Ostream.writeString, Ostream.writeBasic, Ostream.write_buffer, List.append_assoc]

/-- The prefix of a string that fits it. -/
theorem Text.toNat_size {T : Type} [Unsigned T] (s : Text T) :
    Unsigned.toNat (Unsigned.ofNat s.chars.length : T) = s.chars.length := by
  rw [Unsigned.toNat_ofNat, Nat.mod_eq_of_lt s.size_lt]

/-- What the reader of a field returns for a written value. -/
def MessageType.returned : (t : MessageType) → t.Value → t.Result
  | field t, v => t.expected v
  | string _, s => s.chars.takeWhile (· != 0)

def MessageField.returned (f : MessageField) : MessageResult := ⟨f.1, f.1.returned f.2⟩

/-- One field: its writer appends bytes that its reader takes off again, where there is memory for them. -/
theorem MessageType.reads (t : MessageType) (v : t.Value) :
    ∃ bs, (∀ os, (t.write o v os).buffer = os.buffer ++ bs) ∧
      ∀ memory is post, Istream.HasLeft is (bs ++ post) →
        (t.HasRoom memory v → ∃ is', t.read o memory is = .ok (t.returned v, is') ∧ is'.HasLeft post) ∧
        (¬ t.HasRoom memory v → ∃ e, t.read o memory is = .error e) := by
  cases t with
  | field t =>
    obtain ⟨bs, hw, hr⟩ := t.roundTrip o v
    refine ⟨bs, fun os => (hw os).1, fun memory is post h => ⟨fun hroom => ?_, fun hroom => ?_⟩⟩
    · obtain ⟨is', hread, h'⟩ := (hr memory is post h).1 hroom
      exact ⟨is', by rw [MessageType.read, hread]; rfl, h'⟩
    · exact ⟨.exception .badAlloc, by rw [MessageType.read, (hr memory is post h).2 hroom]; rfl⟩
  | string T =>
    refine ⟨_, writeString_buffer o T v.chars, fun memory is post h => ?_⟩
    rw [List.append_assoc] at h
    exact h.readString o (Text.toNat_size v) v.size_le memory

/-- A message appends its own bytes, whatever the buffer holds. -/
theorem writeMessage_buffer (fs : List MessageField) (os : Ostream) :
    (writeMessage o fs os).buffer = os.buffer ++ messageBytes o fs := by
  induction fs generalizing os with
  | nil => exact (List.append_nil _).symm
  | cons f fs ih =>
    obtain ⟨bs, hw, -⟩ := f.1.reads o f.2
    have hbytes : messageBytes o (f :: fs) = bs ++ messageBytes o fs := by
      rw [messageBytes, writeMessage, ih, hw, List.nil_append]
    rw [writeMessage, ih, hw, hbytes, List.append_assoc]

theorem messageBytes_cons (f : MessageField) (fs : List MessageField) :
    messageBytes o (f :: fs) = messageBytes o [f] ++ messageBytes o fs :=
  writeMessage_buffer o fs _

theorem messageBytes_append (fs gs : List MessageField) :
    messageBytes o (fs ++ gs) = messageBytes o fs ++ messageBytes o gs := by
  induction fs with
  | nil => rfl
  | cons f fs ih =>
    rw [List.cons_append, messageBytes_cons, ih, messageBytes_cons o f fs, List.append_assoc]

/-- The reads of a message take exactly its bytes, where there is memory for all of them. -/
theorem Istream.HasLeft.readMessage (fs : List MessageField) {is : Istream} {post : List UInt8}
    (h : is.HasLeft (messageBytes o fs ++ post)) (memory : Nat → Memory) :
    (HasRoom memory fs → ∃ is',
      readMessage o memory (fs.map Sigma.fst) is = .ok (fs.map MessageField.returned, is') ∧
        is'.HasLeft post) ∧
    (¬ HasRoom memory fs → ∃ e, readMessage o memory (fs.map Sigma.fst) is = .error e) := by
  induction fs generalizing is memory with
  | nil => exact ⟨fun _ => ⟨is, rfl, h⟩, fun hroom => absurd trivial hroom⟩
  | cons f fs ih =>
    obtain ⟨bs, hw, hr⟩ := f.1.reads o f.2
    have hbytes : messageBytes o [f] = bs := by
      rw [messageBytes, writeMessage, writeMessage, hw, List.nil_append]
    rw [messageBytes_cons, hbytes, List.append_assoc] at h
    obtain ⟨hok, hfault⟩ := hr (memory 0) is _ h
    by_cases hfirst : f.1.HasRoom (memory 0) f.2
    · obtain ⟨is₁, hr₁, h₁⟩ := hok hfirst
      obtain ⟨hok₁, hfault₁⟩ := ih h₁ fun i => memory (i + 1)
      refine ⟨fun hroom => ?_, fun hroom => ?_⟩
      · obtain ⟨is₂, hr₂, h₂⟩ := hok₁ hroom.2
        refine ⟨is₂, ?_, h₂⟩
        simp only [List.map_cons, Lnetlib.readMessage, hr₁, hr₂]
        rfl
      · obtain ⟨e, he⟩ := hfault₁ fun hrest => hroom ⟨hfirst, hrest⟩
        exact ⟨e, by simp only [List.map_cons, Lnetlib.readMessage, hr₁, he]⟩
    · obtain ⟨e, he⟩ := hfault hfirst
      exact ⟨fun hroom => absurd hroom.1 hfirst, fun _ => ⟨e, by
        simp only [List.map_cons, Lnetlib.readMessage, he]⟩⟩

/-- After the header and the fields `pre` have been read, the rest of the body is left. -/
theorem readMessage_construct (c : CommandType) (command : c.Value) (uid : UInt64)
    (pre : List MessageField) (post : List UInt8) (junk : Nat → UInt8) (memory : Nat → Memory) :
    let is := Istream.construct o ((Ostream.construct o c command uid).buffer ++
      (messageBytes o pre ++ post)) junk
    (HasRoom memory pre → ∃ is₁,
      readMessage o memory (pre.map Sigma.fst) is = .ok (pre.map MessageField.returned, is₁) ∧
        is₁.HasLeft post) ∧
    (¬ HasRoom memory pre → ∃ e, readMessage o memory (pre.map Sigma.fst) is = .error e) := by
  intro is
  have hleft : is.HasLeft (messageBytes o pre ++ post) := by
    have := Istream.construct_header o (messageBytes o pre ++ post) (c.toUInt64 command) uid junk
    rw [← Ostream.construct_buffer] at this
    exact this.2.2
  exact hleft.readMessage o pre memory

/-- Memory for a message is memory for its parts. -/
theorem hasRoom_append (memory : Nat → Memory) (fs gs : List MessageField) :
    HasRoom memory (fs ++ gs) ↔ HasRoom memory fs ∧ HasRoom (fun i => memory (fs.length + i)) gs := by
  induction fs generalizing memory with
  | nil => simp [HasRoom]
  | cons f fs ih =>
    have hshift : (fun i => memory (fs.length + i + 1)) = fun i => memory ((f :: fs).length + i) := by
      funext i
      rw [List.length_cons, Nat.add_right_comm]
    rw [List.cons_append, HasRoom, HasRoom, ih, hshift, and_assoc]

section

variable (c : CommandType) (command : c.Value) (uid : UInt64) (pre post : List MessageField)
  (junk : Nat → UInt8) (memory : Nat → Memory)

/-- The buffer of a message with a string. -/
theorem buffer_string (T : Type) [Unsigned T] (s : Text T) :
    (writeMessage o (pre ++ ⟨.string T, s⟩ :: post) (Ostream.construct o c command uid)).buffer =
      (Ostream.construct o c command uid).buffer ++ (messageBytes o pre ++
        (bytesOf o (Unsigned.ofNat s.chars.length : T) ++ (s.chars ++ (messageBytes o post ++ [])))) := by
  have hs : messageBytes o [⟨.string T, s⟩] =
      bytesOf o (Unsigned.ofNat s.chars.length : T) ++ s.chars := writeString_buffer o T s.chars _
  rw [writeMessage_buffer, messageBytes_append, messageBytes_cons, hs, List.append_assoc, List.append_nil]

/-- Where there is memory, every read of the message succeeds, and each string is returned up to its first
    zero. -/
theorem readString_cut (T : Type) [Unsigned T] (s : Text T)
    (hroom : HasRoom memory (pre ++ ⟨.string T, s⟩ :: post)) :
    let os := writeMessage o (pre ++ ⟨.string T, s⟩ :: post) (Ostream.construct o c command uid)
    ∃ is₁ is₂ is₃,
      readMessage o memory (pre.map Sigma.fst) (Istream.construct o os.buffer junk) =
        .ok (pre.map MessageField.returned, is₁) ∧
      is₁.readString o (memory pre.length) T = .ok (s.chars.takeWhile (· != 0), is₂) ∧
      readMessage o (fun i => memory (pre.length + 1 + i)) (post.map Sigma.fst) is₂ =
        .ok (post.map MessageField.returned, is₃) := by
  intro os
  obtain ⟨hpre, hs, hpost⟩ := (hasRoom_append memory pre _).mp hroom
  obtain ⟨is₁, h₁, hleft⟩ := (readMessage_construct o c command uid pre _ junk memory).1 hpre
  obtain ⟨is₂, h₂, hleft₂⟩ := (hleft.readString o s.toNat_size s.size_le _).1 hs
  obtain ⟨is₃, h₃, -⟩ := (hleft₂.readMessage o post fun i => memory (pre.length + (i + 1))).1 hpost
  refine ⟨is₁, is₂, is₃, by rw [buffer_string]; exact h₁, h₂, ?_⟩
  simpa only [Nat.add_comm, Nat.add_left_comm, Nat.add_assoc] using h₃

/-- Where there is none, one of the reads does not return. -/
theorem hasRoom_of_stringRoundTrips {T : Type} [Unsigned T] {s : Text T}
    (h : StringRoundTrips o c command uid pre post junk memory T s) :
    HasRoom memory (pre ++ ⟨.string T, s⟩ :: post) := by
  obtain ⟨before, is₁, is₂, is₃, h₁, h₂, h₃⟩ := h
  rw [buffer_string] at h₁
  obtain ⟨hok₁, hfault₁⟩ := readMessage_construct o c command uid pre
    (bytesOf o (Unsigned.ofNat s.chars.length : T) ++ (s.chars ++ (messageBytes o post ++ []))) junk memory
  have hpre : HasRoom memory pre := by
    by_contra hroom
    obtain ⟨e, he⟩ := hfault₁ hroom
    cases h₁.symm.trans he
  obtain ⟨js₁, h₁', hleft⟩ := hok₁ hpre
  obtain ⟨-, rfl⟩ := Prod.mk.inj (Except.ok.inj (h₁'.symm.trans h₁))
  obtain ⟨hok₂, hfault₂⟩ := hleft.readString o s.toNat_size s.size_le (memory pre.length)
  have hs : (memory pre.length).HoldsString s.chars := by
    by_contra hroom
    obtain ⟨e, he⟩ := hfault₂ hroom
    cases h₂.symm.trans he
  obtain ⟨js₂, h₂', hleft₂⟩ := hok₂ hs
  obtain ⟨-, rfl⟩ := Prod.mk.inj (Except.ok.inj (h₂'.symm.trans h₂))
  have hpost : HasRoom (fun i => memory (pre.length + 1 + i)) post := by
    by_contra hroom
    obtain ⟨e, he⟩ := (hleft₂.readMessage o post _).2 hroom
    cases h₃.symm.trans he
  refine (hasRoom_append memory pre _).mpr ⟨hpre, hs, ?_⟩
  simpa only [Nat.add_comm, Nat.add_left_comm, Nat.add_assoc] using hpost

theorem MessageField.returned_eq_expected_iff (f : MessageField) :
    f.returned = f.expected ↔ f.1.hasZero f.2 = false := by
  obtain ⟨t, v⟩ := f
  cases t with
  | field t => exact ⟨fun _ => rfl, fun _ => rfl⟩
  | string T =>
    have hcut : MessageField.returned ⟨.string T, v⟩ = MessageField.expected ⟨.string T, v⟩ ↔
        (Text.chars v).takeWhile (· != 0) = Text.chars v :=
      ⟨fun h => eq_of_heq (Sigma.mk.inj h).2, fun h => congrArg (Sigma.mk (MessageType.string T)) h⟩
    rw [hcut, takeWhile_nonzero_eq_self_iff]
    simp [MessageType.hasZero]

/-- **String round trip.** A string between any other fields is returned as it was written, and the
    fields after it are read back unchanged, exactly when neither it nor a string after it has a zero
    among its characters and the reader has memory for the message. -/
theorem string_round_trip_iff (T : Type) [Unsigned T] (s : Text T) :
    StringRoundTrips o c command uid pre post junk memory T s ↔
      0 ∉ s.chars ∧ (∀ f ∈ post, f.1.hasZero f.2 = false) ∧
        HasRoom memory (pre ++ ⟨.string T, s⟩ :: post) := by
  have hafter : post.map MessageField.returned = post.map MessageField.expected ↔
      ∀ f ∈ post, f.1.hasZero f.2 = false := by
    rw [List.map_inj_left]
    exact forall₂_congr fun f _ => f.returned_eq_expected_iff
  rw [← takeWhile_nonzero_eq_self_iff, ← hafter]
  constructor
  · intro h
    have hroom := hasRoom_of_stringRoundTrips o c command uid pre post junk memory h
    obtain ⟨is₁, is₂, is₃, h₁, h₂, h₃⟩ := readString_cut o c command uid pre post junk memory T s hroom
    obtain ⟨before, js₁, js₂, js₃, h₁', h₂', h₃'⟩ := h
    obtain ⟨-, rfl⟩ := Prod.mk.inj (Except.ok.inj (h₁.symm.trans h₁'))
    obtain ⟨hs, rfl⟩ := Prod.mk.inj (Except.ok.inj (h₂.symm.trans h₂'))
    obtain ⟨hpost, -⟩ := Prod.mk.inj (Except.ok.inj (h₃.symm.trans h₃'))
    exact ⟨hs, hpost, hroom⟩
  · rintro ⟨hs, hpost, hroom⟩
    obtain ⟨is₁, is₂, is₃, h₁, h₂, h₃⟩ := readString_cut o c command uid pre post junk memory T s hroom
    rw [hs] at h₂
    rw [hpost] at h₃
    exact ⟨_, is₁, is₂, is₃, h₁, h₂, h₃⟩

end

/-- The string `"a\0b"` comes back as `"a"`, with memory for everything. -/
theorem string_with_zero_is_cut :
    ¬ StringRoundTrips .little (.integral 32 true (by decide)) (1 : BitVec 32) 0 [] [] (fun _ => 0)
      (fun _ => .ample []) UInt64 ⟨[97, 0, 98], by decide, by decide⟩ := by
  obtain ⟨is₁, is₂, is₃, h₁, h₂, -⟩ := readString_cut .little (.integral 32 true (by decide))
    (1 : BitVec 32) 0 [] [] (fun _ => 0) (fun _ => .ample []) UInt64 ⟨[97, 0, 98], by decide, by decide⟩
    ⟨⟨rfl, rfl, rfl⟩, trivial⟩
  rintro ⟨before, js₁, js₂, js₃, h₁', h₂', -⟩
  obtain ⟨-, rfl⟩ := Prod.mk.inj (Except.ok.inj (h₁.symm.trans h₁'))
  have hchars := (Prod.mk.inj (Except.ok.inj (h₂.symm.trans h₂'))).1
  exact absurd hchars (by decide)

/-- A length that the prefix type cannot represent is written as its remainder. -/
theorem Unsigned.ofNat_mod (U : Type) [Unsigned U] (n : Nat) :
    (Unsigned.ofNat (n % 2 ^ (8 * sizeof U)) : U) = Unsigned.ofNat n := by
  have hbits : BitVec.ofNat (8 * sizeof U) (n % 2 ^ (8 * sizeof U)) = BitVec.ofNat _ n := by
    apply BitVec.eq_of_toNat_eq
    simp
  exact congrArg Basic.bits.symm hbits

theorem take_arrayBytes {T : Type} [Basic T] (n : Nat) (data : List T) :
    (arrayBytes o data).take (n * sizeof T) = arrayBytes o (data.take n) := by
  have hsplit : arrayBytes o data = arrayBytes o (data.take n) ++ arrayBytes o (data.drop n) := by
    rw [arrayBytes, arrayBytes, arrayBytes, ← List.flatMap_append, List.take_append_drop]
  by_cases hn : n ≤ data.length
  · have hlen : n * sizeof T = (arrayBytes o (data.take n)).length := by
      rw [arrayBytes_length, List.length_take, Nat.min_eq_left hn]
    rw [hsplit, hlen, List.take_left]
  · have hn' : data.length ≤ n := by omega
    have hlen : (arrayBytes o data).length ≤ n * sizeof T := by
      rw [arrayBytes_length]
      exact Nat.mul_le_mul_right _ hn'
    rw [List.take_of_length_le hlen, List.take_of_length_le hn']

section

variable {U : Type} [Unsigned U] {is : Istream} {post : List UInt8}

/-- A string that is too long leaves the characters that its prefix does not count in the stream. -/
theorem Istream.HasLeft.readString_long {data : List CChar}
    (h : is.HasLeft (bytesOf o (Unsigned.ofNat data.length : U) ++ (data ++ post)))
    (hle : data.length ≤ ptrdiffMax) (memory : Memory) :
    let n := data.length % 2 ^ (8 * sizeof U)
    (memory.HoldsString (data.take n) →
      ∃ is', is.readString o memory U = .ok ((data.take n).takeWhile (· != 0), is') ∧
        is'.HasLeft (data.drop n ++ post)) ∧
    (¬ memory.HoldsString (data.take n) → ∃ e, is.readString o memory U = .error e) := by
  intro n
  have hn : n ≤ data.length := Nat.mod_le _ _
  have hlen : (data.take n).length = n := by rw [List.length_take, Nat.min_eq_left hn]
  rw [← List.take_append_drop n data, List.append_assoc, List.take_append_drop] at h
  refine h.readString o ?_ (by omega) memory
  rw [Unsigned.toNat_ofNat, hlen]

theorem writeDataChunk_buffer (U : Type) [Unsigned U] {T : Type} [Basic T] (data : List T)
    (os : Ostream) :
    (Ostream.writeDataChunk o U data os).buffer =
      os.buffer ++ (bytesOf o (Unsigned.ofNat data.length : U) ++ (arrayBytes o data).take
        (sizeMul (data.length % 2 ^ (8 * sizeof U)) (sizeof T))) := by
  simp only [Ostream.writeDataChunk, Ostream.writeDataChunkPtr, Ostream.writeBasic,
    Ostream.write_buffer, Unsigned.toNat_ofNat, List.append_assoc]

/-- Of a vector that is too long the elements that its prefix counts are read back, and no more were
    written. -/
theorem Istream.HasLeft.readDataChunk_long {T : Type} [Basic T] {data : List T}
    (hle : data.length * sizeof T ≤ ptrdiffMax) (memory : Memory) :
    let n := data.length % 2 ^ (8 * sizeof U)
    is.HasLeft (bytesOf o (Unsigned.ofNat data.length : U) ++
      ((arrayBytes o data).take (sizeMul n (sizeof T)) ++ post)) →
    (memory.HoldsElements (n * sizeof T) →
      ∃ is', is.readDataChunk o memory T U = .ok (data.take n, is') ∧ is'.HasLeft post) ∧
    (¬ memory.HoldsElements (n * sizeof T) → is.readDataChunk o memory T U = .error .badAlloc) := by
  intro n h
  have hn : n ≤ data.length := Nat.mod_le _ _
  have hlen : (data.take n).length = n := by rw [List.length_take, Nat.min_eq_left hn]
  have hbytes : n * sizeof T ≤ ptrdiffMax := (Nat.mul_le_mul_right _ hn).trans hle
  have hlt : n < 2 ^ (8 * sizeof U) := Nat.mod_lt _ (Nat.two_pow_pos _)
  have hmul : sizeMul n (sizeof T) = n * sizeof T := by
    rw [sizeMul, Nat.mod_eq_of_lt]
    unfold ptrdiffMax at hbytes
    omega
  let v : Chunk T U := ⟨data.take n, by rw [hlen]; exact hlt, by rw [hlen]; exact hbytes⟩
  have hprefix : (Unsigned.ofNat v.data.length : U) = Unsigned.ofNat data.length := by
    rw [show v.data.length = n from hlen]
    exact Unsigned.ofNat_mod U data.length
  rw [hmul, take_arrayBytes, ← hprefix, ← List.append_assoc] at h
  have hroom : memory.HoldsElements (n * sizeof T) ↔ memory.HoldsElements (v.data.length * sizeof T) := by
    rw [show v.data.length = n from hlen]
  exact ⟨fun hr => h.readDataChunk o (hroom.mp hr), fun hr =>
    h.readDataChunk_badAlloc o fun hr' => hr (hroom.mpr hr')⟩

end

section

variable (c : CommandType) (command : c.Value) (uid : UInt64) (pre post : List MessageField)
  (junk : Nat → UInt8) (memory : Nat → Memory)

/-- A record whose reader returns `got` where it has memory for it, and leaves `left` besides the fields
    after it, round trips when it has, `got` is all of the record and nothing is left. -/
theorem recordRoundTrips_iff (U : Type) [Unsigned U] (r : Record) {bs : List UInt8}
    (left : List UInt8) (got : r.Result) (room : Prop)
    (hw : ∀ os, (r.write o U os).buffer = os.buffer ++ bs)
    (hr : ∀ is, Istream.HasLeft is (bs ++ messageBytes o post) →
      (room → ∃ is', r.read o (memory pre.length) U is = .ok (got, is') ∧
        is'.HasLeft (left ++ messageBytes o post)) ∧
      (¬ room → ∃ e, r.read o (memory pre.length) U is = .error e)) :
    RecordRoundTrips o c command uid pre post junk memory U r ↔
      (got = r.whole ∧ left = []) ∧ HasRoom memory pre ∧ room := by
  have hbuf : (writeMessage o post (r.write o U (writeMessage o pre
      (Ostream.construct o c command uid)))).buffer =
      (Ostream.construct o c command uid).buffer ++
        (messageBytes o pre ++ (bs ++ messageBytes o post)) := by
    rw [writeMessage_buffer, hw, writeMessage_buffer]
    simp only [List.append_assoc]
  obtain ⟨hok, hfault⟩ := readMessage_construct o c command uid pre (bs ++ messageBytes o post)
    junk memory
  rw [RecordRoundTrips, hbuf]
  constructor
  · rintro ⟨before, js₁, js₂, h₁', h₂', -, hrest⟩
    have hpre : HasRoom memory pre := by
      by_contra hroom
      obtain ⟨e, he⟩ := hfault hroom
      cases h₁'.symm.trans he
    obtain ⟨is₁, h₁, hleft⟩ := hok hpre
    obtain ⟨-, rfl⟩ := Prod.mk.inj (Except.ok.inj (h₁.symm.trans h₁'))
    have hroom : room := by
      by_contra hroom
      obtain ⟨e, he⟩ := (hr is₁ hleft).2 hroom
      cases h₂'.symm.trans he
    obtain ⟨is₂, h₂, hleft₂⟩ := (hr is₁ hleft).1 hroom
    obtain ⟨hgot, rfl⟩ := Prod.mk.inj (Except.ok.inj (h₂.symm.trans h₂'))
    rw [hleft₂.rest] at hrest
    exact ⟨⟨hgot, List.append_left_eq_self.mp hrest⟩, hpre, hroom⟩
  · rintro ⟨⟨hgot, hleft'⟩, hpre, hroom⟩
    obtain ⟨is₁, h₁, hleft⟩ := hok hpre
    obtain ⟨is₂, h₂, hleft₂⟩ := (hr is₁ hleft).1 hroom
    rw [hgot] at h₂
    rw [hleft', List.nil_append] at hleft₂
    exact ⟨_, is₁, is₂, h₁, h₂, hleft₂.good, hleft₂.rest⟩

theorem string_roundTrips_iff (U : Type) [Unsigned U] {data : List CChar}
    (hle : data.length ≤ ptrdiffMax) :
    RecordRoundTrips o c command uid pre post junk memory U (.string data hle) ↔
      ((data.take (data.length % 2 ^ (8 * sizeof U))).takeWhile (· != 0) = data ∧
        data.drop (data.length % 2 ^ (8 * sizeof U)) = []) ∧
      HasRoom memory pre ∧
        (memory pre.length).HoldsString (data.take (data.length % 2 ^ (8 * sizeof U))) := by
  apply recordRoundTrips_iff o c command uid pre post junk memory U (.string data hle) _ _ _
    (writeString_buffer o U data)
  intro is h
  rw [List.append_assoc] at h
  exact h.readString_long o hle (memory pre.length)

theorem vector_roundTrips_iff (U : Type) [Unsigned U] {T : Type} [Basic T] {data : List T}
    (hle : data.length * sizeof T ≤ ptrdiffMax) :
    RecordRoundTrips o c command uid pre post junk memory U (.vector T data hle) ↔
      data.take (data.length % 2 ^ (8 * sizeof U)) = data ∧ HasRoom memory pre ∧
        (memory pre.length).HoldsElements (data.length % 2 ^ (8 * sizeof U) * sizeof T) := by
  have hiff := recordRoundTrips_iff o c command uid pre post junk memory U (.vector T data hle) []
    (data.take (data.length % 2 ^ (8 * sizeof U)))
    ((memory pre.length).HoldsElements (data.length % 2 ^ (8 * sizeof U) * sizeof T))
    (writeDataChunk_buffer o U data) ?_
  · rw [hiff]
    exact and_congr_left' (and_iff_left rfl)
  · intro is h
    rw [List.append_assoc] at h
    obtain ⟨hok, hfault⟩ := Istream.HasLeft.readDataChunk_long o hle (memory pre.length) h
    refine ⟨fun hroom => ?_, fun hroom => ?_⟩
    · obtain ⟨is', hread, h'⟩ := hok hroom
      exact ⟨is', by rw [Record.read, hread]; rfl, h'⟩
    · exact ⟨.exception .badAlloc, by rw [Record.read, hfault hroom]; rfl⟩

/-- **Size prefixes.** Between any other fields the reader of a record gives the whole record back, and
    the fields after it stay aligned, exactly when its length can be represented in the prefix, there is, for
    a string, no zero among its characters, and the reader has memory for the fields before it and for the
    record. -/
theorem record_round_trip_iff (U : Type) [Unsigned U] (r : Record) :
    RecordRoundTrips o c command uid pre post junk memory U r ↔
      r.Fits U ∧ HasRoom memory pre ∧ r.HasRoom (memory pre.length) := by
  have hpos : 0 < 2 ^ (8 * sizeof U) := Nat.two_pow_pos _
  cases r with
  | string data hle =>
    rw [string_roundTrips_iff, Record.Fits, Record.HasRoom]
    constructor
    · rintro ⟨⟨hgot, hleft⟩, hpre, hroom⟩
      have hlen : data.length ≤ data.length % 2 ^ (8 * sizeof U) := List.drop_eq_nil_iff.mp hleft
      have hlt := Nat.mod_lt data.length hpos
      rw [List.take_of_length_le hlen] at hgot hroom
      exact ⟨⟨by omega, (takeWhile_nonzero_eq_self_iff data).mp hgot⟩, hpre, hroom⟩
    · rintro ⟨⟨hlt, hzero⟩, hpre, hroom⟩
      rw [Nat.mod_eq_of_lt hlt, List.take_length, List.drop_length]
      exact ⟨⟨(takeWhile_nonzero_eq_self_iff data).mpr hzero, rfl⟩, hpre, hroom⟩
  | vector T data hle =>
    rw [vector_roundTrips_iff, Record.Fits, Record.HasRoom]
    constructor
    · rintro ⟨hgot, hpre, hroom⟩
      have hlen := congrArg List.length hgot
      have hlt := Nat.mod_lt data.length hpos
      rw [List.length_take] at hlen
      have hfits : data.length < 2 ^ (8 * sizeof U) := by omega
      rw [Nat.mod_eq_of_lt hfits] at hroom
      exact ⟨hfits, hpre, hroom⟩
    · rintro ⟨hlt, hpre, hroom⟩
      rw [Nat.mod_eq_of_lt hlt, List.take_length]
      exact ⟨rfl, hpre, hroom⟩

end

/-- A string of 256 characters with a prefix of one byte leaves all its characters in the stream, with memory
    for everything. -/
theorem long_string_shifts_message :
    ¬ RecordRoundTrips .little (.integral 32 true (by decide)) (1 : BitVec 32) 0 [] [] (fun _ => 0)
      (fun _ => .ample []) UInt8
      (.string (List.replicate 256 97) (by rw [List.length_replicate]; decide)) := by
  intro h
  have hleft := ((string_roundTrips_iff ..).mp h).1.2
  have hmod : 256 % 2 ^ (8 * sizeof UInt8) = 0 := rfl
  rw [List.length_replicate, hmod, List.drop_zero, List.replicate_eq_nil_iff] at hleft
  omega

end Lnetlib
