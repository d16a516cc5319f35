import Lnetlib.Stream.Codec

/-!
# The codec round trip

Each reader consumes exactly the bytes its writer has appended and leaves the stream good; the round
trip of a message follows by induction on its fields, the bytes of the fields still to be read being
what is left in the stream.
-/

namespace Lnetlib

open Bytes

variable (o : ByteOrder)

/-- The stream is good and has exactly the bytes `bs` left. -/
structure Istream.HasLeft (is : Istream) (bs : List UInt8) : Prop where
  good : is.good = true
  rest : is.rest = bs

namespace Istream

variable {is : Istream} {bs post : List UInt8}

theorem HasLeft.uninit (h : is.HasLeft bs) (n : Nat) : (is.uninit n).2.HasLeft bs :=
  ⟨h.good, h.rest⟩

@[simp] theorem uninit_length (is : Istream) (n : Nat) : (is.uninit n).1.length = n := by
  simp [Istream.uninit]

/-- A read for which there are enough bytes returns them, whatever the memory held. -/
theorem HasLeft.read (h : is.HasLeft (bs ++ post)) (dst : List UInt8)
    (hd : dst.length = bs.length) :
    (is.read dst).1 = bs ∧ (is.read dst).2.HasLeft post := by
  have hgot : is.rest.take dst.length = bs := by rw [h.rest, hd, List.take_left]
  have hrest : is.rest.drop dst.length = post := by rw [h.rest, hd, List.drop_left]
  unfold Istream.read
  rw [if_pos h.good]
  simp only [hgot, hrest]
  refine ⟨?_, ?_, rfl⟩
  · rw [← hd, List.drop_length, List.append_nil]
  · simp [Istream.good, hd]

/-- `read_basic` reads what `write_basic` has written. -/
theorem HasLeft.readBasic {T : Type} [Basic T] {v : T} (h : is.HasLeft (bytesOf o v ++ post)) :
    (is.readBasic o T).1 = v ∧ (is.readBasic o T).2.HasLeft post := by
  have hd : (is.uninit (sizeof T)).1.length = (bytesOf o v).length := by
    rw [uninit_length, bytesOf_length]
  obtain ⟨h1, h2⟩ := (h.uninit (sizeof T)).read _ hd
  refine ⟨?_, h2⟩
  show valueOf o T ((is.uninit (sizeof T)).2.read (is.uninit (sizeof T)).1).1 = v
  rw [h1, valueOf_bytesOf]

/-- The constructor reads the header that the constructor of `ostream` has written. -/
theorem construct_header (post : List UInt8) (cmd uid : UInt64) (junk : Nat → UInt8) :
    let is := Istream.construct o (bytesOf o cmd ++ bytesOf o uid ++ post) junk
    is.command = cmd ∧ is.uid = uid ∧ is.HasLeft post := by
  intro is
  let is₀ : Istream :=
    { rest := bytesOf o cmd ++ (bytesOf o uid ++ post), eofbit := false, failbit := false,
      command := 0, uid := 0, junk := junk }
  have h₀ : is₀.HasLeft (bytesOf o cmd ++ (bytesOf o uid ++ post)) := ⟨rfl, rfl⟩
  have h₁ := (h₀.uninit (sizeof UInt64)).uninit (sizeof UInt64)
  obtain ⟨hc, h₂⟩ := h₁.read (is₀.uninit (sizeof UInt64)).1
    (by rw [uninit_length, bytesOf_length])
  obtain ⟨hu, h₃⟩ := h₂.read ((is₀.uninit (sizeof UInt64)).2.uninit (sizeof UInt64)).1
    (by rw [uninit_length, bytesOf_length])
  have his : is = { (((is₀.uninit (sizeof UInt64)).2.uninit (sizeof UInt64)).2.read
        (is₀.uninit (sizeof UInt64)).1).2.read
        ((is₀.uninit (sizeof UInt64)).2.uninit (sizeof UInt64)).1 |>.2 with
      command := valueOf o UInt64 (bytesOf o cmd), uid := valueOf o UInt64 (bytesOf o uid) } := by
    rw [← hc, ← hu]
    simp only [is, Istream.construct, List.append_assoc]
    rfl
  rw [his]
  exact ⟨valueOf_bytesOf o cmd, valueOf_bytesOf o uid, h₃.good, h₃.rest⟩

end Istream

namespace Chunk

variable {T U : Type} [Basic T] [Unsigned U]

/-- The number of elements survives the conversion to the prefix type. -/
theorem toNat_count (v : Chunk T U) :
    Unsigned.toNat (Unsigned.ofNat v.data.length : U) = v.data.length := by
  rw [Unsigned.toNat_ofNat, Nat.mod_eq_of_lt v.count_lt]

/-- The product of count and element size does not wrap around. -/
theorem sizeMul_eq (v : Chunk T U) :
    sizeMul v.data.length (sizeof T) = (arrayBytes o v.data).length := by
  have := v.bytes_le
  rw [arrayBytes_length, sizeMul, Nat.mod_eq_of_lt]
  unfold ptrdiffMax at this
  omega

omit [Basic T] in
/-- The characters of an array are no more than its bytes. -/
theorem length_le (v : Chunk CChar U) : ¬ ptrdiffMax < v.data.length :=
  Nat.not_lt.mpr ((Nat.le_mul_of_pos_right _ (by decide)).trans v.bytes_le)

/-- What both overloads of `write_data_chunk` append. -/
theorem writeChunk_buffer (v : Chunk T U) (writer : ChunkWriter) (os : Ostream) :
    (FieldType.writeChunk o writer v os).buffer =
      os.buffer ++ (bytesOf o (Unsigned.ofNat v.data.length : U) ++ arrayBytes o v.data) := by
  have hptr : (Ostream.writeDataChunkPtr o v.data (Unsigned.ofNat v.data.length : U) os).buffer =
      os.buffer ++ (bytesOf o (Unsigned.ofNat v.data.length : U) ++ arrayBytes o v.data) := by
    simp only [Ostream.writeDataChunkPtr, Ostream.writeBasic, Ostream.write_buffer, v.toNat_count,
      v.sizeMul_eq o, List.take_length, List.append_assoc]
  cases writer with
  | pointer => exact hptr
  | vector => exact hptr

end Chunk

namespace Istream

variable {is : Istream} {post : List UInt8} {T U : Type} [Basic T] [Unsigned U]

/-- The vector overload of `read_data_chunk` reads what either writer has written, where there is memory
    for it. -/
theorem HasLeft.readDataChunk {v : Chunk T U} {memory : Memory}
    (h : is.HasLeft (bytesOf o (Unsigned.ofNat v.data.length : U) ++ arrayBytes o v.data ++ post))
    (hroom : memory.HoldsElements (v.data.length * sizeof T)) :
    ∃ is', is.readDataChunk o memory T U = .ok (v.data, is') ∧ is'.HasLeft post := by
  rw [List.append_assoc] at h
  obtain ⟨hs, h₁⟩ := h.readBasic o
  have hle := Nat.not_lt.mpr v.bytes_le
  obtain ⟨hdata, h₂⟩ := h₁.read (List.replicate (v.data.length * sizeof T) 0)
    (by rw [List.length_replicate, arrayBytes_length])
  refine ⟨_, ?_, h₂⟩
  simp only [Istream.readDataChunk, hs, v.toNat_count, if_neg hle, if_pos hroom, hdata,
    arrayOf_arrayBytes]

/-- And where there is none, it throws. -/
theorem HasLeft.readDataChunk_badAlloc {v : Chunk T U} {memory : Memory}
    (h : is.HasLeft (bytesOf o (Unsigned.ofNat v.data.length : U) ++ arrayBytes o v.data ++ post))
    (hroom : ¬ memory.HoldsElements (v.data.length * sizeof T)) :
    is.readDataChunk o memory T U = .error .badAlloc := by
  rw [List.append_assoc] at h
  obtain ⟨hs, -⟩ := h.readBasic o
  have hle := Nat.not_lt.mpr v.bytes_le
  simp only [Istream.readDataChunk, hs, v.toNat_count, if_neg hle, if_neg hroom]

/-- An array of `char` is its bytes. -/
theorem arrayBytes_char (data : List CChar) : arrayBytes o data = data := by
  have hb : ∀ b : UInt8, bytesOf o b = [b] := by
    intro b
    have hlit : littleEndian 1 b.toNat = [b] := by simp [littleEndian]
    show o.encode 1 b.toNat = [b]
    cases o with
    | little => exact hlit
    | big => simp [ByteOrder.encode, hlit]
  induction data with
  | nil => rfl
  | cons b data ih =>
    show bytesOf o b ++ arrayBytes o data = b :: data
    rw [hb, ih, List.singleton_append]

/-- The pointer overload of `read_data_chunk` reads what either writer has written, where there is memory
    for it. -/
theorem HasLeft.readDataChunkPtr {v : Chunk CChar U} {memory : Memory}
    (h : is.HasLeft (bytesOf o (Unsigned.ofNat v.data.length : U) ++ arrayBytes o v.data ++ post))
    (hroom : memory.grants (.newArray v.data.length) = true) :
    ∃ is', is.readDataChunkPtr o memory U = .ok ((Unsigned.ofNat v.data.length, v.data), is') ∧
      is'.HasLeft post := by
  rw [List.append_assoc, arrayBytes_char] at h
  obtain ⟨hs, h₁⟩ := h.readBasic o
  obtain ⟨hdata, h₂⟩ := (h₁.uninit v.data.length).read
    ((is.readBasic o U).2.uninit v.data.length).1 (by rw [uninit_length])
  refine ⟨_, ?_, h₂⟩
  simp only [Istream.readDataChunkPtr, hs, v.toNat_count, if_neg v.length_le, if_pos hroom, hdata]

theorem HasLeft.readDataChunkPtr_badAlloc {v : Chunk CChar U} {memory : Memory}
    (h : is.HasLeft (bytesOf o (Unsigned.ofNat v.data.length : U) ++ arrayBytes o v.data ++ post))
    (hroom : ¬ memory.grants (.newArray v.data.length) = true) :
    is.readDataChunkPtr o memory U = .error .badAlloc := by
  rw [List.append_assoc] at h
  obtain ⟨hs, -⟩ := h.readBasic o
  simp only [Istream.readDataChunkPtr, hs, v.toNat_count, if_neg v.length_le, if_neg hroom]

end Istream

/-- The fields `fs` append `bs`, and the matching reads take `bs` off the front of a stream and return
    the written values. -/
def RoundTrips (fs : List Field) (bs : List UInt8) : Prop :=
  (∀ os, (writeFields o fs os).buffer = os.buffer ++ bs ∧ (writeFields o fs os).sended = os.sended) ∧
  ∀ is post, Istream.HasLeft is (bs ++ post) →
    ∃ is', readFields o (fs.map Sigma.fst) is = .ok (fs.map Field.expected, is') ∧ is'.HasLeft post

/-- One field: its writer appends bytes that its reader takes off again, where there is memory for them. -/
theorem FieldType.roundTrip (t : FieldType) (v : t.Value) :
    ∃ bs, (∀ os, (t.write o v os).buffer = os.buffer ++ bs ∧ (t.write o v os).sended = os.sended) ∧
      ∀ memory is post, Istream.HasLeft is (bs ++ post) →
        (t.HasRoom memory v → ∃ is', t.readIn o memory is = .ok (t.expected v, is') ∧ is'.HasLeft post) ∧
        (¬ t.HasRoom memory v → t.readIn o memory is = .error .badAlloc) := by
  -- the ten fixed-width fields differ in the type only
  have basic : ∀ {T : Type} [Basic T] (v : T) (_ : Memory) (is : Istream) (post : List UInt8),
      is.HasLeft (bytesOf o v ++ post) →
      (True → ∃ is', (Except.ok (is.readBasic o T) : Except StdException (T × Istream)) = .ok (v, is') ∧
        is'.HasLeft post) ∧
      (¬ True → (Except.ok (is.readBasic o T) : Except StdException (T × Istream)) = .error .badAlloc) := by
    intro T _ v _ is post h
    obtain ⟨h1, h2⟩ := h.readBasic o
    exact ⟨fun _ => ⟨_, by rw [← h1], h2⟩, fun hf => absurd trivial hf⟩
  have sended : ∀ {T U : Type} [Basic T] [Unsigned U] (writer : ChunkWriter) (v : Chunk T U)
      (os : Ostream), (FieldType.writeChunk o writer v os).sended = os.sended := by
    intro T U _ _ writer v os
    cases writer <;> rfl
  cases t with
  | int8 => exact ⟨_, fun os => ⟨rfl, rfl⟩, basic (T := Int8) v⟩
  | uint8 => exact ⟨_, fun os => ⟨rfl, rfl⟩, basic (T := UInt8) v⟩
  | int16 => exact ⟨_, fun os => ⟨rfl, rfl⟩, basic (T := Int16) v⟩
  | uint16 => exact ⟨_, fun os => ⟨rfl, rfl⟩, basic (T := UInt16) v⟩
  | int32 => exact ⟨_, fun os => ⟨rfl, rfl⟩, basic (T := Int32) v⟩
  | uint32 => exact ⟨_, fun os => ⟨rfl, rfl⟩, basic (T := UInt32) v⟩
  | int64 => exact ⟨_, fun os => ⟨rfl, rfl⟩, basic (T := Int64) v⟩
  | uint64 => exact ⟨_, fun os => ⟨rfl, rfl⟩, basic (T := UInt64) v⟩
  | float32 => exact ⟨_, fun os => ⟨rfl, rfl⟩, basic (T := FloatBits 4) v⟩
  | float64 => exact ⟨_, fun os => ⟨rfl, rfl⟩, basic (T := FloatBits 8) v⟩
  | chunk T U writer =>
    exact ⟨_, fun os => ⟨Chunk.writeChunk_buffer o v writer os, sended writer v os⟩,
      fun memory is post h =>
        ⟨fun hroom => h.readDataChunk o (v := v) hroom, fun hroom => h.readDataChunk_badAlloc o hroom⟩⟩
  | charChunk U writer =>
    exact ⟨_, fun os => ⟨Chunk.writeChunk_buffer o v writer os, sended writer v os⟩,
      fun memory is post h =>
        ⟨fun hroom => h.readDataChunkPtr o (v := v) hroom, fun hroom => h.readDataChunkPtr_badAlloc o hroom⟩⟩

theorem FieldType.hasRoom_ample (behind : List CChar) (t : FieldType) (v : t.Value) :
    t.HasRoom (.ample behind) v := by
  cases t with
  | chunk T U writer => exact Memory.ample_holdsElements behind _
  | charChunk U writer => rfl
  | _ => trivial

/-- Every sequence of fields round trips. -/
theorem roundTrips_exists (fs : List Field) : ∃ bs, RoundTrips o fs bs := by
  induction fs with
  | nil => exact ⟨[], fun os => ⟨by simp [writeFields], rfl⟩, fun is post h => ⟨is, rfl, h⟩⟩
  | cons f fs ih =>
    obtain ⟨bs, hw, hr⟩ := ih
    obtain ⟨t, v⟩ := f
    obtain ⟨b, hwf, hrf⟩ := t.roundTrip o v
    refine ⟨b ++ bs, fun os => ?_, fun is post h => ?_⟩
    · obtain ⟨h1, h2⟩ := hw (t.write o v os)
      obtain ⟨h3, h4⟩ := hwf os
      exact ⟨by rw [writeFields, h1, h3, List.append_assoc], by rw [writeFields, h2, h4]⟩
    · rw [List.append_assoc] at h
      obtain ⟨is₁, hr₁, h₁⟩ := (hrf (.ample []) is (bs ++ post) h).1 (t.hasRoom_ample [] v)
      obtain ⟨is₂, hr₂, h₂⟩ := hr is₁ post h₁
      refine ⟨is₂, ?_, h₂⟩
      simp only [List.map_cons, readFields, FieldType.read, hr₁, hr₂]
      rfl

theorem writeFields_append (fs gs : List Field) (os : Ostream) :
    writeFields o (fs ++ gs) os = writeFields o gs (writeFields o fs os) := by
  induction fs generalizing os with
  | nil => rfl
  | cons f fs ih => exact ih _

/-- **The codec round trip.** The message that is sent gives the receiver the command and the uid, and
    after any number of the matching reads the values read are those written, the stream is good, and
    nothing is left once all fields are read. -/
theorem codec_round_trip (c : CommandType) (command : c.Value) (uid : UInt64) (msg : List Field)
    (junk : Nat → UInt8) :
    ∃ body, (writeFields o msg (Ostream.construct o c command uid)).send.2 = some body ∧
      (Istream.construct o body junk).commandAs c = command ∧
      (Istream.construct o body junk).uid = uid ∧
      ∀ fs gs, msg = fs ++ gs →
        ∃ is', readFields o (fs.map Sigma.fst) (Istream.construct o body junk) =
            .ok (fs.map Field.expected, is') ∧
          is'.good = true ∧ (gs = [] → is'.rest = []) := by
  obtain ⟨bs, hw, -⟩ := roundTrips_exists o msg
  obtain ⟨hbuf, hsd⟩ := hw (Ostream.construct o c command uid)
  rw [Ostream.construct_buffer] at hbuf
  rw [Ostream.construct_sended] at hsd
  refine ⟨_, by rw [Ostream.send, hsd]; rfl, ?_⟩
  rw [hbuf]
  obtain ⟨hc, hu, hleft⟩ := Istream.construct_header o bs (c.toUInt64 command) uid junk
  refine ⟨by rw [Istream.commandAs, hc, c.ofUInt64_toUInt64], hu, fun fs gs hmsg => ?_⟩
  obtain ⟨bs₁, hw₁, hr₁⟩ := roundTrips_exists o fs
  obtain ⟨bs₂, hw₂, -⟩ := roundTrips_exists o gs
  -- the bytes of the message are those of the fields read so far, then those of the others
  have hsplit : bs = bs₁ ++ bs₂ := by
    have h1 := (hw (Ostream.construct o c command uid)).1
    rw [hmsg, writeFields_append, (hw₂ _).1, (hw₁ _).1, List.append_assoc] at h1
    exact (List.append_cancel_left h1).symm
  rw [hsplit] at hleft ⊢
  obtain ⟨is', hread, h'⟩ := hr₁ _ bs₂ hleft
  refine ⟨is', hread, h'.good, fun hgs => ?_⟩
  rw [h'.rest]
  subst hgs
  simpa [writeFields] using ((hw₂ (Ostream.construct o c command uid)).1).symm

end Lnetlib
