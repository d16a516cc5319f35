import Lnetlib.Example.Programs
import Lnetlib.Stream.Proofs.StringsProofs

/-!
# Proofs: what the client shows of a message

Each thing that is said is one message, its command, a uid and its fields (`Said.body`), and the slot or the
callback of the client reads the fields back.
-/

namespace Lnetlib

open Bytes

namespace Example

variable {o : ByteOrder}

namespace Said

/-- The command it is sent with; a response is sent with the command of the request. -/
def command : Said → Command
  | quit => .quit
  | message | answer _ => .message
  | goodbye => .goodbye
  | hello => .hello
  | file _ => .sendFile

/-- The fields of its message. -/
def payload (o : ByteOrder) (w : Said) : List UInt8 := w.calls.flatMap (Call.bytes o)

/-- The body of its package under a uid. -/
def body (o : ByteOrder) (w : Said) (uid : UInt64) : List UInt8 :=
  bytesOf o w.command.code ++ bytesOf o uid ++ w.payload o

/-- The thread that says it. -/
def role : Said → Role
  | quit | message => .client
  | answer _ | goodbye => .slot
  | hello | file _ => .operator

/-- What the slot of `received` of the client shows of it. -/
def received : Said → List Line
  | answer _ => []
  | w => w.shown

end Said

theorem Command.ofValue_value (c : Command) : ofValue c.value = some c := by
  cases c <;> rfl

/-- The header of a message. -/
theorem construct_body (w : Said) (uid : UInt64) (junk : Nat → UInt8) :
    (Istream.construct o (w.body o uid) junk).command = w.command.code ∧
      (Istream.construct o (w.body o uid) junk).uid = uid ∧
      (Istream.construct o (w.body o uid) junk).HasLeft (w.payload o) :=
  Istream.construct_header o (w.payload o) w.command.code uid junk

theorem commandAs_code {stream : Istream} {c : Command} (h : stream.command = c.code) :
    Command.ofValue (stream.commandAs Command.type) = some c := by
  have hvalue : stream.commandAs Command.type = c.value := by
    rw [Istream.commandAs, h]
    exact Command.type.ofUInt64_toUInt64 c.value
  rw [hvalue, Command.ofValue_value]

theorem bytes_writeString (data : List CChar) : Call.bytes o (.writeString data) =
    bytesOf o (Unsigned.ofNat data.length : UInt64) ++ data :=
  writeString_buffer o UInt64 data _

theorem bytes_writeDataChunk (v : Chunk CChar UInt64) : Call.bytes o (.writeDataChunk v.data) =
    bytesOf o (Unsigned.ofNat v.data.length : UInt64) ++ arrayBytes o v.data :=
  v.writeChunk_buffer o .vector _

theorem ready_reads {stream : Istream} (h : stream.HasLeft (Call.bytes o (.writeString ready)))
    (behind : List CChar) : ∃ is, stream.readString o (.ample behind) UInt64 = .ok (ready, is) := by
  rw [bytes_writeString, ← List.append_nil (bytesOf o _ ++ ready), List.append_assoc] at h
  obtain ⟨is, his, -⟩ := (h.readString o (by decide) (by decide) _).1 (Memory.ample_holdsString behind _)
  exact ⟨is, his⟩

/-- The callback shows an answer. -/
theorem clientCallback_answer (j : Nat) (uid : UInt64) (junk : Nat → UInt8) (behind : List CChar) :
    clientCallback o behind (Istream.construct o ((Said.answer j).body o uid) junk) =
      (Said.answer j).shown := by
  obtain ⟨-, -, hleft⟩ := construct_body (o := o) (.answer j) uid junk
  have hpayload : (Said.answer j).payload o = Call.bytes o (.writeString ready) := by
    simp [Said.payload, Said.calls, Call.bytes]
  rw [hpayload] at hleft
  obtain ⟨is, his⟩ := ready_reads hleft behind
  rw [clientCallback, his]
  rfl

/-- The slot of `received` shows everything else that the server says. -/
theorem clientSlot_body (w : Said) (uid : UInt64) (junk : Nat → UInt8) (behind : List CChar) :
    clientSlot o behind (Istream.construct o (w.body o uid) junk) = w.received := by
  obtain ⟨hcommand, -, hleft⟩ := construct_body (o := o) w uid junk
  have hvalue := commandAs_code hcommand
  unfold clientSlot
  rw [hvalue]
  cases w with
  | quit | message | answer j | goodbye => rfl
  | hello =>
    have hpayload : Said.hello.payload o = Call.bytes o (.writeString imServer) := by
      simp [Said.payload, Said.calls, Call.bytes]
    rw [hpayload, bytes_writeString, ← List.append_nil (bytesOf o _ ++ imServer), List.append_assoc] at hleft
    obtain ⟨is, his, -⟩ := (hleft.readString o (by decide) (by decide) _).1
      (Memory.ample_holdsString behind _)
    simp only [Said.command, his]
    rfl
  | file f =>
    have hpayload : (Said.file f).payload o = Call.bytes o (.writeString f.name.chars) ++
        (Call.bytes o (.writeDataChunk f.bytes.data) ++ []) := by
      simp [Said.payload, Said.calls, Call.bytes]
    rw [hpayload, bytes_writeString, bytes_writeDataChunk, List.append_assoc] at hleft
    obtain ⟨is, his, hleft'⟩ := (hleft.readString o f.name.toNat_size f.name.size_le _).1
      (Memory.ample_holdsString behind _)
    obtain ⟨is', his', -⟩ := hleft'.readDataChunk o (Memory.ample_holdsElements behind _)
    simp only [Said.command, his, his']
    rfl

end Example

end Lnetlib
