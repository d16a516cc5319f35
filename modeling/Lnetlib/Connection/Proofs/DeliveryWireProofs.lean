import Lnetlib.Connection.Proofs.DeliveryStreamsProofs

/-!
# The bytes on their way

The byte stream is a sequence of frames: the packages whose write was started, one at a time because of
`_socket_locked`, each behind its size. What the peer has handled and what it has taken since, what is in
the pipe and what is still to be written make up that sequence (`Wire`), and the reader stands between
two of its frames or inside one (`Reading`).
-/

namespace Lnetlib

open Bytes Transition Framing

namespace Delivery

variable {κ : Type} {o : ByteOrder} {s s' : Delivery κ}

/-- The size in front of a body of `n` bytes. -/
def header (o : ByteOrder) (n : Nat) : List UInt8 := bytesOf o (UInt64.ofNat n)

theorem header_length (n : Nat) : (header o n).length = 8 := bytesOf_length o _

theorem Framed.bytes_eq {p : Package} (h : Framed o p) : p.bytes = frame (header o) p.dataBuffer := by
  rw [h.1]
  rfl

/-- The bodies whose write was started. -/
def bodies (s : Delivery κ) : List (List UInt8) := s.sender.issued.map Package.dataBuffer

/-- The bytes that are still to be written. -/
def remaining (s : Delivery κ) : List UInt8 :=
  s.sender.writing.flatMap fun p => p.bytes.drop (s.progress p.ptr)

/-- A read that is in progress, or one that has got all its bytes and has completed. -/
def Taking (op : ReadOp) : Prop :=
  op.buffer.length ≤ op.exactly ∧
    ∀ err, op.result = some err → err = .success ∧ op.buffer.length = op.exactly

/-- Where the reader of the peer stands, and what it has taken of the next frame. -/
inductive Reading (o : ByteOrder) (s : Delivery κ) : List UInt8 → Prop where
  | size (op : ReadOp) (hr : s.peer.socket.reads = [op]) (hs : s.slots = 0)
      (hh : op.handler = .readPackageSizeHandler) (he : op.exactly = 8) (ht : Taking op) :
      Reading o s op.buffer
  | body (op : ReadOp) (b : List UInt8) (cs : List (List UInt8)) (hr : s.peer.socket.reads = [op])
      (hs : s.slots = 0) (hh : op.handler = .readPackageBodyHandler)
      (hb : s.bodies = s.handled ++ b :: cs) (he : op.exactly = b.length) (ht : Taking op) :
      Reading o s (header o b.length ++ op.buffer)
  | slot (hr : s.peer.socket.reads = []) (hs : s.slots = 1) : Reading o s []

/-- What is handled, taken, in the pipe and to be written makes up the frames whose write was started. -/
structure Wire (o : ByteOrder) (s : Delivery κ) : Prop where
  isOpen : s.sender.conn.socket.isOpen = true
  noFailure : s.sender.NoFailure
  results : ∀ op ∈ s.sender.writes, ∀ err, op.result = some err →
    err = .success ∧ s.progress op.pkg.ptr = op.pkg.bytes.length
  started : ∀ q, s.progress q ≠ 0 → q ∈ s.sender.issued.map Package.ptr
  peerOpen : s.peer.socket.isOpen = true
  reading : ∃ got, Reading o s got ∧ s.handled <+: s.bodies ∧
    frames (header o) s.handled ++ (got ++ (s.pipe ++ s.remaining)) = frames (header o) s.bodies

theorem wire_init : Wire o (init κ) where
  isOpen := rfl
  noFailure := by
    intro e he
    cases he
  results := by
    intro op hop
    cases hop
  started := by
    intro q hq
    exact absurd rfl hq
  peerOpen := rfl
  reading := by
    refine ⟨[], ?_, List.prefix_refl _, rfl⟩
    refine Reading.size ⟨.readPackageSizeHandler, 8, [], none⟩ rfl rfl rfl rfl ⟨Nat.zero_le _, ?_⟩
    intro err h
    cases h

/-- Further frames are started behind the others. -/
theorem reading_append {got : List UInt8} (bs : List (List UInt8)) (h : Reading o s got)
    (hr : s'.peer.socket.reads = s.peer.socket.reads) (hs : s'.slots = s.slots)
    (hh : s'.handled = s.handled) (hb : s'.bodies = s.bodies ++ bs) : Reading o s' got := by
  cases h with
  | size op hr₀ hs₀ hh₀ he ht => exact .size op (hr.trans hr₀) (hs.trans hs₀) hh₀ he ht
  | body op b cs hr₀ hs₀ hh₀ hb₀ he ht =>
    refine .body op b (cs ++ bs) (hr.trans hr₀) (hs.trans hs₀) hh₀ ?_ he ht
    rw [hb, hb₀, hh, List.append_assoc, List.cons_append]
  | slot hr₀ hs₀ => exact .slot (hr.trans hr₀) (hs.trans hs₀)

/-- A step of the sending side that starts the frames `bs`. -/
theorem Wire.append (h : s.Wire o) (bs : List (List UInt8)) (hpeer : s'.peer = s.peer)
    (hs : s'.slots = s.slots) (hh : s'.handled = s.handled) (hb : s'.bodies = s.bodies ++ bs)
    (hrest : s'.pipe ++ s'.remaining = s.pipe ++ (s.remaining ++ frames (header o) bs)) :
    ∃ got, Reading o s' got ∧ s'.handled <+: s'.bodies ∧
      frames (header o) s'.handled ++ (got ++ (s'.pipe ++ s'.remaining)) =
        frames (header o) s'.bodies := by
  obtain ⟨got, hr, hp, he⟩ := h.reading
  refine ⟨got, reading_append bs hr (by rw [hpeer]) hs hh hb, ?_, ?_⟩
  · rw [hh, hb]
    exact hp.trans (List.prefix_append _ _)
  · rw [hh, hb, hrest, frames_append, ← he]
    simp only [List.append_assoc]

/-- A step of a thread. -/
theorem Wire.thread (h : s.Wire o) (hst : s.Streams o) (hi : s.sender.Inv) {a : SendAct}
    {sender : Sending κ} (ha : Sending.ThreadAct a) (hs : s.sender.step o a = some sender) :
    Wire o { s with sender := sender } := by
  have hi' := Sending.inv_step hi hs
  obtain ⟨hmoved, hopen⟩ := Sending.step_moved hi ha hs
  obtain ⟨hmade, -⟩ := Sending.step_made ha hs
  cases hmoved with
  | kept hw hc =>
    have hissued : sender.issued = s.sender.issued := by
      simp only [Sending.issued, Sending.writing, hw, hc]
    exact
      { isOpen := hopen.trans h.isOpen
        noFailure := by simp only [Sending.NoFailure, hc]; exact h.noFailure
        results := by simp only [hw]; exact h.results
        started := by simp only [hissued]; exact h.started
        peerOpen := h.peerOpen
        reading := h.append [] rfl rfl rfl (by simp [bodies, hissued])
          (by simp [remaining, Sending.writing, hw]) }
  | started pkg hw hw' hc =>
    have hissued : sender.issued = s.sender.issued ++ [pkg] := by
      simp [Sending.issued, Sending.writing, hw, hw', hc]
    have hnew : pkg.ptr ∉ s.sender.issued.map Package.ptr := by
      have hacc : sender.accepted = s.sender.issued ++ pkg :: sender.conn.packages := by
        rw [hi'.accounted]
        simp [Sending.issued, Sending.writing, hw, hw', hc]
      have hnd := hi'.distinct.accepted_nodup
      rw [hacc, List.map_append, List.map_cons, List.nodup_append] at hnd
      intro hmem
      exact hnd.2.2 _ hmem _ List.mem_cons_self rfl
    have hmem : pkg ∈ sender.issued := by rw [hissued]; simp
    have hframed := (hst.made pkg ((hmade pkg).mp (.inl (hi'.issued_prefix.subset hmem)))).1
    have hzero : s.progress pkg.ptr = 0 := by
      by_contra hne
      exact hnew (h.started _ hne)
    have hnone : s.sender.conn.socket.startResult = none := by
      simp [Socket.startResult, h.isOpen]
    exact
      { isOpen := hopen.trans h.isOpen
        noFailure := by simp only [Sending.NoFailure, hc]; exact h.noFailure
        results := by
          intro op hop err he
          rw [hw', hnone] at hop
          rw [List.mem_singleton.mp hop] at he
          cases he
        started := by
          intro q hq
          rw [hissued, List.map_append]
          exact List.mem_append_left _ (h.started q hq)
        peerOpen := h.peerOpen
        reading := by
          refine h.append [pkg.dataBuffer] rfl rfl rfl (by simp [bodies, hissued]) ?_
          simp [remaining, Sending.writing, hw, hw', hzero, hframed.bytes_eq, frame] }
  | finished pkg err hw hw' hc =>
    obtain ⟨rfl, hp⟩ := h.results { pkg := pkg, result := some err } (by rw [hw]; simp) err rfl
    have hissued : sender.issued = s.sender.issued := by
      simp [Sending.issued, Sending.writing, hw, hw', hc]
    exact
      { isOpen := hopen.trans h.isOpen
        noFailure := by
          intro e he
          rw [hc] at he
          rcases List.mem_append.mp he with he | he
          · exact h.noFailure e he
          · rw [List.mem_singleton.mp he]
            rfl
        results := by simp [hw']
        started := by simp only [hissued]; exact h.started
        peerOpen := h.peerOpen
        reading := h.append [] rfl rfl rfl (by simp [bodies, hissued])
          (by simp [remaining, Sending.writing, hw, hw', hp]) }

/-- A step that leaves the sending connection, the pipe and the reader alone. -/
theorem Wire.congr (h : s.Wire o) (hconn : s'.sender.conn = s.sender.conn)
    (hc : s'.sender.completed = s.sender.completed) (hp : s'.progress = s.progress)
    (hpipe : s'.pipe = s.pipe) (hpeer : s'.peer.socket = s.peer.socket) (hs : s'.slots = s.slots)
    (hh : s'.handled = s.handled) : Wire o s' := by
  have hw : s'.sender.writing = s.sender.writing := by
    simp only [Sending.writing, Sending.writes, hconn]
  have hissued : s'.sender.issued = s.sender.issued := by simp only [Sending.issued, hc, hw]
  have hbodies : s'.bodies = s.bodies := by simp only [bodies, hissued]
  have hrem : s'.remaining = s.remaining := by simp only [remaining, hw, hp]
  obtain ⟨got, hr, hpre, he⟩ := h.reading
  exact
    { isOpen := by rw [hconn]; exact h.isOpen
      noFailure := by simp only [Sending.NoFailure, hc]; exact h.noFailure
      results := by simp only [Sending.writes, hconn, hp]; exact h.results
      started := by rw [hp, hissued]; exact h.started
      peerOpen := by rw [hpeer]; exact h.peerOpen
      reading := by
        refine ⟨got, reading_append [] hr (by rw [hpeer]) hs hh (by simp [hbodies]), ?_, ?_⟩
        · rw [hh, hbodies]
          exact hpre
        · rw [hh, hpipe, hrem, hbodies]
          exact he }

theorem Wire.transmit (h : s.Wire o) (hi : s.sender.Inv) {i n : Nat} {pkg : Package}
    (hw : s.sender.writes[i]? = some { pkg := pkg, result := none })  :
    Wire o { s with
      progress := Function.update s.progress pkg.ptr (s.progress pkg.ptr + n)
      pipe := s.pipe ++ (pkg.bytes.drop (s.progress pkg.ptr)).take n } := by
  obtain ⟨rfl, hws, -⟩ := hi.phase.of_getElem? hw
  refine ⟨h.isOpen, h.noFailure, ?_, ?_, h.peerOpen, ?_⟩
  · intro op hop err he
    rw [hws, List.mem_singleton] at hop
    rw [hop] at he
    cases he
  · intro q hq
    by_cases hqp : q = pkg.ptr
    · simp [Sending.issued, Sending.writing, hws, hqp]
    · simp only [Function.update_of_ne hqp] at hq
      exact h.started q hq
  · refine h.append [] rfl rfl rfl (by simp [bodies]) ?_
    -- the bytes that move from the write into the pipe
    have hsplit := List.take_append_drop n (pkg.bytes.drop (s.progress pkg.ptr))
    rw [List.drop_drop] at hsplit
    simp [remaining, Sending.writing, hws, hsplit]

theorem Wire.result (h : s.Wire o) (hi : s.sender.Inv) {i : Nat} {pkg : Package}
    (hw : s.sender.writes[i]? = some { pkg := pkg, result := none })
    (hp : s.progress pkg.ptr = pkg.bytes.length) :
    Wire o { s with
      sender := s.sender.setWrites
        (s.sender.writes.set i { pkg := pkg, result := some .success }) } := by
  have hwriting := Sending.map_pkg_set (some .success) hw
  have hissued : (s.sender.setWrites
      (s.sender.writes.set i { pkg := pkg, result := some .success })).issued = s.sender.issued := by
    simp only [Sending.issued, Sending.setWrites_writing, hwriting]
    rfl
  obtain ⟨rfl, hws, -⟩ := hi.phase.of_getElem? hw
  refine ⟨h.isOpen, h.noFailure, ?_, ?_, h.peerOpen, ?_⟩
  · intro op hop err he
    simp only [Sending.setWrites, Sending.writes] at hop hws
    rw [hws, List.set_cons_zero, List.mem_singleton] at hop
    subst hop
    cases he
    exact ⟨rfl, hp⟩
  · intro q hq
    rw [hissued]
    exact h.started q hq
  · refine h.append [] rfl rfl rfl ?_ ?_
    · simp [bodies, hissued]
    · simp only [remaining, Sending.setWrites_writing, hwriting]
      simp [Sending.writing]

/-- The peer's reads: with one read only, that is the one that moves. -/
theorem Reading.of_getElem? {got : List UInt8} (h : Reading o s got) {i : Nat} {op : ReadOp}
    (hi : s.peer.socket.reads[i]? = some op) :
    i = 0 ∧ s.peer.socket.reads = [op] ∧ s.slots = 0 ∧ Taking op ∧
      ((op.handler = .readPackageSizeHandler ∧ op.exactly = 8 ∧ got = op.buffer) ∨
        ∃ b cs, op.handler = .readPackageBodyHandler ∧ s.bodies = s.handled ++ b :: cs ∧
          op.exactly = b.length ∧ got = header o b.length ++ op.buffer) := by
  have hone : ∀ op', s.peer.socket.reads = [op'] → i = 0 ∧ op' = op := by
    intro op' hr
    rw [hr] at hi
    rcases i with _ | i
    · exact ⟨rfl, by simpa using hi⟩
    · simp at hi
  cases h with
  | size op' hr hs hh he ht =>
    obtain ⟨h0, rfl⟩ := hone op' hr
    exact ⟨h0, hr, hs, ht, .inl ⟨hh, he, rfl⟩⟩
  | body op' b cs hr hs hh hb he ht =>
    obtain ⟨h0, rfl⟩ := hone op' hr
    exact ⟨h0, hr, hs, ht, .inr ⟨b, cs, hh, hb, he, rfl⟩⟩
  | slot hr hs =>
    rw [hr] at hi
    cases hi

/-- A step of the peer. -/
theorem Wire.ofReading (h : s.Wire o) (hsend : s'.sender = s.sender) (hp : s'.progress = s.progress)
    (ho : s'.peer.socket.isOpen = s.peer.socket.isOpen)
    (hr : ∃ got, Reading o s' got ∧ s'.handled <+: s.bodies ∧
      frames (header o) s'.handled ++ (got ++ (s'.pipe ++ s.remaining)) = frames (header o) s.bodies) :
    Wire o s' where
  isOpen := by rw [hsend]; exact h.isOpen
  noFailure := by rw [hsend]; exact h.noFailure
  results := by rw [hsend, hp]; exact h.results
  started := by rw [hsend, hp]; exact h.started
  peerOpen := ho.trans h.peerOpen
  reading := by
    have hb : s'.bodies = s.bodies := by simp only [bodies, hsend]
    have hrem : s'.remaining = s.remaining := by simp only [remaining, hsend, hp]
    rw [hb, hrem]
    exact hr

theorem Wire.receive (h : s.Wire o) {i n : Nat} {op : ReadOp}
    (hi : s.peer.socket.reads[i]? = some op) (hn : n ≤ s.pipe.length)
    (he : op.buffer.length + n ≤ op.exactly) :
    Wire o { s.setReads (s.peer.socket.reads.set i
        { op with buffer := op.buffer ++ s.pipe.take n, result := none })
      with pipe := s.pipe.drop n } := by
  obtain ⟨got, hreading, hpre, heq⟩ := h.reading
  obtain ⟨rfl, hreads, hs, -, hcase⟩ := hreading.of_getElem? hi
  have htake : Taking { op with buffer := op.buffer ++ s.pipe.take n, result := none } := by
    refine ⟨?_, ?_⟩
    · simp only [List.length_append, List.length_take]
      omega
    · intro err h'
      cases h'
  refine h.ofReading rfl rfl rfl ⟨got ++ s.pipe.take n, ?_, hpre, ?_⟩
  · rcases hcase with ⟨hh, hex, rfl⟩ | ⟨b, cs, hh, hb, hex, rfl⟩
    · exact .size { op with buffer := op.buffer ++ s.pipe.take n, result := none }
        (by simp [setReads, hreads]) hs hh hex htake
    · rw [List.append_assoc]
      exact .body { op with buffer := op.buffer ++ s.pipe.take n, result := none } b cs
        (by simp [setReads, hreads]) hs hh hb hex htake
  · rw [← heq]
    show frames (header o) s.handled ++ (got ++ s.pipe.take n ++ (s.pipe.drop n ++ s.remaining)) = _
    rw [List.append_assoc, ← List.append_assoc (s.pipe.take n), List.take_append_drop]

theorem Wire.readResult (h : s.Wire o) {i : Nat} {op : ReadOp}
    (hi : s.peer.socket.reads[i]? = some op) (he : op.buffer.length = op.exactly) :
    Wire o (s.setReads (s.peer.socket.reads.set i { op with result := some .success })) := by
  obtain ⟨got, hreading, hpre, heq⟩ := h.reading
  obtain ⟨rfl, hreads, hs, -, hcase⟩ := hreading.of_getElem? hi
  have htake : Taking { op with result := some .success } := by
    refine ⟨Nat.le_of_eq he, ?_⟩
    intro err h'
    cases h'
    exact ⟨rfl, he⟩
  refine h.ofReading rfl rfl rfl ⟨got, ?_, hpre, heq⟩
  rcases hcase with ⟨hh, hex, rfl⟩ | ⟨b, cs, hh, hb, hex, rfl⟩
  · exact .size { op with result := some .success } (by simp [setReads, hreads]) hs hh hex htake
  · exact .body { op with result := some .success } b cs (by simp [setReads, hreads]) hs hh hb hex
      htake

/-- Every body on the wire has the size of a message. -/
theorem Streams.bodies_length (h : s.Streams o) (hi : s.sender.Inv) {b : List UInt8}
    (hb : b ∈ s.bodies) : 16 ≤ b.length ∧ b.length < 2 ^ 64 := by
  obtain ⟨p, hp, rfl⟩ := List.mem_map.mp hb
  exact (h.made p (.inl (hi.issued_prefix.subset hp))).1.2

theorem packageSize_header {n : Nat} (hn : n < 2 ^ 64) :
    (Connection.packageSize o (header o n)).toNat = n := by
  rw [header, Connection.packageSize_bytesOf]
  exact UInt64.toNat_ofNat_of_lt' hn

theorem Wire.readHandler (h : s.Wire o) (hst : s.Streams o) (hsend : s.sender.Inv) {i : Nat}
    {op : ReadOp} {err : ErrorCode} (junk : Nat → UInt8) (hi : s.peer.socket.reads[i]? = some op)
    (hr : op.result = some err) :
    Wire o ((s.setReads (s.peer.socket.reads.eraseIdx i)).readHandler o op err junk) := by
  obtain ⟨got, hreading, hpre, heq⟩ := h.reading
  obtain ⟨rfl, hreads, hs, ⟨-, htake⟩, hcase⟩ := hreading.of_getElem? hi
  obtain ⟨rfl, hlen⟩ := htake err hr
  have herase : s.peer.socket.reads.eraseIdx 0 = [] := by rw [hreads]; rfl
  rcases hcase with ⟨hh, hex, rfl⟩ | ⟨b, cs, hh, hb, hex, rfl⟩
  · -- a whole size: the reader goes on with the body it announces
    obtain ⟨b, cs, hb, hacc, hrest⟩ := next_header header_length (by omega) hpre heq (hlen.trans hex)
    have hbound := (hst.bodies_length hsend (b := b) (by rw [hb]; simp)).2
    have hne : op.buffer.length ≠ 0 := by omega
    have hsize := packageSize_header (o := o) hbound
    have hgoes := Connection.readPackageSizeHandler_success o op.buffer hne
      (s.setReads (s.peer.socket.reads.eraseIdx 0)).peer
    unfold Delivery.readHandler
    rw [hh]
    simp only [hgoes]
    refine h.ofReading rfl rfl rfl ⟨header o b.length ++ [], ?_, hpre, ?_⟩
    · have hnone : s.peer.socket.isOpen = true := h.peerOpen
      refine .body ⟨.readPackageBodyHandler, b.length, [], none⟩ b cs ?_ hs rfl hb rfl
        ⟨Nat.zero_le _, fun err h' => by cases h'⟩
      simp [Connection.waitPackageBody, Socket.asyncRead, Socket.startResult, setReads, herase, hnone,
        hacc, hsize]
    · rw [List.append_nil, ← hacc]
      exact heq
  · -- a whole body: the reader is in a slot or in a callback
    rw [hb] at heq
    simp only [List.append_assoc] at heq
    obtain ⟨hbody, hrest⟩ := next_body heq (hlen.trans hex)
    have hsize := (hst.bodies_length hsend (b := b) (by rw [hb]; simp)).1
    have hne : op.buffer.length ≠ 0 := by omega
    obtain ⟨hsocket, hgoes⟩ := Connection.readPackageBodyHandler_success o junk op.buffer hne
      (s.setReads (s.peer.socket.reads.eraseIdx 0)).peer
    unfold Delivery.readHandler
    rw [hh]
    simp only [hgoes, if_true]
    refine h.ofReading rfl rfl ?_ ⟨[], .slot ?_ ?_, ?_, ?_⟩
    · simp only [hsocket]
      rfl
    · simp only [hsocket]
      exact herase
    · simp only [setReads, hs]
    · simp only [setReads, hbody, hb]
      exact ⟨cs, by simp⟩
    · simp only [setReads, hbody, hb, frames_append, frames_cons, frames_nil, List.append_nil,
        List.nil_append, hrest, List.append_assoc]

theorem step_wire (h : s.Wire o) (hst : s.Streams o) (hi : s.sender.Inv) (hs : Stepped o s s') :
    Wire o s' := by
  cases hs with
  | createStream | write | resend => exact h.congr rfl rfl rfl rfl rfl rfl rfl
  | send => exact h.congr rfl rfl rfl rfl rfl rfl rfl
  | thread a sender ha hs => exact h.thread hst hi ha hs
  | transmit i n pkg hw hn => exact h.transmit hi hw
  | result i pkg hw hp => exact h.result hi hw hp
  | receive i n op hi' hr hn he => exact h.receive hi' hn he
  | readResult i op hi' hr he => exact h.readResult hi' he
  | readHandler i op err junk hi' hr => exact h.readHandler hst hi junk hi' hr
  | slotReturn hs =>
    obtain ⟨got, hreading, hpre, heq⟩ := h.reading
    cases hreading with
    | size op hr hs₀ | body op b cs hr hs₀ => omega
    | slot hr hs₀ =>
      refine h.ofReading rfl rfl rfl ⟨[], ?_, hpre, heq⟩
      have hopen := h.peerOpen
      refine .size ⟨.readPackageSizeHandler, 8, [], none⟩ ?_ ?_ rfl rfl ⟨Nat.zero_le _, fun err h' => by cases h'⟩
      · simp only [Connection.waitPackage, Socket.asyncRead, Socket.startResult, hr, hopen, if_true,
          List.nil_append]
        rfl
      · show s.slots - 1 = 0
        omega
  | peer peer hp => exact h.congr rfl rfl rfl rfl hp rfl rfl

end Delivery

end Lnetlib
