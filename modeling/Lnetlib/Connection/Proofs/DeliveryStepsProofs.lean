import Lnetlib.Connection.Delivery
import Lnetlib.Connection.Proofs.SendingProofs

/-!
# What the steps of a delivery do

What a step of a thread does to the packages whose write was started (`Moved`), and one case for each kind
of step of the two sides where no storage is freed (`Stepped`); the invariants are proved from these.
-/

namespace Lnetlib

open Bytes Transition Framing

namespace Sending

variable {κ : Type} {o : ByteOrder} {s s' : Sending κ}

/-- The packages whose write was started, in that order. -/
def issued (s : Sending κ) : List Package := s.completed.map Prod.fst ++ s.writing

/-- A package that was made: it is accepted, or a thread is in the dispatch slot with it. -/
def Made (s : Sending κ) (p : Package) : Prop :=
  p ∈ s.accepted ∨ ∃ t, s.threads t = .dispatch p

/-- The steps of threads that are in the dispatch slot or in the write handler. -/
inductive ThreadAct : SendAct → Prop where
  | enter (t : Nat) : ThreadAct (.enter t)
  | leave (t : Nat) : ThreadAct (.leave t)
  | complete (t i : Nat) : ThreadAct (.complete t i)

theorem pending_eq_some {t : Nat} {p : Package} : s.pending t = some p ↔ s.threads t = .dispatch p := by
  unfold pending
  cases s.threads t <;> simp

theorem Inv.issued_prefix (h : s.Inv) : s.issued <+: s.accepted :=
  ⟨s.conn.packages, h.accounted.symm⟩

/-- What a step of a thread does to the socket: nothing, it starts the one write, or it takes the result
    of the one write. -/
inductive Moved (s s' : Sending κ) : Prop where
  | kept (hw : s'.writes = s.writes) (hc : s'.completed = s.completed)
  | started (pkg : Package) (hw : s.writes = [])
      (hw' : s'.writes = [{ pkg := pkg, result := s.conn.socket.startResult }])
      (hc : s'.completed = s.completed)
  | finished (pkg : Package) (err : ErrorCode) (hw : s.writes = [{ pkg := pkg, result := some err }])
      (hw' : s'.writes = []) (hc : s'.completed = s.completed ++ [(pkg, err)])

theorem writes_eq_nil (h : s.writing = []) : s.writes = [] := List.map_eq_nil_iff.mp h

theorem step_moved {a : SendAct} (hi : s.Inv) (ha : ThreadAct a) (hs : step o s a = some s') :
    s.Moved s' ∧ s'.conn.socket.isOpen = s.conn.socket.isOpen := by
  cases step_cases hs with
  | createPackage | result | close | closeThrows => cases ha
  | dispatch t pkg hm ht =>
    by_cases hl : s.conn.socketLocked = true
    · have hd := Connection.dispatchLocked_of_locked pkg hl
      exact ⟨.kept (by simp [writes, hd]) rfl, by simp [hd]⟩
    · have hl' : s.conn.socketLocked = false := by simpa using hl
      have hw := writes_eq_nil (hi.phase.of_unlocked hl').1
      have hd := Connection.dispatchLocked_of_unlocked pkg hl'
      refine ⟨.started pkg hw ?_ rfl, by simp [hd, Connection.sendPackage, Socket.asyncWrite]⟩
      rw [writes] at hw
      simp [writes, hd, hw]
  | writeHandler t hm ht =>
    have hw := writes_eq_nil (hi.phase.of_completing ht).1
    cases hp : s.conn.packages with
    | nil =>
      have hd := Connection.writeHandlerLocked_of_nil hp
      exact ⟨.kept (by simp [writes, hd]) rfl, by simp [hd]⟩
    | cons pkg packages =>
      have hd := Connection.writeHandlerLocked_of_cons hp
      refine ⟨.started pkg hw ?_ rfl, by simp [hd, Connection.sendPackage, Socket.asyncWrite]⟩
      rw [writes] at hw
      simp [writes, hd, hw]
  | leave t ht => exact ⟨.kept rfl rfl, rfl⟩
  | completeSuccess t i pkg err ht hi' he =>
    obtain ⟨rfl, hw, -⟩ := hi.phase.of_getElem? hi'
    exact ⟨.finished pkg err hw (by simp [writes, setWrites, hw]) rfl, rfl⟩
  | completeError t i pkg err emitted ht hi' he =>
    obtain ⟨rfl, hw, -⟩ := hi.phase.of_getElem? hi'
    exact ⟨.finished pkg err hw (by simp [writes, setWrites, hw]) rfl, rfl⟩

/-- The threads make no package and lose none. -/
theorem step_made {a : SendAct} (ha : ThreadAct a) (hs : step o s a = some s') :
    (∀ p, s'.Made p ↔ s.Made p) ∧ s'.next = s.next := by
  have hmove : ∀ {t : Nat} {x : Thread}, s'.accepted = s.accepted →
      s'.threads = Function.update s.threads t x → (∀ pkg, x ≠ .dispatch pkg) →
      (∀ pkg, s.threads t ≠ .dispatch pkg) → ∀ p, s'.Made p ↔ s.Made p := by
    intro t x hacc hth hx ht p
    have : ∀ t', s'.threads t' = .dispatch p ↔ s.threads t' = .dispatch p := by
      intro t'
      rw [hth]
      by_cases htt : t' = t
      · subst htt
        simp [hx, ht]
      · rw [Function.update_of_ne htt]
    simp only [Made, hacc, this]
  cases step_cases hs with
  | createPackage | result | close | closeThrows => cases ha
  | leave t ht | writeHandler t _ ht | completeSuccess t _ _ _ ht | completeError t _ _ _ _ ht =>
    exact ⟨hmove rfl rfl (by simp) (by simp [ht]), rfl⟩
  | dispatch t pkg hm ht =>
    refine ⟨fun p => ?_, rfl⟩
    constructor
    · rintro (hp | ⟨t', ht'⟩)
      · rcases List.mem_append.mp hp with hp | hp
        · exact .inl hp
        · rw [List.mem_singleton.mp hp]
          exact .inr ⟨t, ht⟩
      · obtain ⟨hp, -⟩ := pending_of_update (t := t) (by simp) rfl (pending_eq_some.mpr ht')
        exact .inr ⟨t', pending_eq_some.mp hp⟩
    · rintro (hp | ⟨t', ht'⟩)
      · exact .inl (List.mem_append_left _ hp)
      · by_cases htt : t' = t
        · subst htt
          rw [ht] at ht'
          cases ht'
          exact .inl (List.mem_append_right _ (List.mem_singleton_self _))
        · exact .inr ⟨t', by simp [htt, ht']⟩

end Sending

namespace Delivery

variable {κ : Type} {o : ByteOrder} {s s' : Delivery κ}

/-! ## What each step does -/

/-- The first `send` of an ostream by thread `t`. -/
def firstSend (o : ByteOrder) (s : Delivery κ) (t i : Nat) (st : OutStream) : Delivery κ :=
  { s with
    streams := Function.update s.streams i (some { st with os := { st.os with sended := true } })
    streamOf := Function.update s.streamOf s.sender.next i
    sender := { s.sender with
      threads := Function.update s.sender.threads t
        (.dispatch (Connection.createPackage o s.sender.next st.os.buffer))
      next := s.sender.next + 1 } }

/-- The steps, by what they change. -/
inductive Stepped (o : ByteOrder) (s : Delivery κ) : Delivery κ → Prop where
  | createStream (cmd : CommandType) (command : cmd.Value) (uid : UInt64) :
      Stepped o s { s with
        streams := Function.update s.streams s.nextStream (some
          { os := Ostream.construct o cmd command uid
            written := (Ostream.construct o cmd command uid).buffer
            alive := true })
        nextStream := s.nextStream + 1 }
  | write (i : Nat) (bs : List UInt8) (st : OutStream) (hi : s.streams i = some st)
      (hlen : st.os.buffer.length + bs.length < 2 ^ 64) :
      Stepped o s { s with streams := Function.update s.streams i (some { st with
        os := st.os.write bs
        written := if st.os.sended then st.written else st.written ++ bs }) }
  | resend (i : Nat) (st : OutStream) (alive : Bool) (hi : s.streams i = some st)
      (hs : st.os.sended = true) :
      Stepped o s { s with streams := Function.update s.streams i (some { st with alive := alive }) }
  | send (t i : Nat) (st : OutStream) (alive : Bool) (ht : s.sender.threads t = .idle)
      (hi : s.streams i = some st) (hs : st.os.sended = false) :
      Stepped o s (s.firstSend o t i { st with alive := alive })
  | thread (a : SendAct) (sender : Sending κ) (ha : Sending.ThreadAct a)
      (hs : s.sender.step o a = some sender) : Stepped o s { s with sender := sender }
  | transmit (i n : Nat) (pkg : Package)
      (hi : s.sender.writes[i]? = some { pkg := pkg, result := none })
      (hn : s.progress pkg.ptr + n ≤ pkg.bytes.length) :
      Stepped o s { s with
        progress := Function.update s.progress pkg.ptr (s.progress pkg.ptr + n)
        pipe := s.pipe ++ (pkg.bytes.drop (s.progress pkg.ptr)).take n }
  | result (i : Nat) (pkg : Package) (hi : s.sender.writes[i]? = some { pkg := pkg, result := none })
      (hp : s.progress pkg.ptr = pkg.bytes.length) :
      Stepped o s { s with
        sender := s.sender.setWrites (s.sender.writes.set i { pkg := pkg, result := some .success }) }
  | receive (i n : Nat) (op : ReadOp) (hi : s.peer.socket.reads[i]? = some op)
      (hr : op.result = none) (hn : n ≤ s.pipe.length) (he : op.buffer.length + n ≤ op.exactly) :
      Stepped o s { s.setReads (s.peer.socket.reads.set i
          { op with buffer := op.buffer ++ s.pipe.take n, result := none })
        with pipe := s.pipe.drop n }
  | readResult (i : Nat) (op : ReadOp) (hi : s.peer.socket.reads[i]? = some op)
      (hr : op.result = none) (he : op.buffer.length = op.exactly) :
      Stepped o s (s.setReads (s.peer.socket.reads.set i { op with result := some .success }))
  | readHandler (i : Nat) (op : ReadOp) (err : ErrorCode) (junk : Nat → UInt8)
      (hi : s.peer.socket.reads[i]? = some op) (hr : op.result = some err) :
      Stepped o s ((s.setReads (s.peer.socket.reads.eraseIdx i)).readHandler o op err junk)
  | slotReturn (hs : 0 < s.slots) :
      Stepped o s { s with slots := s.slots - 1, peer := s.peer.waitPackage }
  | peer (peer : Connection κ) (hp : peer.socket = s.peer.socket) : Stepped o s { s with peer := peer }

theorem usable_eq_some {t i : Nat} {st : OutStream} (h : s.usable t i = some st) :
    s.sender.threads t = .idle ∧ s.streams i = some st := by
  unfold usable at h
  split at h
  · rename_i st' ht hi
    split_ifs at h
    cases h
    exact ⟨ht, hi⟩
  · cases h

theorem senderStep_eq_some {a : SendAct} (h : s.senderStep o a = some s') :
    ∃ sender, s.sender.step o a = some sender ∧ s' = { s with sender := sender } := by
  obtain ⟨sender, hs, rfl⟩ := Option.map_eq_some_iff.mp h
  exact ⟨sender, hs, rfl⟩

theorem sendStream_cases {t i : Nat} {st : OutStream} (alive : Bool) (ht : s.sender.threads t = .idle)
    (hi : s.streams i = some st) (h : s.sendStream o t i { st with alive := alive } = some s') :
    Stepped o s s' := by
  unfold sendStream Ostream.send at h
  cases hs : st.os.sended with
  | true =>
    simp only [hs, if_true] at h
    cases h
    exact .resend i st alive hi hs
  | false =>
    simp only [hs, Bool.false_eq_true, if_false] at h
    obtain ⟨sender, hs', rfl⟩ := senderStep_eq_some h
    simp only [Sending.step, ht, if_true] at hs'
    cases hs'
    exact .send t i st alive ht hi hs

/-- No package describes storage that is freed. -/
def Intact (s : Delivery κ) : Prop := ∀ i, s.freed i = false

theorem freedBy_eq {i : Nat} {st : OutStream} {bs : List UInt8} {t : Nat}
    (hk : s.KeepsStorage (.write t i bs)) (hi : s.streams i = some st) : s.freedBy i st bs = s.freed := by
  unfold freedBy
  cases hs : st.os.sended with
  | false => rfl
  | true =>
    obtain ⟨hnot, hfits⟩ := hk st hi hs
    simp [hnot, hfits]

theorem step_cases {a : DeliveryAct κ} (hintact : s.Intact) (hk : s.KeepsStorage a)
    (h : step o s a = some s') : Stepped o s s' := by
  cases a with
  | createStream t cmd command uid =>
    simp only [step] at h
    split_ifs at h
    cases h
    exact .createStream cmd command uid
  | write t i bs =>
    simp only [step] at h
    split at h
    · rename_i st hu
      by_cases hlen : st.os.buffer.length + bs.length < 2 ^ 64
      · have hi := (usable_eq_some hu).2
        rw [if_pos hlen, freedBy_eq hk hi] at h
        cases h
        exact .write i bs st hi hlen
      · rw [if_neg hlen] at h
        cases h
    · cases h
  | send t i =>
    obtain ⟨st, hu, h⟩ := Option.bind_eq_some_iff.mp h
    obtain ⟨ht, hi⟩ := usable_eq_some hu
    exact sendStream_cases st.alive ht hi h
  | destroy t i =>
    obtain ⟨st, hu, h⟩ := Option.bind_eq_some_iff.mp h
    obtain ⟨ht, hi⟩ := usable_eq_some hu
    exact sendStream_cases false ht hi h
  | enter t =>
    obtain ⟨sender, hs, rfl⟩ := senderStep_eq_some h
    exact .thread _ sender (.enter t) hs
  | leave t =>
    obtain ⟨sender, hs, rfl⟩ := senderStep_eq_some h
    exact .thread _ sender (.leave t) hs
  | complete t i =>
    obtain ⟨sender, hs, rfl⟩ := senderStep_eq_some h
    exact .thread _ sender (.complete t i) hs
  | transmit i n junk =>
    simp only [step] at h
    split at h
    · rename_i pkg hi
      split_ifs at h with hn
      rw [hintact, Package.bytesIn_false] at h
      cases h
      exact .transmit i n pkg hi hn
    · cases h
  | result i =>
    simp only [step] at h
    split at h
    · rename_i op hi
      split_ifs at h with hp
      obtain ⟨sender, hs, rfl⟩ := senderStep_eq_some h
      simp only [Sending.step, hi] at hs
      split at hs
      · rename_i pkg hop
        cases hop
        cases hs
        exact .result i pkg hi hp
      · cases hs
    · cases h
  | receive i n =>
    simp only [step] at h
    split at h
    · rename_i hi
      split_ifs at h with hn
      cases h
      exact .receive i n _ hi rfl hn.1 hn.2
    · cases h
  | readResult i =>
    simp only [step] at h
    split at h
    · rename_i hi
      split_ifs at h with he
      cases h
      exact .readResult i _ hi rfl he
    · cases h
  | readHandler i junk =>
    simp only [step] at h
    split at h
    · rename_i hi
      cases h
      exact .readHandler i _ _ junk hi rfl
    · cases h
  | slotReturn =>
    simp only [step] at h
    split_ifs at h with hs
    cases h
    exact .slotReturn hs
  | peerCreateStream cmd command cb =>
    cases cb with
    | some cb =>
      cases h
      exact .peer _ rfl
    | none =>
      cases h
      exact .peer _ rfl

theorem Stepped.intact (hs : Stepped o s s') (h : s.Intact) : s'.Intact := by
  cases hs with
  | readHandler i op err junk hi hr =>
    unfold Delivery.readHandler
    split <;> exact h
  | _ => exact h

end Delivery

end Lnetlib
