import Lnetlib.Connection.Progress
import Lnetlib.Connection.Proofs.DeliveryProofs

/-!
# Proofs: everything that is sent arrives

Each step of the machine makes the load smaller, and where none is enabled the peer has handled all that was
sent.
-/

namespace Lnetlib

open Bytes Transition

variable {κ : Type} {o : ByteOrder}

namespace Sending

variable {s s' : Sending κ}

open Delivery (threadLoad writeLoad sendLoad)

/-- Finitely many threads are in a dispatch slot or in a write handler. -/
def FewBusy (s : Sending κ) : Prop := {t | s.threads t ≠ .idle}.Finite

theorem FewBusy.update (h : s.FewBusy) {t : Nat} {x : Thread}
    (hth : s'.threads = Function.update s.threads t x) : s'.FewBusy := by
  refine (h.insert t).subset fun u hu => ?_
  by_cases hut : u = t
  · exact .inl hut
  · right
    rw [Set.mem_ofPred_eq, hth, Function.update_of_ne hut] at hu
    exact hu

theorem FewBusy.step {a : SendAct} (h : s.FewBusy) (hs : s.step o a = some s') : s'.FewBusy := by
  cases step_cases hs with
  | createPackage | dispatch | writeHandler | leave | completeSuccess | completeError => exact h.update rfl
  | result | close | closeThrows => exact h

/-- The load of the threads when one of them goes on. -/
theorem FewBusy.threadLoad_update (h : s.FewBusy) {t : Nat} {y : Thread} (ht : s.threads t = y)
    (x : Thread) : ∑ᶠ u, threadLoad (Function.update s.threads t x u) + threadLoad y =
      ∑ᶠ u, threadLoad (s.threads u) + threadLoad x := by
  have hfin : (fun u => threadLoad (s.threads u)).support.Finite := by
    refine h.subset fun u hu => ?_
    rintro hidle
    rw [Function.mem_support, hidle] at hu
    exact hu rfl
  rw [← finsum_update _ hfin t, ht]
  congr 1
  refine finsum_congr fun u => ?_
  by_cases hut : u = t
  · subst hut
    rw [Function.update_self, Function.update_self]
  · rw [Function.update_of_ne hut, Function.update_of_ne hut]

theorem writeLoad_le (progress : Nat → Nat) (op : WriteOp) : writeLoad progress op ≤ 20 * op.pkg.bytes.length + 5 := by
  unfold Delivery.writeLoad
  split <;> omega

theorem writeLoad_result (progress : Nat → Nat) (op : WriteOp) : 4 ≤ writeLoad progress op := by
  unfold Delivery.writeLoad
  split <;> omega

/-- A step of a thread. -/
theorem sendLoad_thread (progress : Nat → Nat) {a : SendAct} (hi : s.Inv) (hfew : s.FewBusy) (ha : ThreadAct a)
    (hs : s.step o a = some s') : sendLoad progress s' < sendLoad progress s := by
  unfold Delivery.sendLoad
  cases step_cases hs with
  | createPackage | result | close | closeThrows => cases ha
  | dispatch t pkg hm ht =>
    have hsum : ∑ᶠ u, threadLoad (Function.update s.threads t .unlock u) + (20 * pkg.bytes.length + 7) =
        ∑ᶠ u, threadLoad (s.threads u) + 1 := hfew.threadLoad_update ht .unlock
    by_cases hl : s.conn.socketLocked = true
    · simp only [writes, Connection.dispatchLocked_of_locked pkg hl, List.map_append, List.map_cons,
        List.map_nil, List.sum_append, List.sum_cons, List.sum_nil]
      omega
    · have hl' : s.conn.socketLocked = false := by simpa using hl
      have hop := writeLoad_le progress
        { pkg := pkg, result := s.conn.socket.startResult }
      simp only [writes, Connection.dispatchLocked_of_unlocked pkg hl', Connection.sendPackage_packages,
        Connection.sendPackage_writes, List.map_append, List.map_cons, List.map_nil, List.sum_append,
        List.sum_cons, List.sum_nil]
      dsimp only at hop
      omega
  | writeHandler t hm ht =>
    have hsum : ∑ᶠ u, threadLoad (Function.update s.threads t .unlock u) + 3 =
        ∑ᶠ u, threadLoad (s.threads u) + 1 := hfew.threadLoad_update ht .unlock
    cases hp : s.conn.packages with
    | nil =>
      simp only [writes, Connection.writeHandlerLocked_of_nil hp, hp, List.map_nil, List.sum_nil]
      omega
    | cons pkg packages =>
      have hop := writeLoad_le progress
        { pkg := pkg, result := s.conn.socket.startResult }
      simp only [writes, Connection.writeHandlerLocked_of_cons hp, Connection.sendPackage_packages,
        Connection.sendPackage_writes, List.map_append, List.map_cons, List.map_nil, List.sum_append,
        List.sum_cons, List.sum_nil]
      dsimp only [Socket.startResult] at hop ⊢
      omega
  | leave t ht =>
    have hsum : ∑ᶠ u, threadLoad (Function.update s.threads t .idle u) + 1 =
        ∑ᶠ u, threadLoad (s.threads u) + 0 := hfew.threadLoad_update ht .idle
    simp only [writes]
    omega
  | completeSuccess t i pkg err ht hi' he =>
    obtain ⟨rfl, hw, -⟩ := hi.phase.of_getElem? hi'
    have hsum : ∑ᶠ u, threadLoad (Function.update s.threads t .writeHandler u) + 0 =
        ∑ᶠ u, threadLoad (s.threads u) + 3 := hfew.threadLoad_update ht .writeHandler
    have hop := writeLoad_result progress { pkg := pkg, result := some err }
    simp only [setWrites, hw, List.eraseIdx_cons_zero, List.map_cons, List.map_nil, List.sum_cons,
      List.sum_nil, writes]
    omega
  | completeError t i pkg err emitted ht hi' he =>
    obtain ⟨rfl, hw, -⟩ := hi.phase.of_getElem? hi'
    have hsum : ∑ᶠ u, threadLoad (Function.update s.threads t .idle u) + 0 =
        ∑ᶠ u, threadLoad (s.threads u) + 0 := hfew.threadLoad_update ht .idle
    have hop := writeLoad_result progress { pkg := pkg, result := some err }
    simp only [setWrites, hw, List.eraseIdx_cons_zero, List.map_cons, List.map_nil, List.sum_cons,
      List.sum_nil, writes]
    omega

end Sending

namespace Delivery

variable {s s' : Delivery κ}

/-! ## What the load rests on -/

/-- What holds in every state besides `Inv`. -/
structure Tidy (o : ByteOrder) (s : Delivery κ) : Prop where
  inv : s.Inv o
  few : s.sender.FewBusy
  progress : ∀ op ∈ s.sender.writes, s.progress op.pkg.ptr ≤ op.pkg.bytes.length

theorem tidy_init : Tidy o (init κ) where
  inv := inv_init
  few := by
    refine Set.finite_empty.subset fun t ht => ?_
    exact absurd rfl ht
  progress := by
    intro op hop
    cases hop

/-- Nothing of a package is in the pipe before its write is started. -/
theorem Inv.progress_started {sender : Sending κ} {a : SendAct} {pkg : Package} {r : Option ErrorCode}
    (h : s.Inv o) (hs : s.sender.step o a = some sender) (hw : s.sender.writes = [])
    (hw' : sender.writes = [{ pkg := pkg, result := r }])
    (hc : sender.completed = s.sender.completed) : s.progress pkg.ptr = 0 := by
  have hi' := Sending.inv_step h.sender hs
  have hnd := hi'.distinct.accepted_nodup
  have hacc : sender.accepted = s.sender.issued ++ pkg :: sender.conn.packages := by
    rw [hi'.accounted]
    simp [Sending.issued, Sending.writing, hw, hw', hc]
  rw [hacc, List.map_append, List.map_cons, List.nodup_append] at hnd
  by_contra hne
  exact hnd.2.2 _ (h.wire.started _ hne) _ List.mem_cons_self rfl

theorem tidy_step {a : DeliveryAct κ} (h : s.Tidy o) (hk : s.KeepsStorage a)
    (hs : step o s a = some s') : s'.Tidy o := by
  have hinv : s'.Inv o := inv_step h.inv hk hs
  cases step_cases h.inv.intact hk hs with
  | createStream | write | resend | receive | readResult | slotReturn | peer =>
    exact ⟨hinv, h.few, h.progress⟩
  | readHandler i op err junk hi hr =>
    refine ⟨hinv, ?_, ?_⟩
    · unfold readHandler
      split <;> exact h.few
    · unfold readHandler
      split <;> exact h.progress
  | send t i st alive ht hi hs' => exact ⟨hinv, h.few.update rfl, h.progress⟩
  | thread a sender ha hs' =>
    refine ⟨hinv, h.few.step hs', fun op hop => ?_⟩
    cases (Sending.step_moved h.inv.sender ha hs').1 with
    | kept hw hc => exact h.progress op (hw ▸ hop)
    | started pkg hw hw' hc =>
      rw [show sender.writes = _ from hw'] at hop
      obtain rfl := List.mem_singleton.mp hop
      have hzero := h.inv.progress_started hs' hw hw' hc
      show s.progress pkg.ptr ≤ _
      omega
    | finished pkg err hw hw' hc =>
      rw [show sender.writes = _ from hw'] at hop
      cases hop
  | transmit i n pkg hi hn =>
    refine ⟨hinv, h.few, fun op hop => ?_⟩
    show Function.update s.progress pkg.ptr (s.progress pkg.ptr + n) op.pkg.ptr ≤ _
    obtain ⟨rfl, hw, -⟩ := h.inv.sender.phase.of_getElem? hi
    rw [show s.sender.writes = _ from hw] at hop
    obtain rfl := List.mem_singleton.mp hop
    rw [Function.update_self]
    exact hn
  | result i pkg hi hp =>
    refine ⟨hinv, h.few, fun op hop => ?_⟩
    obtain ⟨rfl, hw, -⟩ := h.inv.sender.phase.of_getElem? hi
    have hop' : op ∈ s.sender.writes.set 0 { pkg := pkg, result := some .success } := hop
    rw [hw] at hop'
    obtain rfl := List.mem_singleton.mp hop'
    exact Nat.le_of_eq hp

/-! ## The steps of the machine -/

/-- The steps of the machine, by what they change. -/
inductive Worked (o : ByteOrder) (s : Delivery κ) : Delivery κ → Prop where
  | thread (a : SendAct) (sender : Sending κ) (ha : Sending.ThreadAct a)
      (hs : s.sender.step o a = some sender) : Worked o s { s with sender := sender }
  | transmit (i n : Nat) (pkg : Package)
      (hi : s.sender.writes[i]? = some { pkg := pkg, result := none })
      (hpos : 0 < n) (hn : s.progress pkg.ptr + n ≤ pkg.bytes.length) :
      Worked o s { s with
        progress := Function.update s.progress pkg.ptr (s.progress pkg.ptr + n)
        pipe := s.pipe ++ (pkg.bytes.drop (s.progress pkg.ptr)).take n }
  | result (i : Nat) (pkg : Package) (hi : s.sender.writes[i]? = some { pkg := pkg, result := none }) :
      Worked o s { s with
        sender := s.sender.setWrites (s.sender.writes.set i { pkg := pkg, result := some .success }) }
  | receive (i n : Nat) (op : ReadOp) (hi : s.peer.socket.reads[i]? = some op)
      (hr : op.result = none) (hpos : 0 < n) (hn : n ≤ s.pipe.length) :
      Worked o s { s.setReads (s.peer.socket.reads.set i
          { op with buffer := op.buffer ++ s.pipe.take n, result := none })
        with pipe := s.pipe.drop n }
  | readResult (i : Nat) (op : ReadOp) (hi : s.peer.socket.reads[i]? = some op)
      (hr : op.result = none) (he : op.buffer.length = op.exactly) :
      Worked o s (s.setReads (s.peer.socket.reads.set i { op with result := some .success }))
  | readHandler (i : Nat) (op : ReadOp) (err : ErrorCode) (junk : Nat → UInt8)
      (hi : s.peer.socket.reads[i]? = some op) (hr : op.result = some err) :
      Worked o s ((s.setReads (s.peer.socket.reads.eraseIdx i)).readHandler o op err junk)
  | slotReturn (hs : 0 < s.slots) :
      Worked o s { s with slots := s.slots - 1, peer := s.peer.waitPackage }

/-- The machine writes to no ostream. -/
theorem keepsStorage_of_machine {a : DeliveryAct κ} (ha : Machine a) : s.KeepsStorage a := by
  cases a with
  | write => cases ha
  | _ => trivial

theorem machine_cases {a : DeliveryAct κ} (hintact : s.Intact) (ha : Machine a)
    (h : step o s a = some s') : Worked o s s' := by
  cases a with
  | createStream | write | send | destroy | peerCreateStream => cases ha
  | enter t =>
    obtain ⟨sender, hs, rfl⟩ := senderStep_eq_some h
    exact .thread _ sender (.enter t) hs
  | leave t =>
    obtain ⟨sender, hs, rfl⟩ := senderStep_eq_some h
    exact .thread _ sender (.leave t) hs
  | complete t i =>
    obtain ⟨sender, hs, rfl⟩ := senderStep_eq_some h
    exact .thread _ sender (.complete t i) hs
  | transmit i n junk =>
    simp only [step] at h
    split at h
    · rename_i pkg hi
      split_ifs at h with hn
      rw [hintact, Package.bytesIn_false] at h
      cases h
      exact .transmit i n pkg hi ha hn
    · cases h
  | result i =>
    simp only [step] at h
    split at h
    · rename_i op hi
      split_ifs at h with hp
      obtain ⟨sender, hs, rfl⟩ := senderStep_eq_some h
      simp only [Sending.step, hi] at hs
      split at hs
      · rename_i pkg hop
        cases hop
        cases hs
        exact .result i pkg hi
      · cases hs
    · cases h
  | receive i n =>
    simp only [step] at h
    split at h
    · rename_i hi
      split_ifs at h with hn
      cases h
      exact .receive i n _ hi rfl ha hn.1
    · cases h
  | readResult i =>
    simp only [step] at h
    split at h
    · rename_i hi
      split_ifs at h with he
      cases h
      exact .readResult i _ hi rfl he
    · cases h
  | readHandler i junk =>
    simp only [step] at h
    split at h
    · rename_i hi
      cases h
      exact .readHandler i _ _ junk hi rfl
    · cases h
  | slotReturn =>
    simp only [step] at h
    split_ifs at h with hs
    cases h
    exact .slotReturn hs

theorem readLoad_le (op : ReadOp) : readLoad op ≤ 6 := by
  unfold readLoad
  split
  · split <;> omega
  · omega
  · split <;> omega
  · omega

/-- A read that has got all its bytes completes. -/
theorem readLoad_result {op : ReadOp} (hr : op.result = none) (he : op.buffer.length = op.exactly) :
    readLoad { op with result := some .success } < readLoad op := by
  unfold readLoad
  cases hh : op.handler <;> simp [hr, he]

/-- The handler of a read starts the read of a body, which has no bytes yet, or it runs a slot. -/
theorem load_readHandler {i : Nat} {op : ReadOp} {err : ErrorCode} {junk : Nat → UInt8} (h : s.Inv o)
    (hi : s.peer.socket.reads[i]? = some op) (hr : op.result = some err)
    (h' : ((s.setReads (s.peer.socket.reads.eraseIdx i)).readHandler o op err junk).Inv o) :
    ((s.setReads (s.peer.socket.reads.eraseIdx i)).readHandler o op err junk).load < s.load := by
  obtain ⟨got, hreading, hpre, heq⟩ := h.wire.reading
  obtain ⟨rfl, hreads, hs, ⟨-, htake⟩, hcase⟩ := hreading.of_getElem? hi
  obtain ⟨rfl, hlen⟩ := htake err hr
  have herase : s.peer.socket.reads.eraseIdx 0 = [] := by rw [hreads]; rfl
  rw [herase] at h' ⊢
  rcases hcase with ⟨hh, hex, rfl⟩ | ⟨b, cs, hh, hb, hex, rfl⟩
  · have hne : op.buffer.length ≠ 0 := by omega
    have hgoes := Connection.readPackageSizeHandler_success o op.buffer hne (s.setReads []).peer
    have hopen : s.peer.socket.isOpen = true := h.wire.peerOpen
    have hload : readLoad op = 2 := by simp [readLoad, hh, hr]
    unfold Delivery.readHandler at h' ⊢
    rw [hh] at h' ⊢
    simp only [hgoes] at h' ⊢
    -- the size that was read is that of a body, which is not empty
    obtain ⟨got', hreading', -, -⟩ := h'.wire.reading
    have hstarted : (Connection.waitPackageBody (Connection.packageSize o op.buffer)
        (s.setReads []).peer).socket.reads[0]? =
        some ⟨.readPackageBodyHandler, (Connection.packageSize o op.buffer).toNat, [], none⟩ := by
      simp [Connection.waitPackageBody, Socket.asyncRead, Socket.startResult, setReads, hopen]
    obtain ⟨-, -, -, -, hcase'⟩ := hreading'.of_getElem? hstarted
    rcases hcase' with ⟨hsize, -⟩ | ⟨b, cs, -, hb, hex', -⟩
    · cases hsize
    have hlong := (h'.streams.bodies_length h'.sender (b := b) (by rw [hb]; simp)).1
    dsimp only at hex'
    have hpos : ¬ 0 = (Connection.packageSize o op.buffer).toNat := by omega
    have hnew : readLoad ⟨.readPackageBodyHandler, (Connection.packageSize o op.buffer).toNat, [],
        none⟩ = 1 := if_neg hpos
    simp only [load, hreads, List.map_cons, List.map_nil, List.sum_cons, List.sum_nil, hload,
      Connection.waitPackageBody, Socket.asyncRead, Socket.startResult, setReads, hopen, if_true,
      List.nil_append, hnew]
    omega
  · have hlong := (h.streams.bodies_length h.sender (b := b) (by rw [hb]; simp)).1
    have hne : op.buffer.length ≠ 0 := by omega
    obtain ⟨hsocket, hgoes⟩ := Connection.readPackageBodyHandler_success o junk op.buffer hne
      (s.setReads []).peer
    have hload : readLoad op = 5 := by simp [readLoad, hh, hr]
    unfold Delivery.readHandler
    rw [hh]
    simp only [load, hgoes, if_true, hreads, List.map_cons, List.map_nil, List.sum_cons, List.sum_nil,
      hload]
    rw [hsocket]
    simp only [setReads, List.map_nil, List.sum_nil]
    omega

theorem load_decreases {a : DeliveryAct κ} (h : s.Tidy o) (ha : Machine a) (hs : step o s a = some s') :
    s'.load < s.load := by
  have h' : s'.Inv o := inv_step h.inv (keepsStorage_of_machine ha) hs
  cases machine_cases h.inv.intact ha hs with
  | thread b sender hb hs' =>
    have hlt := Sending.sendLoad_thread s.progress h.inv.sender h.few hb hs'
    simp only [load]
    omega
  | transmit i n pkg hi hpos hn =>
    obtain ⟨rfl, hw, -⟩ := h.inv.sender.phase.of_getElem? hi
    have htaken : ((pkg.bytes.drop (s.progress pkg.ptr)).take n).length = n := by
      rw [List.length_take, List.length_drop]
      omega
    simp only [load, sendLoad, hw, List.map_cons, List.map_nil, List.sum_cons, List.sum_nil, writeLoad,
      Function.update_self, List.length_append, htaken, if_true]
    omega
  | result i pkg hi =>
    obtain ⟨rfl, hw, -⟩ := h.inv.sender.phase.of_getElem? hi
    simp only [load, sendLoad, Sending.setWrites, Sending.writes] at hw ⊢
    simp only [hw, List.set_cons_zero, List.map_cons, List.map_nil, List.sum_cons, List.sum_nil,
      writeLoad, if_true, reduceCtorEq, if_false]
    omega
  | receive i n op hi hr hpos hn =>
    obtain ⟨got, hreading, -⟩ := h.inv.wire.reading
    obtain ⟨rfl, hreads, -⟩ := hreading.of_getElem? hi
    have hle := readLoad_le { op with buffer := op.buffer ++ s.pipe.take n, result := none }
    simp only [load, hreads, setReads, List.set_cons_zero, List.map_cons, List.map_nil, List.sum_cons,
      List.sum_nil, List.length_drop]
    omega
  | readResult i op hi hr he =>
    obtain ⟨got, hreading, -⟩ := h.inv.wire.reading
    obtain ⟨rfl, hreads, -⟩ := hreading.of_getElem? hi
    have hlt := readLoad_result hr he
    simp only [load, hreads, setReads, List.set_cons_zero, List.map_cons, List.map_nil, List.sum_cons,
      List.sum_nil]
    omega
  | readHandler i op err junk hi hr => exact load_readHandler h.inv hi hr h'
  | slotReturn hs' =>
    obtain ⟨got, hreading, -⟩ := h.inv.wire.reading
    have hopen := h.inv.wire.peerOpen
    cases hreading with
    | size op hr hs₀ | body op b cs hr hs₀ => omega
    | slot hr hs₀ =>
      simp only [load, Connection.waitPackage, Socket.asyncRead, Socket.startResult, hr, hopen, if_true,
        List.nil_append, List.map_cons, List.map_nil, List.sum_cons, List.sum_nil, readLoad,
        List.length_nil]
      have hsize : ¬ 0 = sizeof UInt64 := by decide
      rw [if_neg hsize]
      omega

/-! ## Where the machine stops -/

/-- A machine that has stopped leaves no thread in a dispatch slot or in a write handler. -/
theorem idle_of_stuck (h : s.Tidy o) (hstuck : Stuck (step o) Machine s) (t : Nat) :
    s.sender.threads t = .idle := by
  have hleave : ∀ u, s.sender.threads u ≠ .unlock := by
    intro u hu
    have hnone := hstuck (.leave u) trivial
    simp [step, senderStep, Sending.step, hu] at hnone
  have hmutex : s.sender.mutex = none := by
    cases hm : s.sender.mutex with
    | none => rfl
    | some u => exact absurd (h.inv.sender.mutex u hm) (hleave u)
  have hnone := hstuck (.enter t) trivial
  simp only [step, senderStep, Sending.step, hmutex, if_true, Option.map_eq_none_iff] at hnone
  cases ht : s.sender.threads t with
  | idle => rfl
  | unlock => exact absurd ht (hleave t)
  | dispatch pkg => simp [ht] at hnone
  | writeHandler => simp [ht] at hnone

/-- It has written everything. -/
theorem noWriteOutstanding_of_stuck (h : s.Tidy o) (hstuck : Stuck (step o) Machine s) :
    s.NoWriteOutstanding := by
  have hidle := idle_of_stuck h hstuck
  refine ⟨?_, fun t ht => by rw [hidle t] at ht; cases ht⟩
  by_contra hne
  obtain ⟨op, ops, hw⟩ := List.exists_cons_of_ne_nil hne
  have h0 : s.sender.writes[0]? = some op := by rw [hw]; rfl
  have hle := h.progress op (by rw [hw]; exact List.mem_cons_self)
  obtain ⟨pkg, result⟩ := op
  dsimp only at hle
  cases result with
  | some err =>
    have hnone := hstuck (.complete 0 0) trivial
    simp [step, senderStep, Sending.step, hidle, h0] at hnone
  | none =>
    by_cases hall : s.progress pkg.ptr = pkg.bytes.length
    · have hnone := hstuck (.result 0) trivial
      simp [step, h0, hall, senderStep, Sending.step] at hnone
    · have hnone := hstuck (.transmit 0 1 fun _ => 0) Nat.zero_lt_one
      have hroom : s.progress pkg.ptr + 1 ≤ pkg.bytes.length := by omega
      simp [step, h0, hroom] at hnone

/-- And the peer has read everything. -/
theorem consumed_of_stuck (h : s.Tidy o) (hstuck : Stuck (step o) Machine s) : s.Consumed := by
  obtain ⟨got, hreading, -, -⟩ := h.inv.wire.reading
  -- a read that has completed has a handler to run, and one that has all its bytes completes
  have hone : ∀ op, s.peer.socket.reads = [op] → Taking op → s.Consumed := by
    rintro ⟨handler, exactly, buffer, result⟩ hr ⟨hle, -⟩
    have h0 : s.peer.socket.reads[0]? = some ⟨handler, exactly, buffer, result⟩ := by rw [hr]; rfl
    dsimp only at hle
    cases result with
    | some err =>
      have hnone := hstuck (.readHandler 0 fun _ => 0) trivial
      simp [step, h0] at hnone
    | none =>
      have hshort : buffer.length < exactly := by
        by_contra hfull
        have hall : buffer.length = exactly := by omega
        have hnone := hstuck (.readResult 0) trivial
        simp [step, h0, hall] at hnone
      refine ⟨?_, fun op hop => ?_⟩
      · by_contra hpipe
        have hn : 1 ≤ s.pipe.length := List.length_pos_iff.mpr hpipe
        have hroom : buffer.length + 1 ≤ exactly := hshort
        have hnone := hstuck (.receive 0 1) Nat.zero_lt_one
        simp [step, h0, hn, hroom] at hnone
      · rw [hr] at hop
        obtain rfl := List.mem_singleton.mp hop
        exact hshort
  cases hreading with
  | size op hr hs hh he ht => exact hone op hr ht
  | body op b cs hr hs hh hb he ht => exact hone op hr ht
  | slot hr hs =>
    have hnone := hstuck .slotReturn trivial
    simp [step, hs] at hnone

/-- The machine sends nothing by itself. -/
theorem streams_of_machine {a : DeliveryAct κ} (hintact : s.Intact) (ha : Machine a)
    (hs : step o s a = some s') : s'.streams = s.streams := by
  cases machine_cases hintact ha hs with
  | readHandler i op err junk hi hr =>
    unfold readHandler
    split <;> rfl
  | _ => rfl

/-- **Everything that is sent arrives** where what is written to a sent ostream keeps the storage. However the steps of the machine are ordered, there is a bound on
    how many it takes before it stops; it can always be run until it stops; and then the peer has handled
    one body for each ostream that was sent, all that was written to it before. -/
theorem machine_delivers (as : List (DeliveryAct κ)) (hr : run (step o) (init κ) as = some s)
    (hk : Meets (step o) KeepsStorage (init κ) as) :
    (∃ bound, ∀ bs s', (∀ b ∈ bs, Machine b) → run (step o) s bs = some s' → bs.length ≤ bound) ∧
    (∃ bs s', (∀ b ∈ bs, Machine b) ∧ run (step o) s bs = some s' ∧ Stuck (step o) Machine s') ∧
    ∀ bs s', (∀ b ∈ bs, Machine b) → run (step o) s bs = some s' → Stuck (step o) Machine s' →
      ∃ ids : List Nat, ids.Nodup ∧ s'.handled = ids.map s.writtenTo ∧ ∀ i, i ∈ ids ↔ s.Sent i := by
  have hthrough : Throughout (step o) (Tidy o) (init κ) as :=
    throughout_of_meets (fun _ h => h) (fun _ _ _ h hk hs => tidy_step h hk hs) tidy_init hk
  have htidy : s.Tidy o := hthrough.last hr
  have hdec : Decreases (step o) Machine (fun x : Delivery κ => x.Tidy o ∧ x.streams = s.streams)
      load :=
    { invariant := fun x b x' hx hb hs =>
        ⟨tidy_step hx.1 (keepsStorage_of_machine hb) hs,
          (streams_of_machine hx.1.inv.intact hb hs).trans hx.2⟩
      decreases := fun x b x' hx hb hs => load_decreases hx.1 hb hs }
  refine ⟨⟨s.load, fun bs s' hbs hrun => ?_⟩, hdec.exists_stuck ⟨htidy, rfl⟩, ?_⟩
  · have hle := (hdec.length_add_le ⟨htidy, rfl⟩ hbs hrun).1
    omega
  · intro bs s' hbs hrun hstuck
    obtain ⟨htidy', hstreams⟩ := (hdec.length_add_le ⟨htidy, rfl⟩ hbs hrun).2
    have hidle := idle_of_stuck htidy' hstuck
    have hall : s'.handled = s'.accepted :=
      htidy'.inv.handled_eq (noWriteOutstanding_of_stuck htidy' hstuck) (consumed_of_stuck htidy' hstuck)
    obtain ⟨ids, hnodup, hacc, hids⟩ := htidy'.inv.contributions
    have hwritten : s'.writtenTo = s.writtenTo := by
      funext i
      simp only [writtenTo, hstreams]
    refine ⟨ids, hnodup, by rw [hall, hacc, hwritten], fun i => ?_⟩
    rw [hids i, Dispatched, hstreams]
    constructor
    · exact fun h => h.1
    · refine fun h => ⟨h, fun t pkg ht => ?_⟩
      rw [hidle t] at ht
      cases ht

/-- From the middle of the run of two threads, with the second package in the queue. -/
theorem machine_delivers_two_threads :
    ∃ s : Delivery Unit, run (step .little) (init Unit) (twoThreads.take 12) = some s ∧
      s.handled = [] ∧ ∃ bs s', (∀ b ∈ bs, Machine b) ∧ run (step .little) s bs = some s' ∧
        Stuck (step .little) Machine s' := by
  obtain ⟨s, hr, hs⟩ : ∃ s, run (step .little) (init Unit) (twoThreads.take 12) = some s ∧
      s.handled = [] := Option.map_eq_some_iff.mp rfl
  exact ⟨s, hr, hs, (machine_delivers _ hr (by decide +kernel)).2.1⟩

end Delivery

end Lnetlib
