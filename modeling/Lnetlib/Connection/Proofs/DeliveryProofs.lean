import Lnetlib.Connection.Proofs.DeliveryWireProofs

/-!
# End-to-end FIFO delivery

The packages are made of the ostreams (`Streams`) and the byte stream is made of the packages (`Wire`), so
the two sides together are a FIFO channel, and what comes out at the end of it is what went in.
-/

namespace Lnetlib

open Bytes Transition Framing

namespace Delivery

variable {κ : Type} {o : ByteOrder} {s s' : Delivery κ}

/-! ## The invariant -/

/-- The inductive invariant. -/
structure Inv (o : ByteOrder) (s : Delivery κ) : Prop where
  sender : s.sender.Inv
  streams : Streams o s
  wire : Wire o s
  intact : s.Intact

theorem inv_init : Inv o (init κ) := ⟨Sending.inv_init, streams_init, wire_init, fun _ => rfl⟩

theorem step_sender (h : s.sender.Inv) (hs : Stepped o s s') : s'.sender.Inv := by
  cases hs with
  | createStream | write | resend | transmit | receive | readResult | slotReturn | peer => exact h
  | send t i st alive ht hst hs =>
    have hstep : s.sender.step o (.createPackage t st.os.buffer) =
        some (s.firstSend o t i { st with alive := alive }).sender := by
      simp only [Sending.step, ht, if_true]
      rfl
    exact Sending.inv_step h hstep
  | thread a sender ha hs => exact Sending.inv_step h hs
  | result i pkg hw hp =>
    have hstep : s.sender.step o (.result i .success) = some (s.sender.setWrites
        (s.sender.writes.set i { pkg := pkg, result := some .success })) := by
      simp only [Sending.step, hw]
    exact Sending.inv_step h hstep
  | readHandler i op err junk hi hr =>
    unfold Delivery.readHandler
    split <;> exact h

theorem inv_step {a : DeliveryAct κ} (h : s.Inv o) (hk : s.KeepsStorage a) (hs : step o s a = some s') :
    s'.Inv o :=
  have hc := step_cases h.intact hk hs
  ⟨step_sender h.sender hc, step_streams h.streams h.sender hc,
    step_wire h.wire h.streams h.sender hc, hc.intact h.intact⟩

/-! ## The channel -/

/-- The channel that the two sides make up. -/
def channel (s : Delivery κ) : Fifo (List UInt8) := ⟨s.accepted, s.handled⟩

theorem bodies_prefix (h : s.Inv o) : s.bodies <+: s.accepted :=
  h.sender.issued_prefix.map Package.dataBuffer

/-- The body handler is completed with the next body. -/
theorem handled_readHandler (h : s.Inv o) {i : Nat} {op : ReadOp} {err : ErrorCode}
    (junk : Nat → UInt8) (hi : s.peer.socket.reads[i]? = some op) (hr : op.result = some err) :
    let s' := (s.setReads (s.peer.socket.reads.eraseIdx i)).readHandler o op err junk
    s'.accepted = s.accepted ∧ (s'.handled = s.handled ∨
      ∃ b rest, s'.handled = s.handled ++ [b] ∧ s.accepted = s.handled ++ b :: rest) := by
  obtain ⟨got, hreading, hpre, heq⟩ := h.wire.reading
  obtain ⟨-, hreads, hs, ⟨-, htake⟩, hcase⟩ := hreading.of_getElem? hi
  obtain ⟨-, hlen⟩ := htake err hr
  rcases hcase with ⟨hh, -, -⟩ | ⟨b, cs, hh, hb, hex, rfl⟩
  · simp only [Delivery.readHandler, hh]
    exact ⟨rfl, .inl rfl⟩
  · rw [hb] at heq
    simp only [List.append_assoc] at heq
    obtain ⟨hbody, -⟩ := next_body heq (hlen.trans hex)
    obtain ⟨rest, hrest⟩ := bodies_prefix h
    simp only [Delivery.readHandler, hh]
    refine ⟨rfl, .inr ⟨op.buffer, cs ++ rest, rfl, ?_⟩⟩
    rw [← hrest, hb, hbody]
    simp

theorem channel_step {a : DeliveryAct κ} (h : s.Inv o) (hk : s.KeepsStorage a)
    (hs : step o s a = some s') : Relation.ReflTransGen Fifo.Step s.channel s'.channel := by
  have hsame : s'.accepted = s.accepted → s'.handled = s.handled →
      Relation.ReflTransGen Fifo.Step s.channel s'.channel := by
    intro ha hh
    rw [show s'.channel = s.channel by simp only [channel, ha, hh]]
  cases step_cases h.intact hk hs with
  | createStream | write | resend | send | transmit | result | receive | readResult | slotReturn |
    peer => exact hsame rfl rfl
  | thread a sender ha hst =>
    have hsend : sender.accepted = s.sender.accepted ∨
        ∃ p, sender.accepted = s.sender.accepted ++ [p] := by
      cases Sending.step_cases hst with
      | dispatch t pkg => exact .inr ⟨pkg, rfl⟩
      | _ => exact .inl rfl
    rcases hsend with hsend | ⟨p, hsend⟩
    · exact hsame (by simp only [accepted, hsend]) rfl
    · have hch : channel { s with sender := sender } =
          { s.channel with sent := s.channel.sent ++ [p.dataBuffer] } := by
        simp [channel, accepted, hsend]
      rw [hch]
      exact .single (.send _ _)
  | readHandler i op err junk hi hr =>
    obtain ⟨ha, hh | ⟨b, rest, hh, hb⟩⟩ := handled_readHandler h junk hi hr
    · exact hsame ha hh
    · have hch : channel ((s.setReads (s.peer.socket.reads.eraseIdx i)).readHandler o op err junk) =
          { s.channel with delivered := s.channel.delivered ++ [b] } := by
        simp only [channel, ha, hh]
      rw [hch]
      exact .single (.deliver _ b rest hb)

/-- What holds where the storage is kept: the two sides are a FIFO channel for the bodies, in the order in
    which the dispatch slot locks `_mutex`. -/
structure Channelled (o : ByteOrder) (s : Delivery κ) : Prop where
  inv : s.Inv o
  fifo : Relation.ReflTransGen Fifo.Step (init κ).channel s.channel

theorem channelled_init : Channelled o (init κ) := ⟨inv_init, .refl⟩

theorem channelled_step {a : DeliveryAct κ} (h : s.Channelled o) (hk : s.KeepsStorage a)
    (hs : step o s a = some s') : s'.Channelled o :=
  ⟨inv_step h.inv hk hs, h.fifo.trans (channel_step h.inv hk hs)⟩

/-- Once no write is outstanding and the peer has consumed all bytes, it has handled every body. -/
theorem Inv.handled_eq (h : s.Inv o) (hw : s.NoWriteOutstanding) (hc : s.Consumed) :
    s.handled = s.accepted := by
  obtain ⟨hw, ht⟩ := hw
  obtain ⟨hpipe, hreads⟩ := hc
  have hwriting : s.sender.writing = [] := by rw [Sending.writing, hw]; rfl
  have hpackages : s.sender.conn.packages = [] := by
    cases h.sender.phase with
    | idle _ _ _ hp => exact hp
    | writing pkg hw' =>
      rw [hwriting] at hw'
      cases hw'
    | completing t _ ht' => exact absurd ((ht' t).mpr rfl) (ht t)
    | wedged _ _ _ hf => exact absurd h.wire.noFailure hf
  have hbodies : s.bodies = s.accepted := by
    have hacc := h.sender.accounted
    rw [Sending.Accounted, hpackages, List.append_nil] at hacc
    simp only [bodies, accepted, hacc, Sending.issued]
  have hrem : s.remaining = [] := by simp only [remaining, hwriting, List.flatMap_nil]
  obtain ⟨got, hreading, hpre, heq⟩ := h.wire.reading
  rw [hpipe, hrem, List.append_nil, List.append_nil] at heq
  rw [← hbodies]
  cases hreading with
  | size op hr hs hh he =>
    have hlt := hreads op (by rw [hr]; simp)
    exact all_read header_length hpre heq (by omega)
  | body op b cs hr hs hh hb he =>
    have hlt := hreads op (by rw [hr]; simp)
    rw [hb] at heq
    have := not_all_read heq
    omega
  | slot => exact all_read header_length hpre heq (Nat.zero_lt_succ 7)

/-- The accepted bodies are what was written to the ostreams dispatched, each of them once. -/
theorem Inv.contributions (h : s.Inv o) :
    ∃ ids : List Nat, ids.Nodup ∧ s.accepted = ids.map s.writtenTo ∧
      ∀ i, i ∈ ids ↔ s.Dispatched i := by
  have hlt : ∀ p ∈ s.sender.accepted, p.ptr < s.sender.next := h.sender.distinct.accepted_lt
  refine ⟨s.sender.accepted.map fun p => s.streamOf p.ptr, ?_, ?_, ?_⟩
  · have hnd := h.sender.distinct.accepted_nodup
    refine List.Nodup.map_on ?_ (List.Nodup.of_map _ hnd)
    intro p hp q hq he
    have hptr := h.streams.inj _ _ (hlt p hp) (hlt q hq) he
    exact List.inj_on_of_nodup_map hnd hp hq hptr
  · rw [accepted, List.map_map]
    refine List.map_congr_left ?_
    intro p hp
    obtain ⟨-, st, hst, -, hw⟩ := h.streams.made p (.inl hp)
    simp [writtenTo, hst, hw]
  · intro i
    constructor
    · intro hi
      obtain ⟨p, hp, rfl⟩ := List.mem_map.mp hi
      obtain ⟨-, st, hst, hs, -⟩ := h.streams.made p (.inl hp)
      refine ⟨⟨st, hst, hs⟩, ?_⟩
      intro t pkg ht he
      have hpend := Sending.pending_eq_some.mpr ht
      have hptr := h.streams.inj _ _ (h.sender.distinct.pending_lt t pkg hpend) (hlt p hp) he
      refine h.sender.distinct.pending_not_accepted t pkg hpend ?_
      rw [hptr]
      exact List.mem_map_of_mem hp
    · rintro ⟨⟨st, hst, hs⟩, hno⟩
      obtain ⟨p, hp | ⟨t, ht⟩, hpi⟩ := h.streams.sent i st hst hs
      · exact List.mem_map.mpr ⟨p, hp, hpi⟩
      · exact absurd hpi (hno t p ht)

theorem Channelled.delivers (h : s.Channelled o) : s.Delivers where
  inOrder := Fifo.steps_isPrefix h.fifo (List.prefix_refl _)
  complete := h.inv.handled_eq
  once := h.inv.contributions
  destroyed := by
    intro i st hst ha
    by_contra hs
    have := (h.inv.streams.unsent i st hst (by simpa using hs)).2
    rw [ha] at this
    cases this

/-- **End-to-end FIFO delivery** in every run in which what is written to an ostream after its first `send`
    fits into the storage that its package describes. -/
theorem delivers_of_keepsStorage {as : List (DeliveryAct κ)}
    (hk : Meets (step o) KeepsStorage (init κ) as) : Throughout (step o) Delivers (init κ) as :=
  throughout_of_meets (fun _ h => h.delivers) (fun _ _ _ h hk hs => channelled_step h hk hs)
    channelled_init hk

/-- Two threads: the second sends first and writes one more byte, the first destroys its ostream while the
    other's package is being written. The peer reads the first package in two pieces. -/
def twoThreads : List (DeliveryAct Unit) :=
  [.createStream 0 .bool true 0, .createStream 1 .bool false 1, .write 0 0 [7], .send 1 1, .enter 1,
    .leave 1, .write 1 1 [8], .destroy 0 0, .enter 0, .leave 0, .transmit 0 11 (fun _ => 255),
    .receive 0 8, .readResult 0, .readHandler 0 (fun _ => 0), .receive 0 3, .transmit 0 13 (fun _ => 255),
    .result 0, .complete 2 0, .enter 2, .leave 2, .receive 0 13, .readResult 0,
    .readHandler 0 (fun _ => 0)]

theorem delivers_two_threads :
    ∃ s, run (step .little) (init Unit) twoThreads = some s ∧
      s.handled = [[0, 0, 0, 0, 0, 0, 0, 0, 1, 0, 0, 0, 0, 0, 0, 0]] ∧ s.accepted.length = 2 ∧
      s.Delivers := by
  obtain ⟨s, hr, hs⟩ : ∃ s, run (step .little) (init Unit) twoThreads = some s ∧
      (s.handled, s.accepted.length) = ([[0, 0, 0, 0, 0, 0, 0, 0, 1, 0, 0, 0, 0, 0, 0, 0]], 2) :=
    Option.map_eq_some_iff.mp rfl
  obtain ⟨hh, ha⟩ := Prod.mk.inj hs
  exact ⟨s, hr, hh, ha, (delivers_of_keepsStorage (by decide +kernel)).last hr⟩

/-- An ostream with one byte is sent, and 112 more are written while its package waits for the socket: the
    buffer reserves storage for the last of them. What the freed storage holds is sent. -/
def overgrown : List (DeliveryAct Unit) :=
  [.createStream 0 .bool true 0, .write 0 0 [7], .send 0 0, .enter 0, .leave 0,
    .write 0 0 (List.replicate 112 0), .transmit 0 25 (fun _ => 255), .receive 0 8, .readResult 0,
    .readHandler 0 (fun _ => 0), .receive 0 17, .readResult 0, .readHandler 0 (fun _ => 0)]

/-- The peer handles a body that nobody sent. -/
theorem overgrown_not_delivered :
    ¬ ∀ s : Delivery Unit, Reachable (step .little) (init Unit) s → s.Delivers := by
  intro hall
  obtain ⟨s, hr, hs⟩ : ∃ s, run (step .little) (init Unit) overgrown = some s ∧
      (s.handled, s.accepted) =
        ([List.replicate 17 255], [[1, 0, 0, 0, 0, 0, 0, 0, 0, 0, 0, 0, 0, 0, 0, 0, 7]]) :=
    Option.map_eq_some_iff.mp (by decide +kernel)
  obtain ⟨hh, ha⟩ := Prod.mk.inj hs
  have hpre : s.handled <+: s.accepted := (hall s ⟨_, hr⟩).inOrder
  rw [hh, ha] at hpre
  exact absurd hpre (by decide)

end Delivery

end Lnetlib
