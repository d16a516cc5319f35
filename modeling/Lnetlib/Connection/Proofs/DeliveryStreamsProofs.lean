import Lnetlib.Connection.Proofs.DeliveryStepsProofs

/-!
# Ostreams and packages

Every package is made of one ostream, and every ostream makes one package, of the characters written to it
before its first `send` (`Streams`).
-/

namespace Lnetlib

open Bytes Transition Framing

namespace Delivery

variable {κ : Type} {o : ByteOrder} {s s' : Delivery κ}

/-- A package as `create_package` makes it of an ostream. -/
def Framed (o : ByteOrder) (p : Package) : Prop :=
  p = Connection.createPackage o p.ptr p.dataBuffer ∧ 16 ≤ p.dataBuffer.length ∧
    p.dataBuffer.length < 2 ^ 64

/-- Every package is made of one ostream that was sent, every such ostream makes one package, and the body
    is what was written before the first `send`. -/
structure Streams (o : ByteOrder) (s : Delivery κ) : Prop where
  fresh : ∀ i st, s.streams i = some st → i < s.nextStream
  size : ∀ i st, s.streams i = some st →
    16 ≤ st.os.buffer.length ∧ st.os.buffer.length < 2 ^ 64
  unsent : ∀ i st, s.streams i = some st → st.os.sended = false →
    st.written = st.os.buffer ∧ st.alive = true
  sent : ∀ i st, s.streams i = some st → st.os.sended = true →
    ∃ p, s.sender.Made p ∧ s.streamOf p.ptr = i
  known : ∀ q < s.sender.next, ∃ st, s.streams (s.streamOf q) = some st ∧ st.os.sended = true
  made : ∀ p, s.sender.Made p → Framed o p ∧
    ∃ st, s.streams (s.streamOf p.ptr) = some st ∧ st.os.sended = true ∧ p.dataBuffer = st.written
  inj : ∀ q q', q < s.sender.next → q' < s.sender.next → s.streamOf q = s.streamOf q' → q = q'

theorem streams_init : Streams o (init κ) := by
  have hnone : ∀ p, ¬ (init κ).sender.Made p := by
    rintro p (hp | ⟨t, ht⟩)
    · cases hp
    · cases ht
  constructor
  · intro i st hi
    cases hi
  · intro i st hi
    cases hi
  · intro i st hi
    cases hi
  · intro i st hi
    cases hi
  · intro q hq
    exact absurd hq (Nat.not_lt_zero q)
  · intro p hp
    exact absurd hp (hnone p)
  · intro q q' hq
    exact absurd hq (Nat.not_lt_zero q)

theorem update_eq_some {f : Nat → Option OutStream} {i j : Nat} {st x : OutStream}
    (h : Function.update f i (some st) j = some x) : j = i ∧ x = st ∨ j ≠ i ∧ f j = some x := by
  by_cases hj : j = i
  · subst hj
    rw [Function.update_self] at h
    exact .inl ⟨rfl, (Option.some.inj h).symm⟩
  · rw [Function.update_of_ne hj] at h
    exact .inr ⟨hj, h⟩

/-- An ostream changes, and neither whether it was sent nor, once it was, what counts as written. -/
theorem Streams.update (h : s.Streams o) {i : Nat} {st st' : OutStream} (hi : s.streams i = some st)
    (hsent : st'.os.sended = st.os.sended)
    (hsize : 16 ≤ st'.os.buffer.length ∧ st'.os.buffer.length < 2 ^ 64)
    (hw : st.os.sended = true → st'.written = st.written)
    (hu : st.os.sended = false → st'.written = st'.os.buffer ∧ st'.alive = true) :
    Streams o { s with streams := Function.update s.streams i (some st') } := by
  have hkeep : ∀ j x, s.streams j = some x → x.os.sended = true →
      ∃ x', Function.update s.streams i (some st') j = some x' ∧ x'.os.sended = true ∧
        x'.written = x.written := by
    intro j x hj hx
    by_cases hji : j = i
    · subst hji
      rw [hi] at hj
      cases hj
      exact ⟨st', Function.update_self .., hsent.trans hx, hw hx⟩
    · exact ⟨x, by rw [Function.update_of_ne hji, hj], hx, rfl⟩
  constructor
  · intro j x hj
    rcases update_eq_some hj with ⟨rfl, -⟩ | ⟨-, hj⟩
    · exact h.fresh _ _ hi
    · exact h.fresh _ _ hj
  · intro j x hj
    rcases update_eq_some hj with ⟨rfl, rfl⟩ | ⟨-, hj⟩
    · exact hsize
    · exact h.size _ _ hj
  · intro j x hj hx
    rcases update_eq_some hj with ⟨rfl, rfl⟩ | ⟨-, hj⟩
    · exact hu (hsent.symm.trans hx)
    · exact h.unsent _ _ hj hx
  · intro j x hj hx
    rcases update_eq_some hj with ⟨rfl, rfl⟩ | ⟨-, hj⟩
    · exact h.sent _ _ hi (hsent.symm.trans hx)
    · exact h.sent _ _ hj hx
  · intro q hq
    obtain ⟨x, hx, hs⟩ := h.known q hq
    obtain ⟨x', hx', hs', -⟩ := hkeep _ _ hx hs
    exact ⟨x', hx', hs'⟩
  · intro p hp
    obtain ⟨hf, x, hx, hs, hpx⟩ := h.made p hp
    obtain ⟨x', hx', hs', hw'⟩ := hkeep _ _ hx hs
    exact ⟨hf, x', hx', hs', by rw [hpx, hw']⟩
  · exact h.inj

/-- A step that leaves the ostreams alone and makes no package. -/
theorem Streams.congr (h : s.Streams o) (hst : s'.streams = s.streams)
    (hn : s'.nextStream = s.nextStream) (hof : s'.streamOf = s.streamOf)
    (hnext : s'.sender.next = s.sender.next) (hm : ∀ p, s'.sender.Made p ↔ s.sender.Made p) :
    Streams o s' where
  fresh := by rw [hst, hn]; exact h.fresh
  size := by rw [hst]; exact h.size
  unsent := by rw [hst]; exact h.unsent
  sent := by
    intro i st hi hs
    rw [hst] at hi
    obtain ⟨p, hp, hpi⟩ := h.sent i st hi hs
    exact ⟨p, (hm p).mpr hp, by rw [hof]; exact hpi⟩
  known := by rw [hst, hof, hnext]; exact h.known
  made := by
    intro p hp
    rw [hst, hof]
    exact h.made p ((hm p).mp hp)
  inj := by rw [hof, hnext]; exact h.inj

/-- The first `send` of an ostream. -/
theorem Streams.send (h : s.Streams o) (hi : s.sender.Inv) {t i : Nat} {st : OutStream}
    (alive : Bool) (ht : s.sender.threads t = .idle) (hst : s.streams i = some st)
    (hs : st.os.sended = false) : Streams o (s.firstSend o t i { st with alive := alive }) := by
  set st' : OutStream := { os := { st.os with sended := true }, written := st.written, alive := alive }
    with hst'
  set p₀ := Connection.createPackage o s.sender.next st.os.buffer with hp₀
  have hself : (s.firstSend o t i { st with alive := alive }).streams i = some st' := Function.update_self ..
  have hlt : ∀ p, s.sender.Made p → p.ptr < s.sender.next := by
    rintro p (hp | ⟨t', ht'⟩)
    · exact hi.distinct.accepted_lt p hp
    · exact hi.distinct.pending_lt t' p (Sending.pending_eq_some.mpr ht')
  have hof : ∀ q < s.sender.next,
      (s.firstSend o t i { st with alive := alive }).streamOf q = s.streamOf q := by
    intro q hq
    exact Function.update_of_ne (Nat.ne_of_lt hq) ..
  have hofnew : (s.firstSend o t i { st with alive := alive }).streamOf s.sender.next = i :=
    Function.update_self ..
  -- the ostream was not sent, so no package is made of it
  have hne : ∀ q < s.sender.next, s.streamOf q ≠ i := by
    rintro q hq rfl
    obtain ⟨x, hx, hxs⟩ := h.known q hq
    rw [hst] at hx
    cases hx
    rw [hs] at hxs
    cases hxs
  have hmade : ∀ p, (s.firstSend o t i { st with alive := alive }).sender.Made p ↔
      s.sender.Made p ∨ p = p₀ := by
    intro p
    constructor
    · rintro (hp | ⟨t', ht'⟩)
      · exact .inl (.inl hp)
      · by_cases htt : t' = t
        · subst htt
          simp only [firstSend, Function.update_self] at ht'
          cases ht'
          exact .inr rfl
        · simp only [firstSend, Function.update_of_ne htt] at ht'
          exact .inl (.inr ⟨t', ht'⟩)
    · rintro ((hp | ⟨t', ht'⟩) | rfl)
      · exact .inl hp
      · have htt : t' ≠ t := by
          rintro rfl
          rw [ht] at ht'
          cases ht'
        exact .inr ⟨t', by simp only [firstSend, Function.update_of_ne htt, ht']⟩
      · exact .inr ⟨t, by simp only [firstSend, Function.update_self]; rfl⟩
  constructor
  · intro j x hj
    rcases update_eq_some hj with ⟨rfl, -⟩ | ⟨-, hj⟩
    · exact h.fresh _ _ hst
    · exact h.fresh _ _ hj
  · intro j x hj
    rcases update_eq_some hj with ⟨rfl, rfl⟩ | ⟨-, hj⟩
    · exact h.size _ st hst
    · exact h.size _ _ hj
  · intro j x hj hx
    rcases update_eq_some hj with ⟨rfl, rfl⟩ | ⟨-, hj⟩
    · cases hx
    · exact h.unsent _ _ hj hx
  · intro j x hj hx
    rcases update_eq_some hj with ⟨rfl, rfl⟩ | ⟨-, hj⟩
    · exact ⟨p₀, (hmade p₀).mpr (.inr rfl), hofnew⟩
    · obtain ⟨p, hp, hpj⟩ := h.sent _ _ hj hx
      exact ⟨p, (hmade p).mpr (.inl hp), (hof _ (hlt p hp)).trans hpj⟩
  · intro q hq
    rcases Nat.lt_succ_iff_lt_or_eq.mp hq with hq | rfl
    · obtain ⟨x, hx, hxs⟩ := h.known q hq
      rw [hof q hq]
      exact ⟨x, by rw [← hx]; exact Function.update_of_ne (hne q hq) .., hxs⟩
    · rw [hofnew]
      exact ⟨st', hself, rfl⟩
  · intro p hp
    rcases (hmade p).mp hp with hp | rfl
    · obtain ⟨hf, x, hx, hxs, hpx⟩ := h.made p hp
      have hq := hlt p hp
      rw [hof _ hq]
      exact ⟨hf, x, by rw [← hx]; exact Function.update_of_ne (hne _ hq) .., hxs, hpx⟩
    · have hw := (h.unsent i st hst hs).1
      refine ⟨⟨rfl, h.size i st hst⟩, st', ?_, rfl, hw.symm⟩
      show (s.firstSend o t i { st with alive := alive }).streams
        ((s.firstSend o t i { st with alive := alive }).streamOf s.sender.next) = some st'
      rw [hofnew, hself]
  · intro q q' hq hq' he
    rcases Nat.lt_succ_iff_lt_or_eq.mp hq with hq | rfl
    · rcases Nat.lt_succ_iff_lt_or_eq.mp hq' with hq' | rfl
      · rw [hof q hq, hof q' hq'] at he
        exact h.inj q q' hq hq' he
      · rw [hof q hq, hofnew] at he
        exact absurd he (hne q hq)
    · rcases Nat.lt_succ_iff_lt_or_eq.mp hq' with hq' | rfl
      · rw [hof q' hq', hofnew] at he
        exact absurd he.symm (hne q' hq')
      · rfl

theorem step_streams (h : s.Streams o) (hi : s.sender.Inv) (hs : Stepped o s s') : Streams o s' := by
  cases hs with
  | createStream cmd command uid =>
    have hnew : ∀ j x, s.streams j = some x →
        Function.update s.streams s.nextStream (some
          { os := Ostream.construct o cmd command uid
            written := (Ostream.construct o cmd command uid).buffer
            alive := true }) j = some x := by
      intro j x hj
      have := h.fresh j x hj
      rw [Function.update_of_ne (Nat.ne_of_lt this), hj]
    constructor
    · intro j x hj
      rcases update_eq_some hj with ⟨rfl, -⟩ | ⟨-, hj⟩
      · exact Nat.lt_succ_self _
      · exact Nat.lt_succ_of_lt (h.fresh _ _ hj)
    · intro j x hj
      rcases update_eq_some hj with ⟨rfl, rfl⟩ | ⟨-, hj⟩
      · rw [Ostream.construct_length]
        omega
      · exact h.size _ _ hj
    · intro j x hj hx
      rcases update_eq_some hj with ⟨rfl, rfl⟩ | ⟨-, hj⟩
      · exact ⟨rfl, rfl⟩
      · exact h.unsent _ _ hj hx
    · intro j x hj hx
      rcases update_eq_some hj with ⟨rfl, rfl⟩ | ⟨-, hj⟩
      · cases hx
      · exact h.sent _ _ hj hx
    · intro q hq
      obtain ⟨x, hx, hxs⟩ := h.known q hq
      exact ⟨x, hnew _ _ hx, hxs⟩
    · intro p hp
      obtain ⟨hf, x, hx, hxs, hpx⟩ := h.made p hp
      exact ⟨hf, x, hnew _ _ hx, hxs, hpx⟩
    · exact h.inj
  | write i bs st hst hlen =>
    have hsize := h.size i st hst
    refine h.update hst rfl ?_ ?_ ?_
    · simp only [Ostream.write_buffer, List.length_append]
      omega
    · intro hs
      rw [if_pos hs]
    · intro hs
      obtain ⟨hw, ha⟩ := h.unsent i st hst hs
      refine ⟨?_, ha⟩
      rw [if_neg (by simp [hs]), hw]
      rfl
  | resend i st alive hst hs =>
    refine h.update hst rfl (h.size i st hst) (fun _ => rfl) ?_
    intro hs'
    rw [hs] at hs'
    cases hs'
  | send t i st alive ht hst hs => exact h.send hi alive ht hst hs
  | thread a sender ha hs =>
    obtain ⟨hm, hn⟩ := Sending.step_made ha hs
    exact h.congr rfl rfl rfl hn hm
  | transmit | result | receive | readResult | slotReturn | peer =>
    exact h.congr rfl rfl rfl rfl (fun p => Iff.rfl)
  | readHandler i op err junk hi hr =>
    have hframe : ∀ x : Delivery κ, (x.readHandler o op err junk).streams = x.streams ∧
        (x.readHandler o op err junk).nextStream = x.nextStream ∧
        (x.readHandler o op err junk).streamOf = x.streamOf ∧
        (x.readHandler o op err junk).sender = x.sender := by
      intro x
      unfold readHandler
      split <;> exact ⟨rfl, rfl, rfl, rfl⟩
    obtain ⟨h1, h2, h3, h4⟩ := hframe (s.setReads (s.peer.socket.reads.eraseIdx i))
    exact h.congr h1 h2 h3 (by rw [h4]; rfl) (fun p => by rw [h4]; rfl)

end Delivery

end Lnetlib
