import Lnetlib.Connection.Lifecycle

/-!
# When `closed` is final

There is no flag that says that `closed` was emitted, so it stays the last emission as long as no handler
that is left emits anything. `Clean` says what can be left: once the socket is closed, or `closed` was
emitted, the read in progress only ends and the writes are silent, and on a closed socket none of them
sends another package. The facts about asio enter where `close()` ends the operations in progress, which
makes them silent, and where an operation is started on a closed socket, which must not happen.
-/

namespace Lnetlib

open Bytes Transition

namespace Lifecycle

variable {κ : Type} {o : ByteOrder} {s s' : Lifecycle κ}

/-! ## What is left to emit -/

/-- The handler of a read that only ends does nothing. -/
theorem Ends.handler {op : ReadOp} {err : ErrorCode} (h : Ends op) (herr : op.result = some err) :
    Connection.Silent err ∧ (err.isError = false → op.buffer = []) := by
  obtain ⟨err', hmem, hend⟩ := h
  obtain rfl : err = err' := Option.some.inj (herr.symm.trans hmem)
  rcases hend with hv | ⟨he, hb⟩
  · refine ⟨.inr hv, fun he => absurd he ?_⟩
    unfold ErrorCode.isError
    rw [hv]
    decide
  · exact ⟨.inl he, fun _ => hb⟩

theorem not_silent_of_endOfStream {err : ErrorCode} (h : EndOfStream err) : ¬ Connection.Silent err := by
  unfold Connection.Silent ErrorCode.isError
  rcases h with h | h
  · rw [h]
    decide
  · rw [h]
    decide

theorem SilentWrites.sublist {ops ops' : List WriteOp} (h : SilentWrites ops) (hs : ops'.Sublist ops) :
    SilentWrites ops' := fun op hop => h op (hs.subset hop)

/-- An operation in progress is silent, whatever it will complete with. -/
theorem SilentWrites.append {ops : List WriteOp} (h : SilentWrites ops) {op : WriteOp}
    (hop : op.result = none) : SilentWrites (ops ++ [op]) := by
  intro op' hmem err herr
  rcases List.mem_append.mp hmem with hmem | hmem
  · exact h op' hmem err herr
  · rw [List.mem_singleton.mp hmem, hop] at herr
    cases herr

/-- What was in progress when the socket was closed has the result it had, or was aborted. -/
theorem result_or_aborted {result : Option ErrorCode} {err : ErrorCode}
    (h : (result <|> some ErrorCode.operationAborted) = some err) :
    result = some err ∨ err = .operationAborted := by
  cases result with
  | none => exact .inr (Option.some.inj h).symm
  | some err' => exact .inl h

theorem SilentWrites.aborted {ops : List WriteOp} (h : SilentWrites ops) :
    SilentWrites (ops.map fun op =>
      { op with result := op.result <|> some ErrorCode.operationAborted }) := by
  intro op hop err herr
  obtain ⟨op', hop', rfl⟩ := List.mem_map.mp hop
  rcases result_or_aborted herr with hr | rfl
  · exact h op' hop' err hr
  · exact .inr rfl

theorem NoneSucceeded.aborted {ops : List WriteOp} (h : NoneSucceeded ops) :
    NoneSucceeded (ops.map fun op =>
      { op with result := op.result <|> some ErrorCode.operationAborted }) := by
  intro op hop err herr
  obtain ⟨op', hop', rfl⟩ := List.mem_map.mp hop
  rcases result_or_aborted herr with hr | rfl
  · exact h op' hop' err hr
  · rfl

/-- A read that is in progress when the socket is closed ends. -/
theorem Ends.aborted {op : ReadOp} (h : op.result.isSome = true → Ends op) :
    Ends { op with result := op.result <|> some ErrorCode.operationAborted } := by
  cases hr : op.result with
  | none => exact ⟨.operationAborted, rfl, .inl rfl⟩
  | some err =>
    obtain ⟨err', herr', hend⟩ := h (by rw [hr]; rfl)
    obtain rfl : err = err' := Option.some.inj (hr.symm.trans herr')
    exact ⟨err, rfl, hend⟩

/-- `closed` stays final when nothing is emitted after it, and not otherwise. -/
theorem closedIsFinal_append (es : List (Emission κ)) (hf : s.ClosedIsFinal)
    (he : s'.emitted = s.emitted ++ es) (hlen : es.length ≤ 1) :
    s'.ClosedIsFinal ↔ (s.HasClosed → es = []) := by
  constructor
  · rintro hf' ⟨e, hmem, hc⟩
    obtain ⟨pre, post, hsplit⟩ := List.append_of_mem hmem
    have hpost := hf' pre e (post ++ es) (by rw [he, hsplit]; simp) hc
    exact (List.append_eq_nil_iff.mp hpost).2
  · intro h pre e post hsplit hc
    rcases es with _ | ⟨e', es⟩
    · rw [he, List.append_nil] at hsplit
      exact hf pre e post hsplit hc
    · have hes : es = [] := by
        simp only [List.length_cons] at hlen
        exact List.eq_nil_of_length_eq_zero (by omega)
      subst hes
      rw [he] at hsplit
      -- `closed` is the new emission, or nothing could have been emitted
      rcases List.eq_nil_or_concat post with hpost | ⟨post', x, hpost⟩
      · exact hpost
      · have hinit : s.emitted = pre ++ e :: post' := by
          rw [hpost, List.concat_eq_append, ← List.cons_append, ← List.append_assoc] at hsplit
          exact (List.append_inj' hsplit rfl).1
        exact absurd (h ⟨e, by rw [hinit]; simp, hc⟩) (by simp)

/-- Only `closed` counts as its emission. -/
theorem not_hasClosed_append {e : Emission κ} (hc : ¬ s.HasClosed) (he : e.isClosed = false) :
    ¬ HasClosed { s with emitted := s.emitted ++ [e] } := by
  rintro ⟨e', hmem, he'⟩
  rcases List.mem_append.mp hmem with hmem | hmem
  · exact hc ⟨e', hmem, he'⟩
  · rw [List.mem_singleton.mp hmem, he] at he'
    cases he'

/-! ## The invariant -/

/-- A connection that is closed cleanly. -/
structure Clean (s : Lifecycle κ) : Prop where
  final : s.ClosedIsFinal
  one : s.conn.socket.reads.length + s.slots ≤ 1
  opened : s.conn.socket.isOpen = true → s.closing = 0
  once : s.closing ≤ 1
  told : s.HasClosed → s.closing = 0
  silent : s.conn.socket.isOpen = false ∨ s.HasClosed →
    (∀ op ∈ s.conn.socket.reads, Ends op) ∧ SilentWrites s.conn.socket.writes
  ended : s.conn.socket.isOpen = false →
    (∀ op ∈ s.conn.socket.writes, op.result.isSome = true) ∧
      (s.conn.packages = [] ∨ NoneSucceeded s.conn.socket.writes)

theorem clean_init : Clean (init κ) where
  final := fun pre e post h => absurd h (by simp [init])
  one := by simp [init, Connection.construct, Connection.waitPackage, Socket.asyncRead]
  opened := fun _ => rfl
  once := Nat.zero_le 1
  told := fun _ => rfl
  silent := by
    rintro (h | ⟨e, he, -⟩)
    · cases h
    · cases he
  ended := fun h => by cases h

/-- As long as the socket is open and `closed` was not emitted, only the read in progress matters. -/
theorem Clean.of_live (hone : s.conn.socket.reads.length + s.slots ≤ 1) (hclosing : s.closing = 0)
    (hopen : s.conn.socket.isOpen = true) (hc : ¬ s.HasClosed) : Clean s where
  final := fun pre e post h he => absurd ⟨e, by rw [h]; simp, he⟩ hc
  one := hone
  opened := fun _ => hclosing
  once := by omega
  told := fun _ => hclosing
  silent := by
    rintro (h | h)
    · rw [hopen] at h
      cases h
    · exact absurd h hc
  ended := fun h => by rw [hopen] at h; cases h

/-- Where a handler can still do something, the connection was not closed. -/
theorem Clean.live (h : Clean s) (hleft : ¬ ((∀ op ∈ s.conn.socket.reads, Ends op) ∧
    SilentWrites s.conn.socket.writes)) : s.conn.socket.isOpen = true ∧ ¬ s.HasClosed := by
  refine ⟨?_, fun hc => hleft (h.silent (.inr hc))⟩
  cases hopen : s.conn.socket.isOpen with
  | true => rfl
  | false => exact absurd (h.silent (.inl hopen)) hleft

theorem Clean.live_of_read (h : Clean s) {op : ReadOp} (hop : op ∈ s.conn.socket.reads)
    (he : ¬ Ends op) : s.conn.socket.isOpen = true ∧ ¬ s.HasClosed :=
  h.live fun hover => he (hover.1 op hop)

theorem Clean.live_of_write (h : Clean s) {op : WriteOp} {err : ErrorCode}
    (hop : op ∈ s.conn.socket.writes) (herr : op.result = some err) (hs : ¬ Connection.Silent err) :
    s.conn.socket.isOpen = true ∧ ¬ s.HasClosed :=
  h.live fun hover => hs (hover.2 op hop err herr)

theorem Clean.append_nil (h : Clean s) : Clean { s with emitted := s.emitted ++ [] } := by
  rw [List.append_nil]
  exact h

/-- On an open socket the writes may change as they like, but are silent once `closed` was emitted. -/
theorem Clean.writes (h : Clean s) (hopen : s.conn.socket.isOpen = true) {conn : Connection κ} {next : Nat}
    (hopen' : conn.socket.isOpen = true) (hreads : conn.socket.reads = s.conn.socket.reads)
    (hwrites : s.HasClosed → SilentWrites s.conn.socket.writes → SilentWrites conn.socket.writes) :
    Clean { s with conn := conn, next := next } where
  final := h.final
  one := by
    show conn.socket.reads.length + s.slots ≤ 1
    rw [hreads]
    exact h.one
  opened := fun _ => h.opened hopen
  once := h.once
  told := h.told
  silent := by
    rintro (hf | hc)
    · exact absurd (hopen'.symm.trans hf) (by simp)
    · obtain ⟨hends, hsilent⟩ := h.silent (.inr hc)
      exact ⟨fun op hop => hends op (hreads ▸ hop), hwrites hc hsilent⟩
  ended := fun hf => absurd (hopen'.symm.trans hf) (by simp)

/-- The end of the stream: `closed` is emitted for the first time, on an open socket. -/
theorem Clean.endOfStream (h : Clean s) (hlive : s.conn.socket.isOpen = true ∧ ¬ s.HasClosed)
    (he : s'.emitted = s.emitted ++ [.closed]) (hone : s'.conn.socket.reads.length + s'.slots ≤ 1)
    (hclosing : s'.closing = 0) (hopen : s'.conn.socket.isOpen = true)
    (hover : (∀ op ∈ s'.conn.socket.reads, Ends op) ∧ SilentWrites s'.conn.socket.writes) :
    Clean s' where
  final := (closedIsFinal_append _ h.final he (Nat.le_refl 1)).mpr fun hc => absurd hc hlive.2
  one := hone
  opened := fun _ => hclosing
  once := by omega
  told := fun _ => hclosing
  silent := fun _ => hover
  ended := fun hf => by rw [hopen] at hf; cases hf

/-! ## The steps -/

theorem Clean.readResult (h : Clean s) {i : Nat} {buffer : List UInt8} {err : ErrorCode}
    (hs : step o s (.readResult i buffer err) = some s') : Clean s' := by
  obtain ⟨conn, hread, rfl⟩ := Option.map_eq_some_iff.mp hs
  obtain ⟨op, hi, hnone, rfl⟩ := Connection.completeRead_eq_some hread
  have hne : ¬ Ends op := by
    rintro ⟨err, hmem, -⟩
    rw [hnone] at hmem
    cases hmem
  obtain ⟨hopen, hc⟩ := h.live_of_read (List.mem_of_getElem? hi) hne
  refine Clean.of_live ?_ (h.opened hopen) hopen hc
  show (s.conn.socket.reads.set i _).length + s.slots ≤ 1
  rw [List.length_set]
  exact h.one

/-- The handler of a read. -/
theorem Clean.readHandler (h : Clean s) {i : Nat} {junk : Nat → UInt8}
    (hC : ClosesCleanly s (.readHandler i junk)) (hs : step o s (.readHandler i junk) = some s') :
    Clean s' := by
  obtain ⟨⟨conn, emitted, goesOn⟩, hread, rfl⟩ := Option.map_eq_some_iff.mp hs
  obtain ⟨op, err, hi, herr, heq⟩ := Connection.invokeRead_eq_some o hread
  have hop : op ∈ s.conn.socket.reads := List.mem_of_getElem? hi
  have hone := h.one
  have hlt : i < s.conn.socket.reads.length := (List.getElem?_eq_some_iff.mp hi).1
  have hlen : (s.conn.socket.reads.eraseIdx i).length = s.conn.socket.reads.length - 1 :=
    List.length_eraseIdx_of_lt hlt
  have hout := Connection.readHandler_outcome o junk op err
    (s.conn.setReads (s.conn.socket.reads.eraseIdx i))
  rw [← heq] at hout
  cases hout with
  | ended =>
    refine Clean.append_nil (s := { s with conn := s.conn.setReads (s.conn.socket.reads.eraseIdx i) })
      { h with one := ?_, silent := fun hover => ?_ }
    · show (s.conn.socket.reads.eraseIdx i).length + s.slots ≤ 1
      omega
    · obtain ⟨hreads, hwrites⟩ := h.silent hover
      exact ⟨fun op' hop' => hreads op' ((List.eraseIdx_sublist _ _).subset hop'), hwrites⟩
  | size n he hh hb =>
    obtain ⟨hopen, hc⟩ := h.live_of_read hop fun hend => hb ((hend.handler herr).2 he)
    refine Clean.append_nil
      (s := { s with conn := (s.conn.setReads (s.conn.socket.reads.eraseIdx i)).waitPackageBody n })
      (Clean.of_live ?_ (h.opened hopen) hopen hc)
    show (s.conn.socket.reads.eraseIdx i ++ [_]).length + s.slots ≤ 1
    rw [List.length_append, List.length_singleton, hlen]
    omega
  | body c' e he hh hb hsckt hem =>
    obtain ⟨hopen, hc⟩ := h.live_of_read hop fun hend => hb ((hend.handler herr).2 he)
    have hloud : e.isClosed = false := by
      rcases hem with ⟨stream, rfl⟩ | ⟨cb, stream, rfl⟩
      · rfl
      · rfl
    refine Clean.of_live ?_ (h.opened hopen) ?_ (not_hasClosed_append hc hloud)
    · show conn.socket.reads.length + (s.slots + 1) ≤ 1
      rw [hsckt]
      show (s.conn.socket.reads.eraseIdx i).length + (s.slots + 1) ≤ 1
      omega
    · show conn.socket.isOpen = true
      rw [hsckt]
      exact hopen
  | closed hv =>
    have hlive := h.live_of_read hop fun hend => not_silent_of_endOfStream hv (hend.handler herr).1
    refine h.endOfStream hlive rfl ?_ (h.opened hlive.1) hlive.1 ⟨?_, hC op hi err herr hv⟩
    · show (s.conn.socket.reads.eraseIdx i).length + s.slots ≤ 1
      omega
    · have hnil : s.conn.socket.reads.eraseIdx i = [] := List.eq_nil_of_length_eq_zero (by omega)
      intro op' hop'
      have hmem : op' ∈ s.conn.socket.reads.eraseIdx i := hop'
      rw [hnil] at hmem
      cases hmem
  | error hsil =>
    obtain ⟨hopen, hc⟩ := h.live_of_read hop fun hend => hsil (hend.handler herr).1
    refine Clean.of_live ?_ (h.opened hopen) hopen (not_hasClosed_append hc rfl)
    show (s.conn.socket.reads.eraseIdx i).length + s.slots ≤ 1
    omega

theorem Clean.slotReturn (h : Clean s) (hC : ClosesCleanly s .slotReturn)
    (hs : step o s .slotReturn = some s') : Clean s' := by
  obtain ⟨hopen, hc⟩ := hC
  simp only [step] at hs
  split_ifs at hs with hpos
  cases hs
  refine Clean.of_live ?_ (h.opened hopen) hopen hc
  have hone := h.one
  show (s.conn.socket.reads ++ [_]).length + (s.slots - 1) ≤ 1
  rw [List.length_append, List.length_singleton]
  omega

theorem Clean.slotThrow (h : Clean s) (hs : step o s .slotThrow = some s') : Clean s' := by
  simp only [step] at hs
  split_ifs at hs with hpos
  cases hs
  refine { h with one := ?_ }
  have hone := h.one
  show s.conn.socket.reads.length + (s.slots - 1) ≤ 1
  omega

/-- A write completes while the socket is open. -/
theorem Clean.writeResult (h : Clean s) {i : Nat} {err : ErrorCode}
    (hC : ClosesCleanly s (.writeResult i err)) (hs : step o s (.writeResult i err) = some s') :
    Clean s' := by
  obtain ⟨conn, hwrite, rfl⟩ := Option.map_eq_some_iff.mp hs
  unfold Connection.completeWrite at hwrite
  split at hwrite
  · rename_i pkg hi
    cases hwrite
    have hopen : s.conn.socket.isOpen = true := by
      cases hf : s.conn.socket.isOpen with
      | true => rfl
      | false => cases (h.ended hf).1 _ (List.mem_of_getElem? hi)
    refine h.writes hopen hopen rfl fun hc hsilent op hop err' herr' => ?_
    rcases List.mem_or_eq_of_mem_set hop with hop | rfl
    · exact hsilent op hop err' herr'
    · obtain rfl : err = err' := Option.some.inj herr'
      exact hC hc
  · cases hwrite

/-- The handler of a write sends the next package on an open socket only. -/
theorem Clean.writeSucceeded (h : Clean s) {i : Nat} {op : WriteOp} {err : ErrorCode}
    (hi : s.conn.socket.writes[i]? = some op) (herr : op.result = some err)
    (he : err.isError = false) :
    Clean { s with
      conn := (s.conn.setWrites (s.conn.socket.writes.eraseIdx i)).writeHandlerLocked } := by
  have hsub := List.eraseIdx_sublist s.conn.socket.writes i
  cases hp : s.conn.packages with
  | nil =>
    rw [Connection.writeHandlerLocked_of_nil (c := s.conn.setWrites (s.conn.socket.writes.eraseIdx i)) hp]
    refine { h with silent := fun hover => ?_, ended := fun hf => ?_ }
    · obtain ⟨hreads, hwrites⟩ := h.silent hover
      exact ⟨hreads, hwrites.sublist hsub⟩
    · exact ⟨fun op' hop' => (h.ended hf).1 op' (hsub.subset hop'), .inl hp⟩
  | cons pkg packages =>
    have hopen : s.conn.socket.isOpen = true := by
      cases hf : s.conn.socket.isOpen with
      | true => rfl
      | false =>
        rcases (h.ended hf).2 with hnil | hnone
        · rw [hp] at hnil
          cases hnil
        · have := hnone op (List.mem_of_getElem? hi) err herr
          rw [he] at this
          cases this
    rw [Connection.writeHandlerLocked_of_cons (c := s.conn.setWrites (s.conn.socket.writes.eraseIdx i)) hp]
    exact h.writes hopen hopen rfl fun _ hsilent => (hsilent.sublist hsub).append (if_pos hopen)

/-- And the one of a write that failed does nothing but emit. -/
theorem Clean.writeHandler (h : Clean s) {i : Nat} (hC : ClosesCleanly s (.writeHandler i))
    (hs : step o s (.writeHandler i) = some s') : Clean s' := by
  obtain ⟨⟨conn, emitted⟩, hwrite, rfl⟩ := Option.map_eq_some_iff.mp hs
  have hsub := List.eraseIdx_sublist s.conn.socket.writes i
  unfold Connection.invokeWrite at hwrite
  split at hwrite
  · rename_i pkg err hi
    have hop := List.mem_of_getElem? hi
    cases he : err.isError with
    | false =>
      rw [Connection.checkError_success he] at hwrite
      cases hwrite
      exact (h.writeSucceeded hi rfl he).append_nil
    | true =>
      rcases @Connection.checkError_cases κ err he with ⟨-, hr⟩ | ⟨hv, hr⟩ | ⟨hsil, hr⟩
      · rw [hr] at hwrite
        cases hwrite
        refine Clean.append_nil (s := { s with conn := s.conn.setWrites (s.conn.socket.writes.eraseIdx i) })
          { h with silent := fun hover => ?_, ended := fun hf => ?_ }
        · obtain ⟨hreads, hwrites⟩ := h.silent hover
          exact ⟨hreads, hwrites.sublist hsub⟩
        · obtain ⟨hsome, hqueue⟩ := h.ended hf
          exact ⟨fun op' hop' => hsome op' (hsub.subset hop'), hqueue.imp_right fun hnone op' hop' =>
            hnone op' (hsub.subset hop')⟩
      · rw [hr] at hwrite
        cases hwrite
        have hlive := h.live_of_write hop rfl (not_silent_of_endOfStream hv)
        exact h.endOfStream hlive rfl h.one (h.opened hlive.1) hlive.1 (hC _ hi err rfl hv)
      · rw [hr] at hwrite
        cases hwrite
        obtain ⟨hopen, hc⟩ := h.live_of_write hop rfl hsil
        exact Clean.of_live h.one (h.opened hopen) hopen (not_hasClosed_append hc rfl)
  · cases hwrite

theorem Clean.dispatch (h : Clean s) {buffer : List UInt8} (hC : ClosesCleanly s (.dispatch buffer))
    (hs : step o s (.dispatch buffer) = some s') : Clean s' := by
  cases hs
  cases hl : s.conn.socketLocked with
  | true =>
    rw [Connection.dispatchLocked_of_locked _ hl]
    refine { h with ended := fun hf => ?_ }
    have hfalse : s.conn.socket.isOpen = false := hf
    rcases hC with hopen | ⟨-, hnone⟩
    · rw [hopen] at hfalse
      cases hfalse
    · exact ⟨(h.ended hfalse).1, .inr hnone⟩
  | false =>
    have hopen : s.conn.socket.isOpen = true := by
      rcases hC with hopen | ⟨hlocked, -⟩
      · exact hopen
      · rw [hl] at hlocked
        cases hlocked
    rw [Connection.dispatchLocked_of_unlocked _ hl]
    exact h.writes hopen hopen rfl fun _ hsilent => hsilent.append (if_pos hopen)

/-- `close()` aborts what is in progress. -/
theorem Clean.close (h : Clean s) {shutdown : ErrorCode} (hC : ClosesCleanly s (.close shutdown))
    (hs : step o s (.close shutdown) = some s') : Clean s' := by
  cases hopen : s.conn.socket.isOpen with
  | false =>
    simp only [step, Socket.close, hopen, Bool.not_false, if_true] at hs
    cases hs
    exact h
  | true =>
    cases hsd : shutdown.isError with
    | true =>
      simp only [step, Socket.close, hopen, hsd, Bool.not_true, Bool.false_eq_true, if_false,
        if_true] at hs
      cases hs
      exact h
    | false =>
      simp only [step, Socket.close, hopen, hsd, Bool.not_true, Bool.false_eq_true, if_false] at hs
      cases hs
      obtain ⟨hc, hends, hsilent, hqueue⟩ := hC hopen hsd
      have hclosing := h.opened hopen
      refine { h with
        one := ?_, opened := fun hf => ?_, once := ?_, told := fun hc' => absurd hc' hc
        silent := fun _ => ⟨?_, hsilent.aborted⟩
        ended := fun _ => ⟨?_, hqueue.imp_right NoneSucceeded.aborted⟩ }
      · show (s.conn.socket.reads.map _).length + s.slots ≤ 1
        rw [List.length_map]
        exact h.one
      · cases hf
      · show s.closing + 1 ≤ 1
        omega
      · intro op hop
        obtain ⟨op', hop', rfl⟩ := List.mem_map.mp hop
        exact Ends.aborted (hends op' hop')
      · intro op hop
        obtain ⟨op', -, rfl⟩ := List.mem_map.mp hop
        cases hr : op'.result with
        | none => rfl
        | some err => rfl

theorem Clean.closed (h : Clean s) (hs : step o s .closed = some s') : Clean s' := by
  simp only [step] at hs
  split_ifs at hs with hpos
  cases hs
  have hc : ¬ s.HasClosed := fun hc => by
    have := h.told hc
    omega
  have hclosing : s.closing - 1 = 0 := by
    have := h.once
    omega
  have hf : s.conn.socket.isOpen = false := by
    cases hopen : s.conn.socket.isOpen with
    | false => rfl
    | true =>
      have := h.opened hopen
      omega
  exact { h with
    final := (closedIsFinal_append [.closed] h.final rfl (Nat.le_refl 1)).mpr fun hc' => absurd hc' hc
    opened := fun _ => hclosing
    once := by
      show s.closing - 1 ≤ 1
      omega
    told := fun _ => hclosing
    silent := fun _ => h.silent (.inl hf) }

theorem Clean.step (h : Clean s) {a : LifecycleAct κ} (hC : ClosesCleanly s a)
    (hs : step o s a = some s') : Clean s' := by
  cases a with
  | readResult i buffer err => exact h.readResult hs
  | readHandler i junk => exact h.readHandler hC hs
  | slotReturn => exact h.slotReturn hC hs
  | slotThrow => exact h.slotThrow hs
  | writeResult i err => exact h.writeResult hC hs
  | writeHandler i => exact h.writeHandler hC hs
  | dispatch buffer => exact h.dispatch hC hs
  | createStream cmd command cb =>
    cases cb with
    | some cb =>
      cases hs
      exact { h with }
    | none =>
      cases hs
      exact { h with }
  | close shutdown => exact h.close hC hs
  | closed => exact h.closed hs

/-- **Closed is final.** Where a connection is closed cleanly, `closed` is emitted once at most and
    nothing is emitted after it, throughout the run. -/
theorem closedIsFinal_of_closesCleanly {as : List (LifecycleAct κ)}
    (hC : Meets (Lifecycle.step o) ClosesCleanly (init κ) as) :
    Throughout (Lifecycle.step o) ClosedIsFinal (init κ) as :=
  throughout_of_meets (I := Clean) (fun _ h => h.final) (fun _ _ _ h hC hs => h.step hC hs)
    clean_init hC

/-- After a package was received, `close()` is called while the next one is awaited, a package is being
    written and another is queued. The handlers that are left are silent, and two more packages wait in
    the queue for ever. -/
theorem closedIsFinal_close_while_writing :
    let as : List (LifecycleAct Unit) :=
      [.dispatch [1], .dispatch [2], .readResult 0 [16, 0, 0, 0, 0, 0, 0, 0] .success,
        .readHandler 0 (fun _ => 0), .readResult 0 (List.replicate 16 0) .success,
        .readHandler 0 (fun _ => 0), .slotReturn, .writeResult 0 .success, .writeHandler 0, .dispatch [3],
        .close .success, .dispatch [4], .readHandler 0 (fun _ => 0), .closed, .writeHandler 0,
        .dispatch [5]]
    (∃ s, run (Lifecycle.step .little) (init Unit) as = some s ∧
      s.emitted.map Emission.isClosed = [false, true] ∧ s.conn.packages.length = 3) ∧
    Throughout (Lifecycle.step .little) ClosedIsFinal (init Unit) as := by
  intro as
  obtain ⟨s, hr, hs⟩ : ∃ s, run (Lifecycle.step .little) (init Unit) as = some s ∧
      (s.emitted.map Emission.isClosed, s.conn.packages.length) = ([false, true], 3) :=
    Option.map_eq_some_iff.mp (by decide +kernel)
  obtain ⟨hemitted, hpackages⟩ := Prod.mk.inj hs
  exact ⟨⟨s, hr, hemitted, hpackages⟩, closedIsFinal_of_closesCleanly (by decide +kernel)⟩

/-- `close()` in a received slot: after `closed` the read that follows the slot fails, which is emitted
    as an error. -/
theorem error_after_close_in_slot :
    ¬ ∀ s : Lifecycle Unit, Reachable (step .little) (init Unit) s → s.ClosedIsFinal := by
  intro hall
  obtain ⟨s, hr, hs⟩ : ∃ s : Lifecycle Unit, run (step .little) (init Unit)
      [.readResult 0 [16, 0, 0, 0, 0, 0, 0, 0] .success, .readHandler 0 (fun _ => 0),
        .readResult 0 (List.replicate 16 0) .success, .readHandler 0 (fun _ => 0), .close .success,
        .closed, .slotReturn, .readHandler 0 (fun _ => 0)] = some s ∧
      s.emitted.map Emission.isClosed = [false, true, false] := Option.map_eq_some_iff.mp rfl
  obtain ⟨e₁, es, hes, -, hrest⟩ := List.map_eq_cons_iff.mp hs
  obtain ⟨e₂, es₂, rfl, h₂, hlast⟩ := List.map_eq_cons_iff.mp hrest
  have hnil := hall s ⟨_, hr⟩ [e₁] e₂ es₂ hes h₂
  rw [hnil] at hlast
  cases hlast

end Lifecycle

end Lnetlib
