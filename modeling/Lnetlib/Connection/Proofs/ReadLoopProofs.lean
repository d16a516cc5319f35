import Lnetlib.Connection.Reading

/-!
# Proofs: the read loop as one chain

What matters to the read loop of a connection is a part of the state (`Loop`), and every step moves it in one
of a few ways (`Moves`): there is one read, or one handler, or the loop is over (`Chain`). The results about
the loop are read off the moves.
-/

namespace Lnetlib

open Bytes Transition

/-- The part of the state that the read loop is about. -/
structure Loop (κ : Type) where
  isOpen : Bool
  reads : List ReadOp
  handlers : List ReadFrame
  sent : List UInt8
  pipe : List UInt8
  calls : List SlotEvent
  reported : List (Emission κ)

variable {κ : Type} {o : ByteOrder}

namespace Loop

/-- A read just started. -/
def newRead (isOpen : Bool) (handler : ReadHandler) (exactly : Nat) : ReadOp :=
  { handler := handler, exactly := exactly, buffer := []
    result := if isOpen then none else some ErrorCode.badDescriptor }

/-- What a step does to the loop. -/
inductive Moves (o : ByteOrder) (l : Loop κ) : ReadingAct κ → Loop κ → Prop where
  | other (a : ReadingAct κ) (hadv : ∀ k junk, a ≠ .advance k junk) (hthrow : ∀ k, a ≠ .slotThrow k) :
      Moves o l a l
  | peerSend (bs : List UInt8) :
      Moves o l (.peerSend bs) { l with sent := l.sent ++ bs, pipe := l.pipe ++ bs }
  | readResult (i : Nat) (op : ReadOp) (hr : l.reads = [op]) (hres : op.result = none)
      (hopen : l.isOpen = true) (hle : op.exactly ≤ l.pipe.length) :
      Moves o l (.readResult i) { l with
        reads := [{ op with buffer := l.pipe.take op.exactly, result := some .success }]
        pipe := l.pipe.drop op.exactly }
  | readFail (i n : Nat) (err : ErrorCode) (op : ReadOp) (hr : l.reads = [op])
      (hres : op.result = none) (hpos : n < op.exactly) (herr : err.isError = true)
      (hvalue : err.value ≠ ErrorCode.operationAborted.value) :
      Moves o l (.readFail i n err) { l with
        reads := [{ op with buffer := l.pipe.take n, result := some err }]
        pipe := l.pipe.drop n }
  | invoke (i : Nat) (op : ReadOp) (err : ErrorCode) (hh : l.handlers = []) (hr : l.reads = [op])
      (hres : op.result = some err) :
      Moves o l (.invoke i) { l with reads := [], handlers := [.entered op err] }
  /-- The handler returns, and no read is started. -/
  | ended (k : Nat) (junk : Nat → UInt8) (op : ReadOp) (err : ErrorCode) (hk : k = 0)
      (hh : l.handlers = [.entered op err]) (hr : l.reads = [])
      (hend : err.value = ErrorCode.operationAborted.value ∨ err.isError = false ∧ op.buffer = []) :
      Moves o l (.advance k junk) { l with handlers := [] }
  | size (k : Nat) (junk : Nat → UInt8) (op : ReadOp) (err : ErrorCode)
      (hh : l.handlers = [.entered op err]) (hr : l.reads = []) (herr : err.isError = false)
      (hop : op.handler = .readPackageSizeHandler) :
      Moves o l (.advance k junk) { l with
        handlers := []
        reads := [newRead l.isOpen .readPackageBodyHandler (Connection.packageSize o op.buffer).toNat] }
  | body (k : Nat) (junk : Nat → UInt8) (op : ReadOp) (err : ErrorCode)
      (hh : l.handlers = [.entered op err]) (hr : l.reads = []) (herr : err.isError = false)
      (hop : op.handler = .readPackageBodyHandler) (hb : op.buffer ≠ []) :
      Moves o l (.advance k junk) { l with
        handlers := [.inSlot op.buffer], calls := l.calls ++ [.started op.buffer] }
  | failed (k : Nat) (junk : Nat → UInt8) (op : ReadOp) (err : ErrorCode) (e : Emission κ)
      (hh : l.handlers = [.entered op err]) (hr : l.reads = []) (herr : err.isError = true)
      (he : e = .closed ∨ ∃ code message, e = .error code message) :
      Moves o l (.advance k junk) { l with handlers := [.failing], reported := l.reported ++ [e] }
  | rearm (k : Nat) (junk : Nat → UInt8) (hh : l.handlers = [.waitPackage]) (hr : l.reads = []) :
      Moves o l (.advance k junk) { l with
        handlers := []
        reads := [newRead l.isOpen .readPackageSizeHandler (sizeof UInt64)] }
  | slotReturn (k : Nat) (b : List UInt8) (hh : l.handlers = [.inSlot b]) (hr : l.reads = []) :
      Moves o l (.slotReturn k) { l with
        handlers := [.waitPackage], calls := l.calls ++ [.ended b] }
  | slotThrow (k : Nat) (b : List UInt8) (hk : k = 0) (hh : l.handlers = [.inSlot b])
      (hr : l.reads = []) :
      Moves o l (.slotThrow k) { l with handlers := [], calls := l.calls ++ [.ended b] }
  | reported (a : ReadingAct κ) (k : Nat) (ha : a = .slotReturn k ∨ a = .slotThrow k)
      (hh : l.handlers = [.failing]) (hr : l.reads = []) : Moves o l a { l with handlers := [] }
  | close (shutdown : ErrorCode) :
      Moves o l (.close shutdown) { l with
        isOpen := false
        reads := l.reads.map fun op =>
          { op with result := op.result <|> some ErrorCode.operationAborted } }

/-- One read is outstanding, or one read handler runs, or the loop is over. -/
inductive Chain (l : Loop κ) : Prop where
  | reading (op : ReadOp) (hh : l.handlers = []) (hr : l.reads = [op])
  | handling (f : ReadFrame) (hh : l.handlers = [f]) (hr : l.reads = [])
  | finished (hh : l.handlers = []) (hr : l.reads = [])

/-- While a read is outstanding no handler runs. -/
theorem Chain.handlers_eq_nil {l : Loop κ} (hc : Chain l) {op : ReadOp} (hr : l.reads = [op]) :
    l.handlers = [] := by
  cases hc with
  | reading op' hh _ => exact hh
  | handling f _ hr' =>
    rw [hr] at hr'
    cases hr'
  | finished hh _ => exact hh

theorem Moves.chain {l l' : Loop κ} {a : ReadingAct κ} (hc : Chain l) (hm : Moves o l a l') :
    Chain l' := by
  cases hm with
  | other => exact hc
  | peerSend =>
    cases hc with
    | reading op hh hr => exact .reading op hh hr
    | handling f hh hr => exact .handling f hh hr
    | finished hh hr => exact .finished hh hr
  | readResult i op hr => exact .reading _ (hc.handlers_eq_nil hr) rfl
  | readFail i n err op hr => exact .reading _ (hc.handlers_eq_nil hr) rfl
  | invoke => exact .handling _ rfl rfl
  | ended k junk op err hk hh hr => exact .finished rfl hr
  | size => exact .reading _ rfl rfl
  | body k junk op err hh hr => exact .handling _ rfl hr
  | failed k junk op err e hh hr => exact .handling _ rfl hr
  | rearm => exact .reading _ rfl rfl
  | slotReturn k b hh hr => exact .handling _ rfl hr
  | slotThrow k b hk hh hr => exact .finished rfl hr
  | reported a k ha hh hr => exact .finished rfl hr
  | close =>
    cases hc with
    | reading op hh hr => exact .reading _ hh (by rw [hr]; rfl)
    | handling f hh hr => exact .handling f hh (by rw [hr]; rfl)
    | finished hh hr => exact .finished hh (by rw [hr]; rfl)

end Loop

namespace Reading

variable {s s' : Reading κ}

/-- The read loop of a connection. -/
def loop (s : Reading κ) : Loop κ :=
  { isOpen := s.conn.socket.isOpen, reads := s.conn.socket.reads, handlers := s.handlers
    sent := s.sent, pipe := s.pipe, calls := s.calls, reported := s.reported }

/-- The read that a step names is the only one. -/
theorem reads_eq (hc : s.loop.Chain) {i : Nat} {op : ReadOp}
    (h : s.conn.socket.reads[i]? = some op) : s.conn.socket.reads = [op] ∧ i = 0 := by
  have hone : s.conn.socket.reads = [] ∨ ∃ op', s.conn.socket.reads = [op'] := by
    cases hc with
    | reading op' _ hr => exact .inr ⟨op', hr⟩
    | handling f _ hr => exact .inl hr
    | finished _ hr => exact .inl hr
  rcases hone with hr | ⟨op', hr⟩
  · rw [hr] at h
    cases h
  · rw [hr] at h ⊢
    obtain ⟨hlt, heq⟩ := List.getElem?_eq_some_iff.mp h
    have hi : i = 0 := by simpa using hlt
    subst hi
    exact ⟨by rw [← heq]; rfl, rfl⟩

/-- The handler that a step names is the only one, and no read is outstanding. -/
theorem handlers_eq (hc : s.loop.Chain) {k : Nat} {f : ReadFrame} (h : s.handlers[k]? = some f) :
    s.handlers = [f] ∧ k = 0 ∧ s.conn.socket.reads = [] := by
  have hone : s.handlers = [] ∨ (∃ f', s.handlers = [f']) ∧ s.conn.socket.reads = [] := by
    cases hc with
    | reading op' hh _ => exact .inl hh
    | handling f' hh hr => exact .inr ⟨⟨f', hh⟩, hr⟩
    | finished hh _ => exact .inl hh
  rcases hone with hh | ⟨⟨f', hh⟩, hr⟩
  · rw [hh] at h
    cases h
  · rw [hh] at h ⊢
    obtain ⟨hlt, heq⟩ := List.getElem?_eq_some_iff.mp h
    have hk : k = 0 := by simpa using hlt
    subst hk
    exact ⟨by rw [← heq]; rfl, rfl, hr⟩

/-- What the completion of a read changes. -/
theorem takeBytes_eq_some {i n : Nat} {err : ErrorCode} {op : ReadOp} (hc : s.loop.Chain)
    (hi : s.conn.socket.reads[i]? = some op) (hs : s.takeBytes i n err = some s') :
    s.conn.socket.reads = [op] ∧ op.result = none ∧ s.conn.socket.isOpen = true ∧
      n ≤ s.pipe.length ∧ s'.loop = { s.loop with
        reads := [{ op with buffer := s.pipe.take n, result := some err }], pipe := s.pipe.drop n } := by
  obtain ⟨hr, rfl⟩ := reads_eq hc hi
  unfold takeBytes at hs
  split_ifs at hs with hcond
  obtain ⟨conn, hconn, rfl⟩ := Option.map_eq_some_iff.mp hs
  obtain ⟨op', hi', hres, rfl⟩ := Connection.completeRead_eq_some hconn
  obtain rfl := Option.some.inj (hi.symm.trans hi')
  refine ⟨hr, hres, hcond.1, hcond.2, ?_⟩
  simp [loop, Connection.setReads, hr]

/-- The handler of a completed read moves the loop. -/
theorem handle_moves {junk : Nat → UInt8} {k : Nat} {op : ReadOp} {err : ErrorCode}
    (hc : s.loop.Chain) (hk : s.handlers[k]? = some (.entered op err)) :
    Loop.Moves o s.loop (.advance k junk) (s.handle o junk k op err).loop := by
  obtain ⟨hh, rfl, hr⟩ := handlers_eq hc hk
  have hhl : s.loop.handlers = [.entered op err] := hh
  have hrl : s.loop.reads = [] := hr
  have hout := s.conn.readHandler_outcome o junk op err
  have hfail : ∀ e : Emission κ, ({ s with
      conn := s.conn, handlers := s.handlers.set 0 .failing
      reported := s.reported ++ [e] } : Reading κ).loop =
      { s.loop with handlers := [.failing], reported := s.loop.reported ++ [e] } := by
    intro e
    simp [loop, hh]
  unfold handle
  generalize hreq : s.conn.readHandler o junk op err = r at hout ⊢
  cases hout with
  | ended hend =>
    have heq : (leave 0 { s with conn := s.conn }).loop = { s.loop with handlers := [] } := by
      simp [loop, leave, hh]
    simp only [heq]
    exact .ended 0 junk op err rfl hhl hrl hend
  | size n herr hop hb =>
    rw [Connection.readHandler_size o junk hop herr hb s.conn] at hreq
    have hconn := congrArg Prod.fst hreq
    simp only at hconn
    rw [← hconn]
    have heq : (leave 0 { s with
        conn := s.conn.waitPackageBody (Connection.packageSize o op.buffer) }).loop =
        { s.loop with
          handlers := []
          reads := [Loop.newRead s.loop.isOpen .readPackageBodyHandler
            (Connection.packageSize o op.buffer).toNat] } := by
      simp [loop, leave, hh, hr, Connection.waitPackageBody, Socket.asyncRead, Socket.startResult,
        Loop.newRead]
    simp only [heq]
    exact .size 0 junk op err hhl hrl herr hop
  | body c' e herr hop hb hsock he =>
    have heq : ({ s with conn := c', handlers := s.handlers.set 0 (.inSlot op.buffer)
                         calls := s.calls ++ [.started op.buffer] } : Reading κ).loop =
        { s.loop with handlers := [.inSlot op.buffer]
                      calls := s.loop.calls ++ [.started op.buffer] } := by
      simp [loop, hh, hsock]
    simp only [heq]
    exact .body 0 junk op err hhl hrl herr hop hb
  | closed hend =>
    have herr : err.isError = true := by
      rcases hend with h | h <;> simp [ErrorCode.isError, h, ErrorCode.eof, ErrorCode.sslShortRead]
    simp only [hfail]
    exact .failed 0 junk op err _ hhl hrl herr (.inl rfl)
  | error hloud =>
    have herr : err.isError = true := by
      cases he : err.isError with
      | true => rfl
      | false => exact absurd (.inl he) hloud
    simp only [hfail]
    exact .failed 0 junk op err _ hhl hrl herr (.inr ⟨_, _, rfl⟩)

/-- Every step moves the loop. -/
theorem step_moves {a : ReadingAct κ} (hc : s.loop.Chain) (hs : step o s a = some s') :
    Loop.Moves o s.loop a s'.loop := by
  cases a with
  | peerSend bs =>
    obtain rfl := Option.some.inj hs
    exact .peerSend bs
  | readResult i =>
    obtain ⟨op, hi, hs⟩ := Option.bind_eq_some_iff.mp hs
    obtain ⟨hr, hres, hopen, hle, hloop⟩ := takeBytes_eq_some hc hi hs
    rw [hloop]
    exact .readResult i op hr hres hopen hle
  | readFail i n err =>
    obtain ⟨op, hi, hs⟩ := Option.bind_eq_some_iff.mp hs
    split_ifs at hs with hcond
    obtain ⟨hr, hres, -, -, hloop⟩ := takeBytes_eq_some hc hi hs
    rw [hloop]
    exact .readFail i n err op hr hres hcond.1 hcond.2.1 hcond.2.2
  | invoke i =>
    simp only [step] at hs
    split at hs
    · rename_i handler exactly buffer err hi
      obtain rfl := Option.some.inj hs
      obtain ⟨hr, rfl⟩ := reads_eq hc hi
      have hh : s.handlers = [] := hc.handlers_eq_nil hr
      have := Loop.Moves.invoke (o := o) (l := s.loop) 0 _ err hh hr rfl
      simpa [loop, Connection.setReads, hh, hr] using this
    · cases hs
  | advance k junk =>
    simp only [step] at hs
    split at hs
    · rename_i op err hk
      obtain rfl := Option.some.inj hs
      exact handle_moves hc hk
    · rename_i hk
      obtain rfl := Option.some.inj hs
      obtain ⟨hh, rfl, hr⟩ := handlers_eq hc hk
      have := Loop.Moves.rearm (o := o) (l := s.loop) 0 junk hh hr
      simpa [loop, leave, hh, hr, Connection.waitPackage, Socket.asyncRead, Socket.startResult,
        Loop.newRead] using this
    · cases hs
  | slotReturn k =>
    simp only [step] at hs
    split at hs
    · rename_i b hk
      obtain rfl := Option.some.inj hs
      obtain ⟨hh, rfl, hr⟩ := handlers_eq hc hk
      have := Loop.Moves.slotReturn (o := o) (l := s.loop) 0 b hh hr
      simpa [loop, hh] using this
    · rename_i hk
      obtain rfl := Option.some.inj hs
      obtain ⟨hh, rfl, hr⟩ := handlers_eq hc hk
      have := Loop.Moves.reported (o := o) (l := s.loop) (.slotReturn 0) 0 (.inl rfl) hh hr
      simpa [loop, leave, hh] using this
    · cases hs
  | slotThrow k =>
    simp only [step] at hs
    split at hs
    · rename_i b hk
      obtain rfl := Option.some.inj hs
      obtain ⟨hh, rfl, hr⟩ := handlers_eq hc hk
      have := Loop.Moves.slotThrow (o := o) (l := s.loop) 0 b rfl hh hr
      simpa [loop, leave, hh] using this
    · rename_i hk
      obtain rfl := Option.some.inj hs
      obtain ⟨hh, rfl, hr⟩ := handlers_eq hc hk
      have := Loop.Moves.reported (o := o) (l := s.loop) (.slotThrow 0) 0 (.inr rfl) hh hr
      simpa [loop, leave, hh] using this
    · cases hs
  | writeResult i err =>
    obtain ⟨conn, hconn, rfl⟩ := Option.map_eq_some_iff.mp hs
    obtain ⟨ops, rfl⟩ := Connection.completeWrite_eq_some hconn
    exact .other _ (by simp) (by simp)
  | writeHandler i =>
    obtain ⟨⟨conn, es⟩, hconn, rfl⟩ := Option.map_eq_some_iff.mp hs
    obtain ⟨op, err, -, -, -, locked, packages, ops, rfl⟩ := Connection.invokeWrite_spec hconn
    exact .other _ (by simp) (by simp)
  | dispatch buffer =>
    obtain rfl := Option.some.inj hs
    obtain ⟨locked, packages, ops, heq⟩ :=
      s.conn.dispatchLocked_eq (Connection.createPackage o s.next buffer)
    rw [heq]
    exact .other _ (by simp) (by simp)
  | createStream cmd command cb =>
    cases cb with
    | none =>
      obtain rfl := Option.some.inj hs
      exact .other _ (by simp) (by simp)
    | some cb =>
      obtain rfl := Option.some.inj hs
      exact .other _ (by simp) (by simp)
  | close shutdown =>
    rcases s.conn.close_cases shutdown with ⟨-, -, ops, hclose⟩ | ⟨-, e, hclose⟩
    · simp only [step, hclose] at hs
      obtain rfl := Option.some.inj hs
      exact .close shutdown
    · simp only [step, hclose] at hs
      obtain rfl := Option.some.inj hs
      exact .other _ (by simp) (by simp)

end Reading

end Lnetlib
