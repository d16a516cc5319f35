import Lnetlib.Client.EventOrder
import Lnetlib.Connection.Proofs.SerialProofs
import Lnetlib.Connection.Proofs.CallbacksProofs

/-!
# Proofs: what the connection of a client hands over

A step of the connection emits one thing at most (`StepEvent`). The read loop goes on as long as no read
fails, and what it has handed over are the first of the packages that the server has sent (`LinkInv`).
-/

namespace Lnetlib

open Bytes Transition

variable {κ : Type} {o : ByteOrder}

namespace Loop

variable {l l' : Loop κ} {a : ReadingAct κ}

/-- The loop goes on as long as no read fails, no handler is given an empty package or left by an exception,
    and the connection is not closed. -/
theorem Moves.goesOn (hm : Moves o l a l') (hchain : Chain l) (hopen : l.isOpen = true)
    (hc : ∃ f, l.coming o = some f) (hfail : ∀ i n err, a ≠ .readFail i n err)
    (hthrow : ∀ k, a ≠ .slotThrow k) (hclose : ∀ shutdown, a ≠ .close shutdown)
    (hne : ∀ op err, l.handlers = [.entered op err] → l.reads = [] → err.isError = false →
      op.buffer ≠ []) :
    ∃ f, l'.coming o = some f := by
  obtain ⟨f, hf⟩ := hc
  -- a handler that was entered has no error to report
  have herr : ∀ {op err}, l.handlers = [.entered op err] → l.reads = [] → err.isError = false := by
    intro op err hh hr
    by_contra he
    have hnone : comingOf o op (some err) = none := comingOf_error (by simpa using he)
    rw [coming_entered hh hr, hnone] at hf
    cases hf
  have hread : ∀ isOpen handler exactly, isOpen = true →
      ∃ f, comingOf o (newRead isOpen handler exactly) (newRead isOpen handler exactly).result =
        some f := by
    intro isOpen handler exactly h
    subst h
    cases handler with
    | readPackageSizeHandler => exact ⟨_, rfl⟩
    | readPackageBodyHandler => exact ⟨_, rfl⟩
  cases hm with
  | other => exact ⟨f, hf⟩
  | peerSend => exact ⟨f, hf⟩
  | readResult i op hr hres hopen' hle =>
    have hh : l.handlers = [] := by
      cases hchain with
      | reading _ hh => exact hh
      | finished hh => exact hh
      | handling _ _ hr' =>
        rw [hr] at hr'
        cases hr'
    simp only [coming, hh]
    unfold comingOf
    cases op.handler with
    | readPackageSizeHandler => exact ⟨_, rfl⟩
    | readPackageBodyHandler => exact ⟨_, rfl⟩
  | readFail i n err => exact absurd rfl (hfail i n err)
  | invoke i op err hh hr hres =>
    refine ⟨f, ?_⟩
    rw [coming_read hh hr, hres] at hf
    exact (coming_entered rfl rfl).trans hf
  | ended k junk op err hk hh hr hend =>
    have hok := herr hh hr
    rcases hend with hab | ⟨-, hb⟩
    · simp [ErrorCode.isError, hab, ErrorCode.operationAborted] at hok
    · exact absurd hb (hne op err hh hr hok)
  | size k junk op err hh hr => exact hread l.isOpen _ _ hopen
  | body k junk op err hh hr => exact ⟨Reading.packages o, by simp only [coming, hr]⟩
  | failed k junk op err e hh hr he =>
    rw [herr hh hr] at he
    cases he
  | rearm k junk hh hr => exact hread l.isOpen _ _ hopen
  | slotReturn k b hh hr => exact ⟨Reading.packages o, by simp only [coming, hr]⟩
  | slotThrow k => exact absurd rfl (hthrow k)
  | reported a k ha hh hr =>
    unfold coming at hf
    rw [hh, hr] at hf
    cases hf
  | close shutdown => exact absurd rfl (hclose shutdown)

/-- What only the peer and `close()` change. -/
theorem Moves.kept (hm : Moves o l a l') (hpeer : ∀ bs, a ≠ .peerSend bs)
    (hclose : ∀ shutdown, a ≠ .close shutdown) : l'.sent = l.sent ∧ l'.isOpen = l.isOpen := by
  cases hm with
  | peerSend bs => exact absurd rfl (hpeer bs)
  | close shutdown => exact absurd rfl (hclose shutdown)
  | _ => exact ⟨rfl, rfl⟩

end Loop

namespace ClientRun

/-! ## What a step of the connection emits -/

/-- The bodies that slots and callbacks were given. -/
def started (calls : List SlotEvent) : List (List UInt8) :=
  calls.filterMap fun
    | .started body => some body
    | .ended _ => none

@[simp] theorem started_append (xs ys : List SlotEvent) :
    started (xs ++ ys) = started xs ++ started ys := List.filterMap_append

theorem started_callsOf (ended : List (List UInt8)) (open? : Option (List UInt8)) :
    started (Reading.callsOf ended open?) = ended ++ open?.toList := by
  unfold Reading.callsOf
  rw [started_append]
  congr 1
  · induction ended with
    | nil => rfl
    | cons body ended ih =>
      rw [List.flatMap_cons, started_append, ih]
      rfl
  · cases open? with
    | none => rfl
    | some body => rfl

/-- What a step of a connection emits, the package it gives to the body handler and the bodies of the calls
    that it starts. -/
inductive StepEvent (o : ByteOrder) :
    List (Emission κ) → List (List UInt8 × Bool) → List (List UInt8) → Prop where
  | silent : StepEvent o [] [] []
  | failing (e : Emission κ) (h : e = .closed ∨ ∃ code message, e = .error code message) :
      StepEvent o [e] [] []
  | claimed (body : List UInt8) (cb : κ) (stream : Istream) :
      StepEvent o [.callback cb stream] [(body, true)] [body]
  | received (body : List UInt8) (junk : Nat → UInt8) :
      StepEvent o [.received (Istream.construct o body junk)] [(body, false)] [body]

variable {r r' : Reading κ}

/-- A body handler that is given a package with a full header. -/
theorem readHandler_package (junk : Nat → UInt8) {op : ReadOp} {err : ErrorCode} (c : Connection κ)
    (hop : op.handler = .readPackageBodyHandler) (herr : err.isError = false)
    (hfull : 16 ≤ op.buffer.length) :
    StepEvent o (c.readHandler o junk op err).2.1
        [(op.buffer, (c.callbacks (packageUid o op.buffer)).isSome)] [op.buffer] ∧
      (c.readHandler o junk op err).2.2 = true := by
  obtain ⟨stream, rfl, huid, hsome, hnone⟩ := readHandler_arrival junk c hop herr hfull
  rw [huid] at hsome hnone
  cases hcb : c.callbacks (packageUid o op.buffer) with
  | some cb =>
    rw [hsome cb hcb]
    exact ⟨.claimed _ cb _, rfl⟩
  | none =>
    rw [hnone hcb]
    exact ⟨.received _ junk, rfl⟩

/-- Another handler of a read reports an error, or it emits nothing. -/
theorem readHandler_other (junk : Nat → UInt8) {op : ReadOp} {err : ErrorCode} (c : Connection κ)
    (h : ¬ (op.handler = .readPackageBodyHandler ∧ err.isError = false)) :
    StepEvent o (c.readHandler o junk op err).2.1 [] [] ∧ (c.readHandler o junk op err).2.2 = false := by
  have hout := c.readHandler_outcome o junk op err
  generalize c.readHandler o junk op err = res at hout ⊢
  cases hout with
  | ended => exact ⟨.silent, rfl⟩
  | size => exact ⟨.silent, rfl⟩
  | body c' e herr hop => exact absurd ⟨hop, herr⟩ h
  | closed => exact ⟨.failing _ (.inl rfl), rfl⟩
  | error => exact ⟨.failing _ (.inr ⟨_, _, rfl⟩), rfl⟩

/-- The calls that a handler starts. -/
theorem handle_calls {junk : Nat → UInt8} {k : Nat} {op : ReadOp} {err : ErrorCode} :
    (r.handle o junk k op err).calls =
      r.calls ++ if (r.conn.readHandler o junk op err).2.2 then [.started op.buffer] else [] := by
  unfold Reading.handle
  generalize r.conn.readHandler o junk op err = res
  obtain ⟨c, emitted, goesOn⟩ := res
  cases goesOn with
  | true => rfl
  | false =>
    cases emitted with
    | nil => exact (List.append_nil _).symm
    | cons => exact (List.append_nil _).symm

theorem started_takeBytes {i n : Nat} {err : ErrorCode} (hs : r.takeBytes i n err = some r') :
    r'.calls = r.calls := by
  unfold Reading.takeBytes at hs
  split_ifs at hs
  obtain ⟨conn, -, rfl⟩ := Option.map_eq_some_iff.mp hs
  rfl

/-- The handlers that were entered with a package have got one with a full header. -/
def FullPackages (r : Reading κ) : Prop :=
  ∀ op err, .entered op err ∈ r.handlers → op.handler = .readPackageBodyHandler →
    err.isError = false → 16 ≤ op.buffer.length

/-- What `check_error` emits. -/
theorem checkError_event (o : ByteOrder) (err : ErrorCode) :
    StepEvent o (Connection.checkError err : Bool × List (Emission κ)).2 [] [] := by
  cases herr : err.isError with
  | false =>
    rw [Connection.checkError_success herr]
    exact .silent
  | true =>
    rcases @Connection.checkError_cases κ err herr with ⟨-, hc⟩ | ⟨-, hc⟩ | ⟨-, hc⟩
    · rw [hc]
      exact .silent
    · rw [hc]
      exact .failing _ (.inl rfl)
    · rw [hc]
      exact .failing _ (.inr ⟨_, _, rfl⟩)

/-- What a read handler emits when it is entered. -/
theorem handle_event {junk : Nat → UInt8} {k : Nat} {op : ReadOp} {err : ErrorCode}
    (hfull : FullPackages r) (hk : r.handlers[k]? = some (.entered op err)) :
    ∃ bodies, StepEvent o (emits o r (.advance k junk)) (arrival o r (.advance k junk)) bodies ∧
      started (r.handle o junk k op err).calls = started r.calls ++ bodies := by
  simp only [emits, arrival, hk]
  rw [handle_calls, started_append]
  by_cases hbody : op.handler = .readPackageBodyHandler ∧ err.isError = false
  · have hlen := hfull op err (List.mem_of_getElem? hk) hbody.1 hbody.2
    obtain ⟨hev, hgo⟩ := readHandler_package (o := o) junk r.conn hbody.1 hbody.2 hlen
    rw [if_pos hbody, if_pos hgo]
    exact ⟨[op.buffer], hev, rfl⟩
  · obtain ⟨hev, hgo⟩ := readHandler_other (o := o) junk r.conn hbody
    rw [if_neg hbody, hgo]
    exact ⟨[], hev, rfl⟩

/-- What any step of the connection emits. -/
theorem step_event {a : ReadingAct κ} (hfull : FullPackages r) (hs : r.step o a = some r') :
    ∃ bodies, StepEvent o (emits o r a) (arrival o r a) bodies ∧
      started r'.calls = started r.calls ++ bodies := by
  have hsilent : emits o r a = [] → arrival o r a = [] → started r'.calls = started r.calls →
      ∃ bodies, StepEvent o (emits o r a) (arrival o r a) bodies ∧
        started r'.calls = started r.calls ++ bodies := by
    intro he ha hc
    rw [he, ha]
    exact ⟨[], .silent, by rw [hc, List.append_nil]⟩
  cases a with
  | advance k junk =>
    simp only [Reading.step] at hs
    split at hs
    · rename_i op err hk
      obtain rfl := Option.some.inj hs
      exact handle_event hfull hk
    · rename_i hk
      obtain rfl := Option.some.inj hs
      apply hsilent
      · simp only [emits, hk]
      · simp only [arrival, hk]
      · rfl
    · cases hs
  | slotReturn k | slotThrow k =>
    simp only [Reading.step] at hs
    split at hs
    · obtain rfl := Option.some.inj hs
      exact hsilent rfl rfl ((started_append _ _).trans (List.append_nil _))
    · obtain rfl := Option.some.inj hs
      exact hsilent rfl rfl rfl
    · cases hs
  | readResult i =>
    obtain ⟨op, -, hs⟩ := Option.bind_eq_some_iff.mp hs
    exact hsilent rfl rfl (congrArg started (started_takeBytes hs))
  | readFail i n err =>
    obtain ⟨op, -, hs⟩ := Option.bind_eq_some_iff.mp hs
    split_ifs at hs
    exact hsilent rfl rfl (congrArg started (started_takeBytes hs))
  | invoke i =>
    simp only [Reading.step] at hs
    split at hs
    · obtain rfl := Option.some.inj hs
      exact hsilent rfl rfl rfl
    · cases hs
  | writeHandler i =>
    obtain ⟨⟨conn, es⟩, hconn, rfl⟩ := Option.map_eq_some_iff.mp hs
    obtain ⟨op, err, -, -, rfl, -⟩ := Connection.invokeWrite_spec hconn
    refine ⟨[], ?_, (List.append_nil _).symm⟩
    simp only [emits, arrival, hconn]
    exact checkError_event o err
  | writeResult i err =>
    obtain ⟨conn, -, rfl⟩ := Option.map_eq_some_iff.mp hs
    exact hsilent rfl rfl rfl
  | createStream cmd command cb =>
    cases cb with
    | none =>
      obtain rfl := Option.some.inj hs
      exact hsilent rfl rfl rfl
    | some cb =>
      obtain rfl := Option.some.inj hs
      exact hsilent rfl rfl rfl
  | close shutdown =>
    simp only [Reading.step] at hs
    split at hs
    · obtain rfl := Option.some.inj hs
      exact hsilent rfl rfl rfl
    · obtain rfl := Option.some.inj hs
      exact hsilent rfl rfl rfl
  | peerSend bs =>
    obtain rfl := Option.some.inj hs
    exact hsilent rfl rfl rfl
  | dispatch buffer =>
    obtain rfl := Option.some.inj hs
    exact hsilent rfl rfl rfl

/-! ## The connection -/

variable {s s' : ClientRun κ}

/-- The packages sent have a full header, and their sizes fit. -/
def FullHeaders (sent : List (List UInt8)) : Prop :=
  ∀ body ∈ sent, 16 ≤ body.length ∧ body.length < 2 ^ 64

/-- The bytes of all packages sent. -/
def wire (o : ByteOrder) (sent : List (List UInt8)) : List UInt8 :=
  Framing.frames (fun n => bytesOf o (UInt64.ofNat n)) sent

theorem wire_snoc (sent : List (List UInt8)) (body : List UInt8) :
    wire o (sent ++ [body]) = wire o sent ++ packageBytes o body := by
  unfold wire packageBytes
  rw [Framing.frames_append]
  congr 1
  exact List.append_nil _

theorem packages_wire {sent : List (List UInt8)} (h : FullHeaders sent) :
    Reading.packages o (wire o sent) = sent := by
  apply Framing.bodies_frames
  · decide
  · intro n
    exact bytesOf_length o _
  · intro body hbody
    rw [Connection.packageSize_bytesOf]
    exact UInt64.toNat_ofNat_of_lt' (h body hbody).2

/-- The state of the read loop, with what has arrived. -/
structure LinkInv (o : ByteOrder) (s : ClientRun κ) (r : Reading κ) : Prop where
  sound : r.loop.Sound
  isOpen : r.conn.socket.isOpen = true
  order : ∃ ended, r.loop.InOrder o ended
  arrivals_eq : s.arrivals.map Prod.fst = started r.calls
  bytes : r.sent ++ s.flight = wire o s.sent
  goesOn : s.hungUp = false → ∃ f, r.loop.coming o = some f

/-- What was handed over is a prefix of what has arrived, and so of what was sent. -/
theorem LinkInv.isPrefix (h : LinkInv o s r) (more : List UInt8) :
    s.arrivals.map Prod.fst <+: Reading.packages o (r.sent ++ more) := by
  obtain ⟨ended, hI⟩ := h.order
  have hcalls : r.calls = Reading.callsOf ended r.loop.current := hI.calls
  rw [h.arrivals_eq, hcalls, started_callsOf]
  exact hI.isPrefix more

theorem LinkInv.packages_eq (h : LinkInv o s r) (hsent : FullHeaders s.sent) :
    Reading.packages o (r.sent ++ s.flight) = s.sent := by
  rw [h.bytes]
  exact packages_wire hsent

/-- A body that the handler was entered with was sent. -/
theorem LinkInv.full (h : LinkInv o s r) (hsent : FullHeaders s.sent) : FullPackages r := by
  intro op err hmem hop herr
  obtain ⟨ended, hI⟩ := h.order
  obtain ⟨k, hk⟩ := List.mem_iff_getElem?.mp hmem
  obtain ⟨hh, -, hr⟩ := Reading.handlers_eq h.sound.chain hk
  have hcoming : r.loop.coming o = some fun bs => op.buffer :: Reading.packages o bs := by
    rw [Loop.coming_entered hh hr]
    simp only [Loop.comingOf, hop, herr, Bool.false_eq_true, if_false]
  have hrest := hI.rest _ hcoming s.flight
  rw [show r.loop.sent = r.sent from rfl, h.packages_eq hsent] at hrest
  have hin : op.buffer ∈ s.sent := by
    rw [hrest]
    exact List.mem_append_right _ List.mem_cons_self
  exact (hsent op.buffer hin).1

/-- No handler is given an empty package. -/
theorem LinkInv.not_empty (h : LinkInv o s r) (hsent : FullHeaders s.sent) (op : ReadOp)
    (err : ErrorCode) (hh : r.loop.handlers = [.entered op err]) (herr : err.isError = false) :
    op.buffer ≠ [] := by
  intro hb
  have hmem : .entered op err ∈ r.handlers := by
    rw [show r.handlers = _ from hh]
    exact List.mem_singleton_self _
  have hok := h.sound.entered op err hmem
  have hlen := hok.success err rfl herr
  rw [hb, List.length_nil] at hlen
  cases hop : op.handler with
  | readPackageSizeHandler =>
    have h8 : sizeof UInt64 = 8 := rfl
    have hsize := hok.size hop
    omega
  | readPackageBodyHandler =>
    have hfull := h.full hsent op err hmem hop herr
    rw [hb, List.length_nil] at hfull
    omega

/-- A connection just made. -/
theorem linkInv_init (harr : s.arrivals = []) (hflight : s.flight = wire o s.sent) :
    LinkInv o s (Reading.init κ) where
  sound := Reading.sound_init
  isOpen := rfl
  order := by
    refine ⟨[], .of_rest (f := Reading.packages o) rfl rfl fun more => ?_⟩
    simp [Reading.loop, Reading.init, Loop.current]
  arrivals_eq := by
    rw [harr]
    rfl
  bytes := hflight
  goesOn := fun _ => ⟨_, rfl⟩

/-- A step of the connection. -/
theorem LinkInv.step (h : LinkInv o s r) (hsent : FullHeaders s.sent) {a : ReadingAct κ}
    (hs : r.step o a = some r') (hpeer : ∀ bs, a ≠ .peerSend bs) (hthrow : ∀ k, a ≠ .slotThrow k)
    (hclose : ∀ shutdown, a ≠ .close shutdown) (hsent' : s'.sent = s.sent)
    (hflight : s'.flight = s.flight) (harr : s'.arrivals = s.arrivals ++ arrival o r a)
    (hhung : s'.hungUp = (s.hungUp || fails a)) : LinkInv o s' r' := by
  have hm := Reading.step_moves h.sound.chain hs
  obtain ⟨hkept, hopen⟩ := hm.kept hpeer hclose
  obtain ⟨ended, hI⟩ := h.order
  obtain ⟨bodies, hev, hstarted⟩ := step_event (h.full hsent) hs
  refine
    { sound := hm.sound h.sound
      isOpen := hopen.trans h.isOpen
      order := Loop.inOrder_of_moves h.sound hI hm
      arrivals_eq := ?_
      bytes := ?_
      goesOn := ?_ }
  · rw [harr, List.map_append, h.arrivals_eq, hstarted]
    congr 1
    generalize emits o r a = es, arrival o r a = as at hev
    cases hev with
    | silent => rfl
    | failing => rfl
    | claimed => rfl
    | received => rfl
  · rw [show r'.sent = r.sent from hkept, hflight, hsent']
    exact h.bytes
  · intro hhung'
    rw [hhung, Bool.or_eq_false_iff] at hhung'
    refine hm.goesOn h.sound.chain h.isOpen (h.goesOn hhung'.1) ?_ hthrow hclose ?_
    · rintro i n err rfl
      cases hhung'.2
    · intro op err hh _ herr
      exact h.not_empty hsent op err hh herr

/-- Bytes that arrive. -/
theorem LinkInv.deliver (h : LinkInv o s r) {n : Nat}
    (hs : r.step o (.peerSend (s.flight.take n)) = some r') (hsent' : s'.sent = s.sent)
    (hflight : s'.flight = s.flight.drop n) (harr : s'.arrivals = s.arrivals)
    (hhung : s'.hungUp = s.hungUp) : LinkInv o s' r' := by
  have hm := Reading.step_moves h.sound.chain hs
  obtain ⟨ended, hI⟩ := h.order
  cases hs
  refine
    { sound := hm.sound h.sound
      isOpen := h.isOpen
      order := Loop.inOrder_of_moves h.sound hI hm
      arrivals_eq := harr ▸ h.arrivals_eq
      bytes := ?_
      goesOn := fun hf => h.goesOn (hhung ▸ hf) }
  rw [hflight, hsent', List.append_assoc, List.take_append_drop]
  exact h.bytes

/-- Where the loop goes on but has not handed over all that has arrived, the thread or a read has something
    to do. -/
theorem LinkInv.reads_on (h : LinkInv o s r) (hhung : s.hungUp = false) :
    s.arrivals.map Prod.fst = Reading.packages o r.sent ∨
      (∃ junk, (r.step o (.advance 0 junk)).isSome = true) ∨
      (r.step o (.slotReturn 0)).isSome = true ∨
      (r.handlers = [] ∧ ((r.step o (.invoke 0)).isSome = true ∨
        (r.step o (.readResult 0)).isSome = true)) := by
  obtain ⟨ended, hI⟩ := h.order
  obtain ⟨f, hf⟩ := h.goesOn hhung
  have hrest := hI.rest f hf []
  cases h.sound.chain with
  | handling fr hh hr =>
    have hh : r.handlers = [fr] := hh
    cases fr with
    | entered op err =>
      refine .inr (.inl ⟨fun _ => 0, ?_⟩)
      simp only [Reading.step, hh, List.getElem?_cons_zero, Option.isSome_some]
    | waitPackage =>
      refine .inr (.inl ⟨fun _ => 0, ?_⟩)
      simp only [Reading.step, hh, List.getElem?_cons_zero, Option.isSome_some]
    | inSlot body =>
      refine .inr (.inr (.inl ?_))
      simp only [Reading.step, hh, List.getElem?_cons_zero, Option.isSome_some]
    | failing =>
      refine .inr (.inr (.inl ?_))
      simp only [Reading.step, hh, List.getElem?_cons_zero, Option.isSome_some]
  | finished hh hr =>
    unfold Loop.coming at hf
    rw [hh, hr] at hf
    cases hf
  | reading op hh hr =>
    have hhr : r.handlers = [] := hh
    have hrr : r.conn.socket.reads = [op] := hr
    have hok := h.sound.reads op (by rw [hr]; exact List.mem_singleton_self _)
    cases hres : op.result with
    | some err =>
      refine .inr (.inr (.inr ⟨hhr, .inl ?_⟩))
      obtain ⟨handler, exactly, buffer, result⟩ := op
      obtain rfl : result = some err := hres
      simp only [Reading.step, hrr, List.getElem?_cons_zero, Option.isSome_some]
    | none =>
      by_cases hle : op.exactly ≤ r.pipe.length
      · refine .inr (.inr (.inr ⟨hhr, .inr ?_⟩))
        obtain ⟨handler, exactly, buffer, result⟩ := op
        obtain rfl : result = none := hres
        have htake : (r.pipe.take exactly).length = exactly := List.length_take_of_le hle
        simp [Reading.step, hrr, Reading.takeBytes, h.isOpen, hle, Connection.completeRead]
      · -- the bytes that are there hold no further package
        left
        have hshort : f (r.pipe ++ []) = [] := by
          rw [List.append_nil]
          rw [Loop.coming_read hh hr, hres] at hf
          unfold Loop.comingOf at hf
          cases hop : op.handler with
          | readPackageSizeHandler =>
            rw [hop] at hf
            obtain rfl := Option.some.inj hf
            apply Framing.bodies_short
            have := hok.size hop
            omega
          | readPackageBodyHandler =>
            rw [hop] at hf
            obtain rfl := Option.some.inj hf
            apply Framing.bodyThen_short
            omega
        have hcalls : r.calls = Reading.callsOf ended r.loop.current := hI.calls
        rw [show r.loop.pipe = r.pipe from rfl, hshort, List.append_nil, List.append_nil] at hrest
        rw [h.arrivals_eq, hcalls, started_callsOf]
        exact hrest.symm

end ClientRun

end Lnetlib
