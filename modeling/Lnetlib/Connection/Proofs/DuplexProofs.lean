import Lnetlib.Connection.Duplex
import Lnetlib.Connection.Proofs.CallbacksProofs
import Lnetlib.Connection.Proofs.CorrelationProofs
import Lnetlib.Connection.Proofs.TransferProofs

/-!
# Proofs: two connections over a socket refine two FIFO channels

Each direction by itself is a `Transfer` (`Direction`), which says what an end is given: a prefix of what the
other end has sent. So the package that is handled next is the next one on its way, and every step is one of
`Peers` or none (`refines_step`).
-/

namespace Lnetlib

open Bytes Transition

variable {κ : Type} {o : ByteOrder}

/-! ## The sending half of a connection -/

/-- A sender between two steps of its threads, and a connection in the same state. -/
structure Agrees (r : Reading κ) (t : Sending κ) : Prop where
  isOpen : t.conn.socket.isOpen = r.conn.socket.isOpen
  writes : t.writes = r.conn.socket.writes
  locked : t.conn.socketLocked = r.conn.socketLocked
  packages : t.conn.packages = r.conn.packages
  next : t.next = r.next
  mutex : t.mutex = none
  threads : t.threads = fun _ => .idle

namespace Connection

/-- The handlers of reads start reads and change the table of callbacks. -/
theorem readHandler_frame (junk : Nat → UInt8) (op : ReadOp) (err : ErrorCode) (c : Connection κ) :
    ∃ reads callbacks, (c.readHandler o junk op err).1 =
      { c with socket := { c.socket with reads := reads }, callbacks := callbacks } := by
  unfold readHandler readPackageSizeHandler readPackageBodyHandler
  generalize (checkError err : Bool × List (Emission κ)) = r
  obtain ⟨ok, es⟩ := r
  cases op.handler with
  | readPackageSizeHandler =>
    dsimp only
    split_ifs
    · exact ⟨c.socket.reads, c.callbacks, rfl⟩
    · exact ⟨c.socket.reads, c.callbacks, rfl⟩
    · exact ⟨_, c.callbacks, rfl⟩
  | readPackageBodyHandler =>
    dsimp only
    split_ifs
    · exact ⟨c.socket.reads, c.callbacks, rfl⟩
    · exact ⟨c.socket.reads, c.callbacks, rfl⟩
    · split
      · exact ⟨c.socket.reads, _, rfl⟩
      · exact ⟨c.socket.reads, c.callbacks, rfl⟩

end Connection

namespace Reading

variable {r r' : Reading κ}

/-- The state that sending depends on. -/
def SameSending (r r' : Reading κ) : Prop :=
  r'.conn.socket.isOpen = r.conn.socket.isOpen ∧ r'.conn.socket.writes = r.conn.socket.writes ∧
    r'.conn.socketLocked = r.conn.socketLocked ∧ r'.conn.packages = r.conn.packages ∧ r'.next = r.next

theorem takeBytes_sameSending {i n : Nat} {err : ErrorCode} (hs : r.takeBytes i n err = some r') :
    r.SameSending r' := by
  unfold takeBytes at hs
  split_ifs at hs
  obtain ⟨conn, hconn, rfl⟩ := Option.map_eq_some_iff.mp hs
  obtain ⟨op, -, -, rfl⟩ := Connection.completeRead_eq_some hconn
  exact ⟨rfl, rfl, rfl, rfl, rfl⟩

theorem takeBytes_calls {i n : Nat} {err : ErrorCode} (hs : r.takeBytes i n err = some r') :
    r'.calls = r.calls := by
  unfold takeBytes at hs
  split_ifs at hs
  obtain ⟨conn, -, rfl⟩ := Option.map_eq_some_iff.mp hs
  rfl

theorem handle_sameSending {junk : Nat → UInt8} {k : Nat} {op : ReadOp} {err : ErrorCode} :
    r.SameSending (r.handle o junk k op err) := by
  obtain ⟨reads, callbacks, hframe⟩ := r.conn.readHandler_frame (o := o) junk op err
  unfold handle
  generalize r.conn.readHandler o junk op err = out at hframe ⊢
  obtain ⟨c, es, goesOn⟩ := out
  dsimp only at hframe
  subst hframe
  cases goesOn with
  | true => exact ⟨rfl, rfl, rfl, rfl, rfl⟩
  | false => cases es <;> exact ⟨rfl, rfl, rfl, rfl, rfl⟩

/-- The steps that are not about sending. -/
theorem step_sameSending {a : ReadingAct κ} (hs : r.step o a = some r')
    (hdispatch : ∀ body, a ≠ .dispatch body) (hresult : ∀ i err, a ≠ .writeResult i err)
    (hhandler : ∀ i, a ≠ .writeHandler i) (hclose : ∀ e, a ≠ .close e) : r.SameSending r' := by
  cases a with
  | dispatch body => exact absurd rfl (hdispatch body)
  | writeResult i err => exact absurd rfl (hresult i err)
  | writeHandler i => exact absurd rfl (hhandler i)
  | close e => exact absurd rfl (hclose e)
  | peerSend bs =>
    obtain rfl := Option.some.inj hs
    exact ⟨rfl, rfl, rfl, rfl, rfl⟩
  | createStream cmd command cb =>
    cases cb <;>
    · obtain rfl := Option.some.inj hs
      exact ⟨rfl, rfl, rfl, rfl, rfl⟩
  | readResult i =>
    obtain ⟨op, -, hs⟩ := Option.bind_eq_some_iff.mp hs
    exact takeBytes_sameSending hs
  | readFail i n err =>
    obtain ⟨op, -, hs⟩ := Option.bind_eq_some_iff.mp hs
    split_ifs at hs
    exact takeBytes_sameSending hs
  | invoke i =>
    simp only [step] at hs
    split at hs
    · obtain rfl := Option.some.inj hs
      exact ⟨rfl, rfl, rfl, rfl, rfl⟩
    · cases hs
  | advance k junk =>
    simp only [step] at hs
    split at hs
    · obtain rfl := Option.some.inj hs
      exact handle_sameSending
    · obtain rfl := Option.some.inj hs
      exact ⟨rfl, rfl, rfl, rfl, rfl⟩
    · cases hs
  | slotReturn k | slotThrow k =>
    simp only [step] at hs
    split at hs
    · obtain rfl := Option.some.inj hs
      exact ⟨rfl, rfl, rfl, rfl, rfl⟩
    · obtain rfl := Option.some.inj hs
      exact ⟨rfl, rfl, rfl, rfl, rfl⟩
    · cases hs

end Reading

theorem Agrees.congr {r r' : Reading κ} {t : Sending κ} (h : Agrees r t) (hs : r.SameSending r') :
    Agrees r' t where
  isOpen := h.isOpen.trans hs.1.symm
  writes := h.writes.trans hs.2.1.symm
  locked := h.locked.trans hs.2.2.1.symm
  packages := h.packages.trans hs.2.2.2.1.symm
  next := h.next.trans hs.2.2.2.2.symm
  mutex := h.mutex
  threads := h.threads

/-- The dispatch slot does the same to both. -/
theorem Agrees.dispatchLocked {r : Reading κ} {t : Sending κ} (h : Agrees r t) (pkg : Package)
    (threads : Nat → Thread) (hth : threads = fun _ => .idle) :
    Agrees { r with conn := r.conn.dispatchLocked pkg, next := r.next + 1 }
      { t with
        conn := t.conn.dispatchLocked pkg, mutex := none, threads := threads, next := t.next + 1
        accepted := t.accepted ++ [pkg] } := by
  have hnext : t.next + 1 = r.next + 1 := by rw [h.next]
  have hresult : t.conn.socket.startResult = r.conn.socket.startResult := by
    rw [Socket.startResult, Socket.startResult, h.isOpen]
  by_cases hl : r.conn.socketLocked = true
  · have hl' : t.conn.socketLocked = true := h.locked.trans hl
    simp only [Connection.dispatchLocked_of_locked pkg hl, Connection.dispatchLocked_of_locked pkg hl']
    exact ⟨h.isOpen, h.writes, h.locked, congrArg (· ++ [pkg]) h.packages, hnext, rfl, hth⟩
  · have hl : r.conn.socketLocked = false := by simpa using hl
    have hl' : t.conn.socketLocked = false := h.locked.trans hl
    simp only [Connection.dispatchLocked_of_unlocked pkg hl, Connection.dispatchLocked_of_unlocked pkg hl']
    refine ⟨h.isOpen, ?_, rfl, h.packages, hnext, rfl, hth⟩
    simp only [Sending.writes, Connection.sendPackage_writes, hresult]
    exact congrArg (· ++ _) h.writes

/-- And so does the handler of a write that succeeded. -/
theorem Agrees.writeHandlerLocked {r : Reading κ} {t : Sending κ} (h : Agrees r t)
    (threads : Nat → Thread) (hth : threads = fun _ => .idle) :
    Agrees { r with conn := r.conn.writeHandlerLocked }
      { t with conn := t.conn.writeHandlerLocked, mutex := none, threads := threads } := by
  have hresult : t.conn.socket.startResult = r.conn.socket.startResult := by
    rw [Socket.startResult, Socket.startResult, h.isOpen]
  cases hp : r.conn.packages with
  | nil =>
    have hp' : t.conn.packages = [] := h.packages.trans hp
    rw [Connection.writeHandlerLocked_of_nil hp, Connection.writeHandlerLocked_of_nil hp']
    exact ⟨h.isOpen, h.writes, rfl, h.packages, h.next, rfl, hth⟩
  | cons pkg packages =>
    have hp' : t.conn.packages = pkg :: packages := h.packages.trans hp
    rw [Connection.writeHandlerLocked_of_cons hp, Connection.writeHandlerLocked_of_cons hp']
    refine ⟨h.isOpen, ?_, rfl, rfl, h.next, rfl, hth⟩
    simp only [Sending.writes, Connection.sendPackage_writes]
    rw [show (Socket.startResult _) = _ from hresult]
    exact congrArg (· ++ _) h.writes

/-- A write has completed, or its handler was invoked. -/
theorem Agrees.setWrites {r : Reading κ} {t : Sending κ} (h : Agrees r t) (ops : List WriteOp) :
    Agrees { r with conn := r.conn.setWrites ops } (t.setWrites ops) :=
  ⟨h.isOpen, rfl, h.locked, h.packages, h.next, h.mutex, h.threads⟩

namespace Transfer

variable {s : Transfer κ} {r r' : Reading κ}

/-- A step of the sending end. -/
theorem reachable_send {a : SendAct} {sender : Sending κ} (ha : s.Allows a)
    (hs : s.sender.step o a = some sender) :
    Reachable (step o o) s { s with sender := sender } := by
  refine .single (a := .send a) ?_
  simp only [step, if_pos ha, hs, Option.map_some]

/-- The idle threads. -/
theorem update_idle {threads : Nat → Thread} (h : threads = fun _ => .idle) (t : Nat) (x : Thread) :
    Function.update (Function.update threads t x) t .idle = fun _ => .idle := by
  rw [Function.update_idem, h]
  exact Function.update_eq_self t _

/-- One thread goes through the dispatch slot. -/
theorem agrees_dispatch {body : List UInt8} (h : Agrees r s.sender) (hlen : body.length < 2 ^ 64)
    (hs : r.step o (.dispatch body) = some r') :
    ∃ sender, Reachable (step o o) s { s with sender := sender } ∧ Agrees r' sender ∧
      sender.accepted.map Package.dataBuffer = s.sender.accepted.map Package.dataBuffer ++ [body] := by
  obtain rfl := Option.some.inj hs
  set pkg := Connection.createPackage o s.sender.next body with hpkg
  have hr : Connection.createPackage o r.next body = pkg := by rw [hpkg, h.next]
  rw [hr]
  have hcreate : s.sender.step o (.createPackage 0 body) = some { s.sender with
      threads := Function.update s.sender.threads 0 (.dispatch pkg), next := s.sender.next + 1 } := by
    simp [Sending.step, h.threads, hpkg]
  set s₁ : Transfer κ := { s with sender := { s.sender with
    threads := Function.update s.sender.threads 0 (.dispatch pkg), next := s.sender.next + 1 } }
  have henter : s₁.sender.step o (.enter 0) = some { s₁.sender with
      conn := s.sender.conn.dispatchLocked pkg
      mutex := some 0
      threads := Function.update s₁.sender.threads 0 .unlock
      accepted := s.sender.accepted ++ [pkg] } := by
    simp [Sending.step, s₁, h.mutex]
  set s₂ : Transfer κ := { s with sender := { s₁.sender with
    conn := s.sender.conn.dispatchLocked pkg
    mutex := some 0
    threads := Function.update s₁.sender.threads 0 .unlock
    accepted := s.sender.accepted ++ [pkg] } }
  have hleave : s₂.sender.step o (.leave 0) = some { s₂.sender with
      mutex := none, threads := Function.update s₂.sender.threads 0 .idle } := by
    simp [Sending.step, s₂]
  have h₁ : Reachable (step o o) s s₁ := reachable_send (a := .createPackage 0 body) hlen hcreate
  have h₂ : Reachable (step o o) s₁ s₂ := reachable_send (s := s₁) (a := .enter 0) trivial henter
  have h₃ := reachable_send (s := s₂) (a := .leave 0) trivial hleave
  refine ⟨_, (h₁.trans h₂).trans h₃, h.dispatchLocked pkg _ ?_, ?_⟩
  · have hsame : s₂.sender.threads = Function.update s.sender.threads 0 .unlock :=
      Function.update_idem _ _ _
    rw [hsame]
    exact update_idle h.threads 0 .unlock
  · show (s.sender.accepted ++ [pkg]).map _ = _
    rw [List.map_append]
    rfl

/-- A thread invokes the handler of a write. -/
theorem agrees_writeHandler {i : Nat} (h : Agrees r s.sender) (hs : r.step o (.writeHandler i) = some r') :
    ∃ sender, Reachable (step o o) s { s with sender := sender } ∧ Agrees r' sender ∧
      sender.accepted = s.sender.accepted := by
  obtain ⟨⟨conn, es⟩, hconn, rfl⟩ := Option.map_eq_some_iff.mp hs
  unfold Connection.invokeWrite at hconn
  split at hconn
  · rename_i pkg err hi
    have hi' : s.sender.writes[i]? = some { pkg := pkg, result := some err } := by rw [h.writes, hi]
    have hset : Agrees { r with conn := r.conn.setWrites (r.conn.socket.writes.eraseIdx i) }
        (s.sender.setWrites (s.sender.writes.eraseIdx i)) := by
      rw [h.writes]
      exact h.setWrites _
    have hfst : (Connection.checkError err : Bool × List (Emission κ)).1 = !err.isError :=
      Connection.checkError_fst err
    generalize hcheck : (Connection.checkError err : Bool × List (Emission κ)) = out at hconn hfst
    obtain ⟨ok, emitted⟩ := out
    have hcomplete : s.sender.step o (.complete 0 i) = some { s.sender.setWrites
          (s.sender.writes.eraseIdx i) with
        threads := Function.update s.sender.threads 0 (if ok then .writeHandler else .idle)
        completed := s.sender.completed ++ [(pkg, err)]
        emitted := s.sender.emitted ++ emitted } := by
      simp [Sending.step, h.threads, hi', hcheck]
    cases ok with
    | false =>
      cases hconn
      refine ⟨_, reachable_send (a := .complete 0 i) trivial hcomplete, ⟨hset.isOpen, hset.writes,
        hset.locked, hset.packages, hset.next, hset.mutex, ?_⟩, rfl⟩
      show Function.update s.sender.threads 0 _ = _
      rw [h.threads]
      exact Function.update_eq_self 0 _
    | true =>
      cases hconn
      set s₁ : Transfer κ := { s with sender := { s.sender.setWrites (s.sender.writes.eraseIdx i) with
        threads := Function.update s.sender.threads 0 .writeHandler
        completed := s.sender.completed ++ [(pkg, err)]
        emitted := s.sender.emitted ++ es } }
      have henter : s₁.sender.step o (.enter 0) = some { s₁.sender with
          conn := s₁.sender.conn.writeHandlerLocked
          mutex := some 0
          threads := Function.update s₁.sender.threads 0 .unlock } := by
        simp [Sending.step, s₁, Sending.setWrites, h.mutex]
      set s₂ : Transfer κ := { s₁ with sender := { s₁.sender with
        conn := s₁.sender.conn.writeHandlerLocked
        mutex := some 0
        threads := Function.update s₁.sender.threads 0 .unlock } }
      have hleave : s₂.sender.step o (.leave 0) = some { s₂.sender with
          mutex := none, threads := Function.update s₂.sender.threads 0 .idle } := by
        simp [Sending.step, s₂]
      have h₁ : Reachable (step o o) s s₁ := reachable_send (a := .complete 0 i) trivial hcomplete
      have h₂ : Reachable (step o o) s₁ s₂ := reachable_send (s := s₁) (a := .enter 0) trivial henter
      have h₃ := reachable_send (s := s₂) (a := .leave 0) trivial hleave
      have hthreads : Function.update s₂.sender.threads 0 .idle = fun _ => Thread.idle := by
        have hsame : s₂.sender.threads = Function.update s.sender.threads 0 .unlock :=
          Function.update_idem _ _ _
        rw [hsame]
        exact update_idle h.threads 0 .unlock
      have hlocked := hset.writeHandlerLocked _ hthreads
      exact ⟨_, (h₁.trans h₂).trans h₃, ⟨hlocked.isOpen, hlocked.writes, hlocked.locked,
        hlocked.packages, hlocked.next, rfl, hthreads⟩, rfl⟩
  · cases hconn

/-- A write completes. -/
theorem agrees_writeResult {i : Nat} {err : ErrorCode} (h : Agrees r s.sender)
    (ha : s.Allows (.result i err)) (hs : r.step o (.writeResult i err) = some r') :
    ∃ sender, Reachable (step o o) s { s with sender := sender } ∧ Agrees r' sender ∧
      sender.accepted = s.sender.accepted := by
  obtain ⟨conn, hconn, rfl⟩ := Option.map_eq_some_iff.mp hs
  unfold Connection.completeWrite at hconn
  split at hconn
  · rename_i pkg hi
    cases hconn
    have hi' : s.sender.writes[i]? = some { pkg := pkg, result := none } := by rw [h.writes, hi]
    have hresult : s.sender.step o (.result i err) = some (s.sender.setWrites
        (s.sender.writes.set i { pkg := pkg, result := some err })) := by
      simp [Sending.step, hi']
    refine ⟨_, reachable_send ha hresult, ?_, rfl⟩
    rw [h.writes]
    exact h.setWrites _
  · cases hconn

/-- `close()` is called. -/
theorem agrees_close {e : ErrorCode} (h : Agrees r s.sender) (hs : r.step o (.close e) = some r') :
    ∃ sender, Reachable (step o o) s { s with sender := sender } ∧ Agrees r' sender ∧
      sender.accepted = s.sender.accepted := by
  simp only [Reading.step, Connection.close, Socket.close] at hs
  have hclose : ∃ sender, s.sender.step o (.close e) = some sender ∧ Agrees r' sender ∧
      sender.accepted = s.sender.accepted := by
    simp only [Sending.step, Connection.close, Socket.close, h.isOpen]
    by_cases hopen : r.conn.socket.isOpen = true
    · by_cases he : e.isError = true
      · simp only [hopen, he, Bool.not_true, Bool.false_eq_true, if_false, if_true] at hs ⊢
        obtain rfl := Option.some.inj hs
        exact ⟨_, rfl, h, rfl⟩
      · simp only [hopen, he, Bool.not_true, Bool.false_eq_true, if_false] at hs ⊢
        obtain rfl := Option.some.inj hs
        refine ⟨_, rfl, ⟨rfl, ?_, h.locked, h.packages, h.next, h.mutex, h.threads⟩, rfl⟩
        exact congrArg (List.map _) h.writes
    · have hopen : r.conn.socket.isOpen = false := by simpa using hopen
      simp only [hopen, Bool.not_false, if_true] at hs ⊢
      obtain rfl := Option.some.inj hs
      exact ⟨_, rfl, h, rfl⟩
  obtain ⟨sender, hsender, hagrees, hacc⟩ := hclose
  exact ⟨sender, reachable_send (a := .close e) trivial hsender, hagrees, hacc⟩

/-- The sending end follows the connection. -/
theorem agrees_step {a : ReadingAct κ} (h : Agrees r s.sender) (hs : r.step o a = some r')
    (hdispatch : ∀ body, a ≠ .dispatch body)
    (hresult : ∀ i err, a = .writeResult i err → s.Allows (.result i err)) :
    ∃ sender, Reachable (step o o) s { s with sender := sender } ∧ Agrees r' sender ∧
      sender.accepted = s.sender.accepted := by
  by_cases hwrite : ∃ i err, a = .writeResult i err
  · obtain ⟨i, err, rfl⟩ := hwrite
    exact agrees_writeResult h (hresult i err rfl) hs
  by_cases hhandler : ∃ i, a = .writeHandler i
  · obtain ⟨i, rfl⟩ := hhandler
    exact agrees_writeHandler h hs
  by_cases hclose : ∃ e, a = .close e
  · obtain ⟨e, rfl⟩ := hclose
    exact agrees_close h hs
  push Not at hwrite hhandler hclose
  exact ⟨s.sender, .refl, h.congr (Reading.step_sameSending hs hdispatch hwrite hhandler hclose), rfl⟩

end Transfer

/-! ## The two directions -/

@[simp] theorem Side.other_other (x : Side) : x.other.other = x := by
  cases x <;> rfl

theorem Side.ne_other (x : Side) : x ≠ x.other := by
  cases x <;> decide

/-- What holds of an end and of the other one holds of both. -/
theorem Side.both {P : Side → Prop} (x : Side) (h : P x) (h' : P x.other) : ∀ y, P y := by
  intro y
  cases x <;> cases y <;> assumption

namespace Duplex

variable {s s' : Duplex}

@[simp] theorem setEndpoint_self (x : Side) (e : Endpoint) : (s.setEndpoint x e).endpoint x = e := by
  simp only [setEndpoint, Function.update_self]

@[simp] theorem setEndpoint_other (x : Side) (e : Endpoint) :
    (s.setEndpoint x e).endpoint x.other = s.endpoint x.other := by
  simp only [setEndpoint, Function.update_of_ne x.ne_other.symm]

/-- What `x` sends and the other end reads is a `Transfer`. -/
structure Direction (s : Duplex) (x : Side) (t : Transfer Nat) : Prop where
  sender : Agrees (s.endpoint x).reading t.sender
  progress : t.progress = (s.endpoint x).progress
  receiver : t.receiver = (s.endpoint x.other).reading
  sent : t.sender.accepted.map Package.dataBuffer = (s.endpoint x).sent

/-- It is one that can be reached. -/
def Directed (o : ByteOrder) (s : Duplex) (x : Side) : Prop :=
  ∃ t, Reachable (Transfer.step o o) (Transfer.init Nat) t ∧ s.Direction x t

theorem directed_init (x : Side) : init.Directed o x :=
  ⟨Transfer.init Nat, .refl, ⟨rfl, rfl, rfl, rfl, rfl, rfl, rfl⟩, rfl, rfl, rfl⟩

/-- The sending end takes steps of its own. -/
theorem Directed.send {x : Side} {e : Endpoint} (h : s.Directed o x)
    (hp : e.progress = (s.endpoint x).progress)
    (hs : ∀ t : Transfer Nat, Agrees (s.endpoint x).reading t.sender →
      t.progress = (s.endpoint x).progress →
      ∃ sender, Reachable (Transfer.step o o) t { t with sender := sender } ∧ Agrees e.reading sender ∧
        (t.sender.accepted.map Package.dataBuffer = (s.endpoint x).sent →
          sender.accepted.map Package.dataBuffer = e.sent)) :
    (s.setEndpoint x e).Directed o x := by
  obtain ⟨t, ht, hd⟩ := h
  obtain ⟨sender, hreach, hagrees, hsent⟩ := hs t hd.sender hd.progress
  refine ⟨_, ht.trans hreach, ?_, ?_, ?_, ?_⟩
  · rw [setEndpoint_self]
    exact hagrees
  · rw [setEndpoint_self, hp]
    exact hd.progress
  · rw [setEndpoint_other]
    exact hd.receiver
  · rw [setEndpoint_self]
    exact hsent hd.sent

/-- The reading end takes a step, or none. -/
theorem Directed.receive {x : Side} {e : Endpoint} (h : s.Directed o x.other)
    (hs : e.reading = (s.endpoint x).reading ∨
      ∃ a, (∀ bs, a ≠ .peerSend bs) ∧ (s.endpoint x).reading.step o a = some e.reading) :
    (s.setEndpoint x e).Directed o x.other := by
  obtain ⟨t, ht, hd⟩ := h
  have hreceiver : t.receiver = (s.endpoint x).reading := by
    rw [hd.receiver, Side.other_other]
  have hsame : ∀ t' : Transfer Nat, t'.sender = t.sender → t'.progress = t.progress →
      t'.receiver = e.reading → (s.setEndpoint x e).Direction x.other t' := by
    intro t' hsender hprogress hreading
    refine ⟨?_, ?_, ?_, ?_⟩
    · rw [setEndpoint_other, hsender]
      exact hd.sender
    · rw [setEndpoint_other, hprogress]
      exact hd.progress
    · rw [Side.other_other, setEndpoint_self]
      exact hreading
    · rw [setEndpoint_other, hsender]
      exact hd.sent
  rcases hs with hs | ⟨a, ha, hs⟩
  · exact ⟨t, ht, hsame t rfl rfl (hreceiver.trans hs.symm)⟩
  · refine ⟨{ t with receiver := e.reading }, ht.tail (a := .receive a) ?_, hsame _ rfl rfl rfl⟩
    have hmap : Transfer.step o o t (.receive a) =
        (t.receiver.step o a).map fun receiver => { t with receiver := receiver } := by
      cases a with
      | peerSend bs => exact absurd rfl (ha bs)
      | _ => rfl
    rw [hmap, hreceiver, hs]
    rfl

/-- A step of the connection of one end. -/
theorem directed_connection {x : Side} {a : ReadingAct Nat} {e : Endpoint}
    (h : ∀ y, s.Directed o y) (ha : Allows (s.endpoint x) a)
    (hs : (s.endpoint x).reading.step o a = some e.reading)
    (hp : e.progress = (s.endpoint x).progress) (hsent : e.sent = (s.endpoint x).sent) :
    ∀ y, (s.setEndpoint x e).Directed o y := by
  refine Side.both x ?_ ?_
  · refine (h x).send hp fun t ht hprogress => ?_
    obtain ⟨sender, hreach, hagrees, hacc⟩ := Transfer.agrees_step ht hs
      (by rintro body rfl; exact ha) (by
        rintro i err rfl
        rcases ha with ha | ha
        · exact .inl ha
        · right
          rw [ht.writes, hprogress]
          exact ha)
    exact ⟨sender, hreach, hagrees, fun hold => by rw [hacc, hsent]; exact hold⟩
  · refine (h x.other).receive (.inr ⟨a, ?_, hs⟩)
    rintro bs rfl
    exact ha

/-! ## What each step does -/

/-- No package points to freed storage. -/
def Intact (s : Duplex) : Prop := ∀ x i, (s.endpoint x).freed i = false

/-- The steps where no storage is freed, by what they change. -/
inductive Stepped (o : ByteOrder) (s : Duplex) : DuplexAct → Duplex → Prop where
  | createStream (x : Side) (cmd : CommandType) (command : cmd.Value) (callback : Bool) :
      Stepped o s (.createStream x cmd command callback)
        (s.setEndpoint x (createStream o cmd command callback (s.endpoint x)))
  | createResponse (x : Side) (j : Nat) (stream : Istream)
      (hj : (s.endpoint x).incoming[j]? = some stream) :
      Stepped o s (.createResponse x j) (s.setEndpoint x { s.endpoint x with
        streams := (s.endpoint x).streams ++ [stream.createResponse o] })
  | write (x : Side) (i : Nat) (bs : List UInt8) (os : Ostream)
      (hi : (s.endpoint x).streams[i]? = some os) :
      Stepped o s (.write x i bs) (s.setEndpoint x { s.endpoint x with
        streams := (s.endpoint x).streams.set i (os.write bs) })
  | send (x : Side) (i : Nat) (os : Ostream) (reading : Reading Nat)
      (hi : (s.endpoint x).streams[i]? = some os) (hsended : os.sended = false)
      (hlen : os.buffer.length < 2 ^ 64)
      (hs : (s.endpoint x).reading.step o (.dispatch os.buffer) = some reading) :
      Stepped o s (.send x i) (s.setEndpoint x { s.endpoint x with
        reading := reading
        streams := (s.endpoint x).streams.set i { os with sended := true }
        streamOf := Function.update (s.endpoint x).streamOf (s.endpoint x).reading.next i
        sent := (s.endpoint x).sent ++ [os.buffer] })
  | resend (x : Side) (i : Nat) (os : Ostream) (hi : (s.endpoint x).streams[i]? = some os)
      (hsended : os.sended = true) :
      Stepped o s (.send x i) (s.setEndpoint x { s.endpoint x with
        streams := (s.endpoint x).streams.set i os })
  | transmit (x : Side) (i n : Nat) (junk : Nat → UInt8) (pkg : Package) (reading : Reading Nat)
      (hi : (s.endpoint x).reading.conn.socket.writes[i]? = some { pkg := pkg, result := none })
      (hn : (s.endpoint x).progress pkg.ptr + n ≤ pkg.bytes.length)
      (hs : (s.endpoint x.other).reading.step o
        (.peerSend ((pkg.bytes.drop ((s.endpoint x).progress pkg.ptr)).take n)) = some reading) :
      Stepped o s (.transmit x i n junk) ((s.setEndpoint x { s.endpoint x with
        progress := Function.update (s.endpoint x).progress pkg.ptr
          ((s.endpoint x).progress pkg.ptr + n) }).setEndpoint x.other { s.endpoint x.other with
            reading := reading })
  | connection (x : Side) (a : ReadingAct Nat) (reading : Reading Nat) (ha : Allows (s.endpoint x) a)
      (hs : (s.endpoint x).reading.step o a = some reading) :
      Stepped o s (.connection x a) (s.setEndpoint x { s.endpoint x with
        reading := reading
        incoming := (s.endpoint x).incoming ++ (ran o (s.endpoint x).reading a).map Prod.snd
        handled := (s.endpoint x).handled ++ (ran o (s.endpoint x).reading a).map Prod.fst })

theorem freedBy_eq {x : Side} {i : Nat} {os : Ostream} {bs : List UInt8}
    (hk : s.KeepsStorage (.write x i bs)) (hi : (s.endpoint x).streams[i]? = some os) :
    freedBy (s.endpoint x) i os bs = (s.endpoint x).freed := by
  unfold freedBy
  cases hs : os.sended with
  | false => rfl
  | true =>
    obtain ⟨hkeeps, hfits⟩ := hk os hi hs
    simp [hkeeps, hfits]

theorem step_cases {a : DuplexAct} (hintact : s.Intact) (hk : s.KeepsStorage a)
    (h : step o s a = some s') : Stepped o s a s' := by
  cases a with
  | createStream x cmd command callback =>
    cases h
    exact .createStream x cmd command callback
  | createResponse x j =>
    obtain ⟨stream, hj, rfl⟩ := Option.map_eq_some_iff.mp h
    exact .createResponse x j stream hj
  | write x i bs =>
    obtain ⟨os, hi, rfl⟩ := Option.map_eq_some_iff.mp h
    rw [freedBy_eq hk hi]
    exact .write x i bs os hi
  | send x i =>
    obtain ⟨os, hi, h⟩ := Option.bind_eq_some_iff.mp h
    obtain ⟨e, he, rfl⟩ := Option.map_eq_some_iff.mp h
    unfold sendStream Ostream.send at he
    cases hsended : os.sended with
    | true =>
      simp only [hsended, if_true] at he
      cases he
      exact .resend x i os hi hsended
    | false =>
      simp only [hsended, Bool.false_eq_true, if_false] at he
      split_ifs at he with hlen
      obtain ⟨reading, hs, rfl⟩ := Option.map_eq_some_iff.mp he
      exact .send x i os reading hi hsended hlen hs
  | transmit x i n junk =>
    simp only [step] at h
    split at h
    · rename_i pkg hi
      split_ifs at h with hn
      rw [hintact, Package.bytesIn_false] at h
      obtain ⟨reading, hs, rfl⟩ := Option.map_eq_some_iff.mp h
      exact .transmit x i n junk pkg reading hi hn hs
    · cases h
  | connection x a =>
    simp only [step] at h
    split_ifs at h with ha
    obtain ⟨reading, hs, rfl⟩ := Option.map_eq_some_iff.mp h
    exact .connection x a reading ha hs

/-- A step of user code that leaves the connection alone. -/
theorem directed_user {x : Side} {e : Endpoint} (h : ∀ y, s.Directed o y)
    (hr : e.reading = (s.endpoint x).reading) (hp : e.progress = (s.endpoint x).progress)
    (hsent : e.sent = (s.endpoint x).sent) : ∀ y, (s.setEndpoint x e).Directed o y := by
  refine Side.both x ?_ ((h x.other).receive (.inl hr))
  refine (h x).send hp fun t ht _ => ⟨t.sender, .refl, ?_, fun hold => ?_⟩
  · rw [hr]
    exact ht
  · rw [hsent]
    exact hold

/-- Bytes of `x` reach the other end, which sends as before. -/
theorem directed_transmit {x : Side} {i n : Nat} {pkg : Package} {reading : Reading Nat}
    (h : ∀ y, s.Directed o y)
    (hi : (s.endpoint x).reading.conn.socket.writes[i]? = some { pkg := pkg, result := none })
    (hn : (s.endpoint x).progress pkg.ptr + n ≤ pkg.bytes.length)
    (hs : (s.endpoint x.other).reading.step o
      (.peerSend ((pkg.bytes.drop ((s.endpoint x).progress pkg.ptr)).take n)) = some reading) :
    ∀ y, ((s.setEndpoint x { s.endpoint x with
      progress := Function.update (s.endpoint x).progress pkg.ptr
        ((s.endpoint x).progress pkg.ptr + n) }).setEndpoint x.other { s.endpoint x.other with
          reading := reading }).Directed o y := by
  set e : Endpoint := { s.endpoint x with
    progress := Function.update (s.endpoint x).progress pkg.ptr ((s.endpoint x).progress pkg.ptr + n) }
  set e' : Endpoint := { s.endpoint x.other with reading := reading }
  have hx : ((s.setEndpoint x e).setEndpoint x.other e').endpoint x = e := by
    have hother := (setEndpoint_other (s := s.setEndpoint x e) x.other e')
    rw [Side.other_other, setEndpoint_self] at hother
    exact hother
  have hy : ((s.setEndpoint x e).setEndpoint x.other e').endpoint x.other = e' := setEndpoint_self _ _
  refine Side.both x ?_ ?_
  · obtain ⟨t, ht, hd⟩ := h x
    have hi' : t.sender.writes[i]? = some { pkg := pkg, result := none } := by rw [hd.sender.writes, hi]
    refine ⟨{ t with
      progress := Function.update t.progress pkg.ptr (t.progress pkg.ptr + n), receiver := reading },
      ht.tail (a := .transmit i n) ?_, ?_, ?_, ?_, ?_⟩
    · have hs'' : t.receiver.step o (.peerSend ((pkg.bytes.drop (t.progress pkg.ptr)).take n)) =
          some reading := by
        rw [hd.receiver, hd.progress]
        exact hs
      rw [← hd.progress] at hn
      simp only [Transfer.step, hi', if_pos hn, hs'', Option.map_some]
    · rw [hx]
      exact hd.sender
    · rw [hx, hd.progress]
    · rw [hy]
    · rw [hx]
      exact hd.sent
  · obtain ⟨t, ht, hd⟩ := h x.other
    refine ⟨t, ht, ?_, ?_, ?_, ?_⟩
    · rw [hy]
      exact hd.sender.congr
        (Reading.step_sameSending hs (by simp) (by simp) (by simp) (by simp))
    · rw [hy]
      exact hd.progress
    · rw [Side.other_other, hx, hd.receiver, Side.other_other]
    · rw [hy]
      exact hd.sent

theorem directed_step {a : DuplexAct} (h : ∀ x, s.Directed o x) (hs : Stepped o s a s') :
    ∀ x, s'.Directed o x := by
  cases hs with
  | createResponse x | write x | resend x => exact directed_user h rfl rfl rfl
  | createStream x cmd command callback =>
    -- the connection has the step `createStream`
    have hstep : (s.endpoint x).reading.step o (.createStream cmd command
        (if callback then some (s.endpoint x).registered.length else none)) =
        some (createStream o cmd command callback (s.endpoint x)).reading := by
      cases callback <;> rfl
    have hp : (createStream o cmd command callback (s.endpoint x)).progress = (s.endpoint x).progress := by
      cases callback <;> rfl
    have hsent : (createStream o cmd command callback (s.endpoint x)).sent = (s.endpoint x).sent := by
      cases callback <;> rfl
    refine Side.both x ?_ ((h x.other).receive (.inr ⟨_, by simp, hstep⟩))
    refine (h x).send hp fun t ht _ => ⟨t.sender, .refl, ?_, fun hold => ?_⟩
    · exact ht.congr (Reading.step_sameSending hstep (by simp) (by simp) (by simp) (by simp))
    · rw [hsent]
      exact hold
  | send x i os reading hi hsended hlen hs' =>
    refine Side.both x ?_ ((h x.other).receive (.inr ⟨_, by simp, hs'⟩))
    refine (h x).send rfl fun t ht _ => ?_
    obtain ⟨sender, hreach, hagrees, hacc⟩ := Transfer.agrees_dispatch ht hlen hs'
    exact ⟨sender, hreach, hagrees, fun hold => by rw [hacc, hold]⟩
  | transmit x i n junk pkg reading hi hn hs' => exact directed_transmit h hi hn hs'
  | connection x a reading ha hs' => exact directed_connection h ha hs' rfl rfl

/-! ## What user code is given -/

/-- The bodies for which slots or callbacks were called. -/
def started (calls : List SlotEvent) : List (List UInt8) :=
  calls.filterMap fun
    | .started body => some body
    | .ended _ => none

theorem started_append (calls calls' : List SlotEvent) :
    started (calls ++ calls') = started calls ++ started calls' := List.filterMap_append

theorem started_ended (calls : List SlotEvent) (body : List UInt8) :
    started (calls ++ [.ended body]) = started calls := by
  rw [started_append]
  exact List.append_nil _

theorem started_callsOf (ended : List (List UInt8)) (open? : Option (List UInt8)) :
    started (Reading.callsOf ended open?) = ended ++ open?.toList := by
  have hended : ∀ bodies : List (List UInt8),
      started (bodies.flatMap fun body => [.started body, .ended body]) = bodies := by
    intro bodies
    induction bodies with
    | nil => rfl
    | cons body bodies ih =>
      rw [List.flatMap_cons, started_append, ih]
      rfl
  rw [Reading.callsOf, started_append, hended]
  cases open? <;> rfl

/-- An end is given what the other one has sent, in order. -/
theorem Directed.started_initial {x : Side} (h : s.Directed o x.other) :
    started (s.endpoint x).reading.calls <+: (s.endpoint x.other).sent := by
  obtain ⟨t, ht, hd⟩ := h
  obtain ⟨ended, open?, hcalls, hpre⟩ := Transfer.calls_bodies ht
  have hreceiver : t.receiver = (s.endpoint x).reading := by
    rw [hd.receiver, Side.other_other]
  rw [← hreceiver, hcalls, started_callsOf, ← hd.sent]
  exact hpre.trans ((Transfer.wired_reachable ht).written_initial.map Package.dataBuffer)

/-- A package that is not empty is looked up in the table of callbacks. -/
theorem readHandler_package (junk : Nat → UInt8) {op : ReadOp} {err : ErrorCode} (c : Connection Nat)
    (hop : op.handler = .readPackageBodyHandler) (herr : err.isError = false) (hb : op.buffer ≠ []) :
    ∃ e : Emission Nat, c.readHandler o junk op err =
      ({ c with
          callbacks := Function.update c.callbacks (Istream.construct o op.buffer junk).uid none },
        [e], true) ∧
      e.stream = some (c.callbacks (Istream.construct o op.buffer junk).uid,
        Istream.construct o op.buffer junk) := by
  have hlen : op.buffer.length ≠ 0 := fun h => hb (List.eq_nil_of_length_eq_zero h)
  unfold Connection.readHandler Connection.readPackageBodyHandler
  rw [hop, Connection.checkError_success herr]
  simp only [Bool.not_true, Bool.false_eq_true, if_false, hlen, List.nil_append]
  cases hcb : c.callbacks (Istream.construct o op.buffer junk).uid with
  | some cb => exact ⟨.callback cb _, rfl, rfl⟩
  | none =>
    have hself : Function.update c.callbacks (Istream.construct o op.buffer junk).uid none =
        c.callbacks := by
      rw [← hcb, Function.update_eq_self]
    exact ⟨.received _, by rw [hself], rfl⟩

/-- What a step of a connection does to the table of callbacks, and whom it calls. -/
inductive Calls (o : ByteOrder) (r r' : Reading Nat) : ReadingAct Nat → Prop where
  | none (a : ReadingAct Nat) (hran : ran o r a = []) (hcounter : r'.conn.uidCounter = r.conn.uidCounter)
      (htable : r'.conn.callbacks = r.conn.callbacks) (hcalls : started r'.calls = started r.calls) :
      Calls o r r' a
  | package (k : Nat) (junk : Nat → UInt8) (body : List UInt8)
      (hran : ran o r (.advance k junk) =
        [(r.conn.callbacks (Istream.construct o body junk).uid, Istream.construct o body junk)])
      (hcounter : r'.conn.uidCounter = r.conn.uidCounter)
      (htable : r'.conn.callbacks =
        Function.update r.conn.callbacks (Istream.construct o body junk).uid .none)
      (hcalls : started r'.calls = started r.calls ++ [body]) : Calls o r r' (.advance k junk)

theorem handle_calls {r : Reading Nat} {k : Nat} {junk : Nat → UInt8} {op : ReadOp} {err : ErrorCode}
    (hk : r.handlers[k]? = some (.entered op err)) :
    Calls o r (r.handle o junk k op err) (.advance k junk) := by
  have hran : ran o r (.advance k junk) =
      (r.conn.readHandler o junk op err).2.1.filterMap Emission.stream := by
    simp only [ran, hk]
  by_cases hpackage : op.handler = .readPackageBodyHandler ∧ err.isError = false ∧ op.buffer ≠ []
  · obtain ⟨hop, herr, hb⟩ := hpackage
    obtain ⟨e, he, hstream⟩ := readHandler_package (o := o) junk r.conn hop herr hb
    unfold Reading.handle
    rw [he] at hran ⊢
    refine .package k junk op.buffer ?_ rfl rfl (started_append _ _)
    rw [hran]
    exact List.filterMap_cons_some hstream
  · have hout := r.conn.readHandler_outcome o junk op err
    unfold Reading.handle
    generalize r.conn.readHandler o junk op err = out at hout hran ⊢
    cases hout with
    | body c' e herr hop hb => exact absurd ⟨hop, herr, hb⟩ hpackage
    | ended | size | closed | error => exact .none _ hran rfl rfl rfl

theorem step_calls {r r' : Reading Nat} {a : ReadingAct Nat} (hs : r.step o a = some r')
    (hstream : ∀ cmd command cb, a ≠ .createStream cmd command cb) : Calls o r r' a := by
  -- the other steps are not events in the history of the table
  have hother : (∀ k junk, a ≠ .advance k junk) → started r'.calls = started r.calls →
      Calls o r r' a := by
    intro hadv hcalls
    have hevents : Callbacks.events o r a = [] := by
      cases a with
      | advance k junk => exact absurd rfl (hadv k junk)
      | createStream cmd command cb => exact absurd rfl (hstream cmd command cb)
      | _ => rfl
    have hran : ran o r a = [] := by
      cases a with
      | advance k junk => exact absurd rfl (hadv k junk)
      | _ => rfl
    have hmoves := Callbacks.step_tableMoves hs (by rw [hevents]; intro _ _ h; cases h)
    rw [hevents] at hmoves
    generalize htable : Callbacks.table r' = table at hmoves
    cases hmoves
    exact .none a hran (congrArg Callbacks.Table.uidCounter htable)
      (congrArg Callbacks.Table.callbacks htable) hcalls
  cases a with
  | advance k junk =>
    simp only [Reading.step] at hs
    split at hs
    · rename_i op err hk
      obtain rfl := Option.some.inj hs
      exact handle_calls hk
    · rename_i hk
      obtain rfl := Option.some.inj hs
      exact .none _ (by simp only [ran, hk]) rfl rfl rfl
    · cases hs
  | createStream cmd command cb => exact absurd rfl (hstream cmd command cb)
  | peerSend bs | dispatch body =>
    refine hother (by simp) ?_
    obtain rfl := Option.some.inj hs
    rfl
  | readResult i =>
    refine hother (by simp) ?_
    obtain ⟨op, -, hs⟩ := Option.bind_eq_some_iff.mp hs
    rw [Reading.takeBytes_calls hs]
  | readFail i n err =>
    refine hother (by simp) ?_
    obtain ⟨op, -, hs⟩ := Option.bind_eq_some_iff.mp hs
    split_ifs at hs
    rw [Reading.takeBytes_calls hs]
  | invoke i =>
    refine hother (by simp) ?_
    simp only [Reading.step] at hs
    split at hs
    · obtain rfl := Option.some.inj hs
      rfl
    · cases hs
  | slotReturn k | slotThrow k =>
    refine hother (by simp) ?_
    simp only [Reading.step] at hs
    split at hs
    · obtain rfl := Option.some.inj hs
      exact started_ended _ _
    · obtain rfl := Option.some.inj hs
      rfl
    · cases hs
  | writeResult i err | writeHandler i =>
    refine hother (by simp) ?_
    obtain ⟨conn, -, rfl⟩ := Option.map_eq_some_iff.mp hs
    rfl
  | close e =>
    refine hother (by simp) ?_
    simp only [Reading.step] at hs
    split at hs <;>
    · obtain rfl := Option.some.inj hs
      rfl

/-! ## The refinement -/

/-- For each package that was handled, slots or a callback were called. -/
def Counted (s : Duplex) : Prop :=
  ∀ x, (s.endpoint x).handled.length = (started (s.endpoint x).reading.calls).length

theorem Counted.set {x : Side} {e : Endpoint} (h : s.Counted)
    (he : e.handled.length = (started e.reading.calls).length) : (s.setEndpoint x e).Counted := by
  refine Side.both x ?_ ?_
  · rw [setEndpoint_self]
    exact he
  · rw [setEndpoint_other]
    exact h x.other

/-- What holds in every state, of it and of the state of `Peers` that matches it. -/
structure Inv (o : ByteOrder) (s : Duplex) (p : Peers) : Prop where
  directed : ∀ x, s.Directed o x
  counted : s.Counted
  peers : p.Inv o
  refines : s.Refines p
  intact : s.Intact

theorem inv_init : init.Inv o Peers.init where
  directed := directed_init
  counted _ := rfl
  peers := Peers.inv_init
  refines := ⟨fun _ => ⟨rfl, rfl, rfl, rfl, rfl, rfl⟩, fun _ => rfl⟩
  intact _ _ := rfl

/-- One end changes, and what is on its way. -/
theorem Refines.set {p : Peers} {x : Side} {e : Endpoint} {q : Party} {msgs : Side → List Message}
    (h : s.Refines p) (hm : Matches e q)
    (hself : (msgs x).map Message.body = (s.endpoint x.other).sent.drop e.handled.length)
    (hother : (msgs x.other).map Message.body = e.sent.drop (s.endpoint x.other).handled.length) :
    (s.setEndpoint x e).Refines { p.setParty x q with inFlight := msgs } where
  ends := by
    refine Side.both x ?_ ?_
    · rw [setEndpoint_self]
      simpa [Peers.setParty] using hm
    · rw [setEndpoint_other]
      simpa [Peers.setParty, x.ne_other.symm] using h.ends x.other
  inFlight := by
    refine Side.both x ?_ ?_
    · rw [setEndpoint_self, setEndpoint_other]
      exact hself
    · rw [Side.other_other, setEndpoint_self, setEndpoint_other]
      exact hother

/-- One end changes, and nothing is sent or handled. -/
theorem Refines.setParty {p : Peers} {x : Side} {e : Endpoint} {q : Party} (h : s.Refines p)
    (hm : Matches e q) (hsent : e.sent = (s.endpoint x).sent)
    (hhandled : e.handled = (s.endpoint x).handled) :
    (s.setEndpoint x e).Refines (p.setParty x q) := by
  have hself : (p.inFlight x).map Message.body =
      (s.endpoint x.other).sent.drop e.handled.length := by
    rw [hhandled]
    exact h.inFlight x
  refine h.set hm hself ?_
  have hflight := h.inFlight x.other
  rw [Side.other_other] at hflight
  rw [hsent]
  exact hflight

/-- A stream of an end, and where it comes from. -/
theorem Matches.stream {e : Endpoint} {q : Party} (h : Matches e q) {i : Nat} {os : Ostream}
    (hi : e.streams[i]? = some os) : ∃ origin, q.streams[i]? = some { os := os, origin := origin } := by
  rw [← h.streams, List.getElem?_map] at hi
  obtain ⟨st, hst, rfl⟩ := Option.map_eq_some_iff.mp hi
  exact ⟨st.origin, hst⟩

theorem Matches.set {e : Endpoint} {q : Party} (h : Matches e q) (i : Nat) (os : Ostream)
    (origin : Origin) : Matches { e with streams := e.streams.set i os }
      { q with streams := q.streams.set i { os := os, origin := origin } } :=
  ⟨h.uidCounter, h.callbacks, h.registered, by rw [List.map_set, h.streams], h.incoming, h.handled⟩

theorem matches_createStream {e : Endpoint} {q : Party} (h : Matches e q) (cmd : CommandType)
    (command : cmd.Value) (callback : Bool) :
    Matches (createStream o cmd command callback e) (Peers.createStream o cmd command callback q) := by
  cases callback with
  | false =>
    refine ⟨congrArg (· + 1) h.uidCounter, h.callbacks, congrArg (· ++ [false]) h.registered, ?_,
      h.incoming, h.handled⟩
    show (q.streams ++ [_]).map Outgoing.os = e.streams ++ [_]
    rw [List.map_append, h.streams, List.map_singleton, h.uidCounter]
  | true =>
    refine ⟨congrArg (· + 1) h.uidCounter, ?_, congrArg (· ++ [true]) h.registered, ?_, h.incoming,
      h.handled⟩
    · show Function.update q.conn.callbacks q.conn.uidCounter (some q.registered.length) = _
      rw [h.callbacks, h.uidCounter, h.registered]
      rfl
    · show (q.streams ++ [_]).map Outgoing.os = e.streams ++ [_]
      rw [List.map_append, h.streams, List.map_singleton, h.uidCounter]

/-- A step that handles no package. -/
theorem Refines.quiet {p : Peers} {x : Side} {e : Endpoint} (h : s.Refines p)
    (hcounter : e.reading.conn.uidCounter = (s.endpoint x).reading.conn.uidCounter)
    (htable : e.reading.conn.callbacks = (s.endpoint x).reading.conn.callbacks)
    (hregistered : e.registered = (s.endpoint x).registered) (hstreams : e.streams = (s.endpoint x).streams)
    (hincoming : e.incoming = (s.endpoint x).incoming) (hhandled : e.handled = (s.endpoint x).handled)
    (hsent : e.sent = (s.endpoint x).sent) : (s.setEndpoint x e).Refines p := by
  have hm := h.ends x
  have hset : p.setParty x (p.party x) = p := by
    simp only [Peers.setParty, Function.update_eq_self]
  rw [← hset]
  exact h.setParty ⟨hm.uidCounter.trans hcounter.symm, hm.callbacks.trans htable.symm,
    hm.registered.trans hregistered.symm, hm.streams.trans hstreams.symm,
    hm.incoming.trans hincoming.symm, hm.handled.trans hhandled.symm⟩ hsent hhandled

/-- The package that is handled is the next one on its way. -/
theorem refines_package {p : Peers} {x : Side} {reading : Reading Nat} {body : List UInt8}
    {junk : Nat → UInt8} (hp : p.Inv o) (h : s.Refines p)
    (hhandled : (s.endpoint x).handled.length = (started (s.endpoint x).reading.calls).length)
    (hpre : started (s.endpoint x).reading.calls ++ [body] <+: (s.endpoint x.other).sent)
    (hcounter : reading.conn.uidCounter = (s.endpoint x).reading.conn.uidCounter)
    (htable : reading.conn.callbacks = Function.update (s.endpoint x).reading.conn.callbacks
      (Istream.construct o body junk).uid none) :
    ∃ p', Peers.step o p (.deliver x junk) = some p' ∧ (s.setEndpoint x { s.endpoint x with
      reading := reading
      incoming := (s.endpoint x).incoming ++ [Istream.construct o body junk]
      handled := (s.endpoint x).handled ++
        [(s.endpoint x).reading.conn.callbacks (Istream.construct o body junk).uid] }).Refines p' := by
  obtain ⟨later, hsent⟩ := hpre
  have hdrop : (s.endpoint x.other).sent.drop (s.endpoint x).handled.length = body :: later := by
    rw [← hsent, List.append_assoc, hhandled, List.drop_left]
    rfl
  obtain ⟨msg, msgs, hq, rfl, hmsgs⟩ := List.map_eq_cons_iff.mp ((h.inFlight x).trans hdrop)
  have hcarries := hp.inFlight x msg (by rw [hq]; exact List.mem_cons_self)
  have hm := h.ends x
  have huid := hcarries.uid (o := o) junk
  have hstep : Peers.step o p (.deliver x junk) = some
      { p.setParty x (Peers.handle o junk msg (p.party x)) with
        inFlight := Function.update p.inFlight x msgs } := by
    simp only [Peers.step, hq]
  refine ⟨_, hstep, ?_⟩
  rw [Peers.handle_eq hcarries]
  refine h.set ⟨?_, ?_, hm.registered, hm.streams, ?_, ?_⟩ ?_ ?_
  · exact hm.uidCounter.trans hcounter.symm
  · show Function.update (p.party x).conn.callbacks _ _ = reading.conn.callbacks
    rw [htable, huid, hm.callbacks]
  · rw [List.map_append, hm.incoming]
    rfl
  · rw [List.map_append, hm.handled, huid, ← hm.callbacks]
    rfl
  · rw [Function.update_self, hmsgs, List.length_append, ← List.drop_drop, hdrop]
    rfl
  · rw [Function.update_of_ne x.ne_other.symm]
    have hflight := h.inFlight x.other
    rwa [Side.other_other] at hflight

/-- Every step is one of `Peers`, or none. -/
theorem refines_step {p : Peers} {a : DuplexAct} (h : s.Inv o p) (hs : Stepped o s a s')
    (hdirected : ∀ x, s'.Directed o x) :
    (∃ p', run (Peers.step o) p (acts o s a) = some p' ∧ s'.Refines p') ∧ s'.Counted := by
  have hr := h.refines
  cases hs with
  | createStream x cmd command callback =>
    refine ⟨⟨_, run_singleton (s := p) (a := PeersAct.createStream x cmd command callback), hr.setParty
      (matches_createStream (hr.ends x) cmd command callback) ?_ ?_⟩, h.counted.set ?_⟩
    · cases callback <;> rfl
    · cases callback <;> rfl
    · have hold := h.counted x
      cases callback <;> exact hold
  | createResponse x j stream hj =>
    have hm := hr.ends x
    rw [← hm.incoming, List.getElem?_map] at hj
    obtain ⟨⟨is, origin⟩, hj', rfl⟩ := Option.map_eq_some_iff.mp hj
    have hstep : Peers.step o p (.createResponse x j) = some (p.setParty x { p.party x with
        streams := (p.party x).streams ++
          [{ os := is.createResponse o, origin := .response origin }] }) := by
      simp only [Peers.step, hj']
    refine ⟨⟨_, run_singleton.trans hstep,
      hr.setParty ⟨hm.uidCounter, hm.callbacks, hm.registered, ?_, hm.incoming, hm.handled⟩ rfl rfl⟩,
      h.counted.set (h.counted x)⟩
    rw [List.map_append, hm.streams]
    rfl
  | write x i bs os hi =>
    obtain ⟨origin, hi'⟩ := (hr.ends x).stream hi
    have hstep : Peers.step o p (.write x i bs) = some (p.setParty x { p.party x with
        streams := (p.party x).streams.set i { os := os.write bs, origin := origin } }) := by
      simp only [Peers.step, hi']
    exact ⟨⟨_, run_singleton.trans hstep, hr.setParty ((hr.ends x).set i (os.write bs) origin) rfl rfl⟩,
      h.counted.set (h.counted x)⟩
  | resend x i os hi hsended =>
    obtain ⟨origin, hi'⟩ := (hr.ends x).stream hi
    have hstep : Peers.step o p (.send x i) = some (p.setParty x { p.party x with
        streams := (p.party x).streams.set i { os := os, origin := origin } }) := by
      simp only [Peers.step, hi', Ostream.send, hsended, if_true]
    exact ⟨⟨_, run_singleton.trans hstep, hr.setParty ((hr.ends x).set i os origin) rfl rfl⟩,
      h.counted.set (h.counted x)⟩
  | send x i os reading hi hsended hlen hs' =>
    obtain ⟨origin, hi'⟩ := (hr.ends x).stream hi
    have hm := (hr.ends x).set i { os with sended := true } origin
    have hcalls : Calls o (s.endpoint x).reading reading (.dispatch os.buffer) := step_calls hs' (by simp)
    obtain ⟨hcounter, htable, hstarted⟩ : reading.conn.uidCounter =
        (s.endpoint x).reading.conn.uidCounter ∧ reading.conn.callbacks =
        (s.endpoint x).reading.conn.callbacks ∧
        started reading.calls = started (s.endpoint x).reading.calls := by
      cases hcalls with
      | none _ _ hcounter htable hstarted => exact ⟨hcounter, htable, hstarted⟩
    have hstep : Peers.step o p (.send x i) = some { p.setParty x { p.party x with
        streams := (p.party x).streams.set i { os := { os with sended := true }, origin := origin } } with
        inFlight := Function.update p.inFlight x.other
          (p.inFlight x.other ++ [{ body := os.buffer, origin := origin }]) } := by
      simp only [Peers.step, hi', Ostream.send, hsended, Bool.false_eq_true, if_false]
    refine ⟨⟨_, run_singleton.trans hstep, hr.set ⟨hm.uidCounter.trans hcounter.symm, hm.callbacks.trans htable.symm,
      hm.registered, hm.streams, hm.incoming, hm.handled⟩ ?_ ?_⟩, h.counted.set ?_⟩
    · rw [Function.update_of_ne x.ne_other]
      exact hr.inFlight x
    · -- what was handled of what `x` has sent is not more than that
      have hle : (s.endpoint x.other).handled.length ≤ (s.endpoint x).sent.length := by
        have hdir := h.directed x
        rw [← x.other_other] at hdir
        have hlen' := hdir.started_initial.length_le
        rwa [← h.counted, Side.other_other] at hlen'
      have hflight := hr.inFlight x.other
      rw [Side.other_other] at hflight
      rw [Function.update_self, List.map_append, hflight, List.drop_append_of_le_length hle]
      rfl
    · rw [hstarted]
      exact h.counted x
  | transmit x i n junk pkg reading hi hn hs' =>
    obtain rfl := Option.some.inj hs'
    set e : Endpoint := { s.endpoint x with
      progress := Function.update (s.endpoint x).progress pkg.ptr ((s.endpoint x).progress pkg.ptr + n) }
    have hold : (s.setEndpoint x e).endpoint x.other = s.endpoint x.other := setEndpoint_other x e
    have hquiet : (s.setEndpoint x e).Refines p := hr.quiet rfl rfl rfl rfl rfl rfl rfl
    rw [← hold] at hdirected ⊢
    have hcounted : (s.setEndpoint x e).Counted := h.counted.set (h.counted x)
    exact ⟨⟨p, rfl, hquiet.quiet rfl rfl rfl rfl rfl rfl rfl⟩, hcounted.set (hcounted x.other)⟩
  | connection x a reading ha hs' =>
    have hstream : ∀ cmd command cb, a ≠ .createStream cmd command cb := by
      rintro cmd command cb rfl
      exact ha
    cases step_calls hs' hstream with
    | none _ hran hcounter htable hcalls =>
      have hacts : acts o s (.connection x a) = [] := by
        unfold acts
        split <;> simp_all
      rw [hran, hacts]
      rw [List.map_nil, List.map_nil, List.append_nil, List.append_nil]
      refine ⟨⟨p, rfl, hr.quiet hcounter htable rfl rfl rfl rfl rfl⟩, h.counted.set ?_⟩
      rw [hcalls]
      exact h.counted x
    | package k junk body hran hcounter htable hcalls =>
      have hpre := (hdirected x.other).started_initial
      rw [setEndpoint_self, setEndpoint_other, hcalls] at hpre
      obtain ⟨p', hp', hr'⟩ := refines_package h.peers hr (h.counted x) hpre hcounter htable
      rw [acts, hran]
      refine ⟨⟨p', run_singleton.trans hp', hr'⟩, h.counted.set ?_⟩
      rw [hcalls, List.length_append, List.length_append, h.counted x]
      rfl

/-- One end changes, and no storage is freed. -/
theorem Intact.set {x : Side} {e : Endpoint} (h : s.Intact) (he : e.freed = (s.endpoint x).freed) :
    (s.setEndpoint x e).Intact := by
  refine Side.both x (fun i => ?_) (fun i => ?_)
  · rw [setEndpoint_self, he]
    exact h x i
  · rw [setEndpoint_other]
    exact h x.other i

theorem Stepped.intact {a : DuplexAct} (hs : Stepped o s a s') (h : s.Intact) : s'.Intact := by
  cases hs with
  | createStream x cmd command callback => exact h.set (by cases callback <;> rfl)
  | transmit x i n junk pkg reading hi hn hs' =>
    have hself : (s.setEndpoint x { s.endpoint x with
        progress := Function.update (s.endpoint x).progress pkg.ptr
          ((s.endpoint x).progress pkg.ptr + n) }).Intact := h.set rfl
    refine hself.set ?_
    rw [setEndpoint_other]
  | createResponse | write | send | resend | connection => exact h.set rfl

theorem inv_step {p : Peers} {a : DuplexAct} (h : s.Inv o p) (hk : s.KeepsStorage a)
    (hs : step o s a = some s') : ∃ p', run (Peers.step o) p (acts o s a) = some p' ∧ s'.Inv o p' := by
  have hstepped := step_cases h.intact hk hs
  have hdirected := directed_step h.directed hstepped
  obtain ⟨⟨p', hp', hr'⟩, hcounted⟩ := refines_step h hstepped hdirected
  have hpeers : p'.Inv o := Reachable.invariant ⟨_, hp'⟩ h.peers fun _ _ _ hi hs => Peers.inv_step hi hs
  exact ⟨p', hp', hdirected, hcounted, hpeers, hr', hstepped.intact h.intact⟩

/-- A package of `x` goes through the socket and is handled at the other end. -/
def carry (x : Side) : List DuplexAct :=
  [.transmit x 0 24 fun _ => 0, .connection x (.writeResult 0 .success), .connection x (.writeHandler 0),
    .connection x.other (.readResult 0), .connection x.other (.invoke 0),
    .connection x.other (.advance 0 fun _ => 0), .connection x.other (.readResult 0),
    .connection x.other (.invoke 0), .connection x.other (.advance 0 fun _ => 0)]

/-- A request with a callback, to which something is written after it was sent, and the response. -/
def roundTrip : List DuplexAct :=
  [.createStream .left .bool true true, .send .left 0, .write .left 0 [1]] ++ carry .left ++
    [.createResponse .right 0, .send .right 0] ++ carry .right

end Duplex

end Lnetlib
