import Lnetlib.Connection.Proofs.DeliveryStepsProofs
import Lnetlib.Connection.Proofs.SerialProofs
import Lnetlib.Connection.Transfer

/-!
# Proofs: what arrives when things fail

The bytes that were sent are the packages whose write was started, each but the last in full, since a write
that fails is the last one (`Wired`). So what the reader takes apart again is what was written in full.
-/

namespace Lnetlib

open Bytes Transition Framing

variable {κ : Type} {oₛ oᵣ o : ByteOrder}

namespace Sending

variable {s s' : Sending κ}

/-- A write on the socket is the last one that was started, and those before it have succeeded. -/
theorem Inv.of_getElem? (h : s.Inv) {i : Nat} {op : WriteOp} (hi : s.writes[i]? = some op) :
    i = 0 ∧ s.writes = [op] ∧ s.issued = s.completed.map Prod.fst ++ [op.pkg] ∧ s.NoFailure := by
  obtain ⟨rfl, hw, -, -, hf⟩ := h.phase.of_getElem? hi
  refine ⟨rfl, hw, ?_, hf⟩
  rw [issued, writing, hw]
  rfl

theorem Inv.issued_nodup (h : s.Inv) : (s.issued.map Package.ptr).Nodup :=
  (h.issued_prefix.map Package.ptr).sublist.nodup h.distinct.accepted_nodup

/-- What `close()` does: it throws, or it aborts the writes in progress. -/
theorem step_close {shutdown : ErrorCode} (hs : s.step o (.close shutdown) = some s') :
    s' = s ∨ s'.conn.socket.isOpen = false ∧ s'.threads = s.threads ∧ s'.accepted = s.accepted ∧
      s'.completed = s.completed ∧ s'.writes = s.writes.map fun op =>
        { op with result := op.result <|> some ErrorCode.operationAborted } := by
  simp only [step] at hs
  split at hs
  · rename_i conn emitted hc
    right
    cases hs
    unfold Connection.close Socket.close at hc
    split at hc
    · cases hc
    · rename_i sckt hsckt
      cases hc
      split_ifs at hsckt
      cases hsckt
      exact ⟨rfl, rfl, rfl, rfl, rfl⟩
  · left
    cases hs
    rfl

/-- Only the dispatch slot makes packages. -/
theorem made_of_step {a : SendAct} {p : Package} (hs : s.step o a = some s') (hp : s'.Made p) :
    s.Made p ∨ ∃ t buffer, a = .createPackage t buffer ∧
      p = Connection.createPackage o s.next buffer := by
  have hthread : ThreadAct a → s.Made p := fun ha => ((step_made ha hs).1 p).mp hp
  cases a with
  | enter t => exact .inl (hthread (.enter t))
  | leave t => exact .inl (hthread (.leave t))
  | complete t i => exact .inl (hthread (.complete t i))
  | createPackage t buffer =>
    cases step_cases hs with
    | createPackage _ _ ht =>
      rcases hp with hp | ⟨u, hu⟩
      · exact .inl (.inl hp)
      · have hu' : Function.update s.threads t
            (.dispatch (Connection.createPackage o s.next buffer)) u = .dispatch p := hu
        by_cases hut : u = t
        · subst hut
          rw [Function.update_self] at hu'
          cases hu'
          exact .inr ⟨u, buffer, rfl, rfl⟩
        · rw [Function.update_of_ne hut] at hu'
          exact .inl (.inr ⟨u, hu'⟩)
  | result i err =>
    cases step_cases hs with
    | result => exact .inl hp
  | close shutdown =>
    rcases step_close hs with rfl | ⟨-, hth, hacc, -, -⟩
    · exact .inl hp
    · rcases hp with hp | ⟨t, ht⟩
      · exact .inl (.inl (hacc ▸ hp))
      · exact .inl (.inr ⟨t, hth ▸ ht⟩)

/-- A closed socket is not opened again. -/
theorem step_closed {a : SendAct} (hi : s.Inv) (hclosed : s.conn.socket.isOpen = false)
    (hs : s.step o a = some s') : s'.conn.socket.isOpen = false := by
  have hthread : ThreadAct a → s'.conn.socket.isOpen = false :=
    fun ha => (step_moved hi ha hs).2.trans hclosed
  cases a with
  | enter t => exact hthread (.enter t)
  | leave t => exact hthread (.leave t)
  | complete t i => exact hthread (.complete t i)
  | createPackage t buffer =>
    cases step_cases hs with
    | createPackage => exact hclosed
  | result i err =>
    cases step_cases hs with
    | result => exact hclosed
  | close shutdown =>
    rcases step_close hs with rfl | ⟨hclosed', -⟩
    · exact hclosed
    · exact hclosed'

end Sending

namespace Loop

variable {l l' : Loop κ} {a : ReadingAct κ}

/-- Only the peer sends bytes. -/
theorem Moves.sent (hm : Moves o l a l') (ha : ∀ bs, a ≠ .peerSend bs) : l'.sent = l.sent := by
  cases hm with
  | peerSend bs => exact absurd rfl (ha bs)
  | _ => rfl

/-- And only `close()` closes the socket. -/
theorem Moves.isOpen (hm : Moves o l a l') (ha : ∀ e, a ≠ .close e) : l'.isOpen = l.isOpen := by
  cases hm with
  | close e => exact absurd rfl (ha e)
  | _ => rfl

/-- The packages to come behind a read in progress are none when fewer bytes come than it waits for. -/
theorem comingOf_short {op : ReadOp} {f : List UInt8 → List (List UInt8)} {bs : List UInt8}
    (hop : op.handler = .readPackageSizeHandler → op.exactly = sizeof UInt64)
    (hlt : bs.length < op.exactly) (hf : comingOf o op none = some f) : f bs = [] := by
  unfold comingOf at hf
  cases hh : op.handler with
  | readPackageSizeHandler =>
    rw [hh] at hf
    obtain rfl := Option.some.inj hf
    rw [hop hh] at hlt
    exact bodies_short hlt
  | readPackageBodyHandler =>
    rw [hh] at hf
    obtain rfl := Option.some.inj hf
    exact bodyThen_short hlt

theorem comingOf_none (op : ReadOp) : comingOf o op none ≠ none := by
  unfold comingOf
  cases op.handler <;> exact Option.some_ne_none _

/-- What makes the loop of an open connection stop, unless there are empty packages and exceptions: a read
    that fails. It has then handed over all packages, if it has got all bytes. -/
theorem Moves.stopped {ended : List (List UInt8)} (hS : Sound l) (hI : InOrder o l ended)
    (hm : Moves o l a l') (hopen : l.isOpen = true) (hclose : ∀ e, a ≠ .close e)
    (hfail : ∀ i n err, a = .readFail i n err → n = l.pipe.length)
    (hthrow : ∀ k, a = .slotThrow k → l.handlers = [.failing])
    (hbodies : ∀ b ∈ Reading.packages o l.sent, b ≠ []) (hstop : l'.coming o = none) :
    l'.calls = l.calls ∧ (l.coming o = none ∨
      (∃ i n err, a = .readFail i n err) ∧ l.calls = Reading.callsOf (Reading.packages o l.sent) none) := by
  -- a package to come is not empty
  have hrest : ∀ f, l.coming o = some f → ∀ b ∈ f l.pipe, b ≠ [] := by
    intro f hf b hb
    have heq := hI.rest f hf []
    rw [List.append_nil, List.append_nil] at heq
    exact hbodies b (by rw [heq]; exact List.mem_append_right _ hb)
  have hstarted : ∀ handler exactly, comingOf o (newRead l.isOpen handler exactly)
      (newRead l.isOpen handler exactly).result ≠ none := by
    intro handler exactly
    rw [hopen]
    exact comingOf_none _
  cases hm with
  | other => exact ⟨rfl, .inl hstop⟩
  | peerSend bs => exact ⟨rfl, .inl hstop⟩
  | readResult i op hr hres _ hle =>
    have hh := hS.chain.handlers_eq_nil hr
    have hop := (hS.reads op (by rw [hr]; exact List.mem_singleton_self _)).size
    obtain ⟨f, hf⟩ := Option.ne_none_iff_exists'.mp (comingOf_none (o := o) op)
    obtain ⟨g, hg, -⟩ := comingOf_success hop hle hf
    have hcoming : _ = some g := (coming_read (l := { l with
      reads := [{ op with buffer := l.pipe.take op.exactly, result := some .success }]
      pipe := l.pipe.drop op.exactly }) hh rfl).trans hg
    rw [hcoming] at hstop
    cases hstop
  | readFail i n err op hr hres hpos herr hvalue =>
    have hh := hS.chain.handlers_eq_nil hr
    have hop := (hS.reads op (by rw [hr]; exact List.mem_singleton_self _)).size
    obtain ⟨f, hf⟩ := Option.ne_none_iff_exists'.mp (comingOf_none (o := o) op)
    have hcoming : l.coming o = some f := by rw [coming_read hh hr, hres, hf]
    have hall : l.pipe.length < op.exactly := hfail i n err rfl ▸ hpos
    have hcur := current_nil hh
    have heq := hI.rest f hcoming []
    rw [List.append_nil, List.append_nil, comingOf_short hop hall hf, hcur, List.append_nil] at heq
    refine ⟨rfl, .inr ⟨⟨i, n, err, rfl⟩, ?_⟩⟩
    have hcalls := hI.calls
    rw [hcur] at hcalls
    rw [hcalls, heq, Option.toList_none, List.append_nil]
  | invoke i op err hh hr hres =>
    refine ⟨rfl, .inl ?_⟩
    rw [coming_read hh hr, hres]
    exact (coming_entered (l := { l with reads := [], handlers := [.entered op err] }) rfl rfl).symm.trans
      hstop
  | ended k junk op err hk hh hr hend =>
    have hempty := hS.isEmptyPackage hh hopen hend
    have hok := hS.entered op err (by rw [hh]; exact List.mem_singleton_self _)
    rcases hend with hab | ⟨herr, hb⟩
    · have herr : err.isError = true := by simp [ErrorCode.isError, hab, ErrorCode.operationAborted]
      exact absurd hab (hok.failed hopen err rfl herr).2
    · have hop : op.handler = .readPackageBodyHandler := by
        simp only [ReadFrame.isEmptyPackage, Bool.and_eq_true, beq_iff_eq] at hempty
        exact hempty.1
      have hcoming : l.coming o = some fun bs => op.buffer :: Reading.packages o bs := by
        rw [coming_entered hh hr]
        simp [comingOf, hop, herr]
      exact absurd hb (hrest _ hcoming op.buffer List.mem_cons_self)
  | size k junk op err hh hr herr hop => exact absurd hstop (hstarted _ _)
  | body k junk op err hh hr herr hop hb =>
    simp [coming, hr] at hstop
  | failed k junk op err e hh hr herr he =>
    refine ⟨rfl, .inl ?_⟩
    rw [coming_entered hh hr]
    exact comingOf_error herr
  | rearm k junk hh hr => exact absurd hstop (hstarted _ _)
  | slotReturn k b hh hr =>
    simp [coming, hr] at hstop
  | slotThrow k b hk hh hr =>
    have hfailing := hthrow k rfl
    rw [hh] at hfailing
    cases hfailing
  | reported a k ha hh hr =>
    refine ⟨rfl, .inl ?_⟩
    simp [coming, hh]
  | close e => exact absurd rfl (hclose e)

end Loop

namespace Reading

variable {s : Reading κ}

theorem sound_inOrder (h : Reachable (step o) (init κ) s) :
    s.loop.Sound ∧ ∃ ended, s.loop.InOrder o ended := by
  refine h.invariant (I := fun s => s.loop.Sound ∧ ∃ ended, s.loop.InOrder o ended) ?_ ?_
  · refine ⟨sound_init, [], .of_rest (f := packages o) rfl rfl fun more => ?_⟩
    simp [loop, init, Loop.current]
  · rintro s a s' ⟨hS, ended, hI⟩ hs
    have hm := step_moves hS.chain hs
    exact ⟨hm.sound hS, Loop.inOrder_of_moves hS hI hm⟩

end Reading

namespace Transfer

variable {s s' : Transfer κ}

/-! ## What each step does -/

/-- The steps, by what they change. -/
inductive Stepped (oₛ oᵣ : ByteOrder) (s : Transfer κ) : TransferAct κ → Transfer κ → Prop where
  | send (a : SendAct) (sender : Sending κ) (ha : s.Allows a) (hs : s.sender.step oₛ a = some sender) :
      Stepped oₛ oᵣ s (.send a) { s with sender := sender }
  | transmit (i n : Nat) (pkg : Package)
      (hi : s.sender.writes[i]? = some { pkg := pkg, result := none })
      (hn : s.progress pkg.ptr + n ≤ pkg.bytes.length) (receiver : Reading κ)
      (hs : s.receiver.step oᵣ (.peerSend ((pkg.bytes.drop (s.progress pkg.ptr)).take n)) =
        some receiver) :
      Stepped oₛ oᵣ s (.transmit i n) { s with
        progress := Function.update s.progress pkg.ptr (s.progress pkg.ptr + n)
        receiver := receiver }
  | receive (a : ReadingAct κ) (receiver : Reading κ) (ha : ∀ bs, a ≠ .peerSend bs)
      (hs : s.receiver.step oᵣ a = some receiver) :
      Stepped oₛ oᵣ s (.receive a) { s with receiver := receiver }

theorem step_cases {a : TransferAct κ} (h : step oₛ oᵣ s a = some s') : Stepped oₛ oᵣ s a s' := by
  cases a with
  | send a =>
    simp only [step] at h
    split_ifs at h with ha
    obtain ⟨sender, hs, rfl⟩ := Option.map_eq_some_iff.mp h
    exact .send a sender ha hs
  | transmit i n =>
    simp only [step] at h
    split at h
    · rename_i pkg hi
      split_ifs at h with hn
      obtain ⟨receiver, hs, rfl⟩ := Option.map_eq_some_iff.mp h
      exact .transmit i n pkg hi hn receiver hs
    · cases h
  | receive a =>
    by_cases ha : ∃ bs, a = .peerSend bs
    · obtain ⟨bs, rfl⟩ := ha
      cases h
    · push Not at ha
      have hmap : step oₛ oᵣ s (.receive a) =
          (s.receiver.step oᵣ a).map fun receiver => { s with receiver := receiver } := by
        cases a with
        | peerSend bs => exact absurd rfl (ha bs)
        | _ => rfl
      rw [hmap] at h
      obtain ⟨receiver, hs, rfl⟩ := Option.map_eq_some_iff.mp h
      exact .receive a receiver ha hs

/-- The receiving end by itself. -/
theorem receiver_reachable (h : Reachable (step oₛ oᵣ) (init κ) s) :
    Reachable (Reading.step oᵣ) (Reading.init κ) s.receiver := by
  refine h.component Transfer.receiver fun s a s' hs => ?_
  cases step_cases hs with
  | send => exact .inl rfl
  | transmit i n pkg hi hn receiver hs' => exact .inr ⟨_, hs'⟩
  | receive a receiver ha hs' => exact .inr ⟨a, hs'⟩

/-! ## The bytes that are sent -/

/-- All bytes of the package are written. -/
def Full (s : Transfer κ) (p : Package) : Prop := s.progress p.ptr = p.bytes.length

/-- A package as `create_package` makes it. -/
def Framed (o : ByteOrder) (p : Package) : Prop :=
  p = Connection.createPackage o p.ptr p.dataBuffer ∧ p.dataBuffer.length < 2 ^ 64

/-- The bytes that were sent are those of the packages whose write was started, and all but the last of these
    are written in full. -/
structure Wired (o : ByteOrder) (s : Transfer κ) : Prop where
  sender : s.sender.Inv
  receiver : s.receiver.loop.Sound
  made : ∀ p, s.sender.Made p → Framed o p
  results : ∀ op ∈ s.sender.writes, ∀ err, op.result = some err → err.isError = false → s.Full op.pkg
  aborted : s.sender.conn.socket.isOpen = false → ∀ op ∈ s.sender.writes, op.result ≠ none
  succeeded : ∀ e ∈ s.sender.completed, e.2.isError = false → s.Full e.1
  earlier : ∀ p ∈ s.sender.issued.dropLast, s.Full p
  within : ∀ p ∈ s.sender.issued, s.progress p.ptr ≤ p.bytes.length
  fresh : ∀ q, s.progress q ≠ 0 → q ∈ s.sender.issued.map Package.ptr
  sent : s.receiver.sent = s.sender.issued.flatMap fun p => p.bytes.take (s.progress p.ptr)

theorem wired_init : Wired o (init κ) where
  sender := Sending.inv_init
  receiver := Reading.sound_init
  made := by
    rintro p (hp | ⟨t, ht⟩)
    · cases hp
    · cases ht
  results := by
    intro op hop
    cases hop
  aborted := by
    intro _ op hop
    cases hop
  succeeded := by
    intro e he
    cases he
  earlier := by
    intro p hp
    cases hp
  within := by
    intro p hp
    cases hp
  fresh := by
    intro q hq
    exact absurd rfl hq
  sent := rfl

/-- A step of the sending end that starts no write. -/
theorem Wired.kept (h : s.Wired o) {sender : Sending κ} (hi : sender.Inv)
    (hmade : ∀ p, sender.Made p → Framed o p) (hissued : sender.issued = s.sender.issued)
    (hresults : ∀ op ∈ sender.writes, ∀ err, op.result = some err → err.isError = false →
      s.Full op.pkg)
    (haborted : sender.conn.socket.isOpen = false → ∀ op ∈ sender.writes, op.result ≠ none)
    (hsucceeded : ∀ e ∈ sender.completed, e.2.isError = false → s.Full e.1) :
    Wired o { s with sender := sender } where
  sender := hi
  receiver := h.receiver
  made := hmade
  results := hresults
  aborted := haborted
  succeeded := hsucceeded
  earlier := by
    rw [hissued]
    exact h.earlier
  within := by
    rw [hissued]
    exact h.within
  fresh := by
    rw [hissued]
    exact h.fresh
  sent := by
    rw [hissued]
    exact h.sent

/-- A write is started, and the writes before it have succeeded. -/
theorem Wired.started (h : s.Wired o) {sender : Sending κ} (hi : sender.Inv)
    (hmade : ∀ p, sender.Made p → Framed o p) {pkg : Package} (hw : s.sender.writes = [])
    (hw' : sender.writes = [{ pkg := pkg, result := s.sender.conn.socket.startResult }])
    (hc : sender.completed = s.sender.completed)
    (hopen : sender.conn.socket.isOpen = s.sender.conn.socket.isOpen) :
    Wired o { s with sender := sender } := by
  have hold : s.sender.issued = s.sender.completed.map Prod.fst := by
    rw [Sending.issued, Sending.writing, hw, List.map_nil, List.append_nil]
  have hnew : sender.issued = s.sender.issued ++ [pkg] := by
    rw [hold, Sending.issued, Sending.writing, hw', hc]
    rfl
  have h0 : sender.writes[0]? = some { pkg := pkg, result := s.sender.conn.socket.startResult } := by
    rw [hw']
    rfl
  have hnofail : s.sender.NoFailure := by
    obtain ⟨-, -, -, hf⟩ := hi.of_getElem? h0
    rwa [Sending.NoFailure, hc] at hf
  have hfull : ∀ p ∈ s.sender.issued, s.Full p := by
    intro p hp
    rw [hold] at hp
    obtain ⟨e, he, rfl⟩ := List.mem_map.mp hp
    exact h.succeeded e he (hnofail e he)
  have hfresh : s.progress pkg.ptr = 0 := by
    have hnd := hi.issued_nodup
    rw [hnew, List.map_append, List.nodup_append] at hnd
    by_contra hne
    exact hnd.2.2 _ (h.fresh _ hne) _ (List.mem_singleton_self _) rfl
  refine ⟨hi, h.receiver, hmade, ?_, ?_, ?_, ?_, ?_, ?_, ?_⟩
  · intro op hop err he herr
    rw [hw'] at hop
    obtain rfl := List.mem_singleton.mp hop
    unfold Socket.startResult at he
    split_ifs at he
    cases he
    cases herr
  · intro hclosed op hop
    have hop' : op = { pkg := pkg, result := s.sender.conn.socket.startResult } := by
      rw [hw'] at hop
      exact List.mem_singleton.mp hop
    have hclosed' : s.sender.conn.socket.isOpen = false := hopen ▸ hclosed
    simp [hop', Socket.startResult, hclosed']
  · rw [hc]
    exact h.succeeded
  · rw [hnew, List.dropLast_concat]
    exact hfull
  · intro p hp
    rw [hnew] at hp
    rcases List.mem_append.mp hp with hp | hp
    · exact h.within p hp
    · rw [List.mem_singleton.mp hp]
      show s.progress pkg.ptr ≤ _
      omega
  · intro q hq
    rw [hnew, List.map_append]
    exact List.mem_append_left _ (h.fresh q hq)
  · rw [hnew, List.flatMap_append, List.flatMap_singleton]
    show s.receiver.sent = _ ++ pkg.bytes.take (s.progress pkg.ptr)
    rw [hfresh, List.take_zero, List.append_nil]
    exact h.sent

theorem wired_send {a : SendAct} {sender : Sending κ} (h : s.Wired o) (ha : s.Allows a)
    (hs : s.sender.step o a = some sender) : Wired o { s with sender := sender } := by
  have hi : sender.Inv := Sending.inv_step h.sender hs
  have hmade : ∀ p, sender.Made p → Framed o p := by
    intro p hp
    rcases Sending.made_of_step hs hp with hp | ⟨t, buffer, rfl, rfl⟩
    · exact h.made p hp
    · exact ⟨rfl, ha⟩
  -- a step of a thread that is in the slot or in the handler
  have hthread : Sending.ThreadAct a → Wired o { s with sender := sender } := by
    intro hact
    obtain ⟨hmoved, hopen⟩ := Sending.step_moved h.sender hact hs
    cases hmoved with
    | kept hw hc =>
      refine h.kept hi hmade ?_ ?_ ?_ ?_
      · rw [Sending.issued, Sending.writing, hw, hc]
        rfl
      · rw [hw]
        exact h.results
      · rw [hopen, hw]
        exact h.aborted
      · rw [hc]
        exact h.succeeded
    | started pkg hw hw' hc => exact h.started hi hmade hw hw' hc hopen
    | finished pkg err hw hw' hc =>
      refine h.kept hi hmade ?_ ?_ ?_ ?_
      · simp [Sending.issued, Sending.writing, hw, hw', hc]
      · rw [hw']
        intro op hop
        cases hop
      · rw [hw']
        intro _ op hop
        cases hop
      · rw [hc]
        intro e he herr
        rcases List.mem_append.mp he with he | he
        · exact h.succeeded e he herr
        · obtain rfl := List.mem_singleton.mp he
          exact h.results { pkg := pkg, result := some err } (by rw [hw]; exact List.mem_cons_self) err
            rfl herr
  cases a with
  | enter t => exact hthread (.enter t)
  | leave t => exact hthread (.leave t)
  | complete t i => exact hthread (.complete t i)
  | createPackage t buffer =>
    cases Sending.step_cases hs with
    | createPackage => exact h.kept hi hmade rfl h.results h.aborted h.succeeded
  | result i err =>
    cases Sending.step_cases hs with
    | result _ pkg _ hi' =>
      obtain ⟨rfl, hw, -, -⟩ := h.sender.of_getElem? hi'
      have hset : (s.sender.setWrites (s.sender.writes.set 0 { pkg := pkg, result := some err })).writes =
          [{ pkg := pkg, result := some err }] := by
        rw [hw]
        rfl
      refine h.kept hi hmade ?_ ?_ ?_ h.succeeded
      · rw [Sending.issued, Sending.writing, hset, Sending.issued, Sending.writing, hw]
        rfl
      · rw [hset]
        intro op hop err' he herr
        obtain rfl := List.mem_singleton.mp hop
        cases he
        rcases ha with ha | ha
        · rw [ha] at herr
          cases herr
        · exact ha { pkg := pkg, result := none } hi'
      · rw [hset]
        intro _ op hop
        obtain rfl := List.mem_singleton.mp hop
        exact Option.some_ne_none _
  | close shutdown =>
    rcases Sending.step_close hs with rfl | ⟨-, -, -, hc, hw⟩
    · exact h
    · refine h.kept hi hmade ?_ ?_ ?_ ?_
      · simp only [Sending.issued, Sending.writing, hw, hc, List.map_map]
        rfl
      · rw [hw]
        intro op hop err he herr
        obtain ⟨op', hop', rfl⟩ := List.mem_map.mp hop
        cases hr : op'.result with
        | none =>
          rw [hr] at he
          cases he
          cases herr
        | some err' =>
          rw [hr] at he
          cases he
          exact h.results op' hop' err hr herr
      · rw [hw]
        intro _ op hop
        obtain ⟨op', -, rfl⟩ := List.mem_map.mp hop
        cases op'.result <;> exact Option.some_ne_none _
      · rw [hc]
        exact h.succeeded

theorem wired_transmit {i n : Nat} {pkg : Package} {receiver : Reading κ} (h : s.Wired o)
    (hi : s.sender.writes[i]? = some { pkg := pkg, result := none })
    (hn : s.progress pkg.ptr + n ≤ pkg.bytes.length)
    (hs : s.receiver.step oᵣ (.peerSend ((pkg.bytes.drop (s.progress pkg.ptr)).take n)) =
      some receiver) :
    Wired o { s with
      progress := Function.update s.progress pkg.ptr (s.progress pkg.ptr + n)
      receiver := receiver } := by
  obtain ⟨rfl, hw, hissued, -⟩ := h.sender.of_getElem? hi
  have hnd := h.sender.issued_nodup
  rw [hissued, List.map_append, List.nodup_append] at hnd
  have hne : ∀ p ∈ s.sender.completed.map Prod.fst, p.ptr ≠ pkg.ptr := by
    intro p hp
    exact hnd.2.2 _ (List.mem_map_of_mem hp) _ (List.mem_singleton_self _)
  -- the packages before the one that is being written are as they were
  have hold : ∀ p ∈ s.sender.completed.map Prod.fst,
      Function.update s.progress pkg.ptr (s.progress pkg.ptr + n) p.ptr = s.progress p.ptr :=
    fun p hp => Function.update_of_ne (hne p hp) _ _
  have hsound := (Reading.step_moves h.receiver.chain hs).sound h.receiver
  obtain rfl := Option.some.inj hs
  refine ⟨h.sender, hsound, h.made, ?_, h.aborted, ?_, ?_, ?_, ?_, ?_⟩
  · intro op hop err he
    rw [hw] at hop
    obtain rfl := List.mem_singleton.mp hop
    cases he
  · intro e he herr
    have hmem : e.1 ∈ s.sender.completed.map Prod.fst := List.mem_map_of_mem he
    exact (hold e.1 hmem).trans (h.succeeded e he herr)
  · rw [hissued, List.dropLast_concat]
    intro p hp
    have hfull := h.earlier p (by rw [hissued, List.dropLast_concat]; exact hp)
    exact (hold p hp).trans hfull
  · rw [hissued]
    intro p hp
    rcases List.mem_append.mp hp with hp | hp
    · refine (hold p hp).trans_le ?_
      exact h.within p (by rw [hissued]; exact List.mem_append_left _ hp)
    · rw [List.mem_singleton.mp hp]
      exact (Function.update_self pkg.ptr (s.progress pkg.ptr + n) s.progress).trans_le hn
  · intro q hq
    by_cases hqp : q = pkg.ptr
    · rw [hqp, hissued]
      exact List.mem_map_of_mem (List.mem_append_right _ (List.mem_singleton_self _))
    · have hq' : Function.update s.progress pkg.ptr (s.progress pkg.ptr + n) q ≠ 0 := hq
      rw [Function.update_of_ne hqp] at hq'
      exact h.fresh q hq'
  · have hfront : ∀ f g : Package → List UInt8, (∀ p ∈ s.sender.completed.map Prod.fst, f p = g p) →
        (s.sender.completed.map Prod.fst).flatMap f = (s.sender.completed.map Prod.fst).flatMap g :=
      fun f g hfg => List.flatMap_congr hfg
    show s.receiver.sent ++ _ = _
    rw [h.sent, hissued, List.flatMap_append, List.flatMap_append, List.flatMap_singleton,
      List.flatMap_singleton, List.append_assoc]
    dsimp only
    rw [Function.update_self, List.take_add]
    congr 1
    refine hfront _ _ fun p hp => ?_
    rw [hold p hp]

theorem wired_step {a : TransferAct κ} (h : s.Wired oₛ) (hs : step oₛ oᵣ s a = some s') :
    s'.Wired oₛ := by
  cases step_cases hs with
  | send a sender ha hs' => exact wired_send h ha hs'
  | transmit i n pkg hi hn receiver hs' => exact wired_transmit h hi hn hs'
  | receive a receiver ha hs' =>
    have hm := Reading.step_moves h.receiver.chain hs'
    exact ⟨h.sender, hm.sound h.receiver, h.made, h.results, h.aborted, h.succeeded, h.earlier, h.within,
      h.fresh, (hm.sent ha).trans h.sent⟩

theorem wired_reachable (h : Reachable (step oₛ oᵣ) (init κ) s) : s.Wired oₛ :=
  h.invariant wired_init fun _ _ _ hi hs => wired_step hi hs

/-! ## What the reader makes of them -/

/-- The size in front of a body of `n` bytes. -/
def header (o : ByteOrder) (n : Nat) : List UInt8 := bytesOf o (UInt64.ofNat n)

theorem header_length (n : Nat) : (header o n).length = sizeof UInt64 := bytesOf_length o _

theorem Framed.bytes_eq {p : Package} (h : Framed o p) : p.bytes = frame (header o) p.dataBuffer := by
  rw [h.1]
  rfl

theorem Framed.packageSize {p : Package} (h : Framed o p) :
    (Connection.packageSize o (header o p.dataBuffer.length)).toNat = p.dataBuffer.length := by
  rw [header, Connection.packageSize_bytesOf, UInt64.toNat_ofNat']
  exact Nat.mod_eq_of_lt h.2

theorem flatMap_bytes {ps : List Package} (h : ∀ p ∈ ps, Framed o p) :
    ps.flatMap Package.bytes = frames (header o) (ps.map Package.dataBuffer) := by
  rw [frames, List.flatMap_map]
  exact List.flatMap_congr fun p hp => (h p hp).bytes_eq

theorem Wired.framed (h : s.Wired o) {p : Package} (hp : p ∈ s.sender.accepted) : Framed o p :=
  h.made p (.inl hp)

/-- What is sent of the packages that were started is what is written in full, and the beginning of the one
    that is not. -/
theorem Wired.split (h : s.Wired o) : ∃ cut, s.receiver.sent = s.written.flatMap Package.bytes ++ cut ∧
    s.written <+: s.sender.accepted ∧
    (cut = [] ∨ ∃ p ps n, s.sender.accepted = s.written ++ p :: ps ∧ cut = p.bytes.take n ∧
      n < p.bytes.length) := by
  obtain ⟨queue, hqueue⟩ := h.sender.issued_prefix
  have hnd := h.sender.distinct.accepted_nodup
  rw [← hqueue, List.map_append, List.nodup_append] at hnd
  -- nothing is written of what waits
  have hwait : queue.filter (fun p => s.progress p.ptr = p.bytes.length) = [] := by
    rw [List.filter_eq_nil_iff]
    intro p hp hfull
    have hzero : s.progress p.ptr = 0 := by
      by_contra hne
      exact hnd.2.2 _ (h.fresh _ hne) _ (List.mem_map_of_mem hp) rfl
    have hlen := congrArg List.length
      (h.framed (p := p) (by rw [← hqueue]; exact List.mem_append_right _ hp)).bytes_eq
    rw [frame, List.length_append, header_length] at hlen
    have hpos : 0 < sizeof UInt64 := by decide
    have hfull' := of_decide_eq_true hfull
    omega
  have hwritten : s.written = s.sender.issued.filter fun p => s.progress p.ptr = p.bytes.length := by
    rw [written, ← hqueue, List.filter_append, hwait, List.append_nil]
  rcases List.eq_nil_or_concat s.sender.issued with hnil | ⟨front, last, hlast⟩
  · refine ⟨[], ?_, ?_, .inl rfl⟩
    · rw [h.sent, hwritten, hnil]
      rfl
    · rw [hwritten, hnil]
      exact List.nil_prefix
  · have hfront : ∀ p ∈ front, s.progress p.ptr = p.bytes.length := by
      intro p hp
      exact h.earlier p (by rw [hlast, List.concat_eq_append, List.dropLast_concat]; exact hp)
    have hlast' : s.sender.issued = front ++ [last] := by rw [hlast, List.concat_eq_append]
    have hkept : front.filter (fun p => s.progress p.ptr = p.bytes.length) = front := by
      rw [List.filter_eq_self]
      exact fun p hp => decide_eq_true (hfront p hp)
    have hbytes : (front.flatMap fun p => p.bytes.take (s.progress p.ptr)) =
        front.flatMap Package.bytes := by
      refine List.flatMap_congr fun p hp => ?_
      rw [hfront p hp, List.take_length]
    have hacc : front ++ [last] <+: s.sender.accepted := hlast' ▸ h.sender.issued_prefix
    by_cases hfull : s.progress last.ptr = last.bytes.length
    · refine ⟨[], ?_, ?_, .inl rfl⟩
      · rw [h.sent, hwritten, hlast', List.flatMap_append, hbytes, List.filter_append, hkept,
          List.filter_singleton, List.flatMap_append]
        simp [hfull]
      · rw [hwritten, hlast', List.filter_append, hkept, List.filter_singleton]
        simpa [hfull] using hacc
    · have hle := h.within last (by rw [hlast']; exact List.mem_append_right _ (List.mem_singleton_self _))
      have hfront' : s.written = front := by
        rw [hwritten, hlast', List.filter_append, hkept, List.filter_singleton]
        simp [hfull]
      refine ⟨last.bytes.take (s.progress last.ptr), ?_, ?_, .inr ⟨last, queue, _, ?_, rfl, by omega⟩⟩
      · rw [h.sent, hfront', hlast', List.flatMap_append, hbytes, List.flatMap_singleton]
      · rw [hfront']
        exact (List.prefix_append front [last]).trans hacc
      · rw [hfront', ← hqueue, hlast', List.append_assoc]
        rfl

/-- A reader with the byte order of the sender finds what is written in full. -/
theorem Wired.packages (h : s.Wired o) : Reading.packages o s.receiver.sent = s.bodies := by
  obtain ⟨cut, hsent, hpre, hcut⟩ := h.split
  have hpos : 0 < sizeof UInt64 := by decide
  have hframed : ∀ p ∈ s.written, Framed o p := fun p hp => h.framed (hpre.subset hp)
  have hsizes : ∀ b ∈ s.bodies,
      (Connection.packageSize o (header o b.length)).toNat = b.length := by
    intro b hb
    obtain ⟨p, hp, rfl⟩ := List.mem_map.mp hb
    exact (hframed p hp).packageSize
  have hnone : Reading.packages o cut = [] := by
    rcases hcut with rfl | ⟨p, ps, n, hacc, rfl, hn⟩
    · exact bodies_nil
    · have hp' := h.framed (p := p) (by rw [hacc]; exact List.mem_append_right _ List.mem_cons_self)
      rw [hp'.bytes_eq] at hn ⊢
      exact bodies_take_frame hpos header_length hp'.packageSize hn
  rw [hsent, flatMap_bytes hframed, Reading.packages,
    bodies_frames_append hpos header_length _ hsizes]
  rw [Reading.packages] at hnone
  rw [hnone, List.append_nil]
  rfl

theorem Wired.written_initial (h : s.Wired o) : s.written <+: s.sender.accepted := by
  obtain ⟨cut, -, hpre, -⟩ := h.split
  exact hpre

/-- What the slots and callbacks are called with. -/
theorem calls_bodies (h : Reachable (step o o) (init κ) s) : ∃ ended open?,
    s.receiver.calls = Reading.callsOf ended open? ∧ ended ++ open?.toList <+: s.bodies := by
  obtain ⟨-, ended, hI⟩ := Reading.sound_inOrder (receiver_reachable h)
  refine ⟨ended, s.receiver.loop.current, hI.calls, ?_⟩
  have hprefix := hI.isPrefix []
  rw [List.append_nil] at hprefix
  rw [← (wired_reachable h).packages]
  exact hprefix

/-- **Nothing is torn.** Whatever fails and whoever closes the connection, the slots and callbacks are called
    with bodies that were written in full, in the order in which the packages were accepted, each once and
    none left out; and every package whose write succeeded was written in full. -/
theorem never_torn (as : List (TransferAct κ)) (hr : run (step o o) (init κ) as = some s) :
    (∃ ended open?, s.receiver.calls = Reading.callsOf ended open? ∧
      ended ++ open?.toList <+: s.bodies) ∧
    s.written <+: s.sender.accepted ∧
    ∀ e ∈ s.sender.completed, e.2.isError = false → e.1 ∈ s.written := by
  have hwired : s.Wired o := wired_reachable ⟨as, hr⟩
  refine ⟨calls_bodies ⟨as, hr⟩, hwired.written_initial, fun e he herr => ?_⟩
  have hmem : e.1 ∈ s.sender.accepted := by
    rw [hwired.sender.accounted, List.append_assoc]
    exact List.mem_append_left _ (List.mem_map_of_mem he)
  exact List.mem_filter.mpr ⟨hmem, decide_eq_true (hwired.succeeded e he herr)⟩

/-- The first package arrives, and the write of the second fails behind its first bytes. -/
def tornWrite : List (TransferAct Unit) :=
  [.send (.createPackage 0 [5]), .send (.enter 0), .send (.leave 0), .send (.createPackage 1 [6, 7]),
    .send (.enter 1), .send (.leave 1), .transmit 0 9, .send (.result 0 .success), .send (.complete 0 0),
    .send (.enter 0), .send (.leave 0), .transmit 0 9, .send (.result 0 .connectionReset),
    .send (.complete 0 0), .receive (.readResult 0), .receive (.invoke 0),
    .receive (.advance 0 fun _ => 0), .receive (.readResult 0), .receive (.invoke 0),
    .receive (.advance 0 fun _ => 0), .receive (.slotReturn 0), .receive (.advance 0 fun _ => 0),
    .receive (.readResult 0), .receive (.invoke 0), .receive (.advance 0 fun _ => 0)]

theorem never_torn_torn_write :
    ∃ s, run (step .little .little) (init Unit) tornWrite = some s ∧ s.bodies = [[5]] ∧
      s.receiver.sent.length = 18 ∧ s.written <+: s.sender.accepted := by
  obtain ⟨s, hr, hs⟩ : ∃ s, run (step .little .little) (init Unit) tornWrite = some s ∧
      (s.bodies, s.receiver.sent.length) = ([[5]], 18) :=
    Option.map_eq_some_iff.mp (by decide +kernel)
  exact ⟨s, hr, congrArg Prod.fst hs, congrArg Prod.snd hs, (never_torn tornWrite hr).2.1⟩

/-! ## An orderly end -/

/-- Once the loop has stopped, it has handed over everything that was ever written. -/
structure Drained (o : ByteOrder) (s : Transfer κ) : Prop where
  wired : s.Wired o
  isOpen : s.receiver.conn.socket.isOpen = true
  inOrder : ∃ ended, s.receiver.loop.InOrder o ended
  nonempty : ∀ p, s.sender.Made p → p.dataBuffer ≠ []
  stopped : s.receiver.loop.coming o = none →
    s.sender.conn.socket.isOpen = false ∧ s.receiver.calls = Reading.callsOf s.bodies none

theorem drained_init : Drained o (init κ) where
  wired := wired_init
  isOpen := rfl
  inOrder := (Reading.sound_inOrder .refl).2
  nonempty p hp := by
    rcases hp with hp | ⟨t, ht⟩
    · cases hp
    · cases ht
  stopped h := by cases h

/-- The bodies that were sent are not empty. -/
theorem Drained.bodies_ne_nil (h : s.Drained o) :
    ∀ b ∈ Reading.packages o s.receiver.loop.sent, b ≠ [] := by
  intro b hb
  have heq : Reading.packages o s.receiver.loop.sent = s.bodies := h.wired.packages
  rw [heq] at hb
  obtain ⟨p, hp, rfl⟩ := List.mem_map.mp hb
  exact h.nonempty p (.inl (List.mem_of_mem_filter hp))

/-- An exception leaves a slot of `closed` or `error` only. -/
theorem failing_of_throw {k : Nat} {r r' : Reading κ} (hc : r.loop.Chain)
    (hslot : ∀ f ∈ r.handlers[k]?, f.isInSlot = false) (hs : r.step o (.slotThrow k) = some r') :
    r.loop.handlers = [.failing] := by
  simp only [Reading.step] at hs
  split at hs
  · rename_i body hk
    have hfalse := hslot (.inSlot body) hk
    cases hfalse
  · rename_i hk
    exact (Reading.handlers_eq hc hk).1
  · cases hs

theorem drained_step {a : TransferAct κ} (h : s.Drained o) (ha : s.Orderly a)
    (hs : step o o s a = some s') : s'.Drained o := by
  have hwired := wired_step h.wired hs
  obtain ⟨ended, hI⟩ := h.inOrder
  cases step_cases hs with
  | send a sender hallows hs' =>
    refine ⟨hwired, h.isOpen, h.inOrder, fun p hp => ?_, fun hstop => ?_⟩
    · rcases Sending.made_of_step hs' hp with hp | ⟨t, buffer, rfl, rfl⟩
      · exact h.nonempty p hp
      · exact ha
    · obtain ⟨hclosed, hcalls⟩ := h.stopped hstop
      refine ⟨Sending.step_closed h.wired.sender hclosed hs', ?_⟩
      rw [← hwired.packages]
      show s.receiver.calls = Reading.callsOf (Reading.packages o s.receiver.sent) none
      rw [h.wired.packages]
      exact hcalls
  | transmit i n pkg hi hn receiver hs' =>
    have hm := Reading.step_moves h.wired.receiver.chain hs'
    refine ⟨hwired, (hm.isOpen (by simp)).trans h.isOpen, Loop.inOrder_of_moves h.wired.receiver hI hm,
      h.nonempty, fun hstop => ?_⟩
    obtain rfl := Option.some.inj hs'
    obtain ⟨hclosed, -⟩ := h.stopped hstop
    exact absurd rfl (h.wired.aborted hclosed _ (List.mem_of_getElem? hi))
  | receive a receiver hpeer hs' =>
    have hm := Reading.step_moves h.wired.receiver.chain hs'
    have hclose : ∀ e, a ≠ .close e := by
      rintro e rfl
      exact ha
    refine ⟨hwired, (hm.isOpen hclose).trans h.isOpen, Loop.inOrder_of_moves h.wired.receiver hI hm,
      h.nonempty, fun hstop => ?_⟩
    have hfail : ∀ i n err, a = .readFail i n err → n = s.receiver.loop.pipe.length := by
      rintro i n err rfl
      exact ha.2
    have hthrow : ∀ k, a = .slotThrow k → s.receiver.loop.handlers = [.failing] := by
      rintro k rfl
      exact failing_of_throw h.wired.receiver.chain ha hs'
    obtain ⟨hcalls, hwas⟩ := hm.stopped h.wired.receiver hI h.isOpen hclose hfail hthrow
      h.bodies_ne_nil hstop
    have hcalls' : receiver.calls = s.receiver.calls := hcalls
    rw [hcalls']
    rcases hwas with hwas | ⟨⟨i, n, err, rfl⟩, hall⟩
    · exact h.stopped hwas
    · refine ⟨ha.1, ?_⟩
      have hall' : s.receiver.calls = Reading.callsOf (Reading.packages o s.receiver.sent) none := hall
      rw [hall', h.wired.packages]
      rfl

/-- **Nothing that was written is lost at an orderly end.** Once the read loop is over, the slots and
    callbacks have been called with all bodies that were written in full, in order and each once. -/
theorem orderly_end (as : List (TransferAct κ)) (hr : run (step o o) (init κ) as = some s)
    (hm : Meets (step o o) Orderly (init κ) as) (hreads : s.receiver.conn.socket.reads = [])
    (hhandlers : s.receiver.handlers = []) :
    s.receiver.calls = Reading.callsOf s.bodies none := by
  have hthrough : Throughout (step o o) (Drained o) (init κ) as :=
    throughout_of_meets (fun _ h => h) (fun s a s' h ha hs => drained_step h ha hs) drained_init hm
  have hdrained := hthrough.last hr
  refine (hdrained.stopped ?_).2
  unfold Loop.coming
  have hreads' : s.receiver.loop.reads = [] := hreads
  have hhandlers' : s.receiver.loop.handlers = [] := hhandlers
  rw [hreads', hhandlers']

/-- A package is sent and the connection is closed; the peer reads the package and then the end. -/
def closedAfterSend : List (TransferAct Unit) :=
  [.send (.createPackage 0 [5]), .send (.enter 0), .send (.leave 0), .transmit 0 9,
    .send (.close .success), .receive (.readResult 0), .receive (.invoke 0),
    .receive (.advance 0 fun _ => 0), .receive (.readResult 0), .receive (.invoke 0),
    .receive (.advance 0 fun _ => 0), .receive (.slotReturn 0), .receive (.advance 0 fun _ => 0),
    .receive (.readFail 0 0 .eof), .receive (.invoke 0), .receive (.advance 0 fun _ => 0),
    .receive (.slotReturn 0)]

theorem orderly_end_closed_after_send :
    ∃ s, run (step .little .little) (init Unit) closedAfterSend = some s ∧
      s.receiver.calls = Reading.callsOf [[5]] none := by
  obtain ⟨s, hr, hs⟩ : ∃ s, run (step .little .little) (init Unit) closedAfterSend = some s ∧
      (s.bodies, s.receiver.conn.socket.reads, s.receiver.handlers) = ([[5]], [], []) :=
    Option.map_eq_some_iff.mp (by decide +kernel)
  obtain ⟨hbodies, hreads, hhandlers⟩ : _ ∧ _ ∧ _ := by simpa using hs
  have hcalls := orderly_end closedAfterSend hr (by decide +kernel) hreads hhandlers
  rw [hbodies] at hcalls
  exact ⟨s, hr, hcalls⟩

/-! ## Hosts of different byte order -/

/-- The size is read in the byte order of the reader. -/
theorem packageSize_toNat {buffer : List UInt8} (h : buffer.length = sizeof UInt64) :
    (Connection.packageSize o buffer).toNat = o.decode buffer := by
  have htake : buffer.take (sizeof UInt64) = buffer := List.take_of_length_le (Nat.le_of_eq h)
  have hpad : (List.replicate (sizeof UInt64) (0 : UInt8)).drop buffer.length = [] :=
    List.drop_of_length_le (by rw [h, List.length_replicate])
  have hlt : o.decode buffer < 256 ^ 8 := by
    have hdecode := o.decode_lt buffer
    rwa [h] at hdecode
  unfold Connection.packageSize
  simp only [htake, hpad, List.append_nil]
  show (BitVec.ofNat (8 * 8) (o.decode buffer)).toNat = _
  rw [BitVec.toNat_ofNat]
  exact Nat.mod_eq_of_lt hlt

/-- A small size is large in the other byte order. -/
theorem le_packageSize (hne : oₛ ≠ oᵣ) {k n : Nat} (hk : k ≤ 8) (hpos : 0 < n) (hlt : n < 256 ^ k) :
    256 ^ (8 - k) ≤ (Connection.packageSize oᵣ (header oₛ n)).toNat := by
  have hheader : header oₛ n = oₛ.encode (k + (8 - k)) n := by
    have hmod : n % 2 ^ 64 = n := by
      have hle : 256 ^ k ≤ 256 ^ 8 := Nat.pow_le_pow_right (by omega) hk
      exact Nat.mod_eq_of_lt (by omega)
    have hbits : (UInt64.ofNat n).toNat = n := (UInt64.toNat_ofNat').trans hmod
    rw [Nat.add_sub_cancel' hk]
    show oₛ.encode 8 (UInt64.ofNat n).toNat = _
    rw [hbits]
  rw [packageSize_toNat (header_length n), hheader]
  exact ByteOrder.le_decode_encode_of_ne hne hpos hlt

/-- The first bytes that are sent are the size of the first package. -/
theorem Wired.first (h : s.Wired o) {p : Package} {ps : List Package}
    (hp : s.sender.accepted = p :: ps) (hlen : sizeof UInt64 ≤ s.receiver.sent.length) :
    ∃ tl, s.receiver.sent = header o p.dataBuffer.length ++ tl := by
  have hframed := h.framed (p := p) (by rw [hp]; exact List.mem_cons_self)
  obtain ⟨cut, hsent, hpre, hcut⟩ := h.split
  cases hw : s.written with
  | cons q qs =>
    rw [hw, hp] at hpre
    obtain ⟨rfl, -⟩ := List.cons_prefix_cons.mp hpre
    refine ⟨q.dataBuffer ++ (qs.flatMap Package.bytes ++ cut), ?_⟩
    rw [hsent, hw, List.flatMap_cons, hframed.bytes_eq, frame]
    simp only [List.append_assoc]
  | nil =>
    rw [hw, List.flatMap_nil, List.nil_append] at hsent
    rcases hcut with rfl | ⟨q, qs, n, hacc, rfl, hn⟩
    · rw [hsent] at hlen
      cases hlen
    · rw [hw, List.nil_append, hp] at hacc
      cases hacc
      have hwide : sizeof UInt64 ≤ n := by
        rw [hsent, List.length_take] at hlen
        omega
      refine ⟨p.dataBuffer.take (n - sizeof UInt64), ?_⟩
      rw [hsent, hframed.bytes_eq, frame, List.take_append, header_length,
        List.take_of_length_le (by rw [header_length]; exact hwide)]

/-- **Between hosts of different byte order nothing is heard.** Whatever is sent first, the reader takes its
    size for that of a package which does not come. -/
theorem other_byte_order (hne : oₛ ≠ oᵣ) (as : List (TransferAct κ))
    (hr : run (step oₛ oᵣ) (init κ) as = some s) {p : Package} {ps : List Package}
    (hp : s.sender.accepted = p :: ps) {k : Nat} (hk : k ≤ 8) (hpos : p.dataBuffer ≠ [])
    (hlt : p.dataBuffer.length < 256 ^ k)
    (hsent : s.receiver.sent.length < 8 + 256 ^ (8 - k)) : s.receiver.calls = [] := by
  have hwired : s.Wired oₛ := wired_reachable ⟨as, hr⟩
  obtain ⟨-, ended, hI⟩ := Reading.sound_inOrder (receiver_reachable ⟨as, hr⟩)
  have hsize : sizeof UInt64 = 8 := rfl
  -- no package is complete
  have hnone : Reading.packages oᵣ s.receiver.sent = [] := by
    by_cases hlen : sizeof UInt64 ≤ s.receiver.sent.length
    · obtain ⟨tl, htl⟩ := hwired.first hp hlen
      have hlarge := le_packageSize hne hk (List.length_pos_iff.mpr hpos) hlt
      rw [htl, List.length_append, header_length, hsize] at hsent
      rw [htl]
      exact bodies_header_short (by decide) (header_length _) (by omega)
    · exact bodies_short (by omega)
  have hprefix := hI.isPrefix []
  rw [List.append_nil] at hprefix
  have hprefix' : ended ++ s.receiver.loop.current.toList <+: Reading.packages oᵣ s.receiver.sent :=
    hprefix
  rw [hnone, List.prefix_nil, List.append_eq_nil_iff] at hprefix'
  have hcalls : s.receiver.calls = Reading.callsOf ended s.receiver.loop.current := hI.calls
  rw [hcalls, hprefix'.1, Reading.callsOf, hprefix'.2]
  rfl

/-- A package of sixteen bytes, and the reader that waits for `2 ^ 60`. -/
def littleToBig : List (TransferAct Unit) :=
  [.send (.createPackage 0 (List.replicate 16 1)), .send (.enter 0), .send (.leave 0), .transmit 0 24,
    .receive (.readResult 0), .receive (.invoke 0), .receive (.advance 0 fun _ => 0)]

theorem other_byte_order_little_to_big :
    ∃ s, run (step .little .big) (init Unit) littleToBig = some s ∧ s.bodies ≠ [] ∧
      s.receiver.calls = [] := by
  obtain ⟨s, hr, hs⟩ : ∃ s, run (step .little .big) (init Unit) littleToBig = some s ∧
      (s.sender.accepted, s.bodies.length, s.receiver.sent.length) =
        ([Connection.createPackage .little 0 (List.replicate 16 1)], 1, 24) :=
    Option.map_eq_some_iff.mp (by decide +kernel)
  obtain ⟨hacc, hlen, hsent⟩ : _ ∧ _ ∧ _ := by simpa using hs
  refine ⟨s, hr, ?_, ?_⟩
  · rw [← List.length_pos_iff, hlen]
    exact Nat.zero_lt_one
  · exact other_byte_order (by decide) littleToBig hr hacc (k := 1) (by decide) (by decide) (by decide)
      (by rw [hsent]; decide)

end Transfer

end Lnetlib
