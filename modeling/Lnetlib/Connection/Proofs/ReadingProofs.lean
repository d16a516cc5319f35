import Lnetlib.Connection.Proofs.ReadLoopProofs

/-!
# Proofs: when the reader goes deaf

An open connection without a running handler has a read outstanding or has reported the failure of its last
one, unless a handler was given an empty package or was left by an exception.
-/

namespace Lnetlib

open Bytes Transition

variable {κ : Type} {o : ByteOrder}

namespace Loop

variable {l l' : Loop κ} {a : ReadingAct κ}

/-- `closed` or `error` was emitted for a read that failed. -/
def Reported (l : Loop κ) : Prop :=
  ∃ e ∈ l.reported, e = .closed ∨ ∃ code message, e = .error code message

/-- `Reading.Hears` of the loop. -/
def Hears (l : Loop κ) : Prop :=
  l.isOpen = true → l.handlers = [] → l.reads ≠ [] ∨ Reported l

/-- What is known of a read with a result, or without one. -/
structure OpOk (isOpen : Bool) (op : ReadOp) (result : Option ErrorCode) : Prop where
  size : op.handler = .readPackageSizeHandler → op.exactly = sizeof UInt64
  success : ∀ err, result = some err → err.isError = false → op.buffer.length = op.exactly
  failed : isOpen = true → ∀ err, result = some err → err.isError = true →
    op.exactly ≠ 0 ∧ err.value ≠ ErrorCode.operationAborted.value

/-- A read that was just started. -/
theorem OpOk.newRead (isOpen : Bool) {handler : ReadHandler} {exactly : Nat}
    (h : handler = .readPackageSizeHandler → exactly = sizeof UInt64) :
    OpOk isOpen (newRead isOpen handler exactly) (newRead isOpen handler exactly).result := by
  cases isOpen with
  | true => exact ⟨h, fun _ he => (by cases he), fun _ _ he => by cases he⟩
  | false =>
    refine ⟨h, fun err he hok => ?_, fun hopen => by cases hopen⟩
    obtain rfl : ErrorCode.badDescriptor = err := Option.some.inj he
    cases hok

/-- What holds of the loop in every state. -/
structure Sound (l : Loop κ) : Prop where
  chain : Chain l
  reads : ∀ op ∈ l.reads, OpOk l.isOpen op op.result
  entered : ∀ op err, .entered op err ∈ l.handlers → OpOk l.isOpen op (some err)
  failing : .failing ∈ l.handlers → Reported l
  reported : Reported l → l.reads = [] ∧ (l.handlers = [] ∨ l.handlers = [.failing])

theorem Sound.not_reported (hs : Sound l) {f : ReadFrame} (hh : l.handlers = [f]) (hf : f ≠ .failing) :
    ¬ Reported l := by
  intro hr
  rcases (hs.reported hr).2 with h | h
  · rw [hh] at h
    cases h
  · rw [hh] at h
    exact hf (List.singleton_inj.mp h)

theorem Sound.not_reported_reads (hs : Sound l) {op : ReadOp} (hr : l.reads = [op]) : ¬ Reported l := by
  intro hrep
  have := (hs.reported hrep).1
  rw [hr] at this
  cases this

/-- The handler of a read that ends has no error to report only if the package is empty. -/
theorem Sound.isEmptyPackage (hs : Sound l) {op : ReadOp} {err : ErrorCode}
    (hh : l.handlers = [.entered op err]) (hopen : l.isOpen = true)
    (hend : err.value = ErrorCode.operationAborted.value ∨ err.isError = false ∧ op.buffer = []) :
    (ReadFrame.entered op err).isEmptyPackage = true := by
  have hok := hs.entered op err (by rw [hh]; exact List.mem_singleton_self _)
  rcases hend with hab | ⟨herr, hb⟩
  · have herr : err.isError = true := by simp [ErrorCode.isError, hab, ErrorCode.operationAborted]
    exact absurd hab (hok.failed hopen err rfl herr).2
  · have hlen := hok.success err rfl herr
    rw [hb, List.length_nil] at hlen
    have hbody : op.handler = .readPackageBodyHandler := by
      cases hop : op.handler with
      | readPackageBodyHandler => rfl
      | readPackageSizeHandler =>
        have hsize := hok.size hop
        rw [← hlen] at hsize
        cases hsize
    simp [ReadFrame.isEmptyPackage, hbody, ← hlen]

/-- What one step preserves. -/
theorem Moves.sound (hs : Sound l) (hm : Moves o l a l') : Sound l' := by
  have hchain := hm.chain hs.chain
  cases hm with
  | other => exact hs
  | peerSend => exact ⟨hchain, hs.reads, hs.entered, hs.failing, hs.reported⟩
  | readResult i op hr hres hopen hle =>
    have hok := hs.reads op (by rw [hr]; exact List.mem_singleton_self _)
    refine ⟨hchain, ?_, hs.entered, hs.failing, fun h => absurd h (hs.not_reported_reads hr)⟩
    intro op' hop'
    obtain rfl := List.mem_singleton.mp hop'
    refine ⟨hok.size, fun _ _ _ => ?_, fun _ err he herr => ?_⟩
    · simp [List.length_take, hle]
    · obtain rfl := Option.some.inj he
      cases herr
  | readFail i n err op hr hres hpos herr hvalue =>
    have hok := hs.reads op (by rw [hr]; exact List.mem_singleton_self _)
    refine ⟨hchain, ?_, hs.entered, hs.failing, fun h => absurd h (hs.not_reported_reads hr)⟩
    intro op' hop'
    obtain rfl := List.mem_singleton.mp hop'
    refine ⟨hok.size, fun err' he hok' => ?_, fun _ err' he _ => ?_⟩
    · obtain rfl := Option.some.inj he
      rw [herr] at hok'
      cases hok'
    · obtain rfl := Option.some.inj he
      exact ⟨Nat.ne_zero_of_lt hpos, hvalue⟩
  | invoke i op err hh hr hres =>
    have hok := hs.reads op (by rw [hr]; exact List.mem_singleton_self _)
    refine ⟨hchain, fun _ h => absurd h List.not_mem_nil, ?_, ?_,
      fun h => absurd h (hs.not_reported_reads hr)⟩
    · intro op' err' hmem
      obtain ⟨rfl, rfl⟩ := ReadFrame.entered.inj (List.mem_singleton.mp hmem)
      rw [hres] at hok
      exact hok
    · intro hmem
      cases List.mem_singleton.mp hmem
  | ended k junk op err hk hh hr =>
    have hnot := hs.not_reported hh (by simp)
    exact ⟨hchain, hs.reads, fun _ _ h => absurd h List.not_mem_nil,
      fun h => absurd h List.not_mem_nil, fun h => absurd h hnot⟩
  | size k junk op err hh hr herr hop =>
    have hnot := hs.not_reported hh (by simp)
    refine ⟨hchain, ?_, fun _ _ h => absurd h List.not_mem_nil, fun h => absurd h List.not_mem_nil,
      fun h => absurd h hnot⟩
    intro op' hop'
    obtain rfl := List.mem_singleton.mp hop'
    exact OpOk.newRead l.isOpen fun h => by cases h
  | body k junk op err hh hr herr hop hb =>
    have hnot := hs.not_reported hh (by simp)
    refine ⟨hchain, hs.reads, ?_, ?_, fun h => absurd h hnot⟩
    · intro op' err' hmem
      cases List.mem_singleton.mp hmem
    · intro hmem
      cases List.mem_singleton.mp hmem
  | failed k junk op err e hh hr herr he =>
    refine ⟨hchain, hs.reads, ?_, fun _ => ⟨e, by simp, he⟩, fun _ => ⟨hr, .inr rfl⟩⟩
    intro op' err' hmem
    cases List.mem_singleton.mp hmem
  | rearm k junk hh hr =>
    have hnot := hs.not_reported hh (by simp)
    refine ⟨hchain, ?_, fun _ _ h => absurd h List.not_mem_nil, fun h => absurd h List.not_mem_nil,
      fun h => absurd h hnot⟩
    intro op' hop'
    obtain rfl := List.mem_singleton.mp hop'
    exact OpOk.newRead l.isOpen fun _ => rfl
  | slotReturn k b hh hr =>
    have hnot := hs.not_reported hh (by simp)
    refine ⟨hchain, hs.reads, ?_, ?_, fun h => absurd h hnot⟩
    · intro op' err' hmem
      cases List.mem_singleton.mp hmem
    · intro hmem
      cases List.mem_singleton.mp hmem
  | slotThrow k b hk hh hr =>
    have hnot := hs.not_reported hh (by simp)
    exact ⟨hchain, hs.reads, fun _ _ h => absurd h List.not_mem_nil,
      fun h => absurd h List.not_mem_nil, fun h => absurd h hnot⟩
  | reported a k ha hh hr =>
    exact ⟨hchain, hs.reads, fun _ _ h => absurd h List.not_mem_nil,
      fun h => absurd h List.not_mem_nil, fun _ => ⟨hr, .inl rfl⟩⟩
  | close =>
    refine ⟨hchain, ?_, ?_, hs.failing, fun h => ?_⟩
    · intro op' hop'
      obtain ⟨op, hop, rfl⟩ := List.mem_map.mp hop'
      have hok := hs.reads op hop
      refine ⟨hok.size, fun err he herr => ?_, fun hopen => by cases hopen⟩
      cases hres : op.result with
      | none =>
        rw [hres] at he
        obtain rfl := Option.some.inj he
        cases herr
      | some err' =>
        rw [hres] at he hok
        obtain rfl : err' = err := Option.some.inj he
        exact hok.success err' rfl herr
    · intro op err hmem
      have hok := hs.entered op err hmem
      exact ⟨hok.size, hok.success, fun hopen => by cases hopen⟩
    · obtain ⟨hr, hh⟩ := hs.reported h
      exact ⟨by simp [hr], hh⟩

/-! ## Where the reader hears -/

theorem hears_of_handlers {f : ReadFrame} (hh : l.handlers = [f]) : Hears l := by
  intro _ hnil
  rw [hh] at hnil
  cases hnil

theorem hears_of_reads {op : ReadOp} (hr : l.reads = [op]) : Hears l := by
  intro _ _
  rw [hr]
  exact .inl (List.cons_ne_nil op [])

/-- A loop that is over without a report leaves an open connection deaf. -/
theorem hears_iff_closed (hh : l.handlers = []) (hr : l.reads = []) (hrep : ¬ Reported l) :
    Hears l ↔ l.isOpen = false := by
  constructor
  · intro hhears
    by_contra hopen
    rcases hhears (eq_true_of_ne_false hopen) hh with h | h
    · exact h hr
    · exact hrep h
  · intro hclosed hopen
    rw [hclosed] at hopen
    cases hopen

end Loop

namespace Reading

variable {s s' : Reading κ}

theorem sound_init : (init κ).loop.Sound where
  chain := .reading _ rfl rfl
  reads op hop := by
    obtain rfl := List.mem_singleton.mp hop
    exact Loop.OpOk.newRead true fun _ => rfl
  entered op err h := absurd h List.not_mem_nil
  failing h := absurd h List.not_mem_nil
  reported h := by
    obtain ⟨e, he, -⟩ := h
    cases he

theorem nourished_of_other {a : ReadingAct κ} (hadv : ∀ k junk, a ≠ .advance k junk)
    (hthrow : ∀ k, a ≠ .slotThrow k) : s.Nourished a := by
  cases a with
  | advance k junk => exact absurd rfl (hadv k junk)
  | slotThrow k => exact absurd rfl (hthrow k)
  | _ => trivial

/-- A handler that is not given an empty package. -/
theorem nourished_of_not_empty {f : ReadFrame} {k : Nat} {junk : Nat → UInt8} (hh : s.handlers = [f])
    (hf : s.conn.socket.isOpen = true → f.isEmptyPackage = false) :
    s.Nourished (.advance k junk) := by
  intro hopen f' hf'
  have hmem := List.mem_of_getElem? hf'
  rw [hh] at hmem
  obtain rfl := List.mem_singleton.mp hmem
  exact hf hopen

/-- A handler that an open connection must not have. -/
theorem closed_iff_not_handled {f : ReadFrame} (p : ReadFrame → Bool) (hh : s.handlers = [f])
    (hf : s.conn.socket.isOpen = true → p f = true) :
    s.conn.socket.isOpen = false ↔
      (s.conn.socket.isOpen = true → ∀ f ∈ s.handlers[0]?, p f = false) := by
  constructor
  · intro hclosed hopen
    rw [hclosed] at hopen
    cases hopen
  · intro hn
    by_contra hclosed
    have hopen := eq_true_of_ne_false hclosed
    have hpf := hn hopen f (by rw [hh]; rfl)
    rw [hf hopen] at hpf
    cases hpf

/-- What the loop does from a state in which the reader hears. -/
theorem hears_of_moves {a : ReadingAct κ} {l' : Loop κ} (hS : s.loop.Sound) (hP : s.loop.Hears)
    (hm : Loop.Moves o s.loop a l') : l'.Hears ↔ s.Nourished a := by
  have hok : ∀ {op err}, s.loop.handlers = [.entered op err] →
      Loop.OpOk s.conn.socket.isOpen op (some err) := by
    intro op err hh
    exact hS.entered op err (by rw [hh]; exact List.mem_singleton_self _)
  cases hm with
  | other a hadv hthrow => exact iff_of_true hP (nourished_of_other hadv hthrow)
  | peerSend => exact iff_of_true hP trivial
  | readResult => exact iff_of_true (Loop.hears_of_reads rfl) trivial
  | readFail => exact iff_of_true (Loop.hears_of_reads rfl) trivial
  | invoke => exact iff_of_true (Loop.hears_of_handlers rfl) trivial
  | ended k junk op err hk hh hr hend =>
    subst hk
    have hdeaf := Loop.hears_iff_closed (l := { s.loop with handlers := [] }) rfl hr
      (hS.not_reported hh (by simp))
    exact hdeaf.trans
      (closed_iff_not_handled ReadFrame.isEmptyPackage hh fun hopen => hS.isEmptyPackage hh hopen hend)
  | size k junk op err hh hr herr hop =>
    refine iff_of_true (Loop.hears_of_reads rfl) (nourished_of_not_empty hh fun _ => ?_)
    simp [ReadFrame.isEmptyPackage, hop]
  | body k junk op err hh hr herr hop hb =>
    refine iff_of_true (Loop.hears_of_handlers rfl) (nourished_of_not_empty hh fun _ => ?_)
    have hlen := (hok hh).success err rfl herr
    have hpos : op.exactly ≠ 0 := by
      rw [← hlen]
      exact fun h => hb (List.eq_nil_of_length_eq_zero h)
    simp [ReadFrame.isEmptyPackage, hpos]
  | failed k junk op err e hh hr herr he =>
    refine iff_of_true (Loop.hears_of_handlers rfl) (nourished_of_not_empty hh fun hopen => ?_)
    have hpos := ((hok hh).failed hopen err rfl herr).1
    simp [ReadFrame.isEmptyPackage, hpos]
  | rearm k junk hh hr =>
    exact iff_of_true (Loop.hears_of_reads rfl) (nourished_of_not_empty hh fun _ => rfl)
  | slotReturn => exact iff_of_true (Loop.hears_of_handlers rfl) trivial
  | slotThrow k b hk hh hr =>
    subst hk
    have hdeaf := Loop.hears_iff_closed
      (l := { s.loop with handlers := [], calls := s.loop.calls ++ [.ended b] }) rfl hr
      (hS.not_reported hh (by simp))
    exact hdeaf.trans (closed_iff_not_handled ReadFrame.isInSlot hh fun _ => rfl)
  | reported a k ha hh hr =>
    have hrep := hS.failing (by rw [hh]; exact List.mem_singleton_self _)
    refine iff_of_true (fun _ _ => .inr hrep) ?_
    rcases ha with rfl | rfl
    · trivial
    · intro _ f hf
      have hmem := List.mem_of_getElem? hf
      rw [show s.handlers = _ from hh] at hmem
      obtain rfl := List.mem_singleton.mp hmem
      rfl
  | close => exact iff_of_true (fun hopen => by cases hopen) trivial

/-- The reader of an open connection never goes deaf silently in exactly the runs in which, while the
    connection is open, no read handler is given an empty package and none is left by an exception of a
    received slot or a callback. -/
theorem hears_throughout_iff_nourished (as : List (ReadingAct κ))
    (hr : run (step o) (init κ) as = some s) :
    Throughout (step o) Hears (init κ) as ↔ Meets (step o) Nourished (init κ) as := by
  refine throughout_iff_meets (I := fun s => s.loop.Sound) ?_ sound_init ?_ hr
  · intro s a s' hS hP hs
    have hm := step_moves hS.chain hs
    exact ⟨hears_of_moves hS hP hm, fun _ => hm.sound hS⟩
  · exact fun _ _ => .inl (List.cons_ne_nil _ [])

/-- A package of one byte in two pieces, and then the end of the stream. -/
theorem hears_throughout_one_package :
    ∃ s : Reading Unit, run (step .little) (init Unit)
        [.peerSend [1, 0, 0, 0, 0, 0, 0, 0], .readResult 0, .invoke 0, .advance 0 fun _ => 0,
          .peerSend [5], .readResult 0, .invoke 0, .advance 0 fun _ => 0, .slotReturn 0,
          .advance 0 fun _ => 0, .readFail 0 0 .eof, .invoke 0, .advance 0 fun _ => 0,
          .slotReturn 0] = some s ∧
      Throughout (step .little) Hears (init Unit)
        [.peerSend [1, 0, 0, 0, 0, 0, 0, 0], .readResult 0, .invoke 0, .advance 0 fun _ => 0,
          .peerSend [5], .readResult 0, .invoke 0, .advance 0 fun _ => 0, .slotReturn 0,
          .advance 0 fun _ => 0, .readFail 0 0 .eof, .invoke 0, .advance 0 fun _ => 0,
          .slotReturn 0] :=
  ⟨_, rfl, (hears_throughout_iff_nourished _ rfl).mpr (by decide +kernel)⟩

/-- After a package of size zero nobody waits for the next one. -/
theorem deaf_after_empty_package :
    ¬ ∀ (as : List (ReadingAct Unit)) (s : Reading Unit), run (step .little) (init Unit) as = some s →
      Throughout (step .little) Hears (init Unit) as := by
  intro h
  have hrun := h [.peerSend (List.replicate 8 0), .readResult 0, .invoke 0, .advance 0 fun _ => 0,
    .readResult 0, .invoke 0, .advance 0 fun _ => 0] _ rfl
  rcases hrun.last rfl rfl rfl with hreads | ⟨e, he, -⟩
  · exact hreads rfl
  · cases he

end Reading

end Lnetlib
