import Lnetlib.Connection.Proofs.ReadingProofs

/-!
# Proofs: read handlers are serialised

The chain of reads and handlers keeps the calls of slots and callbacks apart, and the bodies they are given
are the packages of the byte stream in order: at every point of the loop the packages of the whole stream are
those handed over, followed by those that the rest of the stream still holds.
-/

namespace Lnetlib

open Bytes Transition

variable {κ : Type} {o : ByteOrder}

namespace Loop

variable {l l' : Loop κ} {a : ReadingAct κ}

/-- The packages when `n` bytes of a body come first. -/
def packagesThen (o : ByteOrder) (n : Nat) (bs : List UInt8) : List (List UInt8) :=
  Framing.bodyThen (fun buffer => (Connection.packageSize o buffer).toNat) (sizeof UInt64) n bs

/-- The packages to come behind a read, as a function of the bytes that follow; none when the read has
    failed. -/
def comingOf (o : ByteOrder) (op : ReadOp) (result : Option ErrorCode) :
    Option (List UInt8 → List (List UInt8)) :=
  match result, op.handler with
  | none, .readPackageSizeHandler => some (Reading.packages o)
  | none, .readPackageBodyHandler => some (packagesThen o op.exactly)
  | some err, .readPackageSizeHandler =>
    if err.isError then none else some (packagesThen o (Connection.packageSize o op.buffer).toNat)
  | some err, .readPackageBodyHandler =>
    if err.isError then none else some fun bs => op.buffer :: Reading.packages o bs

/-- The packages that the loop still hands over, if it goes on. -/
def coming (o : ByteOrder) (l : Loop κ) : Option (List UInt8 → List (List UInt8)) :=
  match l.handlers, l.reads with
  | [.entered op err], [] => comingOf o op (some err)
  | [.inSlot _], [] => some (Reading.packages o)
  | [.waitPackage], [] => some (Reading.packages o)
  | [], [op] => comingOf o op op.result
  | _, _ => none

/-- The body that a slot or callback is being given. -/
def current (l : Loop κ) : Option (List UInt8) :=
  match l.handlers with
  | [.inSlot body] => some body
  | _ => none

/-- The calls do not overlap, and the bodies they are given are the packages of the stream in order. -/
structure InOrder (o : ByteOrder) (l : Loop κ) (ended : List (List UInt8)) : Prop where
  calls : l.calls = Reading.callsOf ended l.current
  isPrefix : ∀ more, ended ++ l.current.toList <+: Reading.packages o (l.sent ++ more)
  rest : ∀ f, l.coming o = some f → ∀ more,
    Reading.packages o (l.sent ++ more) = ended ++ l.current.toList ++ f (l.pipe ++ more)

/-- Where the loop goes on, the prefix follows. -/
theorem InOrder.of_rest {ended : List (List UInt8)} {f : List UInt8 → List (List UInt8)}
    (hc : l.calls = Reading.callsOf ended l.current) (hf : l.coming o = some f)
    (h : ∀ more, Reading.packages o (l.sent ++ more) =
      ended ++ l.current.toList ++ f (l.pipe ++ more)) : InOrder o l ended where
  calls := hc
  isPrefix more := ⟨f (l.pipe ++ more), (h more).symm⟩
  rest g hg more := by
    rw [hf] at hg
    obtain rfl := Option.some.inj hg
    exact h more

/-- Where the loop does not go on, the prefix is enough. -/
theorem InOrder.of_end {ended : List (List UInt8)} (hc : l.calls = Reading.callsOf ended l.current)
    (hf : l.coming o = none)
    (h : ∀ more, ended ++ l.current.toList <+: Reading.packages o (l.sent ++ more)) :
    InOrder o l ended where
  calls := hc
  isPrefix := h
  rest g hg := by
    rw [hf] at hg
    cases hg

theorem callsOf_started (ended : List (List UInt8)) (body : List UInt8) :
    Reading.callsOf ended none ++ [.started body] = Reading.callsOf ended (some body) := by
  simp [Reading.callsOf]

theorem callsOf_ended (ended : List (List UInt8)) (body : List UInt8) :
    Reading.callsOf ended (some body) ++ [.ended body] = Reading.callsOf (ended ++ [body]) none := by
  simp [Reading.callsOf]

/-- A read that gets all its bytes takes the next piece of the stream. -/
theorem comingOf_success {op : ReadOp} {f : List UInt8 → List (List UInt8)} {pipe : List UInt8}
    (hop : op.handler = .readPackageSizeHandler → op.exactly = sizeof UInt64)
    (hle : op.exactly ≤ pipe.length) (hf : comingOf o op none = some f) :
    ∃ g, comingOf o { op with buffer := pipe.take op.exactly, result := some .success }
        (some .success) = some g ∧ ∀ more, f (pipe ++ more) = g (pipe.drop op.exactly ++ more) := by
  have hsplit : ∀ more, pipe ++ more = pipe.take op.exactly ++ (pipe.drop op.exactly ++ more) := by
    intro more
    rw [← List.append_assoc, List.take_append_drop]
  have hlen : (pipe.take op.exactly).length = op.exactly := List.length_take_of_le hle
  unfold comingOf at hf ⊢
  cases hh : op.handler with
  | readPackageSizeHandler =>
    rw [hh] at hf
    obtain rfl := Option.some.inj hf
    refine ⟨_, rfl, fun more => ?_⟩
    rw [hsplit more]
    exact Framing.bodies_header (by decide) (hlen.trans (hop hh))
  | readPackageBodyHandler =>
    rw [hh] at hf
    obtain rfl := Option.some.inj hf
    refine ⟨_, rfl, fun more => ?_⟩
    rw [hsplit more]
    exact Framing.bodyThen_body hlen

theorem comingOf_error {op : ReadOp} {err : ErrorCode} (herr : err.isError = true) :
    comingOf o op (some err) = none := by
  unfold comingOf
  cases op.handler <;> simp [herr]

theorem coming_read {op : ReadOp} (hh : l.handlers = []) (hr : l.reads = [op]) :
    l.coming o = comingOf o op op.result := by
  unfold coming
  rw [hh, hr]

theorem coming_entered {op : ReadOp} {err : ErrorCode} (hh : l.handlers = [.entered op err])
    (hr : l.reads = []) : l.coming o = comingOf o op (some err) := by
  unfold coming
  rw [hh, hr]

/-- A read just started, on a socket that may be closed. -/
theorem comingOf_newRead (isOpen : Bool) (handler : ReadHandler) (exactly : Nat)
    {f : List UInt8 → List (List UInt8)}
    (hf : comingOf o (newRead isOpen handler exactly) (newRead isOpen handler exactly).result =
      some f) :
    comingOf o (newRead isOpen handler exactly) none = some f := by
  cases isOpen with
  | true => exact hf
  | false =>
    have hnone : comingOf o (newRead false handler exactly) (newRead false handler exactly).result =
        none := comingOf_error rfl
    rw [hnone] at hf
    cases hf

theorem current_nil (hh : l.handlers = []) : l.current = none := by
  unfold current
  rw [hh]

theorem current_single {f : ReadFrame} (hh : l.handlers = [f]) :
    l.current = current { l with handlers := [f] } := by
  unfold current
  rw [hh]

/-- Between two packages. -/
theorem coming_between {f : ReadFrame} (hf : f = .waitPackage ∨ ∃ body, f = .inSlot body)
    (hh : l.handlers = [f]) (hr : l.reads = []) : l.coming o = some (Reading.packages o) := by
  unfold coming
  rw [hh, hr]
  rcases hf with rfl | ⟨body, rfl⟩
  · rfl
  · rfl

/-! ## What a step does to the order of the calls -/

/-- The loop goes on with a read just started. -/
theorem InOrder.started {ended : List (List UInt8)} (hI : InOrder o l ended) (hcur : l.current = none)
    {handler : ReadHandler} {exactly : Nat}
    (hc : l.coming o = comingOf o (newRead l.isOpen handler exactly) none) :
    InOrder o { l with handlers := [], reads := [newRead l.isOpen handler exactly] } ended := by
  have hcalls := hI.calls
  have hprefix := hI.isPrefix
  have hrest := hI.rest
  rw [hcur] at hcalls hprefix hrest
  refine ⟨hcalls, hprefix, fun f hf more => hrest f ?_ more⟩
  rw [hc]
  exact comingOf_newRead l.isOpen handler exactly hf

/-- The loop ends without a package. -/
theorem InOrder.finished {ended : List (List UInt8)} (hI : InOrder o l ended) (hcur : l.current = none)
    (hr : l.reads = []) : InOrder o { l with handlers := [] } ended := by
  have hcalls := hI.calls
  have hprefix := hI.isPrefix
  rw [hcur] at hcalls hprefix
  refine .of_end hcalls ?_ hprefix
  simp [coming, hr]

/-- A slot or callback has ended. -/
theorem InOrder.ended {ended : List (List UInt8)} {b : List UInt8} (hI : InOrder o l ended)
    (hh : l.handlers = [.inSlot b]) (hr : l.reads = []) {handlers : List ReadFrame}
    (hhandlers : handlers = [.waitPackage] ∨ handlers = []) :
    InOrder o { l with handlers := handlers, calls := l.calls ++ [.ended b] } (ended ++ [b]) := by
  have hcur : l.current = some b := current_single hh
  have hcalls : l.calls ++ [.ended b] = Reading.callsOf (ended ++ [b]) none := by
    rw [hI.calls, hcur]
    exact callsOf_ended ended b
  rcases hhandlers with rfl | rfl
  · have hrest := hI.rest _ (coming_between (.inr ⟨b, rfl⟩) hh hr)
    rw [hcur] at hrest
    refine .of_rest (f := Reading.packages o) hcalls ?_ fun more => ?_
    · simp [coming, hr]
    · rw [hrest more]
      simp [current]
  · have hprefix := hI.isPrefix
    rw [hcur] at hprefix
    refine .of_end hcalls ?_ fun more => ?_
    · simp [coming, hr]
    · simpa [current] using hprefix more

/-- `close()` fails the read that was in progress, and it leaves the others alone. -/
theorem InOrder.close {ended : List (List UInt8)} (hI : InOrder o l ended) (hc : Chain l) :
    InOrder o { l with
      isOpen := false
      reads := l.reads.map fun op =>
        { op with result := op.result <|> some ErrorCode.operationAborted } } ended := by
  refine ⟨hI.calls, hI.isPrefix, fun f hf more => hI.rest f ?_ more⟩
  cases hc with
  | reading op hh hr =>
    simp only [coming, hh, hr, List.map_cons, List.map_nil] at hf ⊢
    cases hres : op.result with
    | none =>
      have hnone : comingOf o { op with result := some .operationAborted }
          (some .operationAborted) = none := comingOf_error rfl
      rw [hres] at hf
      cases hnone.symm.trans hf
    | some err =>
      rw [hres] at hf
      exact hf
  | handling f' hh hr =>
    simp only [coming, hh, hr, List.map_nil] at hf ⊢
    exact hf
  | finished hh hr =>
    simp only [coming, hh, hr, List.map_nil] at hf ⊢
    exact hf

theorem inOrder_of_moves {ended : List (List UInt8)} (hS : Sound l) (hI : InOrder o l ended)
    (hm : Moves o l a l') : ∃ ended', InOrder o l' ended' := by
  cases hm with
  | other => exact ⟨ended, hI⟩
  | peerSend bs =>
    refine ⟨ended, hI.calls, fun more => ?_, fun f hf more => ?_⟩
    · have := hI.isPrefix (bs ++ more)
      rwa [← List.append_assoc] at this
    · have := hI.rest f hf (bs ++ more)
      rwa [← List.append_assoc, ← List.append_assoc] at this
  | readResult i op hr hres hopen hle =>
    have hh := hS.chain.handlers_eq_nil hr
    have hop := (hS.reads op (by rw [hr]; exact List.mem_singleton_self _)).size
    cases hf : comingOf o op none with
    | none => cases hop' : op.handler <;> simp [comingOf, hop'] at hf
    | some f =>
      obtain ⟨g, hg, hfg⟩ := comingOf_success hop hle hf
      refine ⟨ended, .of_rest hI.calls (by simp only [coming, hh]; exact hg) fun more => ?_⟩
      have hcoming : l.coming o = some f := by rw [coming_read hh hr, hres, hf]
      rw [hI.rest f hcoming more, hfg more]
      rfl
  | readFail i n err op hr hres hpos herr hvalue =>
    refine ⟨ended, .of_end hI.calls ?_ hI.isPrefix⟩
    simp only [coming, hS.chain.handlers_eq_nil hr]
    exact comingOf_error herr
  | invoke i op err hh hr hres =>
    have hsame : ({ l with reads := [], handlers := [.entered op err] } : Loop κ).coming o =
        l.coming o := by
      rw [coming_read hh hr, hres]
      exact coming_entered rfl rfl
    have hcur : ({ l with reads := [], handlers := [.entered op err] } : Loop κ).current =
        l.current := (current_nil hh).symm
    refine ⟨ended, by rw [hcur]; exact hI.calls, by rw [hcur]; exact hI.isPrefix, ?_⟩
    rw [hsame, hcur]
    exact hI.rest
  | ended k junk op err hk hh hr => exact ⟨ended, hI.finished (current_single hh) hr⟩
  | size k junk op err hh hr herr hop =>
    refine ⟨ended, hI.started (current_single hh) ?_⟩
    rw [coming_entered hh hr]
    simp [comingOf, hop, herr, newRead]
  | body k junk op err hh hr herr hop hb =>
    have hcoming : l.coming o = some fun bs => op.buffer :: Reading.packages o bs := by
      rw [coming_entered hh hr]
      simp [comingOf, hop, herr]
    have hcur : l.current = none := current_single hh
    have hrest := hI.rest _ hcoming
    rw [hcur] at hrest
    refine ⟨ended, .of_rest (f := Reading.packages o) ?_ ?_ fun more => ?_⟩
    · rw [hI.calls, hcur]
      exact callsOf_started ended op.buffer
    · simp [coming, hr]
    · rw [hrest more]
      simp [current]
  | failed k junk op err e hh hr herr he =>
    have hcur : l.current = none := current_single hh
    have hcalls := hI.calls
    have hprefix := hI.isPrefix
    rw [hcur] at hcalls hprefix
    exact ⟨ended, .of_end hcalls (by simp [coming]) hprefix⟩
  | rearm k junk hh hr =>
    exact ⟨ended, hI.started (current_single hh) (coming_between (.inl rfl) hh hr)⟩
  | slotReturn k b hh hr => exact ⟨ended ++ [b], hI.ended hh hr (.inl rfl)⟩
  | slotThrow k b hk hh hr => exact ⟨ended ++ [b], hI.ended hh hr (.inr rfl)⟩
  | reported a k ha hh hr => exact ⟨ended, hI.finished (current_single hh) hr⟩
  | close => exact ⟨ended, hI.close hS.chain⟩

end Loop

namespace Reading

variable {s : Reading κ}

/-- On one connection there is at most one outstanding read, and none while a read handler runs; the calls of
    received slots and of callbacks follow one another, with the packages of the byte stream in order. -/
theorem serialised (as : List (ReadingAct κ)) (hr : run (step o) (init κ) as = some s) :
    s.conn.socket.reads.length ≤ 1 ∧ s.handlers.length ≤ 1 ∧
      (s.handlers ≠ [] → s.conn.socket.reads = []) ∧
      ∃ ended open?, s.calls = callsOf ended open? ∧
        ended ++ open?.toList <+: packages o s.sent := by
  have hinv : s.loop.Sound ∧ ∃ ended, s.loop.InOrder o ended := by
    refine run_induction (P := fun _ s => s.loop.Sound ∧ ∃ ended, s.loop.InOrder o ended) ?_ ?_ hr
    · refine ⟨sound_init, [], .of_rest (f := packages o) rfl rfl fun more => ?_⟩
      simp [loop, init, Loop.current]
    · rintro as s a s' ⟨hS, ended, hI⟩ hs
      have hm := step_moves hS.chain hs
      exact ⟨hm.sound hS, Loop.inOrder_of_moves hS hI hm⟩
  obtain ⟨hS, ended, hI⟩ := hinv
  have hcalls : ∃ ended open?, s.calls = callsOf ended open? ∧
      ended ++ open?.toList <+: packages o s.sent := by
    refine ⟨ended, s.loop.current, hI.calls, ?_⟩
    have := hI.isPrefix []
    rwa [List.append_nil] at this
  cases hS.chain with
  | reading op hh hr =>
    have hh : s.handlers = [] := hh
    have hr : s.conn.socket.reads = [op] := hr
    exact ⟨by simp [hr], by simp [hh], fun h => absurd hh h, hcalls⟩
  | handling f hh hr =>
    have hh : s.handlers = [f] := hh
    have hr : s.conn.socket.reads = [] := hr
    exact ⟨by simp [hr], by simp [hh], fun _ => hr, hcalls⟩
  | finished hh hr =>
    have hh : s.handlers = [] := hh
    have hr : s.conn.socket.reads = [] := hr
    exact ⟨by simp [hr], by simp [hh], fun _ => hr, hcalls⟩

/-- Two packages and the start of a third, that arrive together; the slot returns on the first one and throws on
    the second. -/
theorem serialised_slotThrow :
    ∃ s : Reading Unit,
      s.calls = [.started [5], .ended [5], .started [6, 7], .ended [6, 7]] ∧
      s.conn.socket.reads.length ≤ 1 ∧
      ∃ ended open?, s.calls = callsOf ended open? ∧
        ended ++ open?.toList <+: packages .little s.sent := by
  obtain ⟨s, hr, hc⟩ : ∃ s : Reading Unit, run (step .little) (init Unit)
      [.peerSend [1, 0, 0, 0, 0, 0, 0, 0, 5, 2, 0, 0, 0, 0, 0, 0, 0, 6, 7, 3, 0],
        .readResult 0, .invoke 0, .advance 0 fun _ => 0,
        .readResult 0, .invoke 0, .advance 0 fun _ => 0, .slotReturn 0, .advance 0 fun _ => 0,
        .readResult 0, .invoke 0, .advance 0 fun _ => 0,
        .readResult 0, .invoke 0, .advance 0 fun _ => 0, .slotThrow 0] = some s ∧
      s.calls = [.started [5], .ended [5], .started [6, 7], .ended [6, 7]] := ⟨_, rfl, rfl⟩
  obtain ⟨hreads, -, -, hcalls⟩ := serialised _ hr
  exact ⟨s, hc, hreads, hcalls⟩

end Reading

end Lnetlib
