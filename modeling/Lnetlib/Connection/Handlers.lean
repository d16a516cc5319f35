import Lnetlib.Connection.Model

/-!
# Completions and their handlers

What the io_service does with the operations of a connection: an operation in progress completes with a
result, and later some thread invokes its handler. A read completes with what it has read; it succeeds
with all its bytes only.
-/

namespace Lnetlib

open Bytes

namespace Connection

variable {κ : Type} (o : ByteOrder)

/-- Replace the reads on the socket. -/
def setReads (ops : List ReadOp) (c : Connection κ) : Connection κ :=
  { c with socket := { c.socket with reads := ops } }

/-- Replace the writes on the socket. -/
def setWrites (ops : List WriteOp) (c : Connection κ) : Connection κ :=
  { c with socket := { c.socket with writes := ops } }

/-- The `i`-th read completes. -/
def completeRead (i : Nat) (buffer : List UInt8) (err : ErrorCode) (c : Connection κ) :
    Option (Connection κ) :=
  match c.socket.reads[i]? with
  | some { handler := handler, exactly := exactly, buffer := _, result := none } =>
    if buffer.length ≤ exactly ∧ (err.isError = false → buffer.length = exactly) then
      some (c.setReads (c.socket.reads.set i
        { handler := handler, exactly := exactly, buffer := buffer, result := some err }))
    else none
  | _ => none

/-- The handler of a read, up to the slot or callback it runs, and whether it runs one and so goes on with
    `wait_package()`. -/
def readHandler (junk : Nat → UInt8) (op : ReadOp) (err : ErrorCode) (c : Connection κ) :
    Connection κ × List (Emission κ) × Bool :=
  match op.handler with
  | .readPackageSizeHandler =>
    let (c, emitted) := c.readPackageSizeHandler o op.buffer err op.buffer.length
    (c, emitted, false)
  | .readPackageBodyHandler => c.readPackageBodyHandler o junk op.buffer err op.buffer.length

/-- The handler of the `i`-th read, which has completed, is invoked. -/
def invokeRead (junk : Nat → UInt8) (i : Nat) (c : Connection κ) :
    Option (Connection κ × List (Emission κ) × Bool) :=
  match c.socket.reads[i]? with
  | some { handler := handler, exactly := exactly, buffer := buffer, result := some err } =>
    some ((c.setReads (c.socket.reads.eraseIdx i)).readHandler o junk
      { handler := handler, exactly := exactly, buffer := buffer, result := some err } err)
  | _ => none

/-- The `i`-th write completes. -/
def completeWrite (i : Nat) (err : ErrorCode) (c : Connection κ) : Option (Connection κ) :=
  match c.socket.writes[i]? with
  | some { pkg := pkg, result := none } =>
    some (c.setWrites (c.socket.writes.set i { pkg := pkg, result := some err }))
  | _ => none

/-- The handler of the `i`-th write, which has completed, is invoked. -/
def invokeWrite (i : Nat) (c : Connection κ) : Option (Connection κ × List (Emission κ)) :=
  match c.socket.writes[i]? with
  | some { pkg := _, result := some err } =>
    let c := c.setWrites (c.socket.writes.eraseIdx i)
    let (ok, emitted) := checkError err
    some (if ok then c.writeHandlerLocked else c, emitted)
  | _ => none

/-! ## What they emit -/

/-- Nothing is emitted for a result that is a success or `operation_aborted`. -/
def Silent (err : ErrorCode) : Prop :=
  err.isError = false ∨ err.value = ErrorCode.operationAborted.value

instance (err : ErrorCode) : Decidable (Silent err) := inferInstanceAs (Decidable (_ ∨ _))

theorem checkError_emitted (err : ErrorCode) :
    ((checkError err : Bool × List (Emission κ)).2 = [] ↔ Silent err) ∧
      (checkError err : Bool × List (Emission κ)).2.length ≤ 1 := by
  unfold checkError Silent
  cases h : err.isError with
  | false => simp
  | true =>
    simp only [Bool.not_true, Bool.false_eq_true, if_false]
    split_ifs with h1 <;> simp [h1]

/-- A completed read hands nothing to user code: it was aborted, or it succeeded and is the read of a size
    or has read nothing. -/
def Quiet (op : ReadOp) (err : ErrorCode) : Prop :=
  Silent err ∧ (err.isError = false → op.handler = .readPackageSizeHandler ∨ op.buffer = [])

/-- What the handler of a read does. -/
inductive ReadOutcome (c : Connection κ) (op : ReadOp) (err : ErrorCode) :
    Connection κ × List (Emission κ) × Bool → Prop where
  /-- The handler returns at once, and the connection reads no more. -/
  | ended (h : err.value = ErrorCode.operationAborted.value ∨ err.isError = false ∧ op.buffer = []) :
      ReadOutcome c op err (c, [], false)
  | size (n : UInt64) (h : err.isError = false) (hh : op.handler = .readPackageSizeHandler)
      (hb : op.buffer ≠ []) : ReadOutcome c op err (c.waitPackageBody n, [], false)
  | body (c' : Connection κ) (e : Emission κ) (h : err.isError = false)
      (hh : op.handler = .readPackageBodyHandler) (hb : op.buffer ≠ []) (hs : c'.socket = c.socket)
      (he : (∃ stream, e = .received stream) ∨ ∃ cb stream, e = .callback cb stream) :
      ReadOutcome c op err (c', [e], true)
  | closed (h : err.value = ErrorCode.eof.value ∨ err.value = ErrorCode.sslShortRead.value) :
      ReadOutcome c op err (c, [.closed], false)
  | error (h : ¬ Silent err) : ReadOutcome c op err (c, [.error err.value err.message], false)

/-- The branches of `check_error` for an error. -/
theorem checkError_cases {err : ErrorCode} (h : err.isError = true) :
    (err.value = ErrorCode.operationAborted.value ∧
      (checkError err : Bool × List (Emission κ)) = (false, [])) ∨
    ((err.value = ErrorCode.eof.value ∨ err.value = ErrorCode.sslShortRead.value) ∧
      (checkError err : Bool × List (Emission κ)) = (false, [.closed])) ∨
    (¬ Silent err ∧
      (checkError err : Bool × List (Emission κ)) = (false, [.error err.value err.message])) := by
  unfold checkError Silent
  simp only [h, Bool.not_true, Bool.false_eq_true, if_false, Bool.true_eq_false, false_or]
  split_ifs with h1 h2 h3
  · exact .inl ⟨h1, rfl⟩
  · exact .inr (.inl ⟨.inl h2, rfl⟩)
  · exact .inr (.inl ⟨.inr h3, rfl⟩)
  · exact .inr (.inr ⟨h1, rfl⟩)

theorem readHandler_outcome (junk : Nat → UInt8) (op : ReadOp) (err : ErrorCode) (c : Connection κ) :
    ReadOutcome c op err (c.readHandler o junk op err) := by
  cases he : err.isError with
  | true =>
    -- both handlers return what `check_error` has emitted
    have hboth : ∀ es, (checkError err : Bool × List (Emission κ)) = (false, es) →
        c.readHandler o junk op err = (c, es, false) := by
      intro es hc
      unfold readHandler readPackageSizeHandler readPackageBodyHandler
      rw [hc]
      split <;> rfl
    rcases @checkError_cases κ err he with ⟨hv, hc⟩ | ⟨hv, hc⟩ | ⟨hv, hc⟩
    · rw [hboth _ hc]
      exact .ended (.inl hv)
    · rw [hboth _ hc]
      exact .closed hv
    · rw [hboth _ hc]
      exact .error hv
  | false =>
    have hc : (checkError err : Bool × List (Emission κ)) = (true, []) := checkError_success he
    cases hh : op.handler with
    | readPackageSizeHandler =>
      simp only [readHandler, hh, readPackageSizeHandler, hc, Bool.not_true, Bool.false_eq_true,
        if_false, List.length_eq_zero_iff]
      split_ifs with hb
      · exact .ended (.inr ⟨he, hb⟩)
      · exact .size _ he hh hb
    | readPackageBodyHandler =>
      simp only [readHandler, hh, readPackageBodyHandler, hc, Bool.not_true, Bool.false_eq_true,
        if_false, List.length_eq_zero_iff, List.nil_append]
      split_ifs with hb
      · exact .ended (.inr ⟨he, hb⟩)
      · split
        · exact .body _ _ he hh hb rfl (.inr ⟨_, _, rfl⟩)
        · exact .body _ _ he hh hb rfl (.inl ⟨_, rfl⟩)

/-- The end of the stream, as either kind of socket reports it. -/
theorem readHandler_eof (junk : Nat → UInt8) (op : ReadOp) {err : ErrorCode}
    (h : err = .eof ∨ err = .sslShortRead) (c : Connection κ) :
    c.readHandler o junk op err = (c, [.closed], false) := by
  unfold readHandler
  rcases h with rfl | rfl <;> cases op.handler <;> rfl

/-- The size that was read is the size of the body that is read next. -/
theorem readHandler_size (junk : Nat → UInt8) {op : ReadOp} {err : ErrorCode}
    (hh : op.handler = .readPackageSizeHandler) (herr : err.isError = false) (hb : op.buffer ≠ [])
    (c : Connection κ) :
    c.readHandler o junk op err = (c.waitPackageBody (packageSize o op.buffer), [], false) := by
  have hlen : op.buffer.length ≠ 0 := fun h => hb (List.eq_nil_of_length_eq_zero h)
  unfold readHandler readPackageSizeHandler
  rw [hh, checkError_success herr]
  simp [hlen]

/-- A package is handed to the received slots or to a callback, unless it is empty. -/
theorem readHandler_body (junk : Nat → UInt8) {op : ReadOp}
    (hh : op.handler = .readPackageBodyHandler) (c : Connection κ) :
    (op.buffer = [] ∧ c.readHandler o junk op .success = (c, [], false)) ∨
    (op.buffer ≠ [] ∧ ∃ c' e, c.readHandler o junk op .success = (c', [e], true) ∧
      c'.socket = c.socket ∧
      ((∃ stream, e = .received stream) ∨ ∃ cb stream, e = .callback cb stream)) := by
  have hout := readHandler_outcome o junk op .success c
  generalize c.readHandler o junk op .success = r at hout ⊢
  cases hout with
  | ended h =>
    rcases h with h | ⟨-, hb⟩
    · cases h
    · exact .inl ⟨hb, rfl⟩
  | size n h hh' =>
    rw [hh] at hh'
    cases hh'
  | body c' e _ _ hb hs he => exact .inr ⟨hb, c', e, rfl, hs, he⟩
  | closed h =>
    rcases h with h | h <;> cases h
  | error h => exact absurd (.inl rfl) h

theorem readHandler_emitted (junk : Nat → UInt8) (op : ReadOp) (err : ErrorCode) (c : Connection κ) :
    ((c.readHandler o junk op err).2.1 = [] ↔ Quiet op err) ∧
      (c.readHandler o junk op err).2.1.length ≤ 1 := by
  have hloud : ∀ {e : Emission κ}, ¬ Quiet op err → ([e] = [] ↔ Quiet op err) := by
    intro e hq
    exact ⟨fun h => absurd h (List.cons_ne_nil e []), fun h => absurd h hq⟩
  have hout := readHandler_outcome o junk op err c
  generalize c.readHandler o junk op err = r at hout ⊢
  cases hout with
  | ended h =>
    refine ⟨⟨fun _ => ?_, fun _ => rfl⟩, Nat.zero_le 1⟩
    rcases h with h | ⟨he, hb⟩
    · refine ⟨.inr h, fun he => absurd h ?_⟩
      have : err.value = 0 := by simpa [ErrorCode.isError] using he
      rw [this]
      decide
    · exact ⟨.inl he, fun _ => .inr hb⟩
  | size n he hh hb => exact ⟨⟨fun _ => ⟨.inl he, fun _ => .inl hh⟩, fun _ => rfl⟩, Nat.zero_le 1⟩
  | body c' e he hh hb =>
    refine ⟨hloud ?_, Nat.le_refl 1⟩
    rintro ⟨-, hq⟩
    rcases hq he with h | h
    · rw [hh] at h
      cases h
    · exact hb h
  | closed h =>
    refine ⟨hloud ?_, Nat.le_refl 1⟩
    rintro ⟨hs | hs, -⟩
    · rcases h with h | h <;> simp [ErrorCode.isError, h, ErrorCode.eof, ErrorCode.sslShortRead] at hs
    · rcases h with h | h <;>
        simp [h, ErrorCode.eof, ErrorCode.sslShortRead, ErrorCode.operationAborted] at hs
  | error h => exact ⟨hloud fun hq => h hq.1, Nat.le_refl 1⟩

theorem invokeRead_eq_some {junk : Nat → UInt8} {i : Nat} {c : Connection κ}
    {r : Connection κ × List (Emission κ) × Bool} (h : c.invokeRead o junk i = some r) :
    ∃ op err, c.socket.reads[i]? = some op ∧ op.result = some err ∧
      r = (c.setReads (c.socket.reads.eraseIdx i)).readHandler o junk op err := by
  unfold invokeRead at h
  split at h
  · rename_i handler exactly buffer err hi
    exact ⟨_, err, hi, rfl, (Option.some.inj h).symm⟩
  · cases h

theorem invokeRead_emitted {junk : Nat → UInt8} {i : Nat} {c c' : Connection κ}
    {emitted : List (Emission κ)} {goesOn : Bool}
    (h : c.invokeRead o junk i = some (c', emitted, goesOn)) : emitted.length ≤ 1 := by
  obtain ⟨op, err, -, -, heq⟩ := invokeRead_eq_some o h
  have hle := (readHandler_emitted o junk op err (c.setReads (c.socket.reads.eraseIdx i))).2
  rwa [← heq] at hle

/-! ## What they leave alone -/

theorem completeRead_eq_some {i : Nat} {buffer : List UInt8} {err : ErrorCode} {c c' : Connection κ}
    (h : c.completeRead i buffer err = some c') :
    ∃ op, c.socket.reads[i]? = some op ∧ op.result = none ∧
      c' = c.setReads (c.socket.reads.set i { op with buffer := buffer, result := some err }) := by
  unfold completeRead at h
  split at h
  · rename_i handler exactly buffer' hi
    split_ifs at h
    exact ⟨_, hi, rfl, (Option.some.inj h).symm⟩
  · cases h

theorem completeWrite_eq_some {i : Nat} {err : ErrorCode} {c c' : Connection κ}
    (h : c.completeWrite i err = some c') : ∃ ops, c' = c.setWrites ops := by
  unfold completeWrite at h
  split at h
  · exact ⟨_, (Option.some.inj h).symm⟩
  · cases h

/-- `close()` ends the operations in progress on an open socket, or it throws. -/
theorem close_cases (shutdown : ErrorCode) (c : Connection κ) :
    (c.socket.isOpen = true ∧ shutdown.isError = false ∧ ∃ ops, c.close shutdown = .ok ({ c with
        socket :=
          { isOpen := false
            reads := c.socket.reads.map fun op =>
              { op with result := op.result <|> some ErrorCode.operationAborted }
            writes := ops } }, [.closed])) ∨
    ((c.socket.isOpen = false ∨ shutdown.isError = true) ∧ ∃ e, c.close shutdown = .error e) := by
  unfold close Socket.close
  cases c.socket.isOpen with
  | false => exact .inr ⟨.inl rfl, _, rfl⟩
  | true =>
    cases shutdown.isError with
    | true => exact .inr ⟨.inr rfl, _, rfl⟩
    | false => exact .inl ⟨rfl, rfl, _, rfl⟩

/-- The dispatch slot changes the writes and what belongs to them. -/
theorem dispatchLocked_eq (pkg : Package) (c : Connection κ) : ∃ locked packages ops,
    c.dispatchLocked pkg = setWrites ops { c with socketLocked := locked, packages := packages } := by
  unfold dispatchLocked
  split_ifs
  · exact ⟨c.socketLocked, c.packages ++ [pkg], c.socket.writes, rfl⟩
  · exact ⟨true, c.packages, (c.socket.asyncWrite pkg).writes, rfl⟩

/-- And so does the handler of a write. -/
theorem writeHandlerLocked_eq (c : Connection κ) : ∃ locked packages ops,
    c.writeHandlerLocked = setWrites ops { c with socketLocked := locked, packages := packages } := by
  unfold writeHandlerLocked
  split
  · rename_i pkg packages _
    exact ⟨true, packages, (c.socket.asyncWrite pkg).writes, rfl⟩
  · exact ⟨false, c.packages, c.socket.writes, rfl⟩

/-- The handler of a write emits what `check_error` does. -/
theorem invokeWrite_spec {i : Nat} {c c' : Connection κ} {emitted : List (Emission κ)}
    (h : c.invokeWrite i = some (c', emitted)) :
    ∃ op err, c.socket.writes[i]? = some op ∧ op.result = some err ∧ emitted = (checkError err).2 ∧
      ∃ locked packages ops,
        c' = setWrites ops { c with socketLocked := locked, packages := packages } := by
  unfold invokeWrite at h
  split at h
  · rename_i pkg err hi
    refine ⟨_, err, hi, rfl, ?_⟩
    generalize (checkError err : Bool × List (Emission κ)) = r at h ⊢
    obtain ⟨ok, es⟩ := r
    cases ok with
    | true =>
      cases h
      obtain ⟨locked, packages, ops, heq⟩ :=
        (c.setWrites (c.socket.writes.eraseIdx i)).writeHandlerLocked_eq
      exact ⟨rfl, locked, packages, ops, heq⟩
    | false =>
      cases h
      exact ⟨rfl, c.socketLocked, c.packages, _, rfl⟩
  · cases h

end Connection

end Lnetlib
