import Lnetlib.Server.Accept

/-!
# When the accept chain dies

The session in progress hands over to the next one through `wait_next_connection`, which only the success
exit of `connected_handler` reaches. So there is one session, or the accept handler of one running the
slots of `connected` (`Chain`), until the first completion with an error.
-/

namespace Lnetlib

open Transition

namespace Accepting

variable {κ : Type} {s s' : Accepting κ}

/-- The chain of sessions. -/
inductive Chain (s : Accepting κ) : Prop where
  /-- The service was stopped. -/
  | stopped (h : s.server.stopped = true)
  | notStarted (hr : s.server.running = false) (hops : s.server.ops = []) (hs : s.slots = 0)
  /-- A session waits for its client. -/
  | waiting (op : SessionOp) (hr : s.server.running = true) (hops : s.server.ops = [op])
      (hs : s.slots = 0)
  /-- The accept handler runs the slots of `connected`. -/
  | inSlot (hr : s.server.running = true) (hops : s.server.ops = []) (hs : s.slots = 1)

theorem Chain.oneInProgress (h : s.Chain) : s.OneInProgress := by
  intro hr hst hs
  cases h with
  | stopped h =>
    rw [hst] at h
    cases h
  | notStarted hr' =>
    rw [hr] at hr'
    cases hr'
  | waiting op _ hops => exact ⟨op, hops⟩
  | inSlot _ _ hs' => omega

/-- Changing the settings keeps the chain. -/
theorem Chain.congr (h : s.Chain) (hr : s'.server.running = s.server.running)
    (hst : s'.server.stopped = s.server.stopped) (hops : s'.server.ops = s.server.ops)
    (hs : s'.slots = s.slots) : s'.Chain := by
  cases h with
  | stopped h => exact .stopped (hst.trans h)
  | notStarted hr₀ hops₀ hs₀ => exact .notStarted (hr.trans hr₀) (hops.trans hops₀) (hs.trans hs₀)
  | waiting op hr₀ hops₀ hs₀ => exact .waiting op (hr.trans hr₀) (hops.trans hops₀) (hs.trans hs₀)
  | inSlot hr₀ hops₀ hs₀ => exact .inSlot (hr.trans hr₀) (hops.trans hops₀) (hs.trans hs₀)

theorem Chain.start (h : s.Chain) (bound : Option ErrorCode) (hardware : Int) :
    Chain { s with server := s.server.start bound hardware } := by
  rcases s.server.start_cases bound hardware with heq | ⟨code, message, heq⟩ | ⟨hr, count, threads, heq⟩
  · rw [heq]
    exact h
  · rw [heq]
    exact h.congr rfl rfl rfl rfl
  · rw [heq]
    cases h with
    | stopped hst => exact .stopped hst
    | notStarted _ hops hs =>
      have hfirst : s.server.ops ++ [.accept s.server.nextSession] =
          [.accept s.server.nextSession] := by rw [hops]; rfl
      exact .waiting _ rfl hfirst hs
    | waiting _ hr' | inSlot hr' =>
      rw [hr] at hr'
      cases hr'

theorem Chain.slotReturn (h : s.Chain) (hs : 0 < s.slots) :
    Chain { server := s.server.waitNextConnection, slots := s.slots - 1 } := by
  obtain ⟨threads, heq⟩ := s.server.waitNextConnection_eq
  rw [heq]
  cases h with
  | stopped hst => exact .stopped hst
  | notStarted _ _ hs₀ | waiting _ _ _ hs₀ => omega
  | inSlot hr hops hs₀ =>
    have hnext : s.server.ops ++ [.accept s.server.nextSession] =
        [.accept s.server.nextSession] := by rw [hops]; rfl
    refine .waiting _ hr hnext ?_
    show s.slots - 1 = 0
    omega

/-- A completion keeps the chain exactly when it is a success. -/
theorem Chain.complete (h : s.Chain) {i : Nat} {err : ErrorCode}
    (hs : step s (.complete i err) = some s') :
    (err.isError = false → s'.Chain) ∧ (s'.OneInProgress → err.isError = false) := by
  simp only [step] at hs
  split at hs
  · cases hs
  · rename_i hst
    split at hs
    · rename_i op hi
      cases hs
      -- an operation is outstanding, so the session in progress has completed
      obtain ⟨hr, hrest, hslots⟩ : s.server.running = true ∧ s.server.ops.eraseIdx i = [] ∧
          s.slots = 0 := by
        cases h with
        | stopped h => exact absurd h hst
        | notStarted _ hops | inSlot _ hops =>
          rw [hops] at hi
          cases hi
        | waiting op' hr hops hs₀ =>
          refine ⟨hr, ?_, hs₀⟩
          rcases i with _ | i
          · rw [hops]
            rfl
          · rw [hops] at hi
            cases hi
      set server₀ : Server κ := { s.server with ops := s.server.ops.eraseIdx i } with hserver
      rcases Server.sessionHandler_cases op err server₀ with
        ⟨he, hh⟩ | ⟨he, session, hh⟩ | ⟨he, session, hh⟩
      · refine ⟨fun he' => absurd (he'.symm.trans he) Bool.false_ne_true, fun hp => ?_⟩
        -- nothing is left in progress
        simp only [hh] at hp
        have hst' : s.server.stopped = false := by simpa using hst
        obtain ⟨op', hop⟩ := hp hr hst' hslots
        simp only [Server.emit, hserver, hrest] at hop
        cases hop
      · refine ⟨fun _ => ?_, fun _ => he⟩
        simp only [hh]
        exact .waiting (.handshake session) hr (by simp [hserver, hrest]) hslots
      · refine ⟨fun _ => ?_, fun _ => he⟩
        simp only [hh]
        exact .inSlot hr hrest (by simp [hslots])
    · cases hs

/-- A step of a server whose chain lives keeps one session in progress exactly when it is no completion
    with an error. -/
theorem chain_step {a : AcceptAct} (h : s.Chain) (hs : step s a = some s') :
    (s'.OneInProgress ↔ Succeeds s a) ∧ (s'.OneInProgress → s'.Chain) := by
  have hkeep : s'.Chain → Succeeds s a →
      (s'.OneInProgress ↔ Succeeds s a) ∧ (s'.OneInProgress → s'.Chain) := by
    intro hc ha
    exact ⟨⟨fun _ => ha, fun _ => hc.oneInProgress⟩, fun _ => hc⟩
  cases a with
  | setThreadPolicy policy count =>
    cases hs
    refine hkeep ?_ trivial
    unfold Server.setThreadPolicy
    split
    · exact h
    · exact h.congr rfl rfl rfl rfl
  | setEnabled enabled =>
    cases hs
    exact hkeep (h.congr rfl rfl rfl rfl) trivial
  | setLastError lastError =>
    cases hs
    exact hkeep (h.congr rfl rfl rfl rfl) trivial
  | start bound hardware =>
    cases hs
    exact hkeep (h.start bound hardware) trivial
  | stop =>
    cases hs
    refine hkeep ?_ trivial
    unfold Server.stop
    split
    · exact .stopped rfl
    · exact h
  | complete i err =>
    obtain ⟨h1, h2⟩ := h.complete hs
    exact ⟨⟨h2, fun he => (h1 he).oneInProgress⟩, fun hp => h1 (h2 hp)⟩
  | slotReturn =>
    simp only [step] at hs
    split_ifs at hs with hpos
    cases hs
    exact hkeep (h.slotReturn hpos) trivial

/-- **When the accept chain dies.** Exactly one session is in progress throughout a run exactly when no
    accept and no handshake completes with an error. -/
theorem oneInProgress_iff {as : List AcceptAct} (hr : run step (init κ) as = some s) :
    Throughout step OneInProgress (init κ) as ↔ Meets step Succeeds (init κ) as := by
  have h₀ : (init κ).Chain := .notStarted rfl rfl rfl
  exact throughout_iff_meets (I := Chain) (fun _ _ _ hi _ hs => chain_step hi hs) h₀
    h₀.oneInProgress hr

/-- A server with encryption that serves one client waits for the next. -/
theorem oneInProgress_after_client :
    Throughout step OneInProgress (init Unit)
      [.setEnabled true, .start none 4, .complete 0 .success, .complete 0 .success, .slotReturn] := by
  refine (oneInProgress_iff rfl).mpr ?_
  exact ⟨trivial, fun _ _ => ⟨trivial, fun _ _ => ⟨rfl, fun _ _ => ⟨rfl, fun _ _ =>
    ⟨trivial, fun _ _ => trivial⟩⟩⟩⟩⟩

/-- One handshake that fails leaves a running server without a session. -/
theorem handshake_failure_ends_chain :
    ¬ ∀ s : Accepting Unit, Reachable step (init Unit) s → s.OneInProgress := by
  intro hall
  have hr : Reachable step (init Unit) _ :=
    ⟨[.setEnabled true, .start none 4, .complete 0 .success, .complete 0 .sslShortRead], rfl⟩
  obtain ⟨op, hop⟩ := hall _ hr rfl rfl rfl
  cases hop

end Accepting

end Lnetlib
