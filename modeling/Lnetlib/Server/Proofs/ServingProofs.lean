import Lnetlib.Server.Serving

/-!
# When a running server serves

A server that can be started serves as soon as it is started, and then hands over from session to session
(`Stage`). `stop` leaves a stopped service behind, on which no later start serves, and a completion with an
error leaves a running server without a session.
-/

namespace Lnetlib

open Transition

namespace Serving

variable {κ : Type} {s s' : Serving κ}

/-- What a server that serves has come to. -/
inductive Stage (s : Serving κ) : Prop where
  | idle (hr : s.server.running = false) (hst : s.server.stopped = false) (hops : s.server.ops = [])
      (hs : s.accepting.slots = 0)
  /-- A session waits for its client. -/
  | waiting (op : SessionOp) (hr : s.server.running = true) (hst : s.server.stopped = false)
      (hops : s.server.ops = [op]) (hs : s.accepting.slots = 0) (hfirst : s.first ≤ op.session)
  /-- The accept handler runs the slots of `connected`. -/
  | inSlot (hr : s.server.running = true) (hst : s.server.stopped = false) (hops : s.server.ops = [])
      (hs : s.accepting.slots = 1)
  /-- The service was stopped. -/
  | stopped (hr : s.server.running = false) (hst : s.server.stopped = true)

/-- The stage, and the sessions of the latest start are the last ones. -/
structure Inv (s : Serving κ) : Prop where
  stage : s.Stage
  first_le : s.first ≤ s.server.nextSession

theorem init_inv : (init κ).Inv := { stage := .idle rfl rfl rfl rfl, first_le := Nat.le_refl 0 }

theorem reallyServes_of_up (hr : s.server.running = true) (h : s.Up) : s.ReallyServes where
  running := fun _ => h
  start := by
    intro hr'
    rw [hr] at hr'
    cases hr'

theorem Up.waiting {op : SessionOp} (hst : s.server.stopped = false) (hops : s.server.ops = [op])
    (hfirst : s.first ≤ op.session) : s.Up :=
  ⟨hst, fun _ => ⟨op, by rw [hops]; exact List.mem_singleton.mpr rfl, hfirst⟩⟩

/-- A step is one of the accept chain. -/
theorem accepting_step {a : AcceptAct} (hs : s.step a = some s') :
    s.accepting.step a = some s'.accepting := by
  obtain ⟨accepting, hacc, rfl⟩ := Option.map_eq_some_iff.mp hs
  exact hacc

/-- A step that only acts on the server. -/
theorem server_of_step {a : AcceptAct} {f : Server κ} (hs : s.step a = some s')
    (hf : s.accepting.step a = some { s.accepting with server := f }) :
    s'.server = f ∧ s'.accepting.slots = s.accepting.slots := by
  have hacc : { s.accepting with server := f } = s'.accepting :=
    Option.some.inj (hf.symm.trans (accepting_step hs))
  rw [server, ← hacc]
  exact ⟨rfl, rfl⟩

/-- What a `start` past the guards comes to. -/
theorem start_past (hr : s.server.running = false) {server : Server κ} {hardware : Int}
    {bound : Option ErrorCode} (hst : s.server.start bound hardware = server)
    (hrun : server.running = true) (hs : s.step (.start bound hardware) = some s') :
    s'.accepting.server = server ∧ s'.accepting.slots = s.accepting.slots ∧
      s'.first = s.server.nextSession := by
  subst hst
  obtain ⟨accepting, hacc, rfl⟩ := Option.map_eq_some_iff.mp hs
  cases hacc
  exact ⟨rfl, rfl, if_pos ⟨hr, hrun⟩⟩

theorem start_none (hr : s.server.running = false) (hl : s.server.encryption.lastError = "")
    (hardware : Int) : ∃ count threads, s.server.start none hardware =
      { { s.server with running := true }.createSession with
        threadCount := count
        serviceThreads := threads } := by
  have hr' : ¬ s.server.running = true := by simp [hr]
  have hl' : ¬ s.server.encryption.lastError ≠ "" := by simp [hl]
  unfold Server.start
  rw [if_neg hr', if_neg hl']
  exact Server.waitFirstConnection_eq hardware { s.server with running := true }

/-- A start on a service that runs brings the server up. -/
theorem idle_reallyServes (hr : s.server.running = false) (hst : s.server.stopped = false)
    (hops : s.server.ops = []) : s.ReallyServes where
  running := by
    intro hr'
    rw [hr] at hr'
    cases hr'
  start := by
    intro _ hl hardware s' hs
    obtain ⟨count, threads, heq⟩ := start_none hr hl hardware
    obtain ⟨hserver, -, hfirst⟩ := start_past hr heq rfl hs
    have hst' : s'.server.stopped = false := by
      rw [server, hserver]
      exact hst
    have hops' : s'.server.ops = [.accept s.server.nextSession] := by
      rw [server, hserver]
      show s.server.ops ++ [.accept s.server.nextSession] = _
      rw [hops]
      rfl
    refine ⟨?_, Up.waiting hst' hops' (Nat.le_of_eq hfirst)⟩
    rw [server, hserver]
    rfl

/-- On a stopped service a start does not. -/
theorem stopped_reallyServes_iff (hr : s.server.running = false) (hst : s.server.stopped = true) :
    s.ReallyServes ↔ s.server.encryption.lastError ≠ "" := by
  constructor
  · intro h hl
    obtain ⟨count, threads, heq⟩ := start_none hr hl 0
    obtain ⟨s', hs⟩ : ∃ s', s.step (.start none 0) = some s' := ⟨_, rfl⟩
    obtain ⟨hserver, -, -⟩ := start_past hr heq rfl hs
    have hst' : s'.server.stopped = false := (h.start hr hl 0 s' hs).2.1
    rw [server, hserver] at hst'
    rw [show s.server.stopped = false from hst'] at hst
    cases hst
  · intro hl
    refine { running := fun hr' => ?_, start := fun _ hl' => absurd hl' hl }
    rw [hr] at hr'
    cases hr'

/-- Between the stages, a server serves unless it was stopped. -/
theorem Stage.reallyServes_iff (h : s.Stage) :
    s.ReallyServes ↔ (s.server.stopped = true → s.server.encryption.lastError ≠ "") := by
  have hup : s.server.stopped = false → s.ReallyServes →
      (s.ReallyServes ↔ (s.server.stopped = true → s.server.encryption.lastError ≠ "")) := by
    intro hst hP
    refine ⟨fun _ hst' => ?_, fun _ => hP⟩
    rw [hst] at hst'
    cases hst'
  cases h with
  | idle hr hst hops => exact hup hst (idle_reallyServes hr hst hops)
  | waiting op hr hst hops hs hfirst =>
    exact hup hst (reallyServes_of_up hr (Up.waiting hst hops hfirst))
  | inSlot hr hst hops hs =>
    refine hup hst (reallyServes_of_up hr ⟨hst, fun h0 => ?_⟩)
    omega
  | stopped hr hst =>
    rw [stopped_reallyServes_iff hr hst]
    exact ⟨fun hl _ => hl, fun hl => hl hst⟩

/-! ## Steps -/

/-- A step that leaves the accept chain alone. -/
theorem Inv.congr (h : s.Inv) (hr : s'.server.running = s.server.running)
    (hst : s'.server.stopped = s.server.stopped) (hops : s'.server.ops = s.server.ops)
    (hs : s'.accepting.slots = s.accepting.slots)
    (hn : s'.server.nextSession = s.server.nextSession) (hfirst : s'.first = s.first) : s'.Inv where
  stage := by
    cases h.stage with
    | idle hr₀ hst₀ hops₀ hs₀ =>
      exact .idle (hr.trans hr₀) (hst.trans hst₀) (hops.trans hops₀) (hs.trans hs₀)
    | waiting op hr₀ hst₀ hops₀ hs₀ hf₀ =>
      exact .waiting op (hr.trans hr₀) (hst.trans hst₀) (hops.trans hops₀) (hs.trans hs₀)
        (hfirst ▸ hf₀)
    | inSlot hr₀ hst₀ hops₀ hs₀ =>
      exact .inSlot (hr.trans hr₀) (hst.trans hst₀) (hops.trans hops₀) (hs.trans hs₀)
    | stopped hr₀ hst₀ => exact .stopped (hr.trans hr₀) (hst.trans hst₀)
  first_le := by
    rw [hfirst, hn]
    exact h.first_le

/-- `first` changes with `_running` only. -/
theorem first_eq {a : AcceptAct} (hs : s.step a = some s')
    (hr : s.server.running = false → s'.server.running = false) : s'.first = s.first := by
  obtain ⟨accepting, -, rfl⟩ := Option.map_eq_some_iff.mp hs
  refine if_neg ?_
  rintro ⟨hf, ht⟩
  rw [show accepting.server.running = false from hr hf] at ht
  cases ht

theorem start_pending (hr : s.server.running = false) (hl : s.server.encryption.lastError ≠ "")
    (bound : Option ErrorCode) (hardware : Int) : s.server.start bound hardware =
      s.server.emit (.error none (-1) s.server.encryption.lastError) := by
  have hr' : ¬ s.server.running = true := by simp [hr]
  unfold Server.start
  rw [if_neg hr', if_pos hl]

theorem start_step (h : s.Inv) (hP : s.ReallyServes) {bound : Option ErrorCode} {hardware : Int}
    (hs : s.step (.start bound hardware) = some s') : s'.ReallyServes ∧ s'.Inv := by
  obtain ⟨hserver, hslots⟩ := server_of_step (f := s.server.start bound hardware) hs rfl
  have hP' := h.stage.reallyServes_iff.mp hP
  -- a start that starts nothing
  have hkeep : ∀ server, s.server.start bound hardware = server →
      server.running = s.server.running → server.stopped = s.server.stopped →
      server.ops = s.server.ops → server.nextSession = s.server.nextSession →
      server.encryption = s.server.encryption → s'.ReallyServes ∧ s'.Inv := by
    intro server hst hr hstop hops hn henc
    rw [hst] at hserver
    have hi : s'.Inv := by
      refine h.congr (by rw [hserver, hr]) (by rw [hserver, hstop]) (by rw [hserver, hops]) hslots
        (by rw [hserver, hn]) (first_eq hs fun hf => ?_)
      rw [hserver, hr]
      exact hf
    refine ⟨hi.stage.reallyServes_iff.mpr ?_, hi⟩
    rw [hserver, hstop, henc]
    exact hP'
  rcases s.server.start_cases bound hardware with heq | ⟨code, message, heq⟩ | ⟨hr, count, threads, heq⟩
  · exact hkeep _ heq rfl rfl rfl rfl rfl
  · exact hkeep _ heq rfl rfl rfl rfl rfl
  · obtain ⟨-, -, hfirst⟩ := start_past hr heq rfl hs
    rw [heq] at hserver
    have hst : s'.server.stopped = s.server.stopped := by rw [hserver]; rfl
    cases h.stage with
    | waiting _ hr' | inSlot hr' =>
      rw [hr] at hr'
      cases hr'
    | stopped _ hst' =>
      -- with a pending error nothing is started
      exact hkeep _ (start_pending hr (hP' hst') bound hardware) rfl rfl rfl rfl rfl
    | idle _ hst' hops hs₀ =>
      have hops' : s'.server.ops = [.accept s.server.nextSession] := by
        rw [hserver]
        show s.server.ops ++ [.accept s.server.nextSession] = _
        rw [hops]
        rfl
      have hi : s'.Inv :=
        { stage := .waiting _ (by rw [hserver]; rfl) (hst.trans hst') hops' (hslots.trans hs₀)
            (Nat.le_of_eq hfirst)
          first_le := by
            rw [hfirst, hserver]
            exact Nat.le_succ _ }
      refine ⟨hi.stage.reallyServes_iff.mpr fun hst₁ => ?_, hi⟩
      rw [hst, hst'] at hst₁
      cases hst₁

/-- The handler of a session can only start an operation of that session. -/
theorem sessionHandler_ops {op op' : SessionOp} {err : ErrorCode} {server : Server κ}
    (h : op' ∈ (server.sessionHandler op err).1.ops) :
    op' ∈ server.ops ∨ op'.session = op.session := by
  have hready : ∀ session, (server.sessionReady session err).1.ops = server.ops := by
    intro session
    unfold Server.sessionReady Server.makeConnection Server.connectedHandler
    cases err.isError with
    | true => rfl
    | false => rfl
  unfold Server.sessionHandler at h
  split at h
  · rename_i session
    split at h
    · rw [hready] at h
      exact .inl h
    · unfold Server.sslAcceptHandler Server.connectedHandler at h
      cases he : err.isError with
      | true =>
        simp only [he, if_true] at h
        exact .inl h
      | false =>
        simp only [he, Bool.false_eq_true, if_false] at h
        rcases List.mem_append.mp h with h | h
        · exact .inl h
        · obtain rfl := List.mem_singleton.mp h
          exact .inr rfl
  · rw [hready] at h
    exact .inl h

theorem complete_spec {i : Nat} {err : ErrorCode} (hs : s.step (.complete i err) = some s') :
    ∃ op, s.server.ops[i]? = some op ∧ s.server.stopped = false ∧
      s'.server = ({ s.server with ops := s.server.ops.eraseIdx i }.sessionHandler op err).1 ∧
      s'.accepting.slots =
        if ({ s.server with ops := s.server.ops.eraseIdx i }.sessionHandler op err).2
        then s.accepting.slots + 1 else s.accepting.slots := by
  obtain ⟨accepting, hacc, rfl⟩ := Option.map_eq_some_iff.mp hs
  simp only [Accepting.step] at hacc
  split_ifs at hacc with hst
  split at hacc
  · rename_i op hi
    cases hacc
    exact ⟨op, hi, eq_false_of_ne_true hst, rfl, rfl⟩
  · cases hacc

/-- A completion of the chain keeps the server up exactly when it is a success. -/
theorem complete_step (h : s.Inv) {i : Nat} {err : ErrorCode}
    (hs : s.step (.complete i err) = some s') :
    (s'.ReallyServes ↔ err.isError = false) ∧ (s'.ReallyServes → s'.Inv) := by
  obtain ⟨op, hi, hst, hserver, hslots'⟩ := complete_spec hs
  -- the session in progress has completed
  obtain ⟨hr, hops, hslots, hfirst⟩ : s.server.running = true ∧ s.server.ops.eraseIdx i = [] ∧
      s.accepting.slots = 0 ∧ s.first ≤ op.session := by
    cases h.stage with
    | idle _ _ hops | inSlot _ _ hops =>
      rw [hops] at hi
      cases hi
    | waiting op' hr _ hops hs₀ hf =>
      rw [hops] at hi ⊢
      cases i with
      | zero =>
        cases hi
        exact ⟨hr, rfl, hs₀, hf⟩
      | succ i => cases hi
    | stopped _ hst' =>
      rw [hst] at hst'
      cases hst'
  have hfirst' : s'.first = s.first := by
    refine first_eq hs fun hf => ?_
    rw [hr] at hf
    cases hf
  set server₀ : Server κ := { s.server with ops := s.server.ops.eraseIdx i } with hserver₀
  have hkeep : s'.Stage → s'.server.stopped = false →
      s'.server.nextSession = s.server.nextSession → err.isError = false →
      (s'.ReallyServes ↔ err.isError = false) ∧ (s'.ReallyServes → s'.Inv) := by
    intro hstage hst' hn he
    refine ⟨⟨fun _ => he, fun _ => hstage.reallyServes_iff.mpr fun hst₁ => ?_⟩, fun _ => ?_⟩
    · rw [hst'] at hst₁
      cases hst₁
    · refine { stage := hstage, first_le := ?_ }
      rw [hfirst', hn]
      exact h.first_le
  rcases Server.sessionHandler_cases op err server₀ with
    ⟨he, hh⟩ | ⟨he, session, hh⟩ | ⟨he, session, hh⟩
  · -- nothing is left in progress on a server that runs
    have hdown : ¬ s'.ReallyServes := by
      intro hP
      rw [hh] at hserver hslots'
      obtain ⟨op', hop, -⟩ := (hP.running (by rw [hserver]; exact hr)).2 (hslots'.trans hslots)
      rw [hserver, show (server₀.emit _).ops = [] from hops] at hop
      cases hop
    refine ⟨⟨fun hP => absurd hP hdown, fun he' => ?_⟩, fun hP => absurd hP hdown⟩
    rw [he] at he'
    cases he'
  · -- the handshake belongs to the same session
    have hmem : .handshake session ∈ (server₀.sessionHandler op err).1.ops := by
      rw [hh]
      exact List.mem_append_right _ (List.mem_singleton.mpr rfl)
    have hsession : session = op.session := by
      rcases sessionHandler_ops hmem with hold | hsame
      · rw [show server₀.ops = [] from hops] at hold
        cases hold
      · exact hsame
    rw [hh] at hserver hslots'
    have hops' : s'.server.ops = [.handshake session] := by
      rw [hserver]
      show server₀.ops ++ [.handshake session] = _
      rw [show server₀.ops = [] from hops]
      rfl
    have hst' : s'.server.stopped = false := by rw [hserver]; exact hst
    have hle : s'.first ≤ (SessionOp.handshake session).session := by
      rw [hfirst', show (SessionOp.handshake session).session = op.session from hsession]
      exact hfirst
    exact hkeep (.waiting _ (by rw [hserver]; exact hr) hst' hops' (hslots'.trans hslots) hle) hst'
      (by rw [hserver]) he
  · rw [hh] at hserver hslots'
    have hst' : s'.server.stopped = false := by rw [hserver]; exact hst
    have hops' : s'.server.ops = [] := by rw [hserver]; exact hops
    have hone : s'.accepting.slots = 1 := by
      rw [hslots', hslots]
      rfl
    exact hkeep (.inSlot (by rw [hserver]; exact hr) hst' hops' hone) hst' (by rw [hserver]; rfl) he

theorem slotReturn_step (h : s.Inv) (hP : s.ReallyServes) (hs : s.step .slotReturn = some s') :
    s'.ReallyServes ∧ s'.Inv := by
  have hP' := h.stage.reallyServes_iff.mp hP
  obtain ⟨threads, heq⟩ := s.server.waitNextConnection_eq
  obtain ⟨hpos, hserver, hslots⟩ : 0 < s.accepting.slots ∧
      s'.server = s.server.waitNextConnection ∧ s'.accepting.slots = s.accepting.slots - 1 := by
    obtain ⟨accepting, hacc, rfl⟩ := Option.map_eq_some_iff.mp hs
    simp only [Accepting.step] at hacc
    split_ifs at hacc with hpos
    cases hacc
    exact ⟨hpos, rfl, rfl⟩
  rw [heq] at hserver
  have hr : s'.server.running = s.server.running := by rw [hserver]; rfl
  have hst : s'.server.stopped = s.server.stopped := by rw [hserver]; rfl
  have hfirst : s'.first = s.first := first_eq hs fun hf => hr.trans hf
  have hle : s'.first ≤ s.server.nextSession := hfirst ▸ h.first_le
  have hi : s'.Inv := by
    refine { stage := ?_, first_le := ?_ }
    · cases h.stage with
      | idle _ _ _ hs₀ | waiting _ _ _ _ hs₀ => omega
      | inSlot hr₀ hst₀ hops₀ hs₀ =>
        have hops : s'.server.ops = [.accept s.server.nextSession] := by
          rw [hserver]
          show s.server.ops ++ [.accept s.server.nextSession] = _
          rw [hops₀]
          rfl
        exact .waiting _ (hr.trans hr₀) (hst.trans hst₀) hops (by omega) hle
      | stopped hr₀ hst₀ => exact .stopped (hr.trans hr₀) (hst.trans hst₀)
    · rw [hserver]
      exact Nat.le_succ_of_le hle
  refine ⟨hi.stage.reallyServes_iff.mpr ?_, hi⟩
  rw [hst, hserver]
  exact hP'

/-- A server that was running is left with a stopped service. -/
theorem stop_step (h : s.Inv) (hP : s.ReallyServes) (hs : s.step .stop = some s') :
    (s'.ReallyServes ↔ s.NeverStopped .stop) ∧ s'.Inv := by
  obtain ⟨hserver, hslots⟩ := server_of_step (f := s.server.stop) hs rfl
  unfold Server.stop at hserver
  split_ifs at hserver with hr
  · have hfirst : s'.first = s.first := by
      refine first_eq hs fun hf => ?_
      rw [hserver]
    have hst : s'.server.stopped = true := by rw [hserver]
    have hi : s'.Inv :=
      { stage := .stopped (by rw [hserver]) hst
        first_le := by
          rw [hfirst, hserver]
          exact h.first_le }
    refine ⟨hi.stage.reallyServes_iff.trans ?_, hi⟩
    rw [hserver]
    exact ⟨fun hl _ => hl rfl, fun hC _ => hC hr⟩
  · have hfirst : s'.first = s.first := by
      refine first_eq hs fun hf => ?_
      rw [hserver]
      exact hf
    have hi := h.congr (by rw [hserver]) (by rw [hserver]) (by rw [hserver]) hslots (by rw [hserver])
      hfirst
    refine ⟨hi.stage.reallyServes_iff.trans ?_, hi⟩
    rw [hserver, ← h.stage.reallyServes_iff]
    exact ⟨fun _ hr' => absurd hr' hr, fun _ => hP⟩

theorem setThreadPolicy_eq (policy : ServerThreadPolicy) (count : Int) (server : Server κ) :
    ∃ policy' count', server.setThreadPolicy policy count =
      { server with threadPolicy := policy', threadCount := count' } := by
  unfold Server.setThreadPolicy
  split_ifs
  · exact ⟨server.threadPolicy, server.threadCount, rfl⟩
  · exact ⟨policy, count, rfl⟩

/-- A setting leaves the chain alone. -/
theorem setting_step {a : AcceptAct} {f : Server κ} (h : s.Inv)
    (ha : s.accepting.step a = some { s.accepting with server := f })
    (hr : f.running = s.server.running) (hst : f.stopped = s.server.stopped)
    (hops : f.ops = s.server.ops) (hn : f.nextSession = s.server.nextSession)
    (hs : s.step a = some s') :
    (s'.ReallyServes ↔ (s.server.stopped = true → f.encryption.lastError ≠ "")) ∧ s'.Inv := by
  obtain ⟨rfl, hslots⟩ := server_of_step hs ha
  have hi : s'.Inv := h.congr hr hst hops hslots hn (first_eq hs fun hf => hr.trans hf)
  refine ⟨?_, hi⟩
  rw [hi.stage.reallyServes_iff, hst]

/-- A step keeps a server serving exactly when it is no failed completion and does not stop it. -/
theorem reallyServes_step {a : AcceptAct} (h : s.Inv) (hP : s.ReallyServes) (hs : s.step a = some s') :
    (s'.ReallyServes ↔ s.NeverStopped a) ∧ (s'.ReallyServes → s'.Inv) := by
  cases a with
  | setThreadPolicy policy count =>
    obtain ⟨policy', count', heq⟩ := setThreadPolicy_eq policy count s.server
    have ha : s.accepting.step (.setThreadPolicy policy count) = some { s.accepting with
        server := { s.server with threadPolicy := policy', threadCount := count' } } := by
      show some { s.accepting with server := s.server.setThreadPolicy policy count } = _
      rw [heq]
    obtain ⟨hiff, hi⟩ := setting_step h ha rfl rfl rfl rfl hs
    rw [← h.stage.reallyServes_iff] at hiff
    exact ⟨⟨fun _ => trivial, fun _ => hiff.mpr hP⟩, fun _ => hi⟩
  | setEnabled enabled =>
    obtain ⟨hiff, hi⟩ := setting_step (f := s.server.setEnabled enabled) h rfl rfl rfl rfl rfl hs
    exact ⟨⟨fun _ => trivial, fun _ => hiff.mpr (h.stage.reallyServes_iff.mp hP)⟩, fun _ => hi⟩
  | setLastError lastError =>
    obtain ⟨hiff, hi⟩ := setting_step (f := s.server.setLastError lastError) h rfl rfl rfl rfl rfl hs
    refine ⟨hiff.trans ⟨fun hC hl => ?_, fun hC hst hl => ?_⟩, fun _ => hi⟩
    · by_contra hst
      exact hC (by simpa using hst) hl
    · rw [hC hl] at hst
      cases hst
  | start bound hardware =>
    obtain ⟨hP', hi⟩ := start_step h hP hs
    exact ⟨⟨fun _ => trivial, fun _ => hP'⟩, fun _ => hi⟩
  | stop =>
    obtain ⟨hiff, hi⟩ := stop_step h hP hs
    exact ⟨hiff, fun _ => hi⟩
  | complete i err => exact complete_step h hs
  | slotReturn =>
    obtain ⟨hP', hi⟩ := slotReturn_step h hP hs
    exact ⟨⟨fun _ => trivial, fun _ => hP'⟩, fun _ => hi⟩

/-- **When a running server serves.** It serves whenever it is running, and can be started whenever it is
    not, throughout a run exactly when no accept and no handshake fails and no running server is stopped. -/
theorem reallyServes_iff_neverStopped {as : List AcceptAct} (hr : run step (init κ) as = some s) :
    Throughout step ReallyServes (init κ) as ↔ Meets step NeverStopped (init κ) as := by
  refine throughout_iff_meets (fun _ _ _ hi hP hs => reallyServes_step hi hP hs) init_inv ?_ hr
  exact idle_reallyServes rfl rfl rfl

/-- A start that cannot bind its address, and then one that can, with a client. -/
theorem reallyServes_second_start :
    ∃ s : Serving Unit, run step (init Unit)
        [.setThreadPolicy .fixedCount 2, .start (some .badDescriptor) 4, .stop, .start none 4,
          .complete 0 .success, .slotReturn, .start none 4] = some s ∧
      Throughout step ReallyServes (init Unit)
        [.setThreadPolicy .fixedCount 2, .start (some .badDescriptor) 4, .stop, .start none 4,
          .complete 0 .success, .slotReturn, .start none 4] :=
  ⟨_, rfl, (reallyServes_iff_neverStopped rfl).mpr (by decide +kernel)⟩

/-- A server that was stopped and is started again runs on a stopped service. -/
theorem restarted_server_is_stopped :
    ¬ ∀ s : Serving Unit, Reachable step (init Unit) s → s.ReallyServes := by
  intro hall
  obtain ⟨s, hr, hs⟩ : ∃ s : Serving Unit, run step (init Unit)
      [.start none 4, .stop, .start none 4] = some s ∧
      (s.server.running, s.server.stopped) = (true, true) := Option.map_eq_some_iff.mp rfl
  obtain ⟨hrunning, hst⟩ := Prod.mk.inj hs
  have hst' := ((hall s ⟨_, hr⟩).running hrunning).1
  rw [hst] at hst'
  cases hst'

end Serving

end Lnetlib
