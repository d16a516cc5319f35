import Lnetlib.Server.Ownership

/-!
# The calls on the stacks of the threads

What holds of the stacks in every state, whoever owns the connections. A slot of a server signal runs for a
call that owns its connection too (`Nested`), a slot that is not connected is awaited by the
`connected_handler` of its connection, and every connection a call owns was made (`Shape`).
-/

namespace Lnetlib

open Bytes Transition

namespace Ownership

variable {κ : Type} {o : ByteOrder} {s s' : Ownership κ} {t conn : Nat} {stack stack' rest : List CallFrame}
  {f : CallFrame}

/-- The slots that the server has still to connect. -/
def awaits : AddPc → ConnectionSignal → Bool
  | .connectClosed, _ => true
  | .connectError, sig => decide (sig ≠ .closed)
  | .connectReceived, sig => decide (sig = .received)
  | .register, _ | .unlock, _ | .waitNextConnection, _ => false

/-- The call has still to connect the slot to a signal of a connection. -/
def connects (f : CallFrame) (conn : Nat) (sig : ConnectionSignal) : Bool :=
  match f with
  | .accept conn' _ pc => decide (conn' = conn) && awaits pc sig
  | _ => false

/-- The call has not called user code or a slot yet. -/
def fresh : CallFrame → Bool
  | .accept _ _ pc => awaits pc .received
  | .call _ _ | .serverCall _ _ => true
  | _ => false

/-- An argument that the caller has passed on, and that it owns as well. -/
def lent : CallFrame → Option Nat
  | .serverCall _ arg | .userSlot arg => arg
  | _ => none

/-- The slots of a server signal run for a caller that owns the connection too, and nothing runs on top of
    a call that is fresh. -/
def Nested : List CallFrame → Prop
  | [] => True
  | f :: rest => (∀ conn ∈ lent f, ∃ g ∈ rest, g.arg = some conn) ∧
      (∀ g ∈ rest, fresh g = false) ∧ Nested rest

theorem connects_of_not_fresh (hf : fresh f = false) (conn : Nat) (sig : ConnectionSignal) :
    connects f conn sig = false := by
  cases f with
  | accept conn' session pc =>
    have hpc : awaits pc sig = false := by
      cases pc <;> first | rfl | cases hf
    simp [connects, hpc]
  | _ => rfl

/-- Nothing of a stack is fresh when its innermost call is not. -/
theorem Nested.quiet (h : Nested (f :: rest)) (hf : fresh f = false) :
    ∀ g ∈ f :: rest, fresh g = false := by
  intro g hg
  rcases List.mem_cons.mp hg with rfl | hg
  · exact hf
  · exact h.2.1 g hg

/-- The calls and connections there are. -/
structure Shape (s : Ownership κ) : Prop where
  nested : ∀ (t : Nat) (stack : List CallFrame), s.threads[t]? = some stack → Nested stack
  slots : ∀ conn sig, conn < s.server.nextConn →
    s.slots conn sig = true ∨ ∃ f ∈ Threads.frames s.threads, connects f conn sig = true
  conns : ∀ conn, s.server.conns conn ≠ none → conn < s.server.nextConn
  args : ∀ f ∈ Threads.frames s.threads, ∀ conn, f.arg = some conn → conn < s.server.nextConn

theorem shape_init : (init κ).Shape where
  nested := by
    intro t stack h
    cases h
  slots := by
    intro conn sig h
    cases h
  conns := by
    intro conn h
    exact absurd rfl h
  args := by
    intro f h
    cases h

/-- The server changes, and no connection is made. -/
theorem Shape.server (h : s.Shape) {server : Server κ} (hnext : server.nextConn = s.server.nextConn)
    (hconns : ∀ conn, server.conns conn ≠ none → s.server.conns conn ≠ none) :
    ({ s with server := server } : Ownership κ).Shape where
  nested := h.nested
  slots := by
    intro conn sig hlt
    exact h.slots conn sig (hnext ▸ hlt)
  conns := by
    intro conn hc
    show conn < server.nextConn
    rw [hnext]
    exact h.conns conn (hconns conn hc)
  args := by
    intro f hf conn hc
    show conn < server.nextConn
    rw [hnext]
    exact h.args f hf conn hc

theorem Shape.setConn (h : s.Shape) {c₀ : Connection κ} (hc : s.server.conns conn = some c₀)
    (c : Connection κ) : (s.setConn conn c).Shape := by
  refine h.server rfl fun conn' hne => ?_
  by_cases heq : conn' = conn
  · rw [heq, hc]
    exact Option.some_ne_none _
  · have hne' : Function.update s.server.conns conn (some c) conn' ≠ none := hne
    rwa [Function.update_of_ne heq] at hne'

theorem Shape.connect (h : s.Shape) (sig : ConnectionSignal) (conn : Nat) : (s.connect sig conn).Shape where
  nested := h.nested
  slots := by
    intro conn' sig' hlt
    rcases h.slots conn' sig' hlt with hslot | hf
    · left
      show Function.update s.slots conn (Function.update (s.slots conn) sig true) conn' sig' = true
      by_cases hc : conn' = conn
      · subst hc
        rw [Function.update_self]
        by_cases hsig : sig' = sig
        · rw [hsig, Function.update_self]
        · rwa [Function.update_of_ne hsig]
      · rwa [Function.update_of_ne hc]
    · exact .inr hf
  conns := h.conns
  args := h.args

theorem connect_slots (s : Ownership κ) (sig : ConnectionSignal) (conn : Nat) :
    (s.connect sig conn).slots conn sig = true := by
  show Function.update s.slots conn (Function.update (s.slots conn) sig true) conn sig = true
  rw [Function.update_self, Function.update_self]

/-- A thread replaces its stack. -/
theorem Shape.setThread (h : s.Shape) (hst : s.threads[t]? = some stack) (hnest : Nested stack')
    (hargs : ∀ f ∈ stack', ∀ conn, f.arg = some conn →
      f ∈ stack ∨ conn < s.server.nextConn)
    (hslots : ∀ f ∈ stack, ∀ conn sig, connects f conn sig = true →
      s.slots conn sig = true ∨ ∃ g ∈ stack', connects g conn sig = true) :
    (s.setThread t stack').Shape where
  nested := by
    intro u st hu
    have hu' : (s.threads.set t stack')[u]? = some st := hu
    rw [List.getElem?_set] at hu'
    split_ifs at hu'
    · cases hu'
      exact hnest
    · exact h.nested u st hu'
  slots := by
    intro conn sig hlt
    have hlen : t < s.threads.length := (List.getElem?_eq_some_iff.mp hst).1
    have hset : (s.threads.set t stack')[t]? = some stack' := List.getElem?_set_self hlen
    rcases h.slots conn sig hlt with hslot | ⟨f, hf, hc⟩
    · exact .inl hslot
    · rcases Threads.mem_frames_set hst stack' hf with hold | hnew
      · rcases hslots f hold conn sig hc with hslot | ⟨g, hg, hgc⟩
        · exact .inl hslot
        · exact .inr ⟨g, Threads.mem_frames hset hg, hgc⟩
      · exact .inr ⟨f, hnew, hc⟩
  conns := h.conns
  args := by
    intro f hf conn hc
    rcases Threads.of_mem_frames_set hf with hnew | hold
    · rcases hargs f hnew conn hc with hold | hlt
      · exact h.args f (Threads.mem_frames hst hold) conn hc
      · exact hlt
    · exact h.args f hold conn hc

theorem Shape.release (h : s.Shape) : (s.release t stack conn).Shape := by
  unfold Ownership.release
  split
  · exact ⟨h.nested, h.slots, h.conns, h.args⟩
  · exact h

/-- The innermost call makes way for others that own nothing else. -/
theorem Shape.replace (h : s.Shape) (hst : s.threads[t]? = some (f :: rest)) (calls : List CallFrame)
    (hnest : Nested (calls ++ rest)) (hargs : ∀ g ∈ calls, g.arg = none ∨ g.arg = f.arg)
    (hslots : ∀ conn sig, connects f conn sig = true →
      s.slots conn sig = true ∨ ∃ g ∈ calls, connects g conn sig = true) :
    (s.setThread t (calls ++ rest)).Shape := by
  refine h.setThread hst hnest (fun g hg conn hc => ?_) (fun g hg conn sig hc => ?_)
  · rcases List.mem_append.mp hg with hg | hg
    · right
      have hf : f.arg = some conn := by
        rcases hargs g hg with hnone | hsame
        · rw [hnone] at hc
          cases hc
        · rw [← hsame, hc]
      exact h.args f (Threads.mem_frames hst List.mem_cons_self) conn hf
    · exact .inl (List.mem_cons_of_mem _ hg)
  · rcases List.mem_cons.mp hg with rfl | hg
    · rcases hslots conn sig hc with hslot | ⟨g', hg', hc'⟩
      · exact .inl hslot
      · exact .inr ⟨g', List.mem_append_left _ hg', hc'⟩
    · exact .inr ⟨g, List.mem_append_right _ hg, hc⟩

/-- Calls are made on top of a stack. -/
theorem Shape.push (h : s.Shape) (hst : s.threads[t]? = some stack) (calls : List CallFrame)
    (hnest : Nested (calls ++ stack))
    (hargs : ∀ g ∈ calls, ∀ conn, g.arg = some conn → conn < s.server.nextConn) :
    (s.setThread t (calls ++ stack)).Shape := by
  refine h.setThread hst hnest (fun g hg conn hc => ?_) (fun g hg conn sig hc => ?_)
  · rcases List.mem_append.mp hg with hg | hg
    · exact .inr (hargs g hg conn hc)
    · exact .inl hg
  · exact .inr ⟨g, List.mem_append_right _ hg, hc⟩

/-- A call that connects nothing is left. -/
theorem Shape.leave (h : s.Shape) (hst : s.threads[t]? = some stack) (hperm : stack.Perm (f :: stack'))
    (hnest : Nested stack') (hf : ∀ conn sig, connects f conn sig = false) :
    (s.leave t f stack').Shape := by
  have hset : (s.setThread t stack').Shape := by
    refine h.setThread hst hnest (fun g hg conn _ => ?_) (fun g hg conn sig hc => ?_)
    · exact .inl (hperm.mem_iff.mpr (List.mem_cons_of_mem _ hg))
    · rcases List.mem_cons.mp (hperm.mem_iff.mp hg) with rfl | hg'
      · rw [hf conn sig] at hc
        cases hc
      · exact .inr ⟨g, hg', hc⟩
  unfold Ownership.leave
  split
  · exact hset.release
  · exact hset

/-- A connection is made, and `connected_handler` is called with it. -/
theorem Shape.accept (h : s.Shape) (hst : s.threads[t]? = some []) {server : Server κ} {session : Nat}
    (hnext : server.nextConn = s.server.nextConn + 1)
    (hconns : ∀ conn, server.conns conn ≠ none →
      conn = s.server.nextConn ∨ s.server.conns conn ≠ none) :
    (({ s with server := server } : Ownership κ).setThread t
      [.accept s.server.nextConn session .connectClosed]).Shape where
  nested := by
    intro u st hu
    have hu' : (s.threads.set t [.accept s.server.nextConn session .connectClosed])[u]? = some st := hu
    rw [List.getElem?_set] at hu'
    split_ifs at hu'
    · cases hu'
      simp [Nested, lent]
    · exact h.nested u st hu'
  slots := by
    intro conn sig hlt
    have hlen : t < s.threads.length := (List.getElem?_eq_some_iff.mp hst).1
    have hset : (s.threads.set t [.accept s.server.nextConn session .connectClosed])[t]? =
        some [.accept s.server.nextConn session .connectClosed] := List.getElem?_set_self hlen
    have hlt' : conn < s.server.nextConn + 1 := hnext ▸ hlt
    by_cases hc : conn = s.server.nextConn
    · refine .inr ⟨_, Threads.mem_frames hset List.mem_cons_self, ?_⟩
      simp [connects, awaits, hc]
    · rcases h.slots conn sig (by omega) with hslot | ⟨f, hf, hfc⟩
      · exact .inl hslot
      · rcases Threads.mem_frames_set hst _ hf with hnil | hnew
        · cases hnil
        · exact .inr ⟨f, hnew, hfc⟩
  conns := by
    intro conn hc
    show conn < server.nextConn
    rcases hconns conn hc with rfl | hold
    · omega
    · have := h.conns conn hold
      omega
  args := by
    intro f hf conn hc
    show conn < server.nextConn
    rcases Threads.of_mem_frames_set hf with hnew | hold
    · rw [List.mem_singleton.mp hnew] at hc
      have : s.server.nextConn = conn := Option.some.inj hc
      omega
    · have := h.args f hold conn hc
      omega

/-! ## The next step of a thread -/

theorem addStep_shape {session : Nat} {pc : AddPc} (h : s.Shape)
    (hst : s.threads[t]? = some (.accept conn session pc :: rest))
    (hs : s.addStep t conn session rest pc = some s') : s'.Shape := by
  obtain ⟨-, hquiet, hrest⟩ := h.nested t _ hst
  have hnest : ∀ pc', Nested (.accept conn session pc' :: rest) := fun pc' =>
    ⟨fun _ hc => by (cases hc), hquiet, hrest⟩
  -- a slot is connected, and the others are still awaited
  have hnext : ∀ (sig : ConnectionSignal) (pc' : AddPc),
      (∀ sig', awaits pc sig' = true → sig' = sig ∨ awaits pc' sig' = true) →
      ((s.connect sig conn).setThread t ([.accept conn session pc'] ++ rest)).Shape := by
    intro sig pc' hawaits
    refine (h.connect sig conn).replace hst _ (hnest pc') (by simp [CallFrame.arg]) fun conn' sig' hc => ?_
    obtain ⟨hconn, hsig⟩ := Bool.and_eq_true_iff.mp hc
    obtain rfl : conn = conn' := by simpa using hconn
    rcases hawaits sig' hsig with rfl | hlater
    · exact .inl (connect_slots s sig' conn)
    · exact .inr ⟨_, List.mem_cons_self, by simp [connects, hlater]⟩
  cases pc with
  | connectClosed =>
    cases hs
    refine hnext .closed .connectError fun sig _ => ?_
    cases sig <;> simp [awaits]
  | connectError =>
    cases hs
    refine hnext .error .connectReceived fun sig hsig => ?_
    cases sig <;> simp [awaits] at hsig ⊢
  | connectReceived =>
    cases hs
    refine hnext .received .register fun sig hsig => ?_
    cases sig <;> simp [awaits] at hsig ⊢
  | register =>
    simp only [addStep] at hs
    split_ifs at hs
    cases hs
    have hserver : ({ s with server := s.server.addConnection conn session } : Ownership κ).Shape :=
      h.server rfl fun _ hc => hc
    refine hserver.replace hst [.serverCall .connected (some conn), .accept conn session .unlock] ?_
      (by simp [CallFrame.arg]) (by simp [connects, awaits])
    refine ⟨fun conn' hc => ⟨_, List.mem_cons_self, hc⟩, fun g hg => ?_, hnest _⟩
    exact (hnest .unlock).quiet rfl g hg
  | unlock =>
    cases hs
    exact h.replace hst [.accept conn session .waitNextConnection] (hnest _) (by simp [CallFrame.arg])
      (by simp [connects, awaits])
  | waitNextConnection =>
    cases hs
    obtain ⟨threads, heq⟩ := s.server.waitNextConnection_eq
    rw [heq]
    have hserver : ({ s with server := { s.server.createSession with
        serviceThreads := threads } } : Ownership κ).Shape := h.server rfl fun _ hc => hc
    exact hserver.leave (f := .accept conn session .waitNextConnection) hst (.refl _) hrest
      (by simp [connects, awaits])

theorem advance_shape (h : s.Shape) (hst : s.threads[t]? = some stack)
    (hs : s.advance t stack = some s') : s'.Shape := by
  have hnest := h.nested t stack hst
  rcases stack with _ | ⟨f, rest⟩
  · cases hs
  obtain ⟨hlent, hquiet, hrest⟩ := hnest
  cases f with
  | accept conn session pc => exact addStep_shape h hst hs
  | reading conn =>
    obtain ⟨c, hc, rfl⟩ := Option.map_eq_some_iff.mp hs
    exact (h.setConn hc _).replace hst [] hrest (by simp) (by simp [connects])
  | call sig conn =>
    simp only [advance] at hs
    split_ifs at hs
    · cases hs
      refine h.replace hst [.slot sig conn .emit, .emission sig conn] ?_ (by simp [CallFrame.arg])
        (by simp [connects])
      refine ⟨fun _ hc => by (cases hc), fun g hg => ?_, fun _ hc => by (cases hc), hquiet, hrest⟩
      rcases List.mem_cons.mp hg with rfl | hg
      · rfl
      · exact hquiet g hg
    · cases hs
      exact h.leave hst (.refl _) hrest (fun _ _ => rfl)
  | slot sig conn pc =>
    cases pc with
    | emit =>
      cases hs
      refine h.replace hst [.serverCall sig.forwarded (some conn),
        .slot sig conn (if sig = .closed then .removeConnection else .returns)] ?_
        (by simp [CallFrame.arg]) (by simp [connects])
      refine ⟨fun conn' hc => ⟨_, List.mem_cons_self, hc⟩, fun g hg => ?_, fun _ hc => by (cases hc),
        hquiet, hrest⟩
      rcases List.mem_cons.mp hg with rfl | hg
      · rfl
      · exact hquiet g hg
    | removeConnection =>
      simp only [advance, slotStep] at hs
      split_ifs at hs
      cases hs
      have hserver : ({ s with server := s.server.removeConnection conn } : Ownership κ).Shape :=
        h.server rfl fun _ hc => hc
      exact hserver.replace hst [.slot sig conn .returns] ⟨fun _ hc => by (cases hc), hquiet, hrest⟩
        (by simp [CallFrame.arg]) (by simp [connects])
    | returns =>
      cases hs
      exact h.leave hst (.refl _) hrest (fun _ _ => rfl)
  | serverCall sig arg =>
    simp only [advance] at hs
    split_ifs at hs
    cases hs
    refine h.replace hst [.userSlot arg, .serverEmission sig] ?_ (by simp [CallFrame.arg])
      (by simp [connects])
    refine ⟨fun conn hc => ?_, fun g hg => ?_, fun _ hc => by (cases hc), hquiet, hrest⟩
    · obtain ⟨g, hg, hgc⟩ := hlent conn hc
      exact ⟨g, List.mem_cons_of_mem _ hg, hgc⟩
    · rcases List.mem_cons.mp hg with rfl | hg
      · rfl
      · exact hquiet g hg
  | emission sig conn | serverEmission sig | userSlot arg | callback =>
    cases hs
    exact h.leave hst (.refl _) hrest (fun _ _ => rfl)
  | exception =>
    rcases rest with _ | ⟨f, rest⟩
    · cases hs
      exact h.leave hst (.refl _) hrest (fun _ _ => rfl)
    · cases hs
      refine h.leave hst (.swap _ _ _) ⟨fun _ hc => by (cases hc), hrest.2.1, hrest.2.2⟩ ?_
      exact connects_of_not_fresh (hquiet f List.mem_cons_self)

/-! ## Handlers and user code -/

theorem Shape.handler (h : s.Shape) (hst : s.threads[t]? = some []) {emitted : List (Emission κ)}
    (hlen : emitted.length ≤ 1) (hlt : conn < s.server.nextConn) (goesOn : Bool) :
    (s.setThread t (emitted.map (called conn) ++
      if goesOn then [.reading conn] else [])).Shape := by
  have hlent : ∀ e : Emission κ, lent (called conn e) = none := by
    intro e
    cases e <;> rfl
  have hargs : ∀ g ∈ emitted.map (called conn) ++ (if goesOn then [.reading conn] else []),
      ∀ conn', g.arg = some conn' → conn' < s.server.nextConn := by
    intro g hg conn' hc
    rcases List.mem_append.mp hg with hg | hg
    · obtain ⟨e, -, rfl⟩ := List.mem_map.mp hg
      cases e with
      | closed | error _ _ | received _ => exact Option.some.inj hc ▸ hlt
      | callback _ _ => cases hc
    · split at hg
      · rw [List.mem_singleton.mp hg] at hc
        cases hc
      · cases hg
  have hreading : Nested (if goesOn then [.reading conn] else []) := by
    cases goesOn <;> simp [Nested, lent]
  have hnest : Nested (emitted.map (called conn) ++ (if goesOn then [.reading conn] else [])) := by
    rcases emitted with _ | ⟨e, _ | ⟨e', emitted⟩⟩
    · exact hreading
    · refine ⟨fun c hc => ?_, fun g hg => ?_, hreading⟩
      · rw [hlent] at hc
        cases hc
      · cases goesOn with
        | true =>
          rw [List.mem_singleton.mp hg]
          rfl
        | false => cases hg
    · simp at hlen
  have hpush := h.push hst _ (by rw [List.append_nil]; exact hnest) hargs
  rwa [List.append_nil] at hpush

theorem Shape.sessionHandler (h : s.Shape) (hst : s.threads[t]? = some []) (op : SessionOp)
    (err : ErrorCode) : (s.sessionHandler t op err).Shape := by
  have herror : (s.setThread t [.serverCall .error none]).Shape := by
    refine h.push hst [.serverCall .error none] (by simp [Nested, lent]) fun g hg conn hc => ?_
    rw [List.mem_singleton.mp hg] at hc
    cases hc
  have hready : ∀ session, (s.sessionReady t session err).Shape := by
    intro session
    unfold sessionReady Server.makeConnection
    split_ifs
    · exact herror
    · refine h.accept hst rfl fun conn hc => ?_
      by_cases heq : conn = s.server.nextConn
      · exact .inl heq
      · have hc' : Function.update s.server.conns s.server.nextConn (some (Connection.construct κ))
            conn ≠ none := hc
        rw [Function.update_of_ne heq] at hc'
        exact .inr hc'
  cases op with
  | handshake session => exact hready session
  | accept session =>
    unfold Ownership.sessionHandler
    dsimp only
    split
    · exact hready session
    · split_ifs
      · exact herror
      · exact h.server rfl fun _ hc => hc

/-- Nothing is fresh below user code. -/
theorem Nested.of_userCode (h : Nested stack) (hu : userCode stack = true) :
    ∀ g ∈ stack, fresh g = false := by
  rcases stack with _ | ⟨f, rest⟩
  · intro g hg
    cases hg
  · refine h.quiet ?_
    cases f <;> first | rfl | cases hu

theorem close_shape {shutdown : ErrorCode} {c : Connection κ} (h : s.Shape)
    (hst : s.threads[t]? = some stack) (hu : userCode stack = true)
    (hc : s.server.conns conn = some c) :
    (match c.close shutdown with
      | .ok (c, emitted) => (s.setConn conn c).setThread t (emitted.map (called conn) ++ stack)
      | .error _ => s.setThread t (.exception :: stack)).Shape := by
  have hnest := h.nested t stack hst
  have hquiet := hnest.of_userCode hu
  have hlt : conn < s.server.nextConn := h.conns conn (by rw [hc]; exact Option.some_ne_none _)
  have hexception : (s.setThread t ([.exception] ++ stack)).Shape := by
    refine h.push hst [.exception] ⟨fun _ hc => by (cases hc), hquiet, hnest⟩ fun g hg conn' hc => ?_
    rw [List.mem_singleton.mp hg] at hc
    cases hc
  unfold Connection.close
  cases c.socket.close shutdown with
  | error e => exact hexception
  | ok sckt =>
    have hset := h.setConn hc { c with socket := sckt }
    refine hset.push hst [.call .closed conn] ⟨fun _ hc => by (cases hc), hquiet, hnest⟩ ?_
    intro g hg conn' hc'
    rw [List.mem_singleton.mp hg] at hc'
    exact Option.some.inj hc' ▸ hlt

theorem step_shape {a : OwnershipAct κ} (h : s.Shape) (hs : step o s a = some s') : s'.Shape := by
  have hknown : ∀ {conn c}, s.server.conns conn = some c → conn < s.server.nextConn := by
    intro conn c hc
    exact h.conns conn (by rw [hc]; exact Option.some_ne_none _)
  cases a with
  | setThreadPolicy policy count =>
    cases hs
    unfold Server.setThreadPolicy
    split
    · exact h
    · exact h.server rfl fun _ hc => hc
  | setEnabled | setLastError =>
    cases hs
    exact h.server rfl fun _ hc => hc
  | start bound hardware =>
    cases hs
    rcases s.server.start_cases bound hardware with heq | ⟨code, message, heq⟩ | ⟨-, count, threads, heq⟩
    · rw [heq]
      exact h
    · rw [heq]
      exact h.server rfl fun _ hc => hc
    · rw [heq]
      exact h.server rfl fun _ hc => hc
  | stop =>
    cases hs
    unfold Server.stop
    split
    · exact h.server rfl fun _ hc => hc
    · exact h
  | createThread =>
    cases hs
    have hframes : Threads.frames (s.threads ++ [[]]) = Threads.frames s.threads := by
      simp [Threads.frames]
    refine ⟨fun t stack hst => ?_, fun conn sig hlt => ?_, h.conns, fun f hf => ?_⟩
    · rcases List.mem_append.mp (List.mem_of_getElem? hst) with hold | hnew
      · obtain ⟨u, hu⟩ := List.mem_iff_getElem?.mp hold
        exact h.nested u stack hu
      · rw [List.mem_singleton.mp hnew]
        trivial
    · show s.slots conn sig = true ∨ ∃ f ∈ Threads.frames (s.threads ++ [[]]), _
      rw [hframes]
      exact h.slots conn sig hlt
    · have hf' : f ∈ Threads.frames (s.threads ++ [[]]) := hf
      rw [hframes] at hf'
      exact h.args f hf'
  | readResult conn i buffer err =>
    obtain ⟨c, hc, hs⟩ := Option.bind_eq_some_iff.mp hs
    obtain ⟨c', -, rfl⟩ := Option.map_eq_some_iff.mp hs
    exact h.setConn hc c'
  | writeResult conn i err =>
    obtain ⟨c, hc, hs⟩ := Option.bind_eq_some_iff.mp hs
    obtain ⟨c', -, rfl⟩ := Option.map_eq_some_iff.mp hs
    exact h.setConn hc c'
  | sessionHandler t i err =>
    simp only [step] at hs
    split_ifs at hs with hidle
    obtain ⟨op, -, rfl⟩ := Option.map_eq_some_iff.mp hs
    have hserver : ({ s with server := { s.server with ops := s.server.ops.eraseIdx i } } :
        Ownership κ).Shape := h.server rfl fun _ hc => hc
    exact hserver.sessionHandler hidle.2 op err
  | readHandler t conn i junk =>
    simp only [step] at hs
    split_ifs at hs with hidle
    obtain ⟨c, hc, hs⟩ := Option.bind_eq_some_iff.mp hs
    obtain ⟨⟨c', emitted, goesOn⟩, hread, rfl⟩ := Option.map_eq_some_iff.mp hs
    exact (h.setConn hc c').handler hidle.2.1 (Connection.invokeRead_emitted o hread) (hknown hc) goesOn
  | writeHandler t conn i =>
    simp only [step] at hs
    split_ifs at hs with hidle
    obtain ⟨c, hc, hs⟩ := Option.bind_eq_some_iff.mp hs
    obtain ⟨⟨c', emitted⟩, hwrite, rfl⟩ := Option.map_eq_some_iff.mp hs
    obtain ⟨_, err, -, -, rfl, -⟩ := Connection.invokeWrite_spec hwrite
    have hlen := (@Connection.checkError_emitted κ err).2
    have hhandler := (h.setConn hc c').handler hidle.2.1 hlen (hknown hc) false
    simp only [Bool.false_eq_true, if_false, List.append_nil] at hhandler
    exact hhandler
  | advance t =>
    obtain ⟨stack, hst, hs⟩ := Option.bind_eq_some_iff.mp hs
    exact advance_shape h hst hs
  | dispatch conn ptr buffer =>
    obtain ⟨c, hc, rfl⟩ := Option.map_eq_some_iff.mp hs
    exact h.setConn hc _
  | createStream conn cmd command cb =>
    obtain ⟨c, hc, rfl⟩ := Option.map_eq_some_iff.mp hs
    cases cb <;> exact h.setConn hc _
  | close t conn shutdown =>
    obtain ⟨stack, hst, hs⟩ := Option.bind_eq_some_iff.mp hs
    split_ifs at hs with huser
    obtain ⟨c, hc, rfl⟩ := Option.map_eq_some_iff.mp hs
    exact close_shape h hst huser.1 hc
  | catchException t =>
    simp only [step] at hs
    split at hs
    · rename_i stack hst
      split_ifs at hs
      cases hs
      exact h.replace hst [] (h.nested t _ hst).2.2 (by simp) (by simp [connects])
    · cases hs
  | take conn =>
    simp only [step] at hs
    split_ifs at hs
    cases hs
    exact ⟨h.nested, h.slots, h.conns, h.args⟩
  | drop t conn =>
    obtain ⟨stack, hst, hs⟩ := Option.bind_eq_some_iff.mp hs
    split_ifs at hs
    cases hs
    refine Shape.release ?_
    exact ⟨h.nested, h.slots, h.conns, h.args⟩

end Ownership

end Lnetlib
