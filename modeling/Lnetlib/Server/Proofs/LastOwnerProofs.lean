import Lnetlib.Server.Proofs.OwnershipProofs

/-!
# Connections without an owner

A connection that has lost its last owner never gets one again: a step adds owners only to connections that
have one, or to the connection that it makes (`Keeps`). When `~connection` runs, the connection has just lost
its last owner (`Destroys`). Every step does no more than that (`step_sheds`).
-/

namespace Lnetlib

open Bytes Transition

namespace Ownership

variable {κ : Type} {o : ByteOrder} {s s' s'' : Ownership κ} {t conn : Nat}
  {stack stack' rest : List CallFrame} {f : CallFrame}

/-- The connection has an owner, or it is made before `s'`. -/
def Owned (s s' : Ownership κ) (conn : Nat) : Prop :=
  s.owners conn ≠ 0 ∨ s.server.nextConn ≤ conn ∧ conn < s'.server.nextConn

/-- What has an owner afterwards had one before, or was made in between. -/
structure Keeps (s s' : Ownership κ) : Prop where
  next : s.server.nextConn ≤ s'.server.nextConn
  owners : ∀ conn, s'.owners conn ≠ 0 → s.Owned s' conn

/-- `~connection` has not run, or on a connection that has just lost its last owner. -/
def Destroys (s s' : Ownership κ) : Prop :=
  s'.destructors = s.destructors ∨
    ∃ d, s'.destructors = s.destructors ++ [d] ∧ s.Owned s' d.conn ∧ s'.owners d.conn = 0

/-- What a step does to the owners of connections. -/
structure Sheds (s s' : Ownership κ) : Prop where
  keeps : s.Keeps s'
  destroys : s.Destroys s'

theorem Owned.trans (h : s.Keeps s') (hnext : s'.server.nextConn ≤ s''.server.nextConn)
    (ho : s'.Owned s'' conn) : s.Owned s'' conn := by
  have hle := h.next
  rcases ho with hold | ⟨hge, hlt⟩
  · rcases h.owners conn hold with hold | ⟨hge, hlt⟩
    · exact .inl hold
    · exact .inr ⟨hge, by omega⟩
  · exact .inr ⟨by omega, hlt⟩

theorem Keeps.refl (s : Ownership κ) : s.Keeps s := ⟨Nat.le_refl _, fun _ h => .inl h⟩

theorem Keeps.trans (h : s.Keeps s') (h' : s'.Keeps s'') : s.Keeps s'' where
  next := Nat.le_trans h.next h'.next
  owners := fun conn hne => (h'.owners conn hne).trans h h'.next

theorem Keeps.sheds (h : s.Keeps s') (hd : s'.destructors = s.destructors) : s.Sheds s' := ⟨h, .inl hd⟩

theorem Keeps.trans_sheds (h : s.Keeps s') (hd : s'.destructors = s.destructors) (h' : s'.Sheds s'') :
    s.Sheds s'' := by
  refine ⟨h.trans h'.keeps, ?_⟩
  unfold Destroys
  rw [← hd]
  rcases h'.destroys with hsame | ⟨d, heq, hown, hzero⟩
  · exact .inl hsame
  · exact .inr ⟨d, heq, hown.trans h h'.keeps.next, hzero⟩

/-- The server changes, but not its registry. -/
theorem keeps_server {server : Server κ} (hnext : s.server.nextConn ≤ server.nextConn)
    (hcon : server.connections = s.server.connections) (hses : server.sessions = s.server.sessions) :
    s.Keeps { s with server := server } where
  next := hnext
  owners := by
    intro conn hne
    left
    unfold owners registered at hne ⊢
    rwa [hcon, hses] at hne

theorem keeps_setConn (s : Ownership κ) (conn : Nat) (c : Connection κ) : s.Keeps (s.setConn conn c) :=
  keeps_server (Nat.le_refl _) rfl rfl

/-- An argument of a call owns its connection. -/
theorem owners_of_arg (hst : s.threads[t]? = some stack) (hf : f ∈ stack) (hc : f.arg = some conn) :
    s.owners conn ≠ 0 := by
  have hpos : 0 < s.running conn :=
    Threads.count_pos.mpr ⟨f, Threads.mem_frames hst hf, by simp [hc]⟩
  unfold owners
  omega

theorem owners_setThread (hst : s.threads[t]? = some stack) (h : (s.setThread t stack').owners conn ≠ 0) :
    s.owners conn ≠ 0 ∨ ∃ f ∈ stack', f.arg = some conn := by
  by_cases hnew : ∃ f ∈ stack', f.arg = some conn
  · exact .inr hnew
  · left
    have hzero : stack'.countP (fun f => f.arg = some conn) = 0 :=
      List.countP_eq_zero.mpr fun f hf => by simpa using fun hc => hnew ⟨f, hf, hc⟩
    have hrun := running_setThread hst stack' conn
    have hown : (s.setThread t stack').owners conn =
        s.registered conn + s.users conn + (s.setThread t stack').running conn := rfl
    unfold owners
    omega

/-- A thread replaces its calls, and the new ones own nothing that has no owner. -/
theorem Keeps.setThread (h : s.Keeps s') (hst : s'.threads[t]? = some stack)
    (hargs : ∀ f ∈ stack', ∀ conn, f.arg = some conn → s'.owners conn ≠ 0) :
    s.Keeps (s'.setThread t stack') := by
  refine h.trans ⟨Nat.le_refl _, fun conn hne => .inl ?_⟩
  rcases owners_setThread hst hne with hold | ⟨f, hf, hc⟩
  · exact hold
  · exact hargs f hf conn hc

/-- The innermost call makes way for others that own nothing else. -/
theorem Keeps.replace (h : s.Keeps s') (hst : s'.threads[t]? = some (f :: rest)) (calls : List CallFrame)
    (hargs : ∀ g ∈ calls, g.arg = none ∨ g.arg = f.arg) : s.Keeps (s'.setThread t (calls ++ rest)) := by
  refine h.setThread hst fun g hg conn hc => ?_
  rcases List.mem_append.mp hg with hg | hg
  · rcases hargs g hg with hnone | hsame
    · rw [hnone] at hc
      cases hc
    · exact owners_of_arg hst List.mem_cons_self (hsame ▸ hc)
  · exact owners_of_arg hst (List.mem_cons_of_mem f hg) hc

/-- Calls for a connection that has an owner are made on top of a stack. -/
theorem Keeps.push (h : s.Keeps s') (hst : s'.threads[t]? = some stack) (hown : s'.owners conn ≠ 0)
    (calls : List CallFrame) (hargs : ∀ g ∈ calls, g.arg = none ∨ g.arg = some conn) :
    s.Keeps (s'.setThread t (calls ++ stack)) := by
  refine h.setThread hst fun g hg conn' hc => ?_
  rcases List.mem_append.mp hg with hg | hg
  · rcases hargs g hg with hnone | hsame
    · rw [hnone] at hc
      cases hc
    · obtain rfl : conn = conn' := Option.some.inj (hsame.symm.trans hc)
      exact hown
  · exact owners_of_arg hst hg hc

theorem release_owners (s : Ownership κ) (t : Nat) (stack : List CallFrame) (conn c : Nat) :
    (s.release t stack conn).owners c = s.owners c := by
  unfold release
  split <;> rfl

theorem release_server (s : Ownership κ) (t : Nat) (stack : List CallFrame) (conn : Nat) :
    (s.release t stack conn).server = s.server := by
  unfold release
  split <;> rfl

/-- An owner has been given up. -/
theorem release_sheds (h : s.Keeps s') (hd : s'.destructors = s.destructors) (hown : s.owners conn ≠ 0) :
    s.Sheds (s'.release t stack conn) := by
  refine ⟨⟨?_, fun c hne => ?_⟩, ?_⟩
  · rw [release_server]
    exact h.next
  · rw [release_owners] at hne
    unfold Owned
    rw [release_server]
    exact h.owners c hne
  · by_cases hzero : s'.owners conn = 0
    · refine .inr ⟨{ conn := conn, thread := t, held := heldBy conn stack }, ?_, .inl hown, ?_⟩
      · rw [← hd]
        unfold release
        rw [if_pos hzero]
      · rw [release_owners]
        exact hzero
    · refine .inl ?_
      unfold release
      rw [if_neg hzero, hd]

/-- A call is left. -/
theorem Keeps.leave (h : s.Keeps s') (hd : s'.destructors = s.destructors)
    (hst : s'.threads[t]? = some stack) (hf : f ∈ stack) (hsub : ∀ g ∈ stack', g ∈ stack) :
    s.Sheds (s'.leave t f stack') := by
  have hset : s'.Keeps (s'.setThread t stack') :=
    (Keeps.refl s').setThread hst fun g hg conn hc => owners_of_arg hst (hsub g hg) hc
  refine h.trans_sheds hd ?_
  unfold Ownership.leave
  split
  · rename_i conn hc
    exact release_sheds hset rfl (owners_of_arg hst hf hc)
  · exact hset.sheds rfl

theorem leave_head_sheds (hst : s.threads[t]? = some (f :: rest)) : s.Sheds (s.leave t f rest) :=
  (Keeps.refl s).leave rfl hst List.mem_cons_self fun _ hg => List.mem_cons_of_mem f hg

/-- The registry gets another entry for a connection that has an owner. -/
theorem keeps_addConnection {session : Nat} (hown : s.owners conn ≠ 0) :
    s.Keeps { s with server := s.server.addConnection conn session } where
  next := Nat.le_refl _
  owners := by
    intro c hne
    left
    by_cases hc : c = conn
    · rwa [hc]
    · have hcount : (s.server.connections ++ [conn]).count c = s.server.connections.count c := by
        rw [List.count_append, List.count_singleton]
        simp [Ne.symm hc]
      have hsame : ({ s with server := s.server.addConnection conn session } : Ownership κ).owners c =
          s.owners c := by
        show (s.server.connections ++ [conn]).count c +
          (if Function.update s.server.sessions conn (some session) c = none then 0 else 1) + s.users c +
            s.running c = _
        rw [hcount, Function.update_of_ne hc]
        rfl
      rwa [hsame] at hne

theorem keeps_removeConnection (s : Ownership κ) (conn : Nat) :
    s.Keeps { s with server := s.server.removeConnection conn } where
  next := Nat.le_refl _
  owners := by
    intro c hne
    left
    have hcount : (s.server.connections.erase conn).count c ≤ s.server.connections.count c :=
      List.erase_sublist.count_le c
    have hses : (if Function.update s.server.sessions conn none c = none then 0 else 1) ≤
        if s.server.sessions c = none then 0 else 1 := by
      by_cases hc : c = conn
      · simp [hc]
      · rw [Function.update_of_ne hc]
    have hsame : ({ s with server := s.server.removeConnection conn } : Ownership κ).owners c =
        (s.server.connections.erase conn).count c +
          (if Function.update s.server.sessions conn none c = none then 0 else 1) + s.users c +
            s.running c := rfl
    unfold owners registered
    omega

theorem addStep_sheds {session : Nat} {pc : AddPc}
    (hst : s.threads[t]? = some (.accept conn session pc :: rest))
    (hs : s.addStep t conn session rest pc = some s') : s.Sheds s' := by
  have hown : s.owners conn ≠ 0 := owners_of_arg hst List.mem_cons_self rfl
  have hnext : ∀ (x : Ownership κ) (pc' : AddPc), s.Keeps x → x.threads = s.threads →
      s.Keeps (x.setThread t (.accept conn session pc' :: rest)) := by
    intro x pc' hx hth
    have hst' : x.threads[t]? = some (.accept conn session pc :: rest) := by rw [hth]; exact hst
    exact hx.replace hst' [.accept conn session pc'] (by simp [CallFrame.arg])
  -- a slot that is connected owns nothing
  have hconnect : ∀ sig, s.Keeps (s.connect sig conn) := fun sig =>
    ⟨Nat.le_refl _, fun _ hne => .inl hne⟩
  cases pc with
  | connectClosed =>
    cases hs
    exact (hnext _ .connectError (hconnect .closed) rfl).sheds rfl
  | connectError =>
    cases hs
    exact (hnext _ .connectReceived (hconnect .error) rfl).sheds rfl
  | connectReceived =>
    cases hs
    exact (hnext _ .register (hconnect .received) rfl).sheds rfl
  | register =>
    simp only [addStep] at hs
    split_ifs at hs
    cases hs
    exact ((keeps_addConnection hown).replace hst [.serverCall .connected (some conn),
      .accept conn session .unlock] (by simp [CallFrame.arg])).sheds rfl
  | unlock =>
    cases hs
    exact (hnext s .waitNextConnection (.refl s) rfl).sheds rfl
  | waitNextConnection =>
    cases hs
    obtain ⟨threads, heq⟩ := s.server.waitNextConnection_eq
    rw [heq]
    have hserver : s.Keeps { s with server := { s.server.createSession with serviceThreads := threads } } :=
      keeps_server (Nat.le_refl _) rfl rfl
    exact hserver.leave rfl hst List.mem_cons_self fun _ hg => List.mem_cons_of_mem _ hg

theorem slotStep_sheds {sig : ConnectionSignal} {pc : SlotPc}
    (hst : s.threads[t]? = some (.slot sig conn pc :: rest))
    (hs : s.slotStep t sig conn rest pc = some s') : s.Sheds s' := by
  cases pc with
  | emit =>
    cases hs
    exact ((Keeps.refl s).replace hst [.serverCall sig.forwarded (some conn),
      .slot sig conn (if sig = .closed then .removeConnection else .returns)]
      (by simp [CallFrame.arg])).sheds rfl
  | removeConnection =>
    simp only [slotStep] at hs
    split_ifs at hs
    cases hs
    exact ((keeps_removeConnection s conn).replace hst [.slot sig conn .returns]
      (by simp [CallFrame.arg])).sheds rfl
  | returns =>
    cases hs
    exact leave_head_sheds hst

theorem advance_sheds (hst : s.threads[t]? = some stack) (hs : s.advance t stack = some s') :
    s.Sheds s' := by
  rcases stack with _ | ⟨f, rest⟩
  · cases hs
  cases f with
  | accept conn session pc => exact addStep_sheds hst hs
  | reading conn =>
    obtain ⟨c, -, rfl⟩ := Option.map_eq_some_iff.mp hs
    exact ((keeps_setConn s conn c.waitPackage).replace hst [] (by simp)).sheds rfl
  | call sig conn =>
    simp only [advance] at hs
    split_ifs at hs with hmutex hslot
    · cases hs
      exact ((Keeps.refl s).replace hst [.slot sig conn .emit, .emission sig conn]
        (by simp [CallFrame.arg])).sheds rfl
    · cases hs
      exact leave_head_sheds hst
  | slot sig conn pc => exact slotStep_sheds hst hs
  | serverCall sig arg =>
    simp only [advance] at hs
    split_ifs at hs
    cases hs
    exact ((Keeps.refl s).replace hst [.userSlot arg, .serverEmission sig] (by simp [CallFrame.arg])).sheds rfl
  | exception =>
    cases rest with
    | nil =>
      cases hs
      exact leave_head_sheds hst
    | cons g rest =>
      cases hs
      refine (Keeps.refl s).leave rfl hst (by simp) fun x hx => ?_
      rcases List.mem_cons.mp hx with rfl | hx
      · exact List.mem_cons_self
      · exact List.mem_cons_of_mem _ (List.mem_cons_of_mem g hx)
  | emission sig conn | serverEmission sig | userSlot arg | callback =>
    cases hs
    exact leave_head_sheds hst

theorem called_arg (conn : Nat) (e : Emission κ) :
    (called conn e).arg = none ∨ (called conn e).arg = some conn := by
  cases e with
  | callback => exact .inl rfl
  | _ => exact .inr rfl

/-- An idle thread runs the handler of an operation of the sessions. -/
theorem Keeps.sessionHandler (h : s.Keeps s') (hd : s'.destructors = s.destructors)
    (hst : s'.threads[t]? = some []) (op : SessionOp) (err : ErrorCode) :
    s.Sheds (s'.sessionHandler t op err) := by
  refine h.trans_sheds hd ?_
  have herror : s'.Sheds (s'.setThread t [.serverCall .error none]) := by
    refine ((Keeps.refl s').setThread hst fun g hg conn hc => ?_).sheds rfl
    rw [List.mem_singleton.mp hg] at hc
    cases hc
  have hready : ∀ session, s'.Sheds (s'.sessionReady t session err) := by
    intro session
    unfold sessionReady Server.makeConnection
    split_ifs
    · exact herror
    · -- the connection is made, and `connected_handler` is its first owner
      dsimp only
      refine Keeps.sheds ⟨Nat.le_succ _, fun c hne => ?_⟩ rfl
      rcases owners_setThread (s := { s' with server := _ }) hst hne with hold | ⟨f, hf, hc⟩
      · exact .inl hold
      · rw [List.mem_singleton.mp hf] at hc
        obtain rfl : s'.server.nextConn = c := Option.some.inj hc
        exact .inr ⟨Nat.le_refl _, Nat.lt_succ_self _⟩
  cases op with
  | handshake session => exact hready session
  | accept session =>
    unfold Ownership.sessionHandler
    dsimp only
    split
    · exact hready session
    · split_ifs
      · exact herror
      · have hserver : s'.Keeps { s' with
            server := { s'.server with ops := s'.server.ops ++ [.handshake session] } } :=
          keeps_server (Nat.le_refl _) rfl rfl
        exact hserver.sheds rfl

theorem step_sheds {a : OwnershipAct κ} (hs : s.step o a = some s') : s.Sheds s' := by
  have hserver : ∀ server : Server κ, server.nextConn = s.server.nextConn →
      server.connections = s.server.connections → server.sessions = s.server.sessions →
      s.Sheds { s with server := server } := fun server hnext hcon hses =>
    (keeps_server (Nat.le_of_eq hnext.symm) hcon hses).sheds rfl
  cases a with
  | setThreadPolicy policy count =>
    cases hs
    unfold Server.setThreadPolicy
    split <;> exact hserver _ rfl rfl rfl
  | setEnabled | setLastError =>
    cases hs
    exact hserver _ rfl rfl rfl
  | start bound hardware =>
    cases hs
    rcases s.server.start_cases bound hardware with heq | ⟨code, message, heq⟩ | ⟨-, count, threads, heq⟩
    · rw [heq]
      exact hserver _ rfl rfl rfl
    · rw [heq]
      exact hserver _ rfl rfl rfl
    · rw [heq]
      exact hserver _ rfl rfl rfl
  | stop =>
    cases hs
    unfold Server.stop
    split <;> exact hserver _ rfl rfl rfl
  | createThread =>
    cases hs
    refine Keeps.sheds ⟨Nat.le_refl _, fun conn hne => .inl ?_⟩ rfl
    have hsame : ({ s with threads := s.threads ++ [[]] } : Ownership κ).owners conn = s.owners conn :=
      congrArg (s.registered conn + s.users conn + ·) (Threads.count_start _ s.threads)
    rwa [hsame] at hne
  | readResult conn i buffer err =>
    obtain ⟨c, -, hs⟩ := Option.bind_eq_some_iff.mp hs
    obtain ⟨c', -, rfl⟩ := Option.map_eq_some_iff.mp hs
    exact (keeps_setConn s conn c').sheds rfl
  | writeResult conn i err =>
    obtain ⟨c, -, hs⟩ := Option.bind_eq_some_iff.mp hs
    obtain ⟨c', -, rfl⟩ := Option.map_eq_some_iff.mp hs
    exact (keeps_setConn s conn c').sheds rfl
  | sessionHandler t i err =>
    simp only [step] at hs
    split_ifs at hs with hidle
    obtain ⟨op, -, rfl⟩ := Option.map_eq_some_iff.mp hs
    have hops : s.Keeps { s with server := { s.server with ops := s.server.ops.eraseIdx i } } :=
      keeps_server (Nat.le_refl _) rfl rfl
    exact hops.sessionHandler rfl hidle.2 op err
  | readHandler t conn i junk =>
    simp only [step] at hs
    split_ifs at hs with hidle
    obtain ⟨c, -, hs⟩ := Option.bind_eq_some_iff.mp hs
    obtain ⟨⟨c', emitted, goesOn⟩, -, rfl⟩ := Option.map_eq_some_iff.mp hs
    refine ((keeps_setConn s conn c').setThread hidle.2.1 fun g hg c hc => ?_).sheds rfl
    rcases List.mem_append.mp hg with hg | hg
    · obtain ⟨e, -, rfl⟩ := List.mem_map.mp hg
      rcases called_arg conn e with hnone | hsame
      · rw [hnone] at hc
        cases hc
      · obtain rfl : conn = c := Option.some.inj (hsame.symm.trans hc)
        exact hidle.2.2
    · split at hg
      · rw [List.mem_singleton.mp hg] at hc
        cases hc
      · cases hg
  | writeHandler t conn i =>
    simp only [step] at hs
    split_ifs at hs with hidle
    obtain ⟨c, -, hs⟩ := Option.bind_eq_some_iff.mp hs
    obtain ⟨⟨c', emitted⟩, -, rfl⟩ := Option.map_eq_some_iff.mp hs
    refine ((keeps_setConn s conn c').setThread hidle.2.1 fun g hg c hc => ?_).sheds rfl
    obtain ⟨e, -, rfl⟩ := List.mem_map.mp hg
    rcases called_arg conn e with hnone | hsame
    · rw [hnone] at hc
      cases hc
    · obtain rfl : conn = c := Option.some.inj (hsame.symm.trans hc)
      exact hidle.2.2
  | advance t =>
    obtain ⟨stack, hst, hs⟩ := Option.bind_eq_some_iff.mp hs
    exact advance_sheds hst hs
  | dispatch conn ptr buffer =>
    obtain ⟨c, -, rfl⟩ := Option.map_eq_some_iff.mp hs
    exact (keeps_setConn s conn _).sheds rfl
  | createStream conn cmd command cb =>
    obtain ⟨c, -, rfl⟩ := Option.map_eq_some_iff.mp hs
    cases cb <;> exact (keeps_setConn s conn _).sheds rfl
  | close t conn shutdown =>
    obtain ⟨stack, hst, hs⟩ := Option.bind_eq_some_iff.mp hs
    split_ifs at hs with huser
    obtain ⟨c, -, rfl⟩ := Option.map_eq_some_iff.mp hs
    split
    · rename_i c' emitted _
      refine ((keeps_setConn s conn c').push hst huser.2 (emitted.map (called conn))
        fun g hg => ?_).sheds rfl
      obtain ⟨e, -, rfl⟩ := List.mem_map.mp hg
      exact called_arg conn e
    · exact ((Keeps.refl s).push hst huser.2 [.exception] (by simp [CallFrame.arg])).sheds rfl
  | catchException t =>
    simp only [step] at hs
    split at hs
    · rename_i stack hst
      split_ifs at hs
      cases hs
      exact ((Keeps.refl s).replace hst [] (by simp)).sheds rfl
    · cases hs
  | take conn =>
    simp only [step] at hs
    split_ifs at hs with hown
    cases hs
    refine Keeps.sheds ⟨Nat.le_refl _, fun c hne => .inl ?_⟩ rfl
    by_cases hc : c = conn
    · rwa [hc]
    · have hsame : ({ s with users := Function.update s.users conn (s.users conn + 1) } :
          Ownership κ).owners c = s.owners c := by
        show s.registered c + Function.update s.users conn _ c + s.running c = _
        rw [Function.update_of_ne hc]
        rfl
      rwa [hsame] at hne
  | drop t conn =>
    obtain ⟨stack, hst, hs⟩ := Option.bind_eq_some_iff.mp hs
    split_ifs at hs with huser
    cases hs
    have hown : s.owners conn ≠ 0 := by
      have := huser.2
      unfold owners
      omega
    refine release_sheds ⟨Nat.le_refl _, fun c hne => .inl ?_⟩ rfl hown
    by_cases hc : c = conn
    · rwa [hc]
    · have hsame : ({ s with users := Function.update s.users conn (s.users conn - 1) } :
          Ownership κ).owners c = s.owners c := by
        show s.registered c + Function.update s.users conn _ c + s.running c = _
        rw [Function.update_of_ne hc]
        rfl
      rwa [hsame] at hne

/-- Every connection that has an owner was made. -/
def Made (s : Ownership κ) : Prop := ∀ conn, s.owners conn ≠ 0 → conn < s.server.nextConn

theorem made_init : (init κ).Made := fun _ h => absurd rfl h

theorem Owned.lt (h : s.Owned s' conn) (hk : s.Keeps s') (hm : s.Made) : conn < s'.server.nextConn := by
  have hle := hk.next
  rcases h with hold | ⟨-, hlt⟩
  · have := hm conn hold
    omega
  · exact hlt

theorem Keeps.made (h : s.Keeps s') (hm : s.Made) : s'.Made := fun conn hne => (h.owners conn hne).lt h hm

/-- What was made and has no owner stays without one. -/
theorem Keeps.ownerless (h : s.Keeps s') (hlt : conn < s.server.nextConn) (hzero : s.owners conn = 0) :
    s'.owners conn = 0 := by
  by_contra hne
  rcases h.owners conn hne with hold | ⟨hge, -⟩
  · exact hold hzero
  · omega

end Ownership

end Lnetlib
