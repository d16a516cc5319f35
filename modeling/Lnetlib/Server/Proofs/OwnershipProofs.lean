import Lnetlib.Server.Proofs.CallStackProofs

/-!
# When a connection outlives its emissions

A step either gives up no owner, or it starts a call that owns the connection (`Outlives.of_steady`), or
it gives up one argument or one copy, and then the connection is left without an owner exactly when that
was the last one (`release_outlives_iff`). The argument of a slot of a server signal, and that of a signal
without a slot, is never the last one (`lastKept_of_shared`).
-/

namespace Lnetlib

open Bytes Transition

namespace Ownership

variable {κ : Type} {o : ByteOrder} {s s' : Ownership κ} {t conn : Nat} {stack stack' rest : List CallFrame}
  {f : CallFrame}

/-- Every key of `_sessions` is in `_connections`. -/
def Keys (s : Ownership κ) : Prop :=
  ∀ conn, s.server.sessions conn ≠ none → conn ∈ s.server.connections

/-! ## Owners and emissions -/

theorem registered_eq_zero (h : s.Keys) : s.registered conn = 0 ↔ conn ∉ s.server.connections := by
  unfold registered
  constructor
  · intro h0 hmem
    have := List.count_pos_iff.mpr hmem
    omega
  · intro hmem
    have hkey : s.server.sessions conn = none := by
      by_contra hne
      exact hmem (h conn hne)
    simp [List.count_eq_zero.mpr hmem, hkey]

theorem running_setThread (h : s.threads[t]? = some stack) (stack' : List CallFrame) (conn : Nat) :
    (s.setThread t stack').running conn + stack.countP (fun f => f.arg = some conn) =
      s.running conn + stack'.countP fun f => f.arg = some conn :=
  Threads.count_set _ h

theorem emissions_setThread (h : s.threads[t]? = some stack) (stack' : List CallFrame) (conn : Nat) :
    (s.setThread t stack').emissions conn + stack.countP (fun f => f.emits = some conn) =
      s.emissions conn + stack'.countP fun f => f.emits = some conn :=
  Threads.count_set _ h

/-- A step that gives up no owner and starts no emission without a slot. -/
theorem Outlives.of_steady (h : s.Outlives) (hd : s'.destructors = s.destructors)
    (hem : ∀ conn, 0 < s'.emissions conn →
      0 < s'.running conn ∨ 0 < s.emissions conn ∧ s.owners conn ≤ s'.owners conn) : s'.Outlives where
  owned := by
    intro conn hpos
    rcases hem conn hpos with hrun | ⟨hpos', hle⟩
    · unfold owners
      omega
    · have := h.owned conn hpos'
      omega
  unlocked := by
    rw [hd]
    exact h.unlocked

/-- A thread replaces calls, and gives up no argument. -/
theorem Outlives.setThread (h : s.Outlives) (hst : s.threads[t]? = some stack)
    (harg : ∀ conn, stack.countP (fun f => f.arg = some conn) ≤
      stack'.countP fun f => f.arg = some conn)
    (hem : ∀ conn, stack'.countP (fun f => f.emits = some conn) ≤
        stack.countP (fun f => f.emits = some conn) ∨
      0 < stack'.countP fun f => f.arg = some conn) : (s.setThread t stack').Outlives := by
  refine h.of_steady rfl fun conn hpos => ?_
  have hrun := running_setThread hst stack' conn
  have hemit := emissions_setThread hst stack' conn
  have hle := harg conn
  have hsame : (s.setThread t stack').registered conn = s.registered conn := rfl
  have hlow : stack.countP (fun f => f.arg = some conn) ≤ s.running conn :=
    Threads.countP_le_count _ hst
  rcases hem conn with hle' | hpos'
  · refine .inr ⟨by omega, ?_⟩
    unfold owners
    rw [hsame]
    show s.registered conn + s.users conn + _ ≤ s.registered conn + s.users conn + _
    omega
  · exact .inl (by omega)

theorem heldBy_eq_nil (h : stack.countP (fun f => f.emits = some conn) = 0) :
    heldBy conn stack = [] := by
  refine List.filterMap_eq_nil_iff.mpr fun f hf => ?_
  have hne := List.countP_eq_zero.mp h f hf
  cases f with
  | emission sig conn' =>
    have hc : conn' ≠ conn := by simpa [CallFrame.emits] using hne
    simp [hc]
  | _ => rfl

/-- An owner is given up: what is left to show is that it was not the last one of a connection that emits. -/
theorem release_outlives_iff (hst : s.threads[t]? = some stack)
    (howned : ∀ c, c ≠ conn → 0 < s.emissions c → 0 < s.owners c)
    (hunlocked : ∀ d ∈ s.destructors, d.held = []) :
    (s.release t stack conn).Outlives ↔ (0 < s.emissions conn → 0 < s.owners conn) := by
  have hem : ∀ c, (s.release t stack conn).emissions c = s.emissions c := by
    intro c
    unfold release
    split <;> rfl
  have hown : ∀ c, (s.release t stack conn).owners c = s.owners c := by
    intro c
    unfold release
    split <;> rfl
  constructor
  · intro h hpos
    have := h.owned conn (by rw [hem]; exact hpos)
    rwa [hown] at this
  · intro hc
    refine ⟨fun c hpos => ?_, ?_⟩
    · rw [hem] at hpos
      rw [hown]
      by_cases hcc : c = conn
      · subst hcc
        exact hc hpos
      · exact howned c hcc hpos
    · unfold release
      split
      · rename_i hzero
        intro d hd
        rcases List.mem_append.mp hd with hd | hd
        · exact hunlocked d hd
        · rw [List.mem_singleton.mp hd]
          -- without an owner nothing of the connection is emitted, on this thread neither
          have hnone : s.emissions conn = 0 := by
            by_contra hne
            have := hc (Nat.pos_of_ne_zero hne)
            omega
          refine heldBy_eq_nil (Nat.eq_zero_of_le_zero ?_)
          rw [← hnone]
          exact Threads.countP_le_count _ hst
      · exact hunlocked

/-- A call is left. -/
theorem leave_outlives_iff (h : s.Outlives) (hk : s.Keys) (hst : s.threads[t]? = some stack)
    (hperm : stack.Perm (f :: stack')) :
    (s.leave t f stack').Outlives ↔
      ∀ conn ∈ f.arg, s.running conn = 1 → 0 < s.emissions conn → s.Kept conn := by
  have hrun : ∀ c, (s.setThread t stack').running c + (if f.arg = some c then 1 else 0) =
      s.running c := by
    intro c
    have hset := running_setThread hst stack' c
    rw [hperm.countP_eq, List.countP_cons] at hset
    simp only [decide_eq_true_eq] at hset
    omega
  have hemit : ∀ c, (s.setThread t stack').emissions c + (if f.emits = some c then 1 else 0) =
      s.emissions c := by
    intro c
    have hset := emissions_setThread hst stack' c
    rw [hperm.countP_eq, List.countP_cons] at hset
    simp only [decide_eq_true_eq] at hset
    omega
  have howners : ∀ c, (s.setThread t stack').owners c = s.registered c + s.users c +
      (s.setThread t stack').running c := fun _ => rfl
  have hlt : t < s.threads.length := (List.getElem?_eq_some_iff.mp hst).1
  unfold leave
  cases harg : f.arg with
  | none =>
    refine iff_of_true ?_ (fun conn hc => by cases hc)
    show (s.setThread t stack').Outlives
    refine h.of_steady rfl fun c hpos => .inr ?_
    have hr := hrun c
    have he := hemit c
    simp only [harg, reduceCtorEq, if_false] at hr
    refine ⟨by omega, ?_⟩
    rw [howners]
    unfold owners
    omega
  | some conn =>
    -- a call that owns a connection does not emit
    have hemits : f.emits = none := by
      cases f <;> first | rfl | cases harg
    have hemit' : ∀ c, (s.setThread t stack').emissions c = s.emissions c := by
      intro c
      have := hemit c
      simpa [hemits] using this
    have hother : ∀ c, c ≠ conn → (s.setThread t stack').owners c = s.owners c := by
      intro c hc
      have := hrun c
      simp only [harg, Option.some.injEq, hc.symm, if_false] at this
      rw [howners]
      unfold owners
      omega
    have hself : (s.setThread t stack').running conn + 1 = s.running conn := by
      have := hrun conn
      simpa [harg] using this
    have hst' : (s.setThread t stack').threads[t]? = some stack' := List.getElem?_set_self hlt
    refine (release_outlives_iff hst' ?_ h.unlocked).trans ?_
    · intro c hc hpos
      rw [hemit'] at hpos
      rw [hother c hc]
      exact h.owned c hpos
    · rw [hemit', howners]
      have hreg : s.registered conn = 0 ↔ conn ∉ s.server.connections := registered_eq_zero hk
      constructor
      · intro hleft c hc hone hpos
        cases hc
        have := hleft hpos
        by_cases hmem : conn ∈ s.server.connections
        · exact .inl hmem
        · exact .inr (by have := hreg.mpr hmem; omega)
      · intro hkept hpos
        by_contra hzero
        rcases hkept conn rfl (by omega) hpos with hmem | huser
        · exact hreg.mp (by omega) hmem
        · omega

/-! ## Steps that give up nothing -/

/-- The inductive invariant. -/
structure Sound (s : Ownership κ) : Prop where
  outlives : s.Outlives
  keys : s.Keys

theorem sound_init : (init κ).Sound where
  outlives := by
    refine ⟨fun conn h => ?_, fun d hd => ?_⟩
    · cases h
    · cases hd
  keys := by
    intro conn h
    exact absurd rfl h

/-- The server changes, but not its registry. -/
theorem Sound.server (h : s.Sound) {server : Server κ}
    (hreg : server.connections = s.server.connections ∧ server.sessions = s.server.sessions) :
    ({ s with server := server } : Ownership κ).Sound := by
  obtain ⟨hcon, hses⟩ := hreg
  refine ⟨h.outlives.of_steady rfl fun conn hpos => .inr ⟨hpos, ?_⟩, ?_⟩
  · show s.registered conn + s.users conn + s.running conn ≤
      (server.connections.count conn + if server.sessions conn = none then 0 else 1) + s.users conn +
        s.running conn
    rw [hcon, hses]
    exact Nat.le_refl _
  · intro conn hkey
    show conn ∈ server.connections
    rw [hcon]
    exact h.keys conn (by rw [← hses]; exact hkey)

/-- The innermost call makes way for calls that take its argument over, and that own what they emit. -/
theorem Sound.replace (h : s.Sound) (hst : s.threads[t]? = some (f :: rest)) (calls : List CallFrame)
    (harg : ∀ conn, f.arg = some conn → ∃ g ∈ calls, g.arg = some conn)
    (hem : ∀ g ∈ calls, ∀ conn, g.emits = some conn → ∃ g ∈ calls, g.arg = some conn) :
    (s.setThread t (calls ++ rest)).Sound := by
  have hpos : ∀ c, (∃ g ∈ calls, g.arg = some c) → 0 < calls.countP fun g => g.arg = some c := by
    rintro c ⟨g, hg, hc⟩
    exact List.countP_pos_iff.mpr ⟨g, hg, by simp [hc]⟩
  refine ⟨h.outlives.setThread hst (fun c => ?_) fun c => ?_, h.keys⟩
  · rw [List.countP_cons, List.countP_append]
    by_cases hc : f.arg = some c
    · have := hpos c (harg c hc)
      simp only [hc, decide_true, if_true]
      omega
    · simp [hc]
  · rw [List.countP_append, List.countP_append]
    by_cases hc : ∃ g ∈ calls, g.emits = some c
    · obtain ⟨g, hg, hgc⟩ := hc
      have := hpos c (hem g hg c hgc)
      right
      omega
    · left
      have hzero : calls.countP (fun g => g.emits = some c) = 0 := by
        refine List.countP_eq_zero.mpr fun g hg => ?_
        simpa using fun hgc => hc ⟨g, hg, hgc⟩
      rw [hzero, List.countP_cons]
      omega

/-- Calls are made on top of a stack, none of which emits yet. -/
theorem Sound.push (h : s.Sound) (hst : s.threads[t]? = some stack) (calls : List CallFrame)
    (hcalls : ∀ f ∈ calls, f.emits = none) : (s.setThread t (calls ++ stack)).Sound := by
  refine ⟨h.outlives.setThread hst (fun conn => ?_) (fun conn => .inl ?_), h.keys⟩
  · rw [List.countP_append]
    omega
  · have hzero : calls.countP (fun f => f.emits = some conn) = 0 := by
      refine List.countP_eq_zero.mpr fun f hf => ?_
      simp [hcalls f hf]
    rw [List.countP_append, hzero, Nat.zero_add]

/-- `add_connection` registers a connection. -/
theorem Sound.addConnection (h : s.Sound) (conn session : Nat) :
    ({ s with server := s.server.addConnection conn session } : Ownership κ).Sound := by
  refine ⟨h.outlives.of_steady rfl fun c hpos => .inr ⟨hpos, ?_⟩, ?_⟩
  · have hses : (if s.server.sessions c = none then 0 else 1) ≤
        if Function.update s.server.sessions conn (some session) c = none then 0 else 1 := by
      by_cases hc : c = conn
      · subst hc
        rw [Function.update_self]
        split <;> simp
      · rw [Function.update_of_ne hc]
    have hcount : s.server.connections.count c ≤ (s.server.connections ++ [conn]).count c := by
      rw [List.count_append]
      omega
    show s.registered c + s.users c + s.running c ≤
      ((s.server.connections ++ [conn]).count c +
        if Function.update s.server.sessions conn (some session) c = none then 0 else 1) +
          s.users c + s.running c
    unfold registered
    omega
  · intro c hkey
    show c ∈ s.server.connections ++ [conn]
    by_cases hc : c = conn
    · simp [hc]
    · have hkey' : Function.update s.server.sessions conn (some session) c ≠ none := hkey
      rw [Function.update_of_ne hc] at hkey'
      exact List.mem_append_left _ (h.keys c hkey')

/-- `remove_connection`, called with an argument that owns the connection. -/
theorem Sound.removeConnection (h : s.Sound) (hrun : 0 < s.running conn) :
    ({ s with server := s.server.removeConnection conn } : Ownership κ).Sound := by
  refine ⟨h.outlives.of_steady rfl fun c hpos => ?_, ?_⟩
  · by_cases hc : c = conn
    · subst hc
      exact .inl hrun
    · refine .inr ⟨hpos, ?_⟩
      show s.registered c + s.users c + s.running c ≤
        ((s.server.connections.erase conn).count c +
          if Function.update s.server.sessions conn none c = none then 0 else 1) +
            s.users c + s.running c
      rw [List.count_erase_of_ne hc, Function.update_of_ne hc]
      exact Nat.le_refl _
  · intro c hkey
    show c ∈ s.server.connections.erase conn
    have hkey' : Function.update s.server.sessions conn none c ≠ none := hkey
    by_cases hc : c = conn
    · rw [hc, Function.update_self] at hkey'
      exact absurd rfl hkey'
    · rw [Function.update_of_ne hc] at hkey'
      exact (List.mem_erase_of_ne hc).mpr (h.keys c hkey')

/-! ## The next step of a thread -/

/-- What the condition says of the next step of a thread with these calls. -/
def LastKept (s : Ownership κ) (stack : List CallFrame) : Prop :=
  ∀ conn ∈ ends stack, s.running conn = 1 → 0 < s.emissions conn → s.Kept conn

theorem lastKept_of_sound (h : s'.Sound) (hnone : ends stack = none) :
    (s'.Outlives ↔ s.LastKept stack) ∧ s'.Keys := by
  refine ⟨iff_of_true h.outlives fun conn hc => ?_, h.keys⟩
  rw [hnone] at hc
  cases hc

theorem leave_keys (h : s.Keys) : (s.leave t f stack).Keys := by
  unfold leave release
  split
  · split <;> exact h
  · exact h

/-- The call that is left is the one whose argument the condition is about. -/
theorem lastKept_of_leave (h : s.Sound) (hst : s.threads[t]? = some stack)
    (hperm : stack.Perm (f :: stack')) (hends : ends stack = f.arg) :
    ((s.leave t f stack').Outlives ↔ s.LastKept stack) ∧ (s.leave t f stack').Keys := by
  refine ⟨?_, leave_keys h.keys⟩
  unfold LastKept
  rw [hends]
  exact leave_outlives_iff h.outlives h.keys hst hperm

/-- The call that is left is not the only one that owns the connection. -/
theorem lastKept_of_shared (h : s.Sound) (hst : s.threads[t]? = some stack)
    (hperm : stack.Perm (f :: stack')) (hends : ends stack = none)
    (hshared : ∀ conn ∈ f.arg, 2 ≤ s.running conn) :
    ((s.leave t f stack').Outlives ↔ s.LastKept stack) ∧ (s.leave t f stack').Keys := by
  have hleft : (s.leave t f stack').Outlives := by
    refine (leave_outlives_iff h.outlives h.keys hst hperm).mpr fun conn hc hone => ?_
    have := hshared conn hc
    omega
  exact lastKept_of_sound ⟨hleft, leave_keys h.keys⟩ hends

/-- A slot of a server signal is called by a call that owns the connection too. -/
theorem running_of_lent (hst : s.threads[t]? = some stack) (hperm : stack.Perm (f :: stack'))
    (hf : f.arg = some conn) (hg : ∃ g ∈ stack', g.arg = some conn) : 2 ≤ s.running conn := by
  obtain ⟨g, hg, hgc⟩ := hg
  have hle : stack.countP (fun f => f.arg = some conn) ≤ s.running conn :=
    Threads.countP_le_count _ hst
  have hpos : 0 < stack'.countP fun f => f.arg = some conn :=
    List.countP_pos_iff.mpr ⟨g, hg, by simp [hgc]⟩
  rw [hperm.countP_eq, List.countP_cons_of_pos (by simp [hf])] at hle
  omega

/-- A signal without a slot is one of a connection that is still being added. -/
theorem Shape.running_of_call {sig : ConnectionSignal} (h : s.Shape)
    (hst : s.threads[t]? = some (.call sig conn :: rest)) (hslot : s.slots conn sig = false) :
    2 ≤ s.running conn := by
  have hcall : .call sig conn ∈ Threads.frames s.threads := Threads.mem_frames hst List.mem_cons_self
  have hlt : conn < s.server.nextConn := h.args _ hcall conn rfl
  rcases h.slots conn sig hlt with htrue | ⟨f, hf, hc⟩
  · rw [hslot] at htrue
    cases htrue
  · cases f with
    | accept conn' session pc =>
      have hconn : conn' = conn := by
        have := (Bool.and_eq_true_iff.mp hc).1
        simpa using this
      refine Threads.two_le_count hcall hf (fun heq => by cases heq) ?_ ?_
      · simp [CallFrame.arg]
      · simp [CallFrame.arg, hconn]
    | _ => cases hc

theorem addStep_outlives_iff {session : Nat} {pc : AddPc} (h : s.Sound)
    (hst : s.threads[t]? = some (.accept conn session pc :: rest))
    (hs : s.addStep t conn session rest pc = some s') :
    (s'.Outlives ↔ s.LastKept (.accept conn session pc :: rest)) ∧ s'.Keys := by
  have hnext : ∀ (x : Ownership κ) (pc' : AddPc), x.Sound → x.threads = s.threads →
      (x.setThread t (.accept conn session pc' :: rest)).Sound := by
    intro x pc' hx hth
    have hst' : x.threads[t]? = some (.accept conn session pc :: rest) := by rw [hth]; exact hst
    exact hx.replace hst' [.accept conn session pc'] (by simp [CallFrame.arg])
      (by simp [CallFrame.arg, CallFrame.emits])
  have hconnect : ∀ sig, (s.connect sig conn).Sound := by
    intro sig
    exact ⟨⟨h.outlives.owned, h.outlives.unlocked⟩, h.keys⟩
  cases pc with
  | connectClosed =>
    cases hs
    exact lastKept_of_sound (hnext _ _ (hconnect _) rfl) rfl
  | connectError =>
    cases hs
    exact lastKept_of_sound (hnext _ _ (hconnect _) rfl) rfl
  | connectReceived =>
    cases hs
    exact lastKept_of_sound (hnext _ _ (hconnect _) rfl) rfl
  | register =>
    simp only [addStep] at hs
    split_ifs at hs
    cases hs
    exact lastKept_of_sound ((h.addConnection conn session).replace hst
      [.serverCall .connected (some conn), .accept conn session .unlock] (by simp [CallFrame.arg])
      (by simp [CallFrame.arg, CallFrame.emits])) rfl
  | unlock =>
    cases hs
    exact lastKept_of_sound (hnext s _ h rfl) rfl
  | waitNextConnection =>
    cases hs
    obtain ⟨threads, heq⟩ := s.server.waitNextConnection_eq
    rw [heq]
    have hserver : ({ s with server := { s.server.createSession with
        serviceThreads := threads } } : Ownership κ).Sound := h.server ⟨rfl, rfl⟩
    exact lastKept_of_leave hserver (f := .accept conn session .waitNextConnection) hst (.refl _) rfl

theorem slotStep_outlives_iff {sig : ConnectionSignal} {pc : SlotPc} (h : s.Sound)
    (hst : s.threads[t]? = some (.slot sig conn pc :: rest))
    (hs : s.slotStep t sig conn rest pc = some s') :
    (s'.Outlives ↔ s.LastKept (.slot sig conn pc :: rest)) ∧ s'.Keys := by
  cases pc with
  | emit =>
    cases hs
    exact lastKept_of_sound (h.replace hst [.serverCall sig.forwarded (some conn),
      .slot sig conn (if sig = .closed then .removeConnection else .returns)] (by simp [CallFrame.arg])
      (by simp [CallFrame.arg, CallFrame.emits])) rfl
  | removeConnection =>
    simp only [slotStep] at hs
    split_ifs at hs
    cases hs
    have hrun : 0 < s.running conn :=
      Threads.count_pos.mpr ⟨_, Threads.mem_frames hst List.mem_cons_self, by simp [CallFrame.arg]⟩
    exact lastKept_of_sound ((h.removeConnection hrun).replace hst [.slot sig conn .returns]
      (by simp [CallFrame.arg]) (by simp [CallFrame.arg, CallFrame.emits])) rfl
  | returns =>
    cases hs
    exact lastKept_of_leave h hst (.refl _) rfl

theorem advance_outlives_iff (h : s.Sound) (hshape : s.Shape) (hst : s.threads[t]? = some stack)
    (hs : s.advance t stack = some s') : (s'.Outlives ↔ s.LastKept stack) ∧ s'.Keys := by
  have hnest := hshape.nested t stack hst
  rcases stack with _ | ⟨f, rest⟩
  · cases hs
  cases f with
  | accept conn session pc => exact addStep_outlives_iff h hst hs
  | reading conn =>
    obtain ⟨c, -, rfl⟩ := Option.map_eq_some_iff.mp hs
    have hserver : (s.setConn conn c.waitPackage).Sound := h.server ⟨rfl, rfl⟩
    exact lastKept_of_sound (hserver.replace hst [] (by simp [CallFrame.arg]) (by simp)) rfl
  | call sig conn =>
    simp only [advance] at hs
    split_ifs at hs with hmutex hslot
    · cases hs
      -- the argument of the slot owns the connection that is emitted
      exact lastKept_of_sound (h.replace hst [.slot sig conn .emit, .emission sig conn]
        (by simp [CallFrame.arg]) (by simp [CallFrame.arg, CallFrame.emits])) rfl
    · cases hs
      refine lastKept_of_shared h hst (.refl _) rfl fun conn' hc => ?_
      obtain rfl : conn = conn' := Option.some.inj hc
      exact hshape.running_of_call hst (by simpa using hslot)
  | slot sig conn pc => exact slotStep_outlives_iff h hst hs
  | serverCall sig arg =>
    simp only [advance] at hs
    split_ifs at hs
    cases hs
    exact lastKept_of_sound (h.replace hst [.userSlot arg, .serverEmission sig] (by simp [CallFrame.arg])
      (by simp [CallFrame.arg, CallFrame.emits])) rfl
  | userSlot arg =>
    cases hs
    exact lastKept_of_shared h hst (.refl _) rfl fun conn hc =>
      running_of_lent hst (.refl _) hc (hnest.1 conn hc)
  | emission sig conn | serverEmission sig | callback =>
    cases hs
    exact lastKept_of_leave h hst (.refl _) rfl
  | exception =>
    rcases rest with _ | ⟨f, rest⟩
    · cases hs
      exact lastKept_of_leave h hst (.refl _) rfl
    cases hs
    have hfresh : fresh f = false := hnest.2.1 f List.mem_cons_self
    have hswap : (CallFrame.exception :: f :: rest).Perm (f :: .exception :: rest) := .swap _ _ _
    cases f with
    | call sig conn | serverCall sig arg => cases hfresh
    | userSlot arg =>
      refine lastKept_of_shared h hst hswap rfl fun conn hc => running_of_lent hst hswap hc ?_
      obtain ⟨g, hg, hgc⟩ := hnest.2.2.1 conn hc
      exact ⟨g, List.mem_cons_of_mem _ hg, hgc⟩
    | accept _ _ _ | slot _ _ _ | reading _ | emission _ _ | serverEmission _ | callback | exception =>
      exact lastKept_of_leave h hst hswap rfl

/-! ## Handlers and user code -/

theorem called_emits (conn : Nat) (e : Emission κ) : (called conn e).emits = none := by
  cases e <;> rfl

theorem Sound.setConn (h : s.Sound) (conn : Nat) (c : Connection κ) : (s.setConn conn c).Sound :=
  h.server ⟨rfl, rfl⟩

/-- An idle thread runs what a handler of a connection emits. -/
theorem Sound.handler (h : s.Sound) (hst : s.threads[t]? = some []) (emitted : List (Emission κ))
    (goesOn : Bool) : (s.setThread t (emitted.map (called conn) ++
      if goesOn then [.reading conn] else [])).Sound := by
  have hpush := h.push hst (emitted.map (called conn) ++ if goesOn then [.reading conn] else []) ?_
  · rwa [List.append_nil] at hpush
  · intro f hf
    rcases List.mem_append.mp hf with hf | hf
    · obtain ⟨e, -, rfl⟩ := List.mem_map.mp hf
      exact called_emits conn e
    · split at hf
      · rw [List.mem_singleton.mp hf]
        rfl
      · cases hf

theorem Sound.sessionHandler (h : s.Sound) (hst : s.threads[t]? = some []) (op : SessionOp)
    (err : ErrorCode) : (s.sessionHandler t op err).Sound := by
  have hone : ∀ (x : Ownership κ) (f : CallFrame), x.Sound → x.threads = s.threads →
      f.emits = none → (x.setThread t [f]).Sound := by
    intro x f hx hth hf
    have hst' : x.threads[t]? = some [] := by rw [hth]; exact hst
    refine hx.push hst' [f] fun g hg => ?_
    rw [List.mem_singleton.mp hg]
    exact hf
  have hready : ∀ session, (s.sessionReady t session err).Sound := by
    intro session
    unfold sessionReady Server.makeConnection
    split_ifs
    · exact hone _ _ (h.server ⟨rfl, rfl⟩) rfl rfl
    · exact hone _ _ (h.server ⟨rfl, rfl⟩) rfl rfl
  cases op with
  | handshake session => exact hready session
  | accept session =>
    unfold Ownership.sessionHandler
    dsimp only
    split
    · exact hready session
    · split_ifs
      · exact hone s _ h rfl rfl
      · exact h.server ⟨rfl, rfl⟩

theorem close_outlives {shutdown : ErrorCode} {c : Connection κ} (h : s.Sound)
    (hst : s.threads[t]? = some stack) :
    (match c.close shutdown with
      | .ok (c, emitted) => (s.setConn conn c).setThread t (emitted.map (called conn) ++ stack)
      | .error _ => s.setThread t (.exception :: stack)).Sound := by
  split
  · rename_i c' emitted _
    refine (h.setConn conn c').push hst _ fun f hf => ?_
    obtain ⟨e, -, rfl⟩ := List.mem_map.mp hf
    exact called_emits conn e
  · refine h.push hst [.exception] fun f hf => ?_
    rw [List.mem_singleton.mp hf]
    rfl

/-- User code gives up a copy. -/
theorem drop_outlives_iff (h : s.Sound) (hst : s.threads[t]? = some stack) (huser : s.users conn ≠ 0) :
    ({ s with users := Function.update s.users conn (s.users conn - 1) }.release t stack
        conn).Outlives ↔
      (s.users conn = 1 → 0 < s.emissions conn → conn ∈ s.server.connections ∨ 0 < s.running conn) := by
  have hreg : s.registered conn = 0 ↔ conn ∉ s.server.connections := registered_eq_zero h.keys
  have hself : ({ s with users := Function.update s.users conn (s.users conn - 1) } :
      Ownership κ).owners conn = s.registered conn + (s.users conn - 1) + s.running conn := by
    show s.registered conn + Function.update s.users conn (s.users conn - 1) conn + s.running conn = _
    rw [Function.update_self]
  have hother : ∀ c, c ≠ conn → ({ s with
      users := Function.update s.users conn (s.users conn - 1) } : Ownership κ).owners c =
        s.owners c := by
    intro c hc
    show s.registered c + Function.update s.users conn (s.users conn - 1) c + s.running c = _
    rw [Function.update_of_ne hc]
    rfl
  have hst' : ({ s with users := Function.update s.users conn (s.users conn - 1) } :
      Ownership κ).threads[t]? = some stack := hst
  refine (release_outlives_iff hst' ?_ h.outlives.unlocked).trans ?_
  · intro c hc hpos
    rw [hother c hc]
    exact h.outlives.owned c hpos
  · rw [hself]
    constructor
    · intro hleft hone hpos
      have := hleft hpos
      by_cases hmem : conn ∈ s.server.connections
      · exact .inl hmem
      · exact .inr (by have := hreg.mpr hmem; omega)
    · intro hkept hpos
      by_contra hzero
      rcases hkept (by omega) hpos with hmem | hrun
      · exact hreg.mp (by omega) hmem
      · omega

theorem step_outlives_iff {a : OwnershipAct κ} (h : s.Sound) (hshape : s.Shape)
    (hs : step o s a = some s') : (s'.Outlives ↔ HoldsCopy s a) ∧ s'.Keys := by
  have hsound : s'.Sound → HoldsCopy s a → (s'.Outlives ↔ HoldsCopy s a) ∧ s'.Keys := fun h' hk =>
    ⟨iff_of_true h'.outlives hk, h'.keys⟩
  cases a with
  | setThreadPolicy policy count =>
    cases hs
    refine hsound (h.server ?_) trivial
    unfold Server.setThreadPolicy
    split <;> exact ⟨rfl, rfl⟩
  | setEnabled | setLastError =>
    cases hs
    exact hsound (h.server ⟨rfl, rfl⟩) trivial
  | start bound hardware =>
    cases hs
    refine hsound (h.server ?_) trivial
    rcases s.server.start_cases bound hardware with heq | ⟨code, message, heq⟩ | ⟨-, count, threads, heq⟩
    · rw [heq]
      exact ⟨rfl, rfl⟩
    · rw [heq]
      exact ⟨rfl, rfl⟩
    · rw [heq]
      exact ⟨rfl, rfl⟩
  | stop =>
    cases hs
    refine hsound (h.server ?_) trivial
    unfold Server.stop
    split <;> exact ⟨rfl, rfl⟩
  | createThread =>
    cases hs
    have hcount : ∀ p, Threads.count p (s.threads ++ [[]]) = Threads.count p s.threads := fun p =>
      Threads.count_start p s.threads
    refine hsound ⟨h.outlives.of_steady rfl fun conn hpos => .inr ?_, h.keys⟩ trivial
    unfold emissions at hpos
    rw [hcount] at hpos
    refine ⟨hpos, ?_⟩
    show s.registered conn + s.users conn + s.running conn ≤
      s.registered conn + s.users conn + Threads.count _ (s.threads ++ [[]])
    rw [hcount]
    exact Nat.le_refl _
  | readResult conn i buffer err =>
    obtain ⟨c, -, hs⟩ := Option.bind_eq_some_iff.mp hs
    obtain ⟨c', -, rfl⟩ := Option.map_eq_some_iff.mp hs
    exact hsound (h.setConn conn c') trivial
  | writeResult conn i err =>
    obtain ⟨c, -, hs⟩ := Option.bind_eq_some_iff.mp hs
    obtain ⟨c', -, rfl⟩ := Option.map_eq_some_iff.mp hs
    exact hsound (h.setConn conn c') trivial
  | sessionHandler t i err =>
    simp only [step] at hs
    split_ifs at hs with hidle
    obtain ⟨op, -, rfl⟩ := Option.map_eq_some_iff.mp hs
    have hserver : ({ s with server := { s.server with ops := s.server.ops.eraseIdx i } } :
        Ownership κ).Sound := h.server ⟨rfl, rfl⟩
    exact hsound (hserver.sessionHandler hidle.2 op err) trivial
  | readHandler t conn i junk =>
    simp only [step] at hs
    split_ifs at hs with hidle
    obtain ⟨c, -, hs⟩ := Option.bind_eq_some_iff.mp hs
    obtain ⟨⟨c', emitted, goesOn⟩, -, rfl⟩ := Option.map_eq_some_iff.mp hs
    exact hsound ((h.setConn conn c').handler hidle.2.1 emitted goesOn) trivial
  | writeHandler t conn i =>
    simp only [step] at hs
    split_ifs at hs with hidle
    obtain ⟨c, -, hs⟩ := Option.bind_eq_some_iff.mp hs
    obtain ⟨⟨c', emitted⟩, -, rfl⟩ := Option.map_eq_some_iff.mp hs
    have hhandler : ((s.setConn conn c').setThread t (emitted.map (called conn) ++
        if false then [.reading conn] else [])).Sound :=
      (h.setConn conn c').handler hidle.2.1 emitted false
    simp only [Bool.false_eq_true, if_false, List.append_nil] at hhandler
    exact hsound hhandler trivial
  | advance t =>
    obtain ⟨stack, hst, hs⟩ := Option.bind_eq_some_iff.mp hs
    obtain ⟨hiff, hkeys⟩ := advance_outlives_iff h hshape hst hs
    refine ⟨hiff.trans ⟨fun hk stack' hst' => ?_, fun hk => hk stack hst⟩, hkeys⟩
    obtain rfl : stack = stack' := Option.some.inj (hst.symm.trans hst')
    exact hk
  | dispatch conn ptr buffer =>
    obtain ⟨c, -, rfl⟩ := Option.map_eq_some_iff.mp hs
    exact hsound (h.setConn conn _) trivial
  | createStream conn cmd command cb =>
    obtain ⟨c, -, rfl⟩ := Option.map_eq_some_iff.mp hs
    cases cb <;> exact hsound (h.setConn conn _) trivial
  | close t conn shutdown =>
    obtain ⟨stack, hst, hs⟩ := Option.bind_eq_some_iff.mp hs
    split_ifs at hs
    obtain ⟨c, -, rfl⟩ := Option.map_eq_some_iff.mp hs
    exact hsound (close_outlives h hst) trivial
  | catchException t =>
    simp only [step] at hs
    split at hs
    · rename_i stack hst
      split_ifs at hs
      cases hs
      exact hsound (h.replace hst [] (by simp [CallFrame.arg]) (by simp)) trivial
    · cases hs
  | take conn =>
    simp only [step] at hs
    split_ifs at hs
    cases hs
    refine hsound ⟨h.outlives.of_steady rfl fun c hpos => .inr ⟨hpos, ?_⟩, h.keys⟩ trivial
    show s.registered c + s.users c + s.running c ≤
      s.registered c + Function.update s.users conn (s.users conn + 1) c + s.running c
    have : s.users c ≤ Function.update s.users conn (s.users conn + 1) c := by
      by_cases hc : c = conn
      · rw [hc, Function.update_self]
        exact Nat.le_succ _
      · rw [Function.update_of_ne hc]
    omega
  | drop t conn =>
    obtain ⟨stack, hst, hs⟩ := Option.bind_eq_some_iff.mp hs
    split_ifs at hs with huser
    cases hs
    refine ⟨drop_outlives_iff h hst huser.2, ?_⟩
    unfold release
    split <;> exact h.keys

/-! ## The lifetime of connections -/

/-- **Connections outlive their emissions** in exactly the runs in which the last slot of a removed
    connection returns while user code holds a copy. -/
theorem outlives_iff {as : List (OwnershipAct κ)} (hr : run (step o) (init κ) as = some s) :
    Throughout (step o) Outlives (init κ) as ↔ Meets (step o) HoldsCopy (init κ) as := by
  refine throughout_iff_meets (I := fun s => s.Keys ∧ s.Shape) (fun s a s' hi ho hs => ?_)
    ⟨sound_init.keys, shape_init⟩ sound_init.outlives hr
  obtain ⟨hiff, hkeys⟩ := step_outlives_iff ⟨ho, hi.1⟩ hi.2 hs
  exact ⟨hiff, fun _ => ⟨hkeys, step_shape hi.2 hs⟩⟩

/-- A client is accepted, and the end of its stream is read. -/
def visit : List (OwnershipAct Unit) :=
  [.start none 4, .createThread, .sessionHandler 0 0 .success] ++ List.replicate 9 (.advance 0) ++
    [.readResult 0 0 [] .eof, .readHandler 0 0 0 fun _ => 0]

/-- User code takes a copy in the slot of `disconnected`, and it gives the copy up after the emission. -/
theorem outlives_copy_in_disconnected :
    Throughout (step .little) Outlives (init Unit)
      (visit ++ List.replicate 3 (.advance 0) ++ [.take 0] ++ List.replicate 5 (.advance 0) ++
        [.drop 0 0]) := by
  obtain ⟨s, hr, -⟩ : ∃ s, run (step .little) (init Unit)
      (visit ++ List.replicate 3 (.advance 0) ++ [.take 0] ++ List.replicate 5 (.advance 0) ++
        [.drop 0 0]) = some s ∧ s.destructors = [⟨0, 0, []⟩] := Option.map_eq_some_iff.mp rfl
  exact (outlives_iff hr).mpr (by decide)

/-- When the end of the stream is read and user code holds no copy, the closed slot gives up the last owner
    while `closed` is being emitted. -/
theorem closedSlot_runs_destructor :
    ¬ ∀ s : Ownership Unit, Reachable (step .little) (init Unit) s → s.Outlives := by
  intro hall
  obtain ⟨s, hr, hs⟩ : ∃ s, run (step .little) (init Unit) (visit ++ List.replicate 7 (.advance 0)) =
      some s ∧ s.destructors = [⟨0, 0, [.closed]⟩] := Option.map_eq_some_iff.mp rfl
  have hheld := (hall s ⟨_, hr⟩).unlocked ⟨0, 0, [.closed]⟩ (by rw [hs]; exact List.mem_cons_self)
  cases hheld

end Ownership

end Lnetlib
