import Lnetlib.Connection.Handlers
import Lnetlib.Server.LockOrder
import Lnetlib.Server.Proofs.LastOwnerProofs

/-!
# Proofs: the mutexes of a server

Where user code keeps the order, a thread waits for a mutex that ranks above those it holds, or in
`~connection` for one that no call holds.
-/

namespace Lnetlib

open Bytes Transition

variable {κ : Type} {o : ByteOrder}

namespace CallFrame

/-- The lowest rank of the mutexes that the call locks or holds. -/
def floor : CallFrame → Nat
  | accept _ _ .connectClosed | accept _ _ .connectError | accept _ _ .connectReceived => 0
  | accept _ _ _ => 4
  | call sig conn | emission sig conn => (Mutex.connectionSignal sig conn).rank
  | slot sig _ .emit => (Mutex.serverSignal sig.forwarded).rank
  | slot _ _ .removeConnection => 4
  | slot _ _ .returns => 6
  | serverCall sig _ | serverEmission sig => (Mutex.serverSignal sig).rank
  | reading _ | callback => 0
  | userSlot _ | exception => 6

theorem floor_le_acquires {f : CallFrame} {m : Mutex} (h : f.acquires = some m) : f.floor ≤ m.rank := by
  unfold acquires at h
  split at h <;> cases h <;> first | exact Nat.le_refl _ | exact Nat.zero_le _

/-- A slot of user code. -/
def IsUserSlot : CallFrame → Prop
  | userSlot _ => True
  | _ => False

end CallFrame

open CallFrame

/-! ## What a step does to the calls of a thread -/

namespace Ownership

variable {s s' : Ownership κ} {stack stack' rest : List CallFrame} {t conn : Nat} {f : CallFrame}

/-- The calls of a thread before a step and after it. -/
inductive Moves : List CallFrame → List CallFrame → Prop where
  /-- A handler is invoked. -/
  | invoke (calls : List CallFrame) (h : ∀ f ∈ calls, f.holds = none ∧ ¬ f.IsUserSlot) :
      Moves [] calls
  /-- A call goes on, and holds no mutex. -/
  | next (f g : CallFrame) (rest : List CallFrame) (hg : g.holds = none) (hu : ¬ g.IsUserSlot)
      (hle : f.floor ≤ g.floor) : Moves (f :: rest) (g :: rest)
  /-- A call makes another one, and holds no mutex. -/
  | push (f g h : CallFrame) (rest : List CallFrame) (hg : g.holds = none) (hh : h.holds = none)
      (hug : ¬ g.IsUserSlot) (huh : ¬ h.IsUserSlot) (hfg : f.floor ≤ g.floor)
      (hfh : f.floor ≤ h.floor) : Moves (f :: rest) (g :: h :: rest)
  /-- A call locks a mutex and makes another one. -/
  | lock (f g h : CallFrame) (rest : List CallFrame) (m : Mutex) (hf : f.acquires = some m)
      (hh : h.holds = some m) (hg : g.holds = none) (hfh : f.floor ≤ h.floor)
      (hmg : m.rank < g.floor) (hug : g.IsUserSlot → ∃ sig, h = .serverEmission sig)
      (huh : ¬ h.IsUserSlot) : Moves (f :: rest) (g :: h :: rest)
  /-- A call ends. -/
  | pop (f : CallFrame) (rest : List CallFrame) : Moves (f :: rest) rest
  /-- An exception leaves a call. -/
  | unwind (f : CallFrame) (rest : List CallFrame) : Moves (.exception :: f :: rest) (.exception :: rest)
  | throw (stack : List CallFrame) : Moves stack (.exception :: stack)

theorem leave_threads : (s.leave t f rest).threads = s.threads.set t rest := by
  unfold leave release
  split
  · split <;> rfl
  · rfl

theorem rank_lt_forwarded (sig : ConnectionSignal) (conn : Nat) :
    (Mutex.connectionSignal sig conn).rank < (Mutex.serverSignal sig.forwarded).rank := by
  cases sig <;> simp [Mutex.rank, ConnectionSignal.forwarded]

theorem rank_lt_six (m : Mutex) : m.rank < 6 := by
  cases m with
  | server => decide
  | connectionSignal sig conn => cases sig <;> simp [Mutex.rank]
  | serverSignal sig => cases sig <;> decide

theorem addStep_moves {session : Nat} {pc : AddPc}
    (hs : s.addStep t conn session rest pc = some s') :
    ∃ stack', s'.threads = s.threads.set t stack' ∧
      Moves (.accept conn session pc :: rest) stack' := by
  have hnext : ∀ pc', (CallFrame.accept conn session pc').holds = none →
      (CallFrame.accept conn session pc).floor ≤ (CallFrame.accept conn session pc').floor →
      Moves (.accept conn session pc :: rest) (.accept conn session pc' :: rest) :=
    fun pc' hh hle => .next _ _ rest hh id hle
  cases pc with
  | connectClosed =>
    cases hs
    exact ⟨_, rfl, hnext _ rfl (by simp [floor])⟩
  | connectError =>
    cases hs
    exact ⟨_, rfl, hnext _ rfl (by simp [floor])⟩
  | connectReceived =>
    cases hs
    exact ⟨_, rfl, hnext _ rfl (by simp [floor])⟩
  | register =>
    simp only [addStep] at hs
    by_cases hl : s.locked = true
    · rw [if_pos hl] at hs
      cases hs
    · rw [if_neg hl] at hs
      cases hs
      exact ⟨_, rfl, .lock _ _ _ rest .server rfl rfl rfl (Nat.le_refl 4)
        (Nat.lt_succ_self 4) (fun h => h.elim) id⟩
  | unlock =>
    cases hs
    exact ⟨_, rfl, hnext _ rfl (by simp [floor])⟩
  | waitNextConnection =>
    cases hs
    exact ⟨rest, leave_threads, .pop _ rest⟩

theorem slotStep_moves {sig : ConnectionSignal} {pc : SlotPc}
    (hs : s.slotStep t sig conn rest pc = some s') :
    ∃ stack', s'.threads = s.threads.set t stack' ∧ Moves (.slot sig conn pc :: rest) stack' := by
  cases pc with
  | emit =>
    cases hs
    refine ⟨_, rfl, .push _ _ _ rest rfl rfl id id (Nat.le_refl _) ?_⟩
    cases sig <;> simp [floor, Mutex.rank, ConnectionSignal.forwarded]
  | removeConnection =>
    simp only [slotStep] at hs
    by_cases hl : s.locked = true
    · rw [if_pos hl] at hs
      cases hs
    · rw [if_neg hl] at hs
      cases hs
      exact ⟨_, rfl, .next _ _ rest rfl id (by simp [floor])⟩
  | returns =>
    cases hs
    exact ⟨rest, leave_threads, .pop _ rest⟩

theorem advance_moves (hs : s.advance t stack = some s') :
    ∃ stack', s'.threads = s.threads.set t stack' ∧ Moves stack stack' := by
  rcases stack with _ | ⟨f, rest⟩
  · cases hs
  cases f with
  | accept conn session pc => exact addStep_moves hs
  | reading conn =>
    obtain ⟨c, -, rfl⟩ := Option.map_eq_some_iff.mp hs
    exact ⟨rest, rfl, .pop _ rest⟩
  | call sig conn =>
    simp only [advance] at hs
    by_cases hmem : .emission sig conn ∈ Threads.frames s.threads
    · rw [if_pos hmem] at hs
      cases hs
    · rw [if_neg hmem] at hs
      by_cases hslot : s.slots conn sig = true
      · rw [if_pos hslot] at hs
        cases hs
        exact ⟨_, rfl, .lock _ _ _ rest _ rfl rfl rfl (Nat.le_refl _)
          (rank_lt_forwarded sig conn) (fun h => h.elim) id⟩
      · rw [if_neg hslot] at hs
        cases hs
        exact ⟨rest, leave_threads, .pop _ rest⟩
  | slot sig conn pc => exact slotStep_moves hs
  | serverCall sig arg =>
    simp only [advance] at hs
    by_cases hmem : .serverEmission sig ∈ Threads.frames s.threads
    · rw [if_pos hmem] at hs
      cases hs
    · rw [if_neg hmem] at hs
      cases hs
      exact ⟨_, rfl, .lock _ _ _ rest _ rfl rfl rfl (Nat.le_refl _)
        (rank_lt_six _) (fun _ => ⟨sig, rfl⟩) id⟩
  | exception =>
    cases rest with
    | nil =>
      cases hs
      exact ⟨[], leave_threads, .pop _ []⟩
    | cons g rest =>
      cases hs
      exact ⟨_, leave_threads, .unwind g rest⟩
  | emission sig conn =>
    cases hs
    exact ⟨rest, leave_threads, .pop _ rest⟩
  | serverEmission sig =>
    cases hs
    exact ⟨rest, leave_threads, .pop _ rest⟩
  | userSlot arg =>
    cases hs
    exact ⟨rest, leave_threads, .pop _ rest⟩
  | callback =>
    cases hs
    exact ⟨rest, leave_threads, .pop _ rest⟩

/-- A step changes the calls of one thread at most. -/
theorem step_moves {a : OwnershipAct κ} (hs : s.step o a = some s') :
    s'.threads = s.threads ∨ s'.threads = s.threads ++ [[]] ∨
    ∃ t stack stack', a.thread = some t ∧ s.threads[t]? = some stack ∧
      s'.threads = s.threads.set t stack' ∧
      (Moves stack stack' ∨ ∃ conn shutdown, a = .close t conn shutdown ∧ userCode stack = true ∧
        stack' = .call .closed conn :: stack) := by
  have hquiet : ∀ (conn : Nat) (e : Emission κ),
      (called conn e).holds = none ∧ ¬ (called conn e).IsUserSlot := by
    intro conn e
    cases e <;> exact ⟨rfl, id⟩
  cases a with
  | setThreadPolicy policy count =>
    cases hs
    exact .inl rfl
  | setEnabled enabled =>
    cases hs
    exact .inl rfl
  | setLastError lastError =>
    cases hs
    exact .inl rfl
  | start bound hardware =>
    cases hs
    exact .inl rfl
  | stop =>
    cases hs
    exact .inl rfl
  | createThread =>
    cases hs
    exact .inr (.inl rfl)
  | readResult conn i buffer err =>
    obtain ⟨c, -, hc⟩ := Option.bind_eq_some_iff.mp hs
    obtain ⟨c', -, rfl⟩ := Option.map_eq_some_iff.mp hc
    exact .inl rfl
  | writeResult conn i err =>
    obtain ⟨c, -, hc⟩ := Option.bind_eq_some_iff.mp hs
    obtain ⟨c', -, rfl⟩ := Option.map_eq_some_iff.mp hc
    exact .inl rfl
  | sessionHandler t i err =>
    simp only [step] at hs
    by_cases hidle : s.server.stopped = false ∧ s.threads[t]? = some []
    · rw [if_pos hidle] at hs
      obtain ⟨op, -, rfl⟩ := Option.map_eq_some_iff.mp hs
      have hone : ∀ f : CallFrame, f.holds = none → ¬ f.IsUserSlot → Moves [] [f] := by
        intro f hf hu
        refine .invoke [f] fun g hg => ?_
        obtain rfl := List.mem_singleton.mp hg
        exact ⟨hf, hu⟩
      have hready : ∀ (x : Ownership κ) (session : Nat), x.threads = s.threads →
          ∃ stack', (x.sessionReady t session err).threads = s.threads.set t stack' ∧
            Moves [] stack' := by
        intro x session hx
        unfold sessionReady
        split
        · exact ⟨_, congrArg (List.set · t _) hx, hone _ rfl id⟩
        · exact ⟨_, congrArg (List.set · t _) hx, hone _ rfl id⟩
      unfold sessionHandler
      split
      · split
        · obtain ⟨stack', hset, hm⟩ := hready
            { s with server := { s.server with ops := s.server.ops.eraseIdx i } } _ rfl
          exact .inr (.inr ⟨t, [], stack', rfl, hidle.2, hset, .inl hm⟩)
        · split
          · exact .inr (.inr ⟨t, [], _, rfl, hidle.2, rfl, .inl (hone _ rfl id)⟩)
          · exact .inl rfl
      · obtain ⟨stack', hset, hm⟩ := hready
          { s with server := { s.server with ops := s.server.ops.eraseIdx i } } _ rfl
        exact .inr (.inr ⟨t, [], stack', rfl, hidle.2, hset, .inl hm⟩)
    · rw [if_neg hidle] at hs
      cases hs
  | readHandler t conn i junk =>
    simp only [step] at hs
    by_cases hidle : s.server.stopped = false ∧ s.threads[t]? = some [] ∧ s.owners conn ≠ 0
    · rw [if_pos hidle] at hs
      obtain ⟨c, -, hc⟩ := Option.bind_eq_some_iff.mp hs
      obtain ⟨⟨c', emitted, goesOn⟩, -, rfl⟩ := Option.map_eq_some_iff.mp hc
      refine .inr (.inr ⟨t, [], _, rfl, hidle.2.1, rfl, .inl (.invoke _ fun f hf => ?_)⟩)
      rcases List.mem_append.mp hf with hf | hf
      · obtain ⟨e, -, rfl⟩ := List.mem_map.mp hf
        exact hquiet conn e
      · cases goesOn with
        | false => cases hf
        | true =>
          obtain rfl := List.mem_singleton.mp hf
          exact ⟨rfl, id⟩
    · rw [if_neg hidle] at hs
      cases hs
  | writeHandler t conn i =>
    simp only [step] at hs
    by_cases hidle : s.server.stopped = false ∧ s.threads[t]? = some [] ∧ s.owners conn ≠ 0
    · rw [if_pos hidle] at hs
      obtain ⟨c, -, hc⟩ := Option.bind_eq_some_iff.mp hs
      obtain ⟨⟨c', emitted⟩, -, rfl⟩ := Option.map_eq_some_iff.mp hc
      refine .inr (.inr ⟨t, [], _, rfl, hidle.2.1, rfl, .inl (.invoke _ fun f hf => ?_)⟩)
      obtain ⟨e, -, rfl⟩ := List.mem_map.mp hf
      exact hquiet conn e
    · rw [if_neg hidle] at hs
      cases hs
  | advance t =>
    obtain ⟨stack, hst, hadv⟩ := Option.bind_eq_some_iff.mp hs
    obtain ⟨stack', hset, hm⟩ := advance_moves hadv
    exact .inr (.inr ⟨t, stack, stack', rfl, hst, hset, .inl hm⟩)
  | dispatch conn ptr buffer =>
    obtain ⟨c, -, rfl⟩ := Option.map_eq_some_iff.mp hs
    exact .inl rfl
  | createStream conn cmd command cb =>
    obtain ⟨c, -, rfl⟩ := Option.map_eq_some_iff.mp hs
    cases cb <;> exact .inl rfl
  | close t conn shutdown =>
    obtain ⟨stack, hst, hclose⟩ := Option.bind_eq_some_iff.mp hs
    by_cases huser : userCode stack = true ∧ s.owners conn ≠ 0
    · rw [if_pos huser] at hclose
      obtain ⟨c, -, rfl⟩ := Option.map_eq_some_iff.mp hclose
      rcases c.close_cases shutdown with ⟨-, -, ops, heq⟩ | ⟨-, e, heq⟩
      · rw [heq]
        exact .inr (.inr ⟨t, stack, _, rfl, hst, rfl,
          .inr ⟨conn, shutdown, rfl, huser.1, rfl⟩⟩)
      · rw [heq]
        exact .inr (.inr ⟨t, stack, _, rfl, hst, rfl, .inl (.throw stack)⟩)
    · rw [if_neg huser] at hclose
      cases hclose
  | catchException t =>
    simp only [step] at hs
    split at hs
    · rename_i stack hst
      split_ifs at hs
      cases hs
      exact .inr (.inr ⟨t, _, stack, rfl, hst, rfl, .inl (.pop .exception stack)⟩)
    · cases hs
  | take conn =>
    simp only [step] at hs
    split_ifs at hs
    cases hs
    exact .inl rfl
  | drop t conn =>
    obtain ⟨stack, -, hdrop⟩ := Option.bind_eq_some_iff.mp hs
    split_ifs at hdrop
    cases hdrop
    left
    unfold release
    split <;> rfl

/-! ## What a thread holds -/

/-- What the calls below a call hold ranks below all that it locks or holds, and a slot of user code runs
    in an emission of the server. -/
def Ranked : List CallFrame → Prop
  | [] => True
  | f :: rest => (∀ g ∈ rest, ∀ m, g.holds = some m → m.rank < f.floor) ∧
      (f.IsUserSlot → ∃ sig rest', rest = .serverEmission sig :: rest') ∧ Ranked rest

theorem ranked_of_quiet {calls : List CallFrame}
    (h : ∀ f ∈ calls, f.holds = none ∧ ¬ f.IsUserSlot) : Ranked calls := by
  induction calls with
  | nil => trivial
  | cons f rest ih =>
    have hrest : ∀ g ∈ rest, g.holds = none ∧ ¬ g.IsUserSlot := fun g hg =>
      h g (List.mem_cons_of_mem f hg)
    refine ⟨fun g hg m hm => ?_, fun hu => absurd hu (h f List.mem_cons_self).2, ih hrest⟩
    rw [(hrest g hg).1] at hm
    cases hm

/-- Below another call at the place of `f`, all ranks are still lower. -/
theorem Ranked.below {g : CallFrame} (h : Ranked (f :: rest)) (hle : f.floor ≤ g.floor) :
    ∀ k ∈ rest, ∀ m, k.holds = some m → m.rank < g.floor := by
  intro k hk m hm
  have := h.1 k hk m hm
  omega

theorem Moves.ranked (hm : Moves stack stack') (h : Ranked stack) : Ranked stack' := by
  cases hm with
  | invoke calls hquiet => exact ranked_of_quiet hquiet
  | next f g rest hg hu hle => exact ⟨h.below hle, fun hus => absurd hus hu, h.2.2⟩
  | push f g k rest hg hk hug huk hfg hfk =>
    have hbelow : Ranked (k :: rest) := ⟨h.below hfk, fun hus => absurd hus huk, h.2.2⟩
    refine ⟨fun x hx m hm => ?_, fun hus => absurd hus hug, hbelow⟩
    rcases List.mem_cons.mp hx with rfl | hx
    · rw [hk] at hm
      cases hm
    · exact h.below hfg x hx m hm
  | lock f g k rest m hf hk hg hfk hmg hug huk =>
    have hbelow : Ranked (k :: rest) := ⟨h.below hfk, fun hus => absurd hus huk, h.2.2⟩
    have hle : f.floor ≤ m.rank := floor_le_acquires hf
    refine ⟨fun x hx n hn => ?_, fun hus => ?_, hbelow⟩
    · rcases List.mem_cons.mp hx with rfl | hx
      · rw [hk] at hn
        cases hn
        exact hmg
      · have := h.1 x hx n hn
        omega
    · obtain ⟨sig, rfl⟩ := hug hus
      exact ⟨sig, rest, rfl⟩
  | pop f rest => exact h.2.2
  | unwind f rest =>
    exact ⟨fun g hg m hm => h.1 g (List.mem_cons_of_mem f hg) m hm, fun hus => hus.elim, h.2.2.2.2⟩
  | throw stack =>
    exact ⟨fun g _ m _ => rank_lt_six m, fun hus => hus.elim, h⟩

/-- Where user code runs, a thread holds nothing, or nothing above the signal in whose slot it runs. -/
theorem Ranked.userCode (h : Ranked stack) (hu : userCode stack = true) {m : Mutex} (hf : f ∈ stack)
    (hm : f.holds = some m) :
    ∃ sig, LockOrder.slotOf stack = some sig ∧ m.rank ≤ (Mutex.serverSignal sig).rank := by
  rcases stack with _ | ⟨g, rest⟩
  · cases hf
  cases g with
  | userSlot arg =>
    obtain ⟨-, hseat, hrest⟩ := h
    obtain ⟨sig, rest', rfl⟩ := hseat trivial
    refine ⟨sig, rfl, ?_⟩
    rcases List.mem_cons.mp hf with rfl | hf
    · cases hm
    rcases List.mem_cons.mp hf with rfl | hf
    · cases hm
      exact Nat.le_refl _
    · exact Nat.le_of_lt (hrest.1 f hf m hm)
  | callback =>
    rcases List.mem_cons.mp hf with rfl | hf
    · cases hm
    · exact absurd (h.1 f hf m hm) (Nat.not_lt_zero _)
  | _ => cases hu

end Ownership

namespace LockOrder

open Ownership

variable {s s' : LockOrder κ}

/-- What a step does to the threads, as `Ownership.step_moves` says it. -/
theorem step_moves {a : LockOrderAct κ} (hs : s.step o a = some s') :
    (s'.base = s.base ∧ (∀ t, ∀ m ∈ s'.destroying t, m ∈ s.destroying t) ∧
      ((∃ t, a = .ask t ∧ s'.asking = t :: s.asking ∧
        ∃ stack, s.base.threads[t]? = some stack ∧ userCode stack = true) ∨
      ∀ t ∈ s'.asking, t ∈ s.asking)) ∨
    ∃ b, a = .base b ∧ s.base.step o b = some s'.base ∧ s'.destroying = s.destroyed s'.base ∧
      s'.asking = s.asking ∧ ∀ t, b.thread = some t → t ∉ s.asking := by
  cases a with
  | base b =>
    simp only [step] at hs
    split_ifs at hs with hbusy
    obtain ⟨base, hb, rfl⟩ := Option.map_eq_some_iff.mp hs
    exact .inr ⟨b, rfl, hb, rfl, rfl, fun t ht hmem => hbusy ⟨t, ht, .inl hmem⟩⟩
  | ask t =>
    obtain ⟨stack, hst, hs⟩ := Option.bind_eq_some_iff.mp hs
    split_ifs at hs with huser
    cases hs
    exact .inl ⟨rfl, fun _ _ hm => hm, .inl ⟨t, rfl, rfl, stack, hst, huser.1⟩⟩
  | answer t =>
    simp only [step] at hs
    split_ifs at hs
    cases hs
    exact .inl ⟨rfl, fun _ _ hm => hm, .inr fun _ hu => List.mem_of_mem_erase hu⟩
  | destroy t =>
    simp only [step] at hs
    split at hs
    · cases hs
    · rename_i m rest heq
      split_ifs at hs
      cases hs
      refine .inl ⟨rfl, fun u n hn => ?_, .inr fun _ hu => hu⟩
      have hn : n ∈ Function.update s.destroying t rest u := hn
      by_cases hut : u = t
      · subst hut
        rw [Function.update_self] at hn
        rw [heq]
        exact List.mem_cons_of_mem m hn
      · rwa [Function.update_of_ne hut] at hn

/-! ## Freedom from deadlocks -/

/-- The mutex is one of a signal of a connection that has lost its last owner. -/
def Ownerless (s : Ownership κ) (m : Mutex) : Prop :=
  ∃ sig conn, m = .connectionSignal sig conn ∧ conn < s.server.nextConn ∧ s.owners conn = 0

/-- What holds where user code keeps the order. -/
structure Inv (s : LockOrder κ) : Prop where
  ranked : ∀ (t : Nat) (stack : List CallFrame), s.base.threads[t]? = some stack → Ranked stack
  asking : ∀ t ∈ s.asking, ∀ m, s.Holds t m → m.rank < Mutex.server.rank
  sound : s.base.Sound
  shape : s.base.Shape
  made : s.base.Made
  destroying : ∀ t, ∀ m ∈ s.destroying t, Ownerless s.base m

theorem inv_init : (init κ).Inv where
  ranked := by
    intro t stack h
    cases h
  asking := by
    intro t h
    cases h
  sound := sound_init
  shape := shape_init
  made := made_init
  destroying := by
    intro t m h
    cases h

/-- No call holds a mutex of a connection without an owner. -/
theorem Inv.free (h : s.Inv) {m : Mutex} (hm : Ownerless s.base m) : s.Free m := by
  obtain ⟨sig, conn, rfl, -, hzero⟩ := hm
  intro f hf hh
  have hemits : f.emits = some conn := by
    cases f with
    | emission sig' conn' =>
      cases hh
      rfl
    | accept conn' session pc => cases pc <;> cases hh
    | _ => cases hh
  have hpos : 0 < s.base.emissions conn := Threads.count_pos.mpr ⟨f, hf, by simp [hemits]⟩
  have := h.sound.outlives.owned conn hpos
  omega

/-- What `~connection` has still to lock after a step of the server. -/
theorem ownerless_destroyed (hd : ∀ t, ∀ m ∈ s.destroying t, Ownerless s.base m) (hm : s.base.Made)
    {base : Ownership κ} (h : s.base.Sheds base) : ∀ t, ∀ m ∈ s.destroyed base t, Ownerless base m := by
  intro t m hmem
  rcases List.mem_append.mp hmem with hold | hnew
  · obtain ⟨sig, conn, rfl, hlt, hzero⟩ := hd t m hold
    exact ⟨sig, conn, rfl, Nat.lt_of_lt_of_le hlt h.keeps.next, h.keeps.ownerless hlt hzero⟩
  · obtain ⟨d, hdrop, hlocks⟩ := List.mem_flatMap.mp hnew
    have hdrop' : d ∈ base.destructors.drop s.base.destructors.length := (List.mem_filter.mp hdrop).1
    rcases h.destroys with hsame | ⟨d', heq, howned, hzero⟩
    · rw [hsame, List.drop_length] at hdrop'
      cases hdrop'
    · rw [heq, List.drop_left] at hdrop'
      obtain rfl := List.mem_singleton.mp hdrop'
      have hlt : d.conn < base.server.nextConn := howned.lt h.keeps hm
      simp only [Destructor.locks, List.mem_cons, List.not_mem_nil, or_false] at hlocks
      rcases hlocks with rfl | rfl | rfl
      · exact ⟨.received, d.conn, rfl, hlt, hzero⟩
      · exact ⟨.error, d.conn, rfl, hlt, hzero⟩
      · exact ⟨.closed, d.conn, rfl, hlt, hzero⟩

/-- `close()` is called where nothing from the `closed` signal on is held. -/
theorem ranked_close {stack : List CallFrame} {conn : Nat} (h : Ranked stack)
    (hu : userCode stack = true)
    (hslot : slotOf stack ≠ some .connected ∧ slotOf stack ≠ some .disconnected) :
    Ranked (.call .closed conn :: stack) := by
  refine ⟨fun g hg m hm => ?_, fun hus => hus.elim, h⟩
  obtain ⟨sig, hsig, hle⟩ := h.userCode hu hg hm
  have hlow : (Mutex.serverSignal sig).rank < 2 := by
    cases sig with
    | connected => exact absurd hsig hslot.1
    | disconnected => exact absurd hsig hslot.2
    | error => exact Nat.lt_succ_self 1
    | received => exact Nat.lt_succ_self 1
  exact Nat.lt_of_le_of_lt hle hlow

/-- `connections()` is called where nothing from `server::_mutex` on is held. -/
theorem rank_lt_server {stack : List CallFrame} {f : CallFrame} {m : Mutex} (h : Ranked stack)
    (hu : userCode stack = true) (hslot : slotOf stack ≠ some .connected) (hf : f ∈ stack)
    (hm : f.holds = some m) : m.rank < Mutex.server.rank := by
  obtain ⟨sig, hsig, hle⟩ := h.userCode hu hf hm
  have hlow : (Mutex.serverSignal sig).rank < Mutex.server.rank := by
    cases sig with
    | connected => exact absurd hsig hslot
    | disconnected => exact Nat.lt_succ_self 3
    | error => exact (by decide : 1 < 4)
    | received => exact (by decide : 1 < 4)
  exact Nat.lt_of_le_of_lt hle hlow

/-- The calls of the threads after a step of the server. -/
theorem Inv.threads {b : OwnershipAct κ} (h : s.Inv) (hk : s.KeepsOrder (.base b))
    (hb : s.base.step o b = some s'.base) (hasking : s'.asking = s.asking)
    (hactor : ∀ t, b.thread = some t → t ∉ s.asking) :
    (∀ (t : Nat) (stack : List CallFrame), s'.base.threads[t]? = some stack → Ranked stack) ∧
    ∀ t ∈ s'.asking, ∀ m, s'.Holds t m → m.rank < Mutex.server.rank := by
  rcases Ownership.step_moves hb with hsame | hnew | ⟨t, stack, stack', hact, hst, hset, hmoves⟩
  · refine ⟨fun t stack hst => h.ranked t stack (hsame ▸ hst), fun t ht m hm => ?_⟩
    unfold Holds at hm
    rw [hsame] at hm
    exact h.asking t (hasking ▸ ht) m hm
  · have hold : ∀ (t : Nat) (stack : List CallFrame), s'.base.threads[t]? = some stack →
        s.base.threads[t]? = some stack ∨ stack = [] := by
      intro t stack hst
      rw [hnew] at hst
      by_cases hlt : t < s.base.threads.length
      · rw [List.getElem?_append_left hlt] at hst
        exact .inl hst
      · rw [List.getElem?_append_right (Nat.le_of_not_lt hlt)] at hst
        exact .inr (List.mem_singleton.mp (List.mem_of_getElem? hst))
    refine ⟨fun t stack hst => ?_, fun t ht m hm => ?_⟩
    · rcases hold t stack hst with hst | rfl
      · exact h.ranked t stack hst
      · trivial
    · obtain ⟨stack, hst, f, hf, hfm⟩ := hm
      rcases hold t stack hst with hst | rfl
      · exact h.asking t (hasking ▸ ht) m ⟨stack, hst, f, hf, hfm⟩
      · cases hf
  · have hranked : Ranked stack' := by
      rcases hmoves with hm | ⟨conn, shutdown, rfl, huser, rfl⟩
      · exact hm.ranked (h.ranked t stack hst)
      · exact ranked_close (h.ranked t stack hst) huser (hk.2 t rfl stack hst)
    refine ⟨fun u su hsu => ?_, fun u hu m hm => ?_⟩
    · rw [hset] at hsu
      by_cases hut : t = u
      · subst hut
        rw [List.getElem?_set_self (List.getElem?_eq_some_iff.mp hst).1] at hsu
        obtain rfl := Option.some.inj hsu
        exact hranked
      · rw [List.getElem?_set_ne hut] at hsu
        exact h.ranked u su hsu
    · rw [hasking] at hu
      have hut : t ≠ u := fun heq => hactor t hact (heq ▸ hu)
      obtain ⟨su, hsu, hrest⟩ := hm
      rw [hset, List.getElem?_set_ne hut] at hsu
      exact h.asking u hu m ⟨su, hsu, hrest⟩

theorem inv_step {a : LockOrderAct κ} (h : s.Inv) (hk : s.KeepsOrder a) (hs : s.step o a = some s') :
    s'.Inv := by
  rcases step_moves hs with ⟨hbase, hdestroying, hasking⟩ | ⟨b, rfl, hb, hdestroying, hasking, hactor⟩
  · have hholds : ∀ t m, s'.Holds t m → s.Holds t m := by
      intro t m hm
      unfold Holds at hm ⊢
      rwa [hbase] at hm
    have hask : ∀ t ∈ s'.asking, ∀ m, s'.Holds t m → m.rank < Mutex.server.rank := by
      intro t ht m hm
      rcases hasking with ⟨u, rfl, heq, stack, hst, huser⟩ | hfewer
      · rw [heq] at ht
        rcases List.mem_cons.mp ht with rfl | ht
        · obtain ⟨stack', hst', f, hf, hfm⟩ := hholds t m hm
          rw [hst] at hst'
          obtain rfl := Option.some.inj hst'
          exact rank_lt_server (h.ranked t stack hst) huser (hk stack hst) hf hfm
        · exact h.asking t ht m (hholds t m hm)
      · exact h.asking t (hfewer t ht) m (hholds t m hm)
    refine ⟨fun t stack hst => h.ranked t stack (hbase ▸ hst), hask, hbase ▸ h.sound, hbase ▸ h.shape,
      hbase ▸ h.made, fun t m hm => ?_⟩
    rw [hbase]
    exact h.destroying t m (hdestroying t m hm)
  · obtain ⟨hranked, hask⟩ := h.threads hk hb hasking hactor
    obtain ⟨houtlives, hkeys⟩ := step_outlives_iff h.sound h.shape hb
    have hsheds : s.base.Sheds s'.base := step_sheds hb
    refine ⟨hranked, hask, ⟨houtlives.mpr hk.1, hkeys⟩, step_shape h.shape hb, hsheds.keeps.made h.made,
      fun t m hm => ?_⟩
    rw [hdestroying] at hm
    exact ownerless_destroyed h.destroying h.made hsheds t m hm

theorem free_of_not_holds {m : Mutex} (h : ∀ t, ¬ s.Holds t m) : s.Free m := by
  intro f hf hm
  obtain ⟨stack, hstack, hfs⟩ := List.mem_flatten.mp hf
  obtain ⟨t, ht⟩ := List.mem_iff_getElem?.mp hstack
  exact h t ⟨stack, ht, f, hfs, hm⟩

theorem locked_of_free (h : s.Free .server) : s.base.locked = false := by
  by_contra hne
  obtain ⟨f, hf, hlocks⟩ := List.any_eq_true.mp (eq_true_of_ne_false hne)
  refine h f hf ?_
  unfold CallFrame.locks at hlocks
  split at hlocks
  · rfl
  · cases hlocks

/-- The innermost call goes on unless it waits for a mutex that is held. -/
theorem advance_isSome {t : Nat} {f : CallFrame} {rest : List CallFrame}
    (hfree : ∀ m, f.acquires = some m → s.Free m) (hreading : ∀ conn, f ≠ .reading conn) :
    (s.base.advance t (f :: rest)).isSome := by
  cases f with
  | accept conn session pc =>
    cases pc with
    | register =>
      have hl : s.base.locked = false := locked_of_free (hfree _ rfl)
      simp [advance, addStep, hl]
    | _ => rfl
  | reading conn => exact absurd rfl (hreading conn)
  | call sig conn =>
    have hmem : .emission sig conn ∉ Threads.frames s.base.threads := fun hf =>
      hfree _ rfl _ hf rfl
    simp only [advance, if_neg hmem]
    split <;> rfl
  | slot sig conn pc =>
    cases pc with
    | removeConnection =>
      have hl : s.base.locked = false := locked_of_free (hfree _ rfl)
      simp [advance, slotStep, hl]
    | _ => rfl
  | serverCall sig arg =>
    have hmem : .serverEmission sig ∉ Threads.frames s.base.threads := fun hf =>
      hfree _ rfl _ hf rfl
    simp [advance, hmem]
  | exception => cases rest <;> rfl
  | _ => rfl

/-- A thread that holds a mutex and is not blocked goes on. -/
theorem Inv.goesOn (h : s.Inv) {t : Nat} {m : Mutex} (hm : s.Holds t m)
    (hready : ¬ s.holdings.Blocked t) : s.GoesOn o t := by
  have hnone : ∀ n, s.Waits t n → s.Free n := fun n hn =>
    free_of_not_holds fun u hu => hready ⟨n, hn, u, hu⟩
  by_cases hask : t ∈ s.asking
  · refine .inr (.inl ?_)
    have hl : s.base.locked = false := locked_of_free (hnone _ (.inl ⟨hask, rfl⟩))
    simp [step, hask, hl]
  · rcases hd : s.destroying t with _ | ⟨n, rest⟩
    case cons =>
      refine .inr (.inr ?_)
      have hfree : s.Free n := hnone n (.inr (.inl (by rw [hd]; rfl)))
      simp [step, hd, hfree]
    left
    obtain ⟨stack, hst, f, hf, hfm⟩ := hm
    rcases stack with _ | ⟨g, rest⟩
    · cases hf
    -- a handler that waits for the next package is the only call of its thread, and holds nothing
    have hreading : ∀ conn, g ≠ .reading conn := by
      rintro conn rfl
      rcases List.mem_cons.mp hf with rfl | hf
      · cases hfm
      · exact absurd ((h.ranked t _ hst).1 f hf m hfm) (Nat.not_lt_zero _)
    have hadv : (s.base.advance t (g :: rest)).isSome :=
      advance_isSome (fun n hn => hnone n (.inr (.inr ⟨hask, hd, g, rest, hst, hn⟩))) hreading
    have hbusy : ¬ ∃ u ∈ (OwnershipAct.advance t : OwnershipAct κ).thread,
        u ∈ s.asking ∨ s.destroying u ≠ [] := by
      simp [OwnershipAct.thread, hask, hd]
    simp only [step, if_neg hbusy, Option.isSome_map, Ownership.step, hst, Option.bind_some]
    exact hadv

/-- Two clients are accepted by the first of two threads. -/
def twoClients : List (LockOrderAct Unit) :=
  [.base (.start none 2), .base .createThread, .base .createThread] ++
    (.base (.sessionHandler 0 0 .success) :: List.replicate 9 (.base (.advance 0))) ++
    (.base (.sessionHandler 0 0 .success) :: List.replicate 9 (.base (.advance 0)))

/-- The first client hangs up, and a slot of `connected` for a third one closes its connection. -/
def closeInConnected : List (LockOrderAct Unit) :=
  twoClients ++
    [.base (.readResult 0 0 [] .eof), .base (.readHandler 1 0 0 fun _ => 0), .base (.advance 1),
      .base (.advance 1), .base (.advance 1), .base (.advance 1), .base (.advance 1)] ++
    (.base (.sessionHandler 0 0 .success) :: List.replicate 5 (.base (.advance 0))) ++
    [.base (.close 0 0 .success)]

/-- The condition on `close()` is needed: the two threads wait for each other. -/
theorem deadlock_close_in_connected :
    ∃ s, run (step .little) (init Unit) closeInConnected = some s ∧ s.holdings.Deadlock {0, 1} := by
  obtain ⟨s, hr, hs⟩ : ∃ s, run (step .little) (init Unit) closeInConnected = some s ∧
      (s.asking, s.destroying 0 ++ s.destroying 1, s.base.threads[0]?, s.base.threads[1]?) =
        ([], [],
          some [.call .closed 0, .userSlot (some 2), .serverEmission .connected, .accept 2 2 .unlock],
          some [.slot .closed 0 .removeConnection, .emission .closed 0]) :=
    Option.map_eq_some_iff.mp (by decide +kernel)
  obtain ⟨hasking, ⟨hd0, hd1⟩, h0, h1⟩ : _ ∧ (_ ∧ _) ∧ _ ∧ _ := by simpa using hs
  refine ⟨s, hr, ⟨0, Finset.mem_insert_self 0 _⟩, fun t ht => ?_⟩
  have hone : 1 ∈ ({0, 1} : Finset Nat) := by decide
  rcases Finset.mem_insert.mp ht with rfl | ht
  · exact ⟨.connectionSignal .closed 0, .inr (.inr ⟨by simp [hasking], hd0, .call .closed 0, _, h0, rfl⟩),
      1, hone, _, h1, .emission .closed 0, by simp, rfl⟩
  · obtain rfl := Finset.mem_singleton.mp ht
    exact ⟨.server, .inr (.inr ⟨by simp [hasking], hd1, .slot .closed 0 .removeConnection, _, h1, rfl⟩),
      0, Finset.mem_insert_self 0 _, _, h0, .accept 2 2 .unlock, by simp, rfl⟩

/-- The first client hangs up while user code holds no copy of its connection. -/
def lastOwnerInSlot : List (LockOrderAct Unit) :=
  twoClients ++ [.base (.readResult 0 0 [] .eof), .base (.readHandler 1 0 0 fun _ => 0)] ++
    List.replicate 7 (.base (.advance 1)) ++ [.destroy 1, .destroy 1]

/-- The condition on the last owner is needed: `~signal` of `closed` waits for the mutex that its own thread
    holds. -/
theorem deadlock_last_owner_in_slot :
    ∃ s, run (step .little) (init Unit) lastOwnerInSlot = some s ∧ s.holdings.Deadlock {1} := by
  obtain ⟨s, hr, hs⟩ : ∃ s, run (step .little) (init Unit) lastOwnerInSlot = some s ∧
      (s.destroying 1, s.base.threads[1]?) =
        ([.connectionSignal .closed 0], some [.emission .closed 0]) :=
    Option.map_eq_some_iff.mp (by decide +kernel)
  obtain ⟨hdestroying, h1⟩ : _ ∧ _ := by simpa using hs
  refine ⟨s, hr, ⟨1, Finset.mem_singleton_self 1⟩, fun t ht => ?_⟩
  obtain rfl := Finset.mem_singleton.mp ht
  exact ⟨.connectionSignal .closed 0, .inr (.inl (by rw [hdestroying]; rfl)), 1, ht, _, h1,
    .emission .closed 0, by simp, rfl⟩

end LockOrder

end Lnetlib
