import Lnetlib.Server.Reentrancy

/-!
# When a slot relocks the mutex of the server

`server::_mutex` is held by the thread only below the slots of `connected` (`Shape`). From there a slot comes
back to it by `connections()`, or by a `close()` whose `closed` signal the server answers with
`remove_connection`. That call is not reached if a slot of `disconnected` closes the connection again: the
second `close()` throws, and the exception unlocks the mutex.
-/

namespace Lnetlib

open Bytes Transition

namespace Reentrancy

variable {κ : Type} {o : ByteOrder} {slots : UserSlots} {s s' : Reentrancy κ} {conn : Nat}

/-- Whether the socket of a connection is open, for a connection that exists. -/
def isOpen (s : Reentrancy κ) (conn : Nat) : Option Bool :=
  (s.server.conns conn).map fun c => c.socket.isOpen

/-- A connection is replaced by one whose socket is as open. -/
theorem setConn_isOpen {c c' : Connection κ} (hc : s.server.conns conn = some c)
    (hopen : c'.socket.isOpen = c.socket.isOpen) : (s.setConn conn c').isOpen = s.isOpen := by
  funext conn'
  unfold isOpen setConn
  by_cases h : conn' = conn
  · rw [h, hc]
    simp [hopen]
  · simp [h]

/-- A stream that is sent leaves the sockets as open as they are. -/
theorem send_isOpen {c : Connection κ} (hc : s.server.conns conn = some c) (cmd : CommandType)
    (command : cmd.Value) : (s.send o conn cmd command c).isOpen = s.isOpen := by
  unfold send
  dsimp only
  split
  · rename_i buffer _
    obtain ⟨locked, packages, ops, heq⟩ :=
      (c.createStream o cmd command).2.dispatchLocked_eq (Connection.createPackage o s.next buffer)
    rw [heq]
    exact setConn_isOpen hc rfl
  · exact setConn_isOpen hc rfl

/-! ## A thread that holds nothing -/

/-- The call is `connected_handler`. -/
def registers : ThreadFrame → Bool
  | .accept _ _ _ => true
  | _ => false

/-- No call of the thread is `connected_handler`. -/
def Free (stack : List ThreadFrame) : Prop := ∀ f ∈ stack, registers f = false

theorem Free.nil : Free [] := fun _ hf => (by cases hf)

theorem Free.cons {f : ThreadFrame} {stack : List ThreadFrame} (hf : registers f = false)
    (h : Free stack) : Free (f :: stack) := by
  intro g hg
  rcases List.mem_cons.mp hg with rfl | hg
  · exact hf
  · exact h g hg

theorem Free.tail {f : ThreadFrame} {stack : List ThreadFrame} (h : Free (f :: stack)) : Free stack :=
  fun g hg => h g (List.mem_cons_of_mem f hg)

theorem Free.append {fs gs : List ThreadFrame} (hf : Free fs) (hg : Free gs) : Free (fs ++ gs) := by
  intro g h
  rcases List.mem_append.mp h with h | h
  · exact hf g h
  · exact hg g h

theorem Free.not_held {stack : List ThreadFrame} (h : Free stack) : held stack = false := by
  refine List.any_eq_false.mpr fun f hf => ?_
  have hr : registers f = false := h f hf
  cases f with
  | accept conn session pc => cases hr
  | _ => exact Bool.false_ne_true

theorem emit_eq_some {sig : ServerSignal} {arg : Option Nat} {stack : List ThreadFrame}
    (h : s.emit slots sig arg stack = some s') :
    s' = s.setStack (.serverEmission sig arg (slots sig) :: stack) := by
  unfold emit at h
  split_ifs at h
  exact (Option.some.inj h).symm

/-- The next call of a slot passes, or it closes the connection, or it throws. -/
theorem slotCall_cases {arg : Option Nat} {call : SlotCall} {calls : List SlotCall}
    {rest : List ThreadFrame} {shutdown : ErrorCode}
    (h : s.slotCall o arg call calls rest shutdown = some s') :
    ((call = .close → arg = none) ∧ s'.stack = .userSlot arg calls :: rest ∧ s'.isOpen = s.isOpen) ∨
    (call = .close ∧ ∃ conn, arg = some conn ∧ s.isOpen conn = some true ∧ s'.isOpen conn = some false ∧
      s'.stack = .call .closed conn :: .userSlot arg calls :: rest) ∨
    (call = .close ∧ s'.stack = .exception :: .userSlot arg calls :: rest ∧ s'.isOpen = s.isOpen) := by
  unfold slotCall at h
  split at h
  · obtain rfl := Option.some.inj h
    exact .inl ⟨fun hc => (by cases hc), rfl, rfl⟩
  · rename_i cmd command conn
    obtain ⟨c, hc, rfl⟩ := Option.map_eq_some_iff.mp h
    exact .inl ⟨fun hc => (by cases hc), rfl, send_isOpen hc cmd command⟩
  · rename_i conn
    obtain ⟨c, hc, hs⟩ := Option.map_eq_some_iff.mp h
    rcases c.close_cases shutdown with ⟨hopen, -, ops, hclose⟩ | ⟨-, e, hclose⟩
    · rw [hclose] at hs
      subst hs
      refine .inr (.inl ⟨rfl, conn, rfl, ?_, ?_, rfl⟩)
      · simp [isOpen, hc, hopen]
      · simp [isOpen, setStack, setConn]
    · rw [hclose] at hs
      subst hs
      exact .inr (.inr ⟨rfl, rfl, rfl⟩)
  · obtain rfl := Option.some.inj h
    exact .inl ⟨fun hc => (by cases hc), rfl, rfl⟩
  · obtain rfl := Option.some.inj h
    exact .inl ⟨fun _ => rfl, rfl, rfl⟩

/-- A step of the innermost call leaves no `connected_handler` behind that was not there. -/
theorem advance_free {shutdown : ErrorCode} {stack : List ThreadFrame} (hfree : Free stack)
    (h : s.advance o slots shutdown stack = some s') : Free s'.stack := by
  unfold advance at h
  split at h
  · cases h
  · exact absurd (hfree _ (List.mem_cons_self ..)) Bool.noConfusion
  · exact absurd (hfree _ (List.mem_cons_self ..)) Bool.noConfusion
  · obtain ⟨c, -, rfl⟩ := Option.map_eq_some_iff.mp h
    exact hfree.tail
  · split_ifs at h
    obtain rfl := Option.some.inj h
    exact (hfree.tail.cons rfl).cons rfl
  · obtain rfl := Option.some.inj h
    exact hfree.tail
  · obtain rfl := emit_eq_some h
    exact (hfree.tail.cons rfl).cons rfl
  · obtain rfl := Option.some.inj h
    exact hfree.tail.cons rfl
  · obtain rfl := Option.some.inj h
    exact hfree.tail
  · obtain rfl := Option.some.inj h
    exact (hfree.tail.cons rfl).cons rfl
  · obtain rfl := Option.some.inj h
    exact hfree.tail
  · rcases slotCall_cases h with ⟨-, hs, -⟩ | ⟨-, conn, -, -, -, hs⟩ | ⟨-, hs, -⟩
    · exact hs ▸ hfree.tail.cons rfl
    · exact hs ▸ (hfree.tail.cons rfl).cons rfl
    · exact hs ▸ (hfree.tail.cons rfl).cons rfl
  · obtain rfl := Option.some.inj h
    exact hfree.tail
  · obtain rfl := Option.some.inj h
    exact hfree.tail.tail.cons rfl
  · cases h

/-! ## The slots of `connected` -/

/-- The first slot of `connected` may go on with these calls, with these slots after it. -/
structure Harmless (slots : UserSlots) (calls : List SlotCall) (later : List (List SlotCall)) : Prop where
  asks : asksFirst calls = false
  closes : closesFirst calls = true → (slots .disconnected).head?.any closesFirst = true
  later : closesFirst calls = false → later.any Reentrancy.asks = false

/-- The calls above `connected_handler` while it holds `server::_mutex`, with the socket of its connection
    open or closed. -/
inductive Calm (slots : UserSlots) (conn : Nat) : Bool → List ThreadFrame → Prop
  | connected : Calm slots conn true [.serverEmission .connected (some conn) (slots .connected)]
  | first (calls : List SlotCall) (later : List (List SlotCall)) (h : Harmless slots calls later) :
      Calm slots conn true [.userSlot (some conn) calls, .serverEmission .connected none later]
  | between (b : Bool) (later : List (List SlotCall)) (h : later.any Reentrancy.asks = false) :
      Calm slots conn b [.serverEmission .connected none later]
  | later (b : Bool) (calls : List SlotCall) (later : List (List SlotCall))
      (hcalls : Reentrancy.asks calls = false) (h : later.any Reentrancy.asks = false) :
      Calm slots conn b [.userSlot none calls, .serverEmission .connected none later]
  | returned (b : Bool) : Calm slots conn b []
  /-- The first slot has closed the connection. -/
  | closed (base : List ThreadFrame) (hbase : Free base)
      (h : (slots .disconnected).head?.any closesFirst = true) :
      Calm slots conn false (.call .closed conn :: base)
  | closedSlot (base : List ThreadFrame) (hbase : Free base)
      (h : (slots .disconnected).head?.any closesFirst = true) :
      Calm slots conn false (.slot .closed conn .emit :: base)
  | disconnected (base : List ThreadFrame) (hbase : Free base)
      (h : (slots .disconnected).head?.any closesFirst = true) :
      Calm slots conn false (.serverEmission .disconnected (some conn) (slots .disconnected) :: base)
  | closes (calls : List SlotCall) (base : List ThreadFrame) (hbase : Free base)
      (h : closesFirst calls = true) : Calm slots conn false (.userSlot (some conn) calls :: base)
  | thrown (b : Bool) (base : List ThreadFrame) (hbase : Free base) :
      Calm slots conn b (.exception :: base)

/-- What the thread is doing. -/
inductive Shape (slots : UserSlots) (s : Reentrancy κ) : Prop
  | free (h : Free s.stack)
  | registering (conn session : Nat) (hs : s.stack = [.accept conn session .lock])
      (hopen : s.isOpen conn = some true)
  | registered (conn session : Nat) (b : Bool) (above : List ThreadFrame)
      (hs : s.stack = above ++ [.accept conn session .unlock]) (hopen : s.isOpen conn = some b)
      (h : Calm slots conn b above)

theorem Harmless.send {cmd : CommandType} {command : cmd.Value} {calls : List SlotCall}
    {later : List (List SlotCall)} (h : Harmless slots (.send cmd command :: calls) later) :
    Harmless slots calls later := { asks := h.asks, closes := h.closes, later := h.later }

theorem harmless_of_relocks {calls : List SlotCall} {later : List (List SlotCall)}
    (hslots : slots .connected = calls :: later) (h : relocks slots = false) :
    Harmless slots calls later := by
  unfold relocks at h
  rw [hslots] at h
  simp only [Bool.or_eq_false_iff] at h
  obtain ⟨⟨hasks, hcloses⟩, hlater⟩ := h
  refine { asks := hasks, closes := fun hc => ?_, later := fun hc => ?_ }
  · simpa [hc] using hcloses
  · simpa [hc] using hlater

theorem asks_tail {call : SlotCall} {calls : List SlotCall} (h : asks (call :: calls) = false) :
    asks calls = false := by
  unfold asks at h
  rw [List.any_cons, Bool.or_eq_false_iff] at h
  exact h.2

theorem asksFirst_of_closesFirst {calls : List SlotCall} (h : closesFirst calls = true) :
    asksFirst calls = false := by
  induction calls with
  | nil => rfl
  | cons call calls ih =>
    cases call with
    | connections => cases h
    | send => exact ih h
    | close => rfl

theorem asksFirst_of_asks {calls : List SlotCall} (h : asks calls = false) : asksFirst calls = false := by
  induction calls with
  | nil => rfl
  | cons call calls ih =>
    cases call with
    | connections => cases h
    | send => exact ih (asks_tail h)
    | close => rfl

theorem userSlot_not_locks {arg : Option Nat} {calls : List SlotCall} {rest : List ThreadFrame}
    (h : asksFirst calls = false) : locks (.userSlot arg calls :: rest) = false := by
  cases calls with
  | nil => rfl
  | cons call calls =>
    cases call with
    | connections => cases h
    | send | close => rfl

/-- No call of these locks the mutex. -/
theorem Calm.not_locks {b : Bool} {above : List ThreadFrame} {session : Nat}
    (h : Calm slots conn b above) : locks (above ++ [.accept conn session .unlock]) = false := by
  cases h with
  | connected | between | returned | closed | closedSlot | disconnected | thrown => rfl
  | first calls later h => exact userSlot_not_locks h.asks
  | later b calls later hcalls => exact userSlot_not_locks (asksFirst_of_asks hcalls)
  | closes calls base hbase h => exact userSlot_not_locks (asksFirst_of_closesFirst h)

theorem Shape.noRelock (h : s.Shape slots) : s.NoRelock := by
  intro hl
  cases h with
  | free h => exact h.not_held
  | registering conn session hs =>
    rw [hs]
    rfl
  | registered conn session b above hs _ h =>
    rw [hs, h.not_locks] at hl
    cases hl

/-! ## Steps -/

/-- The first slot of `connected` goes on. -/
theorem first_step {session : Nat} {calls : List SlotCall} {later : List (List SlotCall)}
    {shutdown : ErrorCode} (hopen : s.isOpen conn = some true) (h : Harmless slots calls later)
    (hs : s.advance o slots shutdown [.userSlot (some conn) calls, .serverEmission .connected none later,
      .accept conn session .unlock] = some s') : s'.Shape slots := by
  cases calls with
  | nil =>
    obtain rfl := Option.some.inj hs
    exact .registered conn session true _ rfl hopen (.between true later (h.later rfl))
  | cons call calls =>
    have hbase : Free [.userSlot (some conn) calls, .serverEmission .connected none later] :=
      (Free.nil.cons rfl).cons rfl
    rcases slotCall_cases hs with ⟨hclose, hstack, hsame⟩ | ⟨rfl, conn', hconn, -, hclosed, hstack⟩ |
      ⟨rfl, hstack, hsame⟩
    · refine .registered conn session true _ hstack (hsame ▸ hopen) (.first calls later ?_)
      cases call with
      | connections => cases h.asks
      | send => exact h.send
      | close => cases hclose rfl
    · obtain rfl := Option.some.inj hconn
      exact .registered conn session false _ hstack hclosed (.closed _ hbase (h.closes rfl))
    · exact .registered conn session true _ hstack (hsame ▸ hopen) (.thrown true _ hbase)

/-- A slot that closes the connection again throws. -/
theorem closes_step {session : Nat} {calls : List SlotCall} {base : List ThreadFrame}
    {shutdown : ErrorCode} (hopen : s.isOpen conn = some false) (hbase : Free base)
    (h : closesFirst calls = true)
    (hs : s.advance o slots shutdown
      (.userSlot (some conn) calls :: base ++ [.accept conn session .unlock]) = some s') :
    s'.Shape slots := by
  cases calls with
  | nil => cases h
  | cons call calls =>
    rcases slotCall_cases hs with ⟨hclose, hstack, hsame⟩ | ⟨rfl, conn', hconn, hopen', -, -⟩ |
      ⟨rfl, hstack, hsame⟩
    · refine .registered conn session false _ hstack (hsame ▸ hopen) (.closes calls base hbase ?_)
      cases call with
      | connections => cases h
      | send => exact h
      | close => cases hclose rfl
    · obtain rfl := Option.some.inj hconn
      rw [hopen] at hopen'
      cases hopen'
    · exact .registered conn session false _ hstack (hsame ▸ hopen) (.thrown false _ (hbase.cons rfl))

/-- A later slot of `connected` has no connection to call. -/
theorem later_step {session : Nat} {b : Bool} {calls : List SlotCall} {later : List (List SlotCall)}
    {shutdown : ErrorCode} (hopen : s.isOpen conn = some b) (hcalls : asks calls = false)
    (h : later.any asks = false)
    (hs : s.advance o slots shutdown [.userSlot none calls, .serverEmission .connected none later,
      .accept conn session .unlock] = some s') : s'.Shape slots := by
  cases calls with
  | nil =>
    obtain rfl := Option.some.inj hs
    exact .registered conn session b _ rfl hopen (.between b later h)
  | cons call calls =>
    rcases slotCall_cases hs with ⟨-, hstack, hsame⟩ | ⟨-, conn', hconn, -⟩ | ⟨-, hstack, hsame⟩
    · exact .registered conn session b _ hstack (hsame ▸ hopen) (.later b calls later (asks_tail hcalls) h)
    · cases hconn
    · exact .registered conn session b _ hstack (hsame ▸ hopen)
        (.thrown b _ ((Free.nil.cons rfl).cons rfl))

/-- A step of a thread in `connected_handler` that holds the mutex. -/
theorem registered_step {session : Nat} {b : Bool} {above : List ThreadFrame} {shutdown : ErrorCode}
    (hslots : relocks slots = false) (hopen : s.isOpen conn = some b) (h : Calm slots conn b above)
    (hs : s.advance o slots shutdown (above ++ [.accept conn session .unlock]) = some s') :
    s'.Shape slots := by
  cases h with
  | connected =>
    cases hc : slots .connected with
    | nil =>
      rw [hc] at hs
      obtain rfl := Option.some.inj hs
      exact .registered conn session true [] rfl hopen (.returned true)
    | cons calls later =>
      rw [hc] at hs
      obtain rfl := Option.some.inj hs
      exact .registered conn session true _ rfl hopen (.first calls later (harmless_of_relocks hc hslots))
  | first calls later h => exact first_step hopen h hs
  | between b later h =>
    cases later with
    | nil =>
      obtain rfl := Option.some.inj hs
      exact .registered conn session b [] rfl hopen (.returned b)
    | cons calls later =>
      obtain rfl := Option.some.inj hs
      rw [List.any_cons, Bool.or_eq_false_iff] at h
      exact .registered conn session b _ rfl hopen (.later b calls later h.1 h.2)
  | later b calls later hcalls h => exact later_step hopen hcalls h hs
  | returned b =>
    obtain rfl := Option.some.inj hs
    exact .free Free.nil
  | closed base hbase h =>
    simp only [List.cons_append, advance] at hs
    split_ifs at hs
    obtain rfl := Option.some.inj hs
    exact .registered conn session false _ rfl hopen (.closedSlot _ (hbase.cons rfl) h)
  | closedSlot base hbase h =>
    obtain rfl := emit_eq_some hs
    exact .registered conn session false _ rfl hopen (.disconnected _ (hbase.cons rfl) h)
  | disconnected base hbase h =>
    cases hd : slots .disconnected with
    | nil =>
      rw [hd] at h
      cases h
    | cons calls more =>
      rw [hd] at hs h
      obtain rfl := Option.some.inj hs
      exact .registered conn session false _ rfl hopen (.closes calls _ (hbase.cons rfl) h)
  | closes calls base hbase h => exact closes_step hopen hbase h hs
  | thrown b base hbase =>
    cases base with
    | nil =>
      obtain rfl := Option.some.inj hs
      exact .free (Free.nil.cons rfl)
    | cons f base =>
      obtain rfl := Option.some.inj hs
      exact .registered conn session b _ rfl hopen (.thrown b base hbase.tail)

theorem Shape.congr (h : s.Shape slots) (hstack : s'.stack = s.stack) (hopen : s'.isOpen = s.isOpen) :
    s'.Shape slots := by
  cases h with
  | free h => exact .free (hstack ▸ h)
  | registering conn session hs ho => exact .registering conn session (hstack.trans hs) (hopen ▸ ho)
  | registered conn session b above hs ho h =>
    exact .registered conn session b above (hstack.trans hs) (hopen ▸ ho) h

/-- What a handler of a connection leaves to be called. -/
theorem called_free (conn : Nat) (emitted : List (Emission κ)) : Free (emitted.flatMap (called conn)) := by
  intro f hf
  obtain ⟨e, -, he⟩ := List.mem_flatMap.mp hf
  cases e with
  | callback => cases he
  | _ =>
    obtain rfl := List.mem_singleton.mp he
    rfl

theorem error_shape (h : s.emit slots .error none [] = some s') : s'.Shape slots := by
  obtain rfl := emit_eq_some h
  exact .free (Free.nil.cons rfl)

theorem sessionReady_shape {session : Nat} {err : ErrorCode}
    (hs : s.sessionReady slots session err = some s') : s'.Shape slots := by
  unfold sessionReady Server.makeConnection at hs
  by_cases he : err.isError = true
  · rw [if_pos he] at hs
    exact error_shape hs
  · rw [if_neg he] at hs
    obtain rfl := Option.some.inj hs
    refine .registering s.server.nextConn session rfl ?_
    simp [isOpen, Connection.construct, Connection.waitPackage, Socket.asyncRead]

/-- The handler of a session reports an error, or starts the handshake, or goes on to `add_connection`. -/
theorem sessionHandler_shape {op : SessionOp} {err : ErrorCode} (hstack : s.stack = [])
    (hs : s.sessionHandler slots op err = some s') : s'.Shape slots := by
  unfold sessionHandler at hs
  split at hs
  · split at hs
    · exact sessionReady_shape hs
    · split_ifs at hs
      · exact error_shape hs
      · obtain rfl := Option.some.inj hs
        exact .free (show Free s.stack from hstack ▸ Free.nil)
  · exact sessionReady_shape hs

theorem advance_shape {shutdown : ErrorCode} (hslots : relocks slots = false) (h : s.Shape slots)
    (hs : s.advance o slots shutdown s.stack = some s') : s'.Shape slots := by
  cases h with
  | free h => exact .free (advance_free h hs)
  | registering conn session hstack hopen =>
    rw [hstack] at hs
    obtain rfl := emit_eq_some hs
    exact .registered conn session true _ rfl hopen .connected
  | registered conn session b above hstack hopen h =>
    rw [hstack] at hs
    exact registered_step hslots hopen h hs

/-- A step keeps the shape, for slots that do not relock the mutex. -/
theorem shape_step {act : ReentrancyAct} (hslots : relocks slots = false) (h : s.Shape slots)
    (hs : s.step o slots act = some s') : s'.Shape slots := by
  cases act with
  | sessionHandler i err =>
    simp only [step] at hs
    split_ifs at hs with hidle
    obtain ⟨op, -, hs⟩ := Option.bind_eq_some_iff.mp hs
    refine sessionHandler_shape ?_ hs
    exact List.isEmpty_iff.mp hidle
  | readResult conn i buffer err =>
    obtain ⟨c, hc, hs⟩ := Option.bind_eq_some_iff.mp hs
    obtain ⟨c', hc', rfl⟩ := Option.map_eq_some_iff.mp hs
    obtain ⟨op, -, -, rfl⟩ := Connection.completeRead_eq_some hc'
    exact h.congr rfl (setConn_isOpen hc rfl)
  | readHandler conn i junk =>
    simp only [step] at hs
    split_ifs at hs
    obtain ⟨c, -, hs⟩ := Option.bind_eq_some_iff.mp hs
    obtain ⟨⟨c', emitted, goesOn⟩, -, rfl⟩ := Option.map_eq_some_iff.mp hs
    refine .free ((called_free conn emitted).append ?_)
    cases goesOn with
    | true => exact Free.nil.cons rfl
    | false => exact Free.nil
  | writeResult conn i err =>
    obtain ⟨c, hc, hs⟩ := Option.bind_eq_some_iff.mp hs
    obtain ⟨c', hc', rfl⟩ := Option.map_eq_some_iff.mp hs
    obtain ⟨ops, rfl⟩ := Connection.completeWrite_eq_some hc'
    exact h.congr rfl (setConn_isOpen hc rfl)
  | writeHandler conn i =>
    simp only [step] at hs
    split_ifs at hs
    obtain ⟨c, -, hs⟩ := Option.bind_eq_some_iff.mp hs
    obtain ⟨⟨c', emitted⟩, -, rfl⟩ := Option.map_eq_some_iff.mp hs
    exact .free (called_free conn emitted)
  | advance shutdown =>
    simp only [step] at hs
    split_ifs at hs
    exact advance_shape hslots h hs

/-! ## Runs that relock the mutex -/

theorem relock_of {stack : List ThreadFrame} (hstack : s.stack = stack) (hlocks : locks stack = true)
    (hheld : held stack = true) : ¬ s.NoRelock := by
  subst hstack
  intro h
  rw [h hlocks] at hheld
  cases hheld

/-- A step of the innermost call that locks nothing. -/
theorem reachable_advance (shutdown : ErrorCode) {stack : List ThreadFrame} (hstack : s.stack = stack)
    (hlocks : locks stack = false) (hs : s.advance o slots shutdown stack = some s') :
    Reachable (step o slots) s s' := by
  refine Reachable.single (a := .advance shutdown) ?_
  simp only [step, hstack, hlocks, Bool.false_eq_true, false_and, if_false]
  exact hs

variable (o slots)

/-- What a slot that is given an open connection comes to. -/
theorem first_reaches {calls : List SlotCall} {rest : List ThreadFrame} {b : Bool}
    (hstack : s.stack = .userSlot (some conn) calls :: rest) (hopen : s.isOpen conn = some b) :
    ∃ s', Reachable (step o slots) s s' ∧ s'.isOpen = s.isOpen ∧
      ((asksFirst calls = true ∧
          ∃ more, s'.stack = .userSlot (some conn) (.connections :: more) :: rest) ∨
        (asksFirst calls = false ∧ closesFirst calls = true ∧
          ∃ more, s'.stack = .userSlot (some conn) (.close :: more) :: rest) ∨
        (asksFirst calls = false ∧ closesFirst calls = false ∧ s'.stack = rest)) := by
  induction calls generalizing s with
  | nil =>
    refine ⟨s.setStack rest, ?_, rfl, .inr (.inr ⟨rfl, rfl, rfl⟩)⟩
    exact reachable_advance .success hstack rfl rfl
  | cons call calls ih =>
    cases call with
    | connections => exact ⟨s, Reachable.refl, rfl, .inl ⟨rfl, calls, hstack⟩⟩
    | close => exact ⟨s, Reachable.refl, rfl, .inr (.inl ⟨rfl, rfl, calls, hstack⟩)⟩
    | send cmd command =>
      obtain ⟨c, hc, -⟩ := Option.map_eq_some_iff.mp hopen
      have hsame := send_isOpen (o := o) hc cmd command
      obtain ⟨s', hr, ho, h⟩ :=
        ih (s := (s.send o conn cmd command c).setStack (.userSlot (some conn) calls :: rest)) rfl
          ((congrFun hsame conn).trans hopen)
      refine ⟨s', Reachable.trans ?_ hr, ho.trans hsame, h⟩
      refine reachable_advance .success hstack rfl ?_
      show (s.server.conns conn).map _ = _
      rw [hc]
      rfl

/-- What a slot that is given no connection comes to. -/
theorem later_reaches {calls : List SlotCall} {rest : List ThreadFrame}
    (hstack : s.stack = .userSlot none calls :: rest) :
    ∃ s', Reachable (step o slots) s s' ∧ s'.isOpen = s.isOpen ∧
      ((asks calls = true ∧ ∃ more, s'.stack = .userSlot none (.connections :: more) :: rest) ∨
        (asks calls = false ∧ s'.stack = rest)) := by
  induction calls generalizing s with
  | nil =>
    refine ⟨s.setStack rest, ?_, rfl, .inr ⟨rfl, rfl⟩⟩
    exact reachable_advance .success hstack rfl rfl
  | cons call calls ih =>
    cases call with
    | connections => exact ⟨s, Reachable.refl, rfl, .inl ⟨rfl, calls, hstack⟩⟩
    | send | close =>
      obtain ⟨s', hr, ho, h⟩ := ih (s := s.setStack (.userSlot none calls :: rest)) rfl
      exact ⟨s', (reachable_advance .success hstack rfl rfl).trans hr, ho, h⟩

/-- What the slots that are given no connection come to, while the mutex is held. -/
theorem slots_reach {sig : ServerSignal} {later : List (List SlotCall)} {rest : List ThreadFrame}
    (hheld : held rest = true) (hstack : s.stack = .serverEmission sig none later :: rest) :
    ∃ s', Reachable (step o slots) s s' ∧
      ((later.any asks = true ∧ ¬ s'.NoRelock) ∨ (later.any asks = false ∧ s'.stack = rest)) := by
  induction later generalizing s with
  | nil =>
    refine ⟨s.setStack rest, ?_, .inr ⟨rfl, rfl⟩⟩
    exact reachable_advance .success hstack rfl rfl
  | cons calls later ih =>
    obtain ⟨s₀, hr₀, hs₀⟩ : ∃ s₀, Reachable (step o slots) s s₀ ∧
        s₀.stack = .userSlot none calls :: .serverEmission sig none later :: rest :=
      ⟨_, reachable_advance .success hstack rfl rfl, rfl⟩
    obtain ⟨s₁, hr₁, -, ⟨hasks, more, hs₁⟩ | ⟨hasks, hs₁⟩⟩ :=
      later_reaches o slots hs₀
    · refine ⟨s₁, hr₀.trans hr₁, .inl ⟨?_, relock_of hs₁ rfl hheld⟩⟩
      rw [List.any_cons, hasks, Bool.true_or]
    · obtain ⟨s₂, hr₂, h₂⟩ := ih hs₁
      refine ⟨s₂, (hr₀.trans hr₁).trans hr₂, ?_⟩
      rw [List.any_cons, hasks, Bool.false_or]
      exact h₂

/-- The slots of `disconnected` let `remove_connection` be reached, unless the first one closes the
    connection again. -/
theorem disconnected_relocks {b : Bool} {base : List ThreadFrame} (hopen : s.isOpen conn = some b)
    (hheld : held base = true) (h : (slots .disconnected).head?.any closesFirst = false)
    (hstack : s.stack = .serverEmission .disconnected (some conn) (slots .disconnected) ::
      .slot .closed conn .removeConnection :: base) :
    ∃ s', Reachable (step o slots) s s' ∧ ¬ s'.NoRelock := by
  have hheld' : held (.slot .closed conn .removeConnection :: base) = true := hheld
  cases hd : slots .disconnected with
  | nil =>
    rw [hd] at hstack
    exact ⟨_, reachable_advance .success hstack rfl rfl, relock_of rfl rfl hheld'⟩
  | cons calls more =>
    rw [hd] at hstack h
    have hcloses : closesFirst calls = false := h
    obtain ⟨s₀, hr₀, hopen₀, hs₀⟩ : ∃ s₀, Reachable (step o slots) s s₀ ∧ s₀.isOpen = s.isOpen ∧
        s₀.stack = .userSlot (some conn) calls :: .serverEmission .disconnected none more ::
          .slot .closed conn .removeConnection :: base :=
      ⟨_, reachable_advance .success hstack rfl rfl, rfl, rfl⟩
    obtain ⟨s₁, hr₁, -, h₁⟩ := first_reaches o slots hs₀ (hopen₀ ▸ hopen)
    rcases h₁ with ⟨-, calls', hs₁⟩ | ⟨-, hc, -⟩ | ⟨-, -, hs₁⟩
    · exact ⟨s₁, hr₀.trans hr₁, relock_of hs₁ rfl hheld⟩
    · rw [hcloses] at hc
      cases hc
    · obtain ⟨s₂, hr₂, h₂⟩ := slots_reach o slots hheld' hs₁
      refine ⟨s₂, (hr₀.trans hr₁).trans hr₂, ?_⟩
      rcases h₂ with ⟨-, hrelock⟩ | ⟨-, hs₂⟩
      · exact hrelock
      · exact relock_of hs₂ rfl hheld'

/-- A `close()` in the first slot of `connected` comes back to the mutex through the `closed` signal. -/
theorem close_relocks {session : Nat} {calls : List SlotCall} {later : List (List SlotCall)}
    (hopen : s.isOpen conn = some true) (h : (slots .disconnected).head?.any closesFirst = false)
    (hstack : s.stack = [.userSlot (some conn) (.close :: calls), .serverEmission .connected none later,
      .accept conn session .unlock]) :
    ∃ s', Reachable (step o slots) s s' ∧ ¬ s'.NoRelock := by
  obtain ⟨s₁, hr₁, hopen₁, hs₁⟩ : ∃ s₁, Reachable (step o slots) s s₁ ∧ s₁.isOpen conn = some false ∧
      s₁.stack = [.call .closed conn, .userSlot (some conn) calls, .serverEmission .connected none later,
        .accept conn session .unlock] := by
    obtain ⟨c, hc, hcopen⟩ := Option.map_eq_some_iff.mp hopen
    obtain ⟨c', hclose, hclosed⟩ : ∃ c', c.close .success = .ok (c', [.closed]) ∧
        c'.socket.isOpen = false := by
      rcases c.close_cases .success with ⟨-, -, ops, hclose⟩ | ⟨hclosed | hshutdown, -⟩
      · exact ⟨_, hclose, rfl⟩
      · rw [hcopen] at hclosed
        cases hclosed
      · cases hshutdown
    refine ⟨(s.setConn conn c').setStack _, reachable_advance .success hstack rfl ?_, ?_, rfl⟩
    · show (s.server.conns conn).map _ = _
      rw [hc, Option.map_some, hclose]
    · simp [isOpen, setStack, setConn, hclosed]
  obtain ⟨s₂, hr₂, hopen₂, hs₂⟩ : ∃ s₂, Reachable (step o slots) s₁ s₂ ∧ s₂.isOpen = s₁.isOpen ∧
      s₂.stack = [.slot .closed conn .emit, .emission .closed conn, .userSlot (some conn) calls,
        .serverEmission .connected none later, .accept conn session .unlock] :=
    ⟨_, reachable_advance .success hs₁ rfl rfl, rfl, rfl⟩
  obtain ⟨s₃, hr₃, hopen₃, hs₃⟩ : ∃ s₃, Reachable (step o slots) s₂ s₃ ∧ s₃.isOpen = s₂.isOpen ∧
      s₃.stack = [.serverEmission .disconnected (some conn) (slots .disconnected),
        .slot .closed conn .removeConnection, .emission .closed conn, .userSlot (some conn) calls,
        .serverEmission .connected none later, .accept conn session .unlock] :=
    ⟨_, reachable_advance .success hs₂ rfl rfl, rfl, rfl⟩
  obtain ⟨s₄, hr₄, hrelock⟩ := disconnected_relocks o slots
    (show s₃.isOpen conn = some false by rw [hopen₃, hopen₂, hopen₁]) rfl h hs₃
  exact ⟨s₄, ((hr₁.trans hr₂).trans hr₃).trans hr₄, hrelock⟩

/-- A client that has connected, while the server is in the slots of `connected`. -/
theorem accepted (κ : Type) (enabled : Bool) : ∃ s, Reachable (step o slots) (init κ enabled) s ∧
    s.isOpen 0 = some true ∧
    s.stack = [.serverEmission .connected (some 0) (slots .connected), .accept 0 0 .unlock] := by
  cases enabled with
  | false => exact ⟨_, ⟨[.sessionHandler 0 .success, .advance .success], rfl⟩, rfl, rfl⟩
  | true =>
    exact ⟨_, ⟨[.sessionHandler 0 .success, .sessionHandler 0 .success, .advance .success], rfl⟩, rfl, rfl⟩

theorem relocks_reached (κ : Type) (h : relocks slots = true) (enabled : Bool) :
    ∃ s, Reachable (step o slots) (init κ enabled) s ∧ ¬ s.NoRelock := by
  obtain ⟨s₀, hr₀, hopen₀, hs₀⟩ := accepted o slots κ enabled
  unfold relocks at h
  cases hc : slots .connected with
  | nil =>
    rw [hc] at h
    cases h
  | cons calls later =>
    rw [hc] at h hs₀
    obtain ⟨s₁, hr₁, hopen₁, hs₁⟩ : ∃ s₁, Reachable (step o slots) s₀ s₁ ∧ s₁.isOpen = s₀.isOpen ∧
        s₁.stack = [.userSlot (some 0) calls, .serverEmission .connected none later,
          .accept 0 0 .unlock] :=
      ⟨_, reachable_advance .success hs₀ rfl rfl, rfl, rfl⟩
    rw [← hopen₁] at hopen₀
    obtain ⟨s₂, hr₂, hopen₂, h₂⟩ := first_reaches o slots hs₁ hopen₀
    have hr := (hr₀.trans hr₁).trans hr₂
    rw [← hopen₂] at hopen₀
    rcases h₂ with ⟨-, more, hs₂⟩ | ⟨hasks, hcloses, more, hs₂⟩ | ⟨hasks, hcloses, hs₂⟩
    · exact ⟨s₂, hr, relock_of hs₂ rfl rfl⟩
    · simp only [hasks, hcloses, Bool.false_or, Bool.true_and, Bool.not_true, Bool.false_and,
        Bool.or_false, Bool.not_eq_true'] at h
      obtain ⟨s₃, hr₃, hrelock⟩ := close_relocks o slots hopen₀ h hs₂
      exact ⟨s₃, hr.trans hr₃, hrelock⟩
    · simp only [hasks, hcloses, Bool.false_or, Bool.false_and, Bool.not_false, Bool.true_and] at h
      obtain ⟨s₃, hr₃, ⟨-, hrelock⟩ | ⟨hnone, -⟩⟩ := slots_reach o slots rfl hs₂
      · exact ⟨s₃, hr.trans hr₃, hrelock⟩
      · rw [h] at hnone
        cases hnone

/-- **When the slots relock the mutex.** On a server that was started, with encryption or without, the thread
    never locks `server::_mutex` while it holds it, whatever connects, is sent and fails, exactly for the
    slots that do not relock it. -/
theorem noRelock_iff (enabled : Bool) :
    (∀ s : Reentrancy κ, Reachable (step o slots) (init κ enabled) s → s.NoRelock) ↔
      relocks slots = false := by
  constructor
  · intro h
    by_contra hrelocks
    obtain ⟨s, hr, hs⟩ := relocks_reached o slots κ (eq_true_of_ne_false hrelocks) enabled
    exact hs (h s hr)
  · intro hslots s hr
    have hshape : s.Shape slots :=
      hr.invariant (.free Free.nil) fun s₁ act s₂ h hs => shape_step hslots h hs
    exact hshape.noRelock

/-- The slots of a user that looks the connections up when one is added. -/
def asking : UserSlots
  | .connected => [[.connections]]
  | .disconnected | .error | .received => []

/-- A slot of `connected` that calls `connections()` never returns. -/
theorem asking_relocks : ¬ ∀ s : Reentrancy Unit,
    Reachable (step .little asking) (init Unit false) s → s.NoRelock := by
  intro h
  obtain ⟨s, hr, hs⟩ : ∃ s : Reentrancy Unit, run (step .little asking) (init Unit false)
      [.sessionHandler 0 .success, .advance .success, .advance .success] = some s ∧
      (locks s.stack, held s.stack) = (true, true) := Option.map_eq_some_iff.mp rfl
  obtain ⟨hlocks, hheld⟩ := Prod.mk.inj hs
  rw [h s ⟨_, hr⟩ hlocks] at hheld
  cases hheld

end Reentrancy

end Lnetlib
