import Lnetlib.Client.Proofs.LinkProofs

/-!
# Proofs: the event order of a client

There is one thread, and it wires the connection in the handler that has made it. So the handlers of the
connection come after that (`Phase`), and from then on what the read loop hands over is what the client
emits.
-/

namespace Lnetlib

open Bytes Transition

namespace ClientRun

variable {κ : Type} {o : ByteOrder} {s s' : ClientRun κ} {r r' : Reading κ}

/-! ## What was emitted -/

/-- Neither `connected` nor `received` was emitted. -/
def Quiet (emitted : List ClientEmission) : Prop :=
  ∀ e ∈ emitted, isConnected e = false ∧ stream? e = none

/-- `connected` was emitted, once and before any `received`. -/
def Announced (emitted : List ClientEmission) : Prop :=
  ∃ pre post, emitted = pre ++ .connected :: post ∧ Quiet pre ∧ ∀ e ∈ post, isConnected e = false

variable {emitted new : List ClientEmission}

theorem Quiet.count (h : Quiet emitted) : emitted.countP isConnected = 0 := by
  apply List.countP_eq_zero.mpr
  intro e he
  simp [(h e he).1]

theorem Quiet.streams (h : Quiet emitted) : emitted.filterMap stream? = [] := by
  apply List.filterMap_eq_nil_iff.mpr
  intro e he
  exact (h e he).2

theorem Announced.count (h : Announced emitted) : emitted.countP isConnected = 1 := by
  obtain ⟨pre, post, rfl, hpre, hpost⟩ := h
  have hzero : post.countP isConnected = 0 := by
    apply List.countP_eq_zero.mpr
    intro e he
    simp [hpost e he]
  rw [List.countP_append, List.countP_cons_of_pos rfl, hpre.count, hzero]

theorem Announced.append (h : Announced emitted) (hnew : ∀ e ∈ new, isConnected e = false) :
    Announced (emitted ++ new) := by
  obtain ⟨pre, post, rfl, hpre, hpost⟩ := h
  refine ⟨pre, post ++ new, by simp, hpre, fun e he => ?_⟩
  rcases List.mem_append.mp he with he | he
  · exact hpost e he
  · exact hnew e he

/-- A `received` stands behind `connected`. -/
theorem Announced.connected_first (h : Announced emitted) {pre post : List ClientEmission}
    {stream : Istream} (hsplit : emitted = pre ++ .received stream :: post) :
    ∃ e ∈ pre, isConnected e = true := by
  obtain ⟨p, q, rfl, hp, -⟩ := h
  rcases List.append_eq_append_iff.mp hsplit with ⟨mid, rfl, hmid⟩ | ⟨mid, rfl, hmid⟩
  · cases mid with
    | nil => cases hmid
    | cons e mid =>
      obtain ⟨rfl, -⟩ := List.cons.inj hmid
      exact ⟨.connected, List.mem_append_right _ List.mem_cons_self, rfl⟩
  · cases mid with
    | nil => cases hmid
    | cons e mid =>
      obtain ⟨rfl, -⟩ := List.cons.inj hmid
      have := (hp _ (List.mem_append_right _ List.mem_cons_self)).2
      cases this

/-- What the client emits for a step of a connection whose slots are connected. -/
theorem runSlots_event {conn : Nat} {client : Client κ} (hslot : conn ∈ client.slots)
    {es : List (Emission κ)} {as : List (List UInt8 × Bool)} {bodies : List (List UInt8)}
    (hev : StepEvent o es as bodies) :
    ∃ new, es.foldl (fun client e => client.runSlot conn e) client =
        { client with emitted := client.emitted ++ new } ∧
      (∀ e ∈ new, isConnected e = false) ∧
      List.Forall₂ (fun stream body => ∃ junk, stream = Istream.construct o body junk)
        (new.filterMap stream?) ((as.filter fun p => !p.2).map Prod.fst) := by
  cases hev with
  | silent => exact ⟨[], by simp, fun _ he => (by cases he), .nil⟩
  | failing e h =>
    rcases h with rfl | ⟨code, message, rfl⟩
    · refine ⟨[.disconnected], by simp [Client.runSlot, hslot, Client.emit], ?_, .nil⟩
      intro e he
      obtain rfl := List.mem_singleton.mp he
      rfl
    · refine ⟨[.error code message], by simp [Client.runSlot, hslot, Client.emit], ?_, .nil⟩
      intro e he
      obtain rfl := List.mem_singleton.mp he
      rfl
  | claimed body cb stream =>
    exact ⟨[], by simp [Client.runSlot, hslot], fun _ he => (by cases he), .nil⟩
  | received body junk =>
    refine ⟨[.received (Istream.construct o body junk)],
      by simp [Client.runSlot, hslot, Client.emit], ?_, .cons ⟨junk, rfl⟩ .nil⟩
    intro e he
    obtain rfl := List.mem_singleton.mp he
    rfl

/-! ## The phases of a run -/

/-- How far the client has come. -/
inductive Phase (s : ClientRun κ) : Prop where
  | trying (hlink : s.link = none) (hpc : s.pc = .run ∨ s.pc = .inFailed)
      (hops : s.client.ops.length ≤ 1) (harr : s.arrivals = []) (hq : Quiet s.client.emitted)
  | making (session : Nat) (hlink : s.link = none) (hpc : s.pc = .makeConnection session)
      (hops : s.client.ops = []) (harr : s.arrivals = []) (hq : Quiet s.client.emitted)
  /-- The connection reads, and its handlers have to wait for the thread. -/
  | wiring (conn : Nat) (r : Reading κ) (hlink : s.link = some (conn, r))
      (hpc : (∃ session, s.pc = .setConnection session conn) ∨ s.pc = .connectSlots conn ∨
        (s.pc = .emitConnected ∧ conn ∈ s.client.slots))
      (hops : s.client.ops = []) (harr : s.arrivals = []) (hq : Quiet s.client.emitted)
  | announced (conn : Nat) (r : Reading κ) (hlink : s.link = some (conn, r))
      (hpc : s.pc = .run ∨ s.pc = .inConnected) (hops : s.client.ops = [])
      (hslot : conn ∈ s.client.slots) (he : Announced s.client.emitted)

/-- The inductive invariant. -/
structure Inv (o : ByteOrder) (s : ClientRun κ) : Prop where
  phase : s.Phase
  sent : FullHeaders s.sent
  link : ∀ conn r, s.link = some (conn, r) → LinkInv o s r
  unlinked : s.link = none → s.flight = wire o s.sent
  received_eq : List.Forall₂ (fun stream body => ∃ junk, stream = Istream.construct o body junk)
    s.streams s.unclaimed

theorem received_of_quiet (hq : Quiet s.client.emitted) (harr : s.arrivals = []) :
    List.Forall₂ (fun stream body => ∃ junk, stream = Istream.construct o body junk)
      s.streams s.unclaimed := by
  unfold streams unclaimed
  rw [hq.streams, harr]
  exact .nil

theorem init_inv (enabled : Bool) : Inv o (init κ enabled) := by
  have hq : Quiet (init κ enabled).client.emitted := by
    intro e he
    cases he
  refine
    { phase := .trying rfl (.inl rfl) (Nat.le_refl 1) rfl hq
      sent := ?_
      link := ?_
      unlinked := fun _ => rfl
      received_eq := received_of_quiet hq rfl }
  · intro body hbody
    cases hbody
  · intro conn r hlink
    cases hlink

/-! ## What the invariant says -/

/-- While the thread is in the handler of a session it goes on there. -/
theorem thread_goes_on (hpc : s.pc ≠ .run) : (step o s .thread).isSome = true := by
  show s.thread.isSome = true
  unfold thread
  cases h : s.pc with
  | run => exact absurd h hpc
  | makeConnection session => rfl
  | setConnection session conn => rfl
  | connectSlots conn => rfl
  | emitConnected => rfl
  | inConnected => rfl
  | inFailed => rfl

theorem reading_goes_on {conn : Nat} (hlink : s.link = some (conn, r)) {a : ReadingAct κ}
    (hmay : s.mayRun r a = true) (hs : (r.step o a).isSome = true) :
    (step o s (.reading a)).isSome = true := by
  obtain ⟨r', hr'⟩ := Option.isSome_iff_exists.mp hs
  simp only [step, hlink, Option.bind_some, hmay, if_true, hr', Option.map_some, Option.isSome_some]

theorem Inv.reads_on (h : Inv o s) {conn : Nat} (hlink : s.link = some (conn, r))
    (hhung : s.hungUp = false) : s.arrivals.map Prod.fst = Reading.packages o r.sent ∨
      ∃ a, goesOn a = true ∧ (step o s a).isSome = true := by
  by_cases hpc : s.pc = .run
  · rcases (h.link conn r hlink).reads_on hhung with
      hall | ⟨junk, hs⟩ | hs | ⟨hh, hs | hs⟩
    · exact .inl hall
    · exact .inr ⟨_, rfl, reading_goes_on hlink (by simp [mayRun, hpc]) hs⟩
    · exact .inr ⟨_, rfl, reading_goes_on hlink (by simp [mayRun, hpc]) hs⟩
    · exact .inr ⟨_, rfl, reading_goes_on hlink (by simp [mayRun, hpc, hh]) hs⟩
    · exact .inr ⟨_, rfl, reading_goes_on hlink rfl hs⟩
  · exact .inr ⟨.thread, rfl, thread_goes_on hpc⟩

theorem Inv.in_order (h : Inv o s) : s.arrivals.map Prod.fst <+: s.sent := by
  have hnil : s.arrivals = [] → s.arrivals.map Prod.fst <+: s.sent := by
    intro harr
    rw [harr]
    exact List.nil_prefix
  cases hlink : s.link with
  | none =>
    cases h.phase with
    | trying _ _ _ harr => exact hnil harr
    | making _ _ _ _ harr => exact hnil harr
    | wiring _ _ _ _ _ harr => exact hnil harr
    | announced conn r hlink' =>
      rw [hlink] at hlink'
      cases hlink'
  | some p =>
    have hl := h.link p.1 p.2 hlink
    have := hl.isPrefix s.flight
    rwa [hl.packages_eq h.sent] at this

theorem Phase.eventCount (h : s.Phase) :
    s.client.emitted.countP isConnected ≤ 1 ∧
      (s.link ≠ none → s.pc = .run → s.client.emitted.countP isConnected = 1) ∧
      ∀ pre stream post, s.client.emitted = pre ++ .received stream :: post →
        ∃ e ∈ pre, isConnected e = true := by
  have hquiet : Quiet s.client.emitted → ∀ pre stream post,
      s.client.emitted = pre ++ .received stream :: post → ∃ e ∈ pre, isConnected e = true := by
    intro hq pre stream post hsplit
    have hmem : .received stream ∈ s.client.emitted := by
      rw [hsplit]
      exact List.mem_append_right _ List.mem_cons_self
    have := (hq _ hmem).2
    cases this
  cases h with
  | trying hlink _ _ _ hq =>
    exact ⟨by rw [hq.count]; omega, fun hne => absurd hlink hne, hquiet hq⟩
  | making _ hlink _ _ _ hq =>
    exact ⟨by rw [hq.count]; omega, fun hne => absurd hlink hne, hquiet hq⟩
  | wiring conn r _ hpc _ _ hq =>
    refine ⟨by rw [hq.count]; omega, fun _ hrun => ?_, hquiet hq⟩
    rw [hrun] at hpc
    rcases hpc with ⟨session, hpc⟩ | hpc | ⟨hpc, -⟩
    · cases hpc
    · cases hpc
    · cases hpc
  | announced conn r _ _ _ _ he =>
    exact ⟨by rw [he.count], fun _ _ => he.count, fun _ _ _ => he.connected_first⟩

theorem Inv.eventOrder (h : Inv o s) : EventOrder o s where
  connected_once := h.phase.eventCount.1
  connected_made := h.phase.eventCount.2.1
  connected_first := h.phase.eventCount.2.2
  received_eq := h.received_eq
  in_order := h.in_order
  arrived := fun conn r hlink => (h.link conn r hlink).packages_eq h.sent
  reads_on := fun _ _ hlink hhung => h.reads_on hlink hhung

/-! ## Steps -/

/-- A step of the thread or of a session that leaves the connection alone. -/
theorem Inv.of_client (h : Inv o s) (hphase : s'.Phase) (hlink : s'.link = s.link)
    (hsent : s'.sent = s.sent) (hflight : s'.flight = s.flight) (harr : s'.arrivals = s.arrivals)
    (hhung : s'.hungUp = s.hungUp) (hstreams : s'.streams = s.streams) : Inv o s' where
  phase := hphase
  sent := hsent ▸ h.sent
  link := by
    intro conn r hl
    rw [hlink] at hl
    obtain ⟨hs, ho, hI, ha, hb, hg⟩ := h.link conn r hl
    exact ⟨hs, ho, hI, harr ▸ ha, by rw [hflight, hsent]; exact hb, hhung ▸ hg⟩
  unlinked := by
    intro hl
    rw [hflight, hsent]
    exact h.unlinked (hlink ▸ hl)
  received_eq := by
    have hunclaimed : s'.unclaimed = s.unclaimed := by
      unfold unclaimed
      rw [harr]
    rw [hstreams, hunclaimed]
    exact h.received_eq

theorem serverSend_inv (h : Inv o s) {body : List UInt8} (hs : step o s (.serverSend body) = some s') :
    Inv o s' := by
  simp only [step] at hs
  split_ifs at hs with hcond
  cases hs
  have h8 : sizeof UInt64 = 8 := rfl
  refine
    { phase := ?_
      sent := ?_
      link := ?_
      unlinked := ?_
      received_eq := h.received_eq }
  · cases h.phase with
    | trying hlink hpc hops harr hq => exact .trying hlink hpc hops harr hq
    | making session hlink hpc hops harr hq => exact .making session hlink hpc hops harr hq
    | wiring conn r hlink hpc hops harr hq => exact .wiring conn r hlink hpc hops harr hq
    | announced conn r hlink hpc hops hslot he => exact .announced conn r hlink hpc hops hslot he
  · intro b hb
    rcases List.mem_append.mp hb with hb | hb
    · exact h.sent b hb
    · obtain rfl := List.mem_singleton.mp hb
      omega
  · intro conn r hl
    obtain ⟨hs, ho, hI, ha, hb, hg⟩ := h.link conn r hl
    refine ⟨hs, ho, hI, ha, ?_, hg⟩
    rw [← List.append_assoc, hb, wire_snoc]
  · intro hl
    rw [wire_snoc, ← h.unlinked hl]

theorem deliver_inv (h : Inv o s) {n : Nat} (hs : step o s (.deliver n) = some s') : Inv o s' := by
  obtain ⟨⟨conn, r⟩, hlink, hs⟩ := Option.bind_eq_some_iff.mp hs
  split_ifs at hs
  obtain ⟨r', hr, rfl⟩ := Option.map_eq_some_iff.mp hs
  have hsame : ∀ {conn' r₀}, s.link = some (conn', r₀) → conn' = conn := by
    intro conn' r₀ hl
    rw [hlink] at hl
    cases hl
    rfl
  refine
    { phase := ?_
      sent := h.sent
      link := ?_
      unlinked := fun hl => (by cases hl)
      received_eq := h.received_eq }
  · cases h.phase with
    | trying hl | making _ hl =>
      rw [hlink] at hl
      cases hl
    | wiring conn' r₀ hl hpc hops harr hq =>
      obtain rfl := hsame hl
      exact .wiring conn' r' rfl hpc hops harr hq
    | announced conn' r₀ hl hpc hops hslot he =>
      obtain rfl := hsame hl
      exact .announced conn' r' rfl hpc hops hslot he
  · intro conn' r₁ hl
    cases hl
    exact (h.link conn r hlink).deliver hr rfl rfl rfl rfl

/-- The streams that were emitted before one more emission that is no `received`. -/
theorem streams_snoc {e : ClientEmission} (he : stream? e = none)
    (hem : s'.client.emitted = s.client.emitted ++ [e]) : s'.streams = s.streams := by
  unfold streams
  rw [hem, List.filterMap_append]
  simp [he]

theorem Quiet.snoc (h : Quiet emitted) {e : ClientEmission} (hc : isConnected e = false)
    (hs : stream? e = none) : Quiet (emitted ++ [e]) := by
  intro e' he'
  rcases List.mem_append.mp he' with he' | he'
  · exact h e' he'
  · obtain rfl := List.mem_singleton.mp he'
    exact ⟨hc, hs⟩

theorem failure_quiet (err : ErrorCode) :
    isConnected (Client.failure err) = false ∧ stream? (Client.failure err) = none := by
  unfold Client.failure
  split_ifs
  · exact ⟨rfl, rfl⟩
  · exact ⟨rfl, rfl⟩

theorem sessionHandler_inv (h : Inv o s) {i : Nat} {err : ErrorCode}
    (hs : step o s (.sessionHandler i err) = some s') : Inv o s' := by
  simp only [step] at hs
  split_ifs at hs with hfree
  obtain ⟨op, hi, hs⟩ := Option.map_eq_some_iff.mp hs
  -- an operation is outstanding, so there is no connection yet
  obtain ⟨hlink, hops, harr, hq⟩ : s.link = none ∧ s.client.ops.eraseIdx i = [] ∧ s.arrivals = [] ∧
      Quiet s.client.emitted := by
    cases h.phase with
    | trying hlink hpc hops harr hq =>
      obtain ⟨hlt, -⟩ := List.getElem?_eq_some_iff.mp hi
      refine ⟨hlink, ?_, harr, hq⟩
      apply List.eq_nil_of_length_eq_zero
      rw [List.length_eraseIdx_of_lt hlt]
      omega
    | making session _ hpc =>
      rw [hfree.1] at hpc
      cases hpc
    | wiring _ _ _ _ hops | announced _ _ _ _ hops =>
      rw [hops] at hi
      cases hi
  set client : Client κ := { s.client with ops := s.client.ops.eraseIdx i } with hclient
  have hmake : ∀ session, Inv o { s with client := client, pc := .makeConnection session } := by
    intro session
    exact h.of_client (.making session hlink rfl hops harr hq) rfl rfl rfl rfl rfl rfl
  unfold sessionHandler at hs
  cases he : err.isError with
  | true =>
    rw [if_pos he] at hs
    subst hs
    obtain ⟨hc, hst⟩ := failure_quiet err
    have hfail : client.sessionHandler op err = client.emit (Client.failure err) := by
      rcases Client.sessionHandler_cases op err client with ⟨-, heq⟩ | ⟨hok, -⟩ | ⟨hok, -⟩
      · exact heq
      · rw [he] at hok
        cases hok
      · rw [he] at hok
        cases hok
    have hem : (client.sessionHandler op err).emitted = s.client.emitted ++ [Client.failure err] := by
      rw [hfail]
      rfl
    have hops' : (client.sessionHandler op err).ops.length ≤ 1 := by
      rw [hfail, show (client.emit (Client.failure err)).ops = [] from hops]
      exact Nat.zero_le 1
    have hphase : Phase { s with client := client.sessionHandler op err, pc := .inFailed } := by
      refine .trying hlink (.inr rfl) hops' harr ?_
      show Quiet (client.sessionHandler op err).emitted
      rw [hem]
      exact hq.snoc hc hst
    exact h.of_client hphase rfl rfl rfl rfl rfl (streams_snoc hst hem)
  | false =>
    rw [if_neg (by simp [he])] at hs
    cases op with
    | handshake session =>
      subst hs
      exact hmake session
    | connect session =>
      cases hk : client.kind session with
      | nonSsl =>
        simp only [hk] at hs
        subst hs
        exact hmake session
      | ssl =>
        simp only [hk] at hs
        subst hs
        have heq : client.sessionHandler (.connect session) err =
            { client with ops := client.ops ++ [ClientOp.handshake session] } := by
          simp [Client.sessionHandler, hk, Client.sslConnectHandler, he]
        have hphase : Phase { s with client := client.sessionHandler (.connect session) err } := by
          rw [heq]
          refine .trying hlink (.inl hfree.1) ?_ harr hq
          show (client.ops ++ [ClientOp.handshake session]).length ≤ 1
          rw [show client.ops = [] from hops]
          exact Nat.le_refl 1
        have hstreams : streams { s with client := client.sessionHandler (.connect session) err } =
            s.streams := by
          rw [heq]
          rfl
        exact h.of_client hphase rfl rfl rfl rfl rfl hstreams

/-- The handler of a session makes the connection, wires it and emits `connected`. -/
theorem thread_inv (h : Inv o s) (hs : step o s .thread = some s') : Inv o s' := by
  have hs : s.thread = some s' := hs
  unfold thread at hs
  cases h.phase with
  | trying hlink hpc hops harr hq =>
    rcases hpc with hpc | hpc
    · rw [hpc] at hs
      cases hs
    · rw [hpc] at hs
      cases hs
      exact h.of_client (.trying hlink (.inl rfl) hops harr hq) rfl rfl rfl rfl rfl rfl
  | making session hlink hpc hops harr hq =>
    rw [hpc] at hs
    cases hs
    refine
      { phase := .wiring s.client.nextConn (Reading.init κ) rfl (.inl ⟨session, rfl⟩) hops harr hq
        sent := h.sent
        link := ?_
        unlinked := fun hl => (by cases hl)
        received_eq := h.received_eq }
    intro conn r hl
    cases hl
    exact linkInv_init harr (h.unlinked hlink)
  | wiring conn r hlink hpc hops harr hq =>
    rcases hpc with ⟨session, hpc⟩ | hpc | ⟨hpc, hslot⟩
    · rw [hpc] at hs
      cases hs
      exact h.of_client (.wiring conn r hlink (.inr (.inl rfl)) hops harr hq) rfl rfl rfl rfl rfl rfl
    · rw [hpc] at hs
      cases hs
      have hslot : conn ∈ s.client.slots ++ [conn] :=
        List.mem_append_right _ (List.mem_singleton_self _)
      exact h.of_client (.wiring conn r hlink (.inr (.inr ⟨rfl, hslot⟩)) hops harr hq)
        rfl rfl rfl rfl rfl rfl
    · rw [hpc] at hs
      cases hs
      have he : Announced (s.client.emitted ++ [.connected]) :=
        ⟨_, [], rfl, hq, fun _ he => (by cases he)⟩
      exact h.of_client (.announced conn r hlink (.inr rfl) hops hslot he) rfl rfl rfl rfl rfl
        (streams_snoc rfl rfl)
  | announced conn r hlink hpc hops hslot he =>
    rcases hpc with hpc | hpc
    · rw [hpc] at hs
      cases hs
    · rw [hpc] at hs
      cases hs
      exact h.of_client (.announced conn r hlink (.inl rfl) hops hslot he) rfl rfl rfl rfl rfl rfl

/-- Until the thread is back in `run()` the connection emits nothing. -/
theorem silent_while_wiring (hpc : s.pc ≠ .run) {a : ReadingAct κ} (hmay : s.mayRun r a = true) :
    emits o r a = [] ∧ arrival o r a = [] := by
  cases a with
  | invoke | writeHandler =>
    simp [mayRun, hpc] at hmay
  | advance | slotReturn =>
    simp [mayRun, hpc] at hmay
  | _ => exact ⟨rfl, rfl⟩

theorem reading_inv (h : Inv o s) {a : ReadingAct κ} (hs : step o s (.reading a) = some s') :
    Inv o s' := by
  obtain ⟨⟨conn, r⟩, hlink, hs⟩ := Option.bind_eq_some_iff.mp hs
  dsimp only at hs
  split_ifs at hs with hmay
  obtain ⟨r', hr, hs⟩ := Option.map_eq_some_iff.mp hs
  have hl := h.link conn r hlink
  have hallowed : (∀ bs, a ≠ .peerSend bs) ∧ (∀ k, a ≠ .slotThrow k) ∧
      ∀ shutdown, a ≠ .close shutdown := by
    refine ⟨?_, ?_, ?_⟩
    all_goals
      rintro x rfl
      cases hmay
  obtain ⟨hpeer, hthrow, hclose⟩ := hallowed
  have hl' : LinkInv o s' r' := by
    subst hs
    exact hl.step h.sent hr hpeer hthrow hclose rfl rfl rfl rfl
  have hlink' : ∀ conn' r₁, s'.link = some (conn', r₁) → LinkInv o s' r₁ := by
    intro conn' r₁ hl₁
    rw [← hs] at hl₁
    cases hl₁
    exact hl'
  have hunlinked : s'.link = none → s'.flight = wire o s'.sent := by
    intro hnone
    rw [← hs] at hnone
    cases hnone
  cases h.phase with
  | trying hnone | making _ hnone =>
    rw [hlink] at hnone
    cases hnone
  | wiring conn₀ r₀ hlink₀ hpc hops harr hq =>
    rw [hlink] at hlink₀
    cases hlink₀
    have hrun : s.pc ≠ .run := by
      rintro hrun
      rw [hrun] at hpc
      rcases hpc with ⟨session, hpc⟩ | hpc | ⟨hpc, -⟩
      · cases hpc
      · cases hpc
      · cases hpc
    obtain ⟨hes, has⟩ := silent_while_wiring (o := o) hrun hmay
    rw [hes, has, List.append_nil] at hs
    subst hs
    exact
      { phase := .wiring conn r' rfl hpc hops harr hq
        sent := h.sent
        link := hlink'
        unlinked := hunlinked
        received_eq := h.received_eq }
  | announced conn₀ r₀ hlink₀ hpc hops hslot he =>
    rw [hlink] at hlink₀
    cases hlink₀
    obtain ⟨bodies, hev, -⟩ := step_event (hl.full h.sent) hr
    obtain ⟨new, hnew, hquiet, hforall⟩ := runSlots_event hslot hev
    rw [hnew] at hs
    subst hs
    refine
      { phase := .announced conn r' rfl hpc hops hslot (he.append hquiet)
        sent := h.sent
        link := hlink'
        unlinked := hunlinked
        received_eq := ?_ }
    unfold streams unclaimed
    rw [List.filterMap_append, List.filter_append, List.map_append]
    exact List.rel_append h.received_eq hforall

/-! ## The handler in one piece -/

/-- The steps of the thread from the constructor of the connection to the slots of `connected`. -/
theorem thread_wires {session : Nat} (hpc : s.pc = .makeConnection session) :
    run (step o) s [.thread, .thread, .thread, .thread] = some { s with
      client := s.client.wired session
      link := some (s.client.nextConn, Reading.init κ)
      pc := .inConnected } := by
  obtain ⟨client, pc, link, sent, flight, arrivals, hungUp⟩ := s
  obtain rfl : pc = .makeConnection session := hpc
  rfl

/-- Taken together the steps of a handler are what `Client.sessionHandler` says. -/
theorem handler_refines {i : Nat} {err : ErrorCode} {op : ClientOp} (hi : s.client.ops[i]? = some op)
    (hs : step o s (.sessionHandler i err) = some s') :
    ∃ as s'', (∀ a ∈ as, a = .thread) ∧ run (step o) s' as = some s'' ∧
      s''.client = { s.client with ops := s.client.ops.eraseIdx i }.sessionHandler op err := by
  simp only [step, hi, Option.map_some] at hs
  split_ifs at hs
  obtain rfl := Option.some.inj hs
  set client : Client κ := { s.client with ops := s.client.ops.eraseIdx i } with hclient
  have hwired : ∀ session, client.sessionHandler op err = client.wired session →
      ∃ as s'', (∀ a ∈ as, a = ClientRunAct.thread) ∧
        run (step o) { s with client := client, pc := .makeConnection session } as = some s'' ∧
        s''.client = client.sessionHandler op err := by
    intro session heq
    exact ⟨_, _, by simp, thread_wires rfl, heq.symm⟩
  unfold sessionHandler
  cases he : err.isError with
  | true => exact ⟨[], _, fun _ ha => (by cases ha), rfl, rfl⟩
  | false =>
    have hready : ∀ session, client.sessionReady session err = client.wired session := by
      intro session
      simp [Client.sessionReady, Client.makeConnection, Client.connectedHandler, he, Client.wired]
    cases op with
    | handshake session => exact hwired session (hready session)
    | connect session =>
      cases hk : client.kind session with
      | nonSsl =>
        have heq : client.sessionHandler (.connect session) err = client.wired session := by
          simp only [Client.sessionHandler, hk, hready]
        simp only [hk]
        exact hwired session heq
      | ssl =>
        simp only [hk]
        exact ⟨[], _, fun _ ha => (by cases ha), rfl, rfl⟩

/-! ## Runs -/

/-- What one step preserves. -/
theorem inv_step {a : ClientRunAct κ} (h : Inv o s) (hs : step o s a = some s') : Inv o s' := by
  cases a with
  | serverSend body => exact serverSend_inv h hs
  | deliver n => exact deliver_inv h hs
  | sessionHandler i err => exact sessionHandler_inv h hs
  | thread => exact thread_inv h hs
  | reading a => exact reading_inv h hs

/-- **The event order of a client.** In every run after one `connect`, `connected` is emitted once and before
    any `received`, and the streams emitted through `received` are those on the packages that no callback
    has claimed, each once and in the order in which they arrive. -/
theorem event_order (enabled : Bool) (as : List (ClientRunAct κ))
    (hr : run (step o) (init κ enabled) as = some s) : EventOrder o s :=
  (Reachable.invariant ⟨as, hr⟩ (init_inv enabled) fun _ _ _ => inv_step).eventOrder

/-- With encryption: a package arrives while the connection is wired, and a second one that a callback
    claims. -/
def twoPackages : List (ClientRunAct Unit) :=
  [.sessionHandler 0 .success, .sessionHandler 0 .success, .thread,
    .serverSend (List.replicate 16 7), .deliver 24, .reading (.readResult 0), .thread, .thread,
    .thread, .reading (.createStream .bool true (some ())), .thread,
    .reading (.invoke 0), .reading (.advance 0 fun _ => 0), .reading (.readResult 0),
    .reading (.invoke 0), .reading (.advance 0 fun _ => 0), .reading (.slotReturn 0),
    .reading (.advance 0 fun _ => 0), .serverSend (List.replicate 16 0), .deliver 24,
    .reading (.readResult 0), .reading (.invoke 0), .reading (.advance 0 fun _ => 0),
    .reading (.readResult 0), .reading (.invoke 0), .reading (.advance 0 fun _ => 0)]

theorem event_order_twoPackages :
    ∃ s, run (step .little) (init Unit true) twoPackages = some s ∧
      s.arrivals = [(List.replicate 16 7, false), (List.replicate 16 0, true)] ∧
      s.client.emitted.map isConnected = [true, false] ∧ EventOrder .little s := by
  obtain ⟨s, hr, hs⟩ : ∃ s, run (step .little) (init Unit true) twoPackages = some s ∧
      (s.arrivals, s.client.emitted.map isConnected) =
        ([(List.replicate 16 7, false), (List.replicate 16 0, true)], [true, false]) :=
    Option.map_eq_some_iff.mp rfl
  obtain ⟨harr, hem⟩ := Prod.mk.inj hs
  exact ⟨s, hr, harr, hem, event_order true twoPackages hr⟩

end ClientRun

end Lnetlib
