import Lnetlib.Client.Connecting

/-!
# A client connects once

Only a first `connect` goes past its guards on a service that runs: it sets `_running`, and what sets it
back is `disconnect`, which stops the service. From then on the client is spent, and a further `connect` can
do nothing whenever it is at rest (`Stage`).
-/

namespace Lnetlib

open Bytes Transition

namespace Connecting

variable {κ : Type} {o : ByteOrder} {s s' : Connecting κ}

/-- A `connect` with no pending error does its work on a fresh client only. -/
theorem connects_iff_fresh (hl : s.client.encryption.lastError = "") : s.Connects ↔ s.Fresh := by
  constructor
  · rintro ⟨client, heq, hops, -, hst, -⟩
    rcases s.client.connect_cases none with ⟨-, hc⟩ | ⟨-, hne, -⟩ | ⟨hr, -, ⟨err, he, -⟩ | ⟨-, hc⟩⟩
    · -- it has returned at once, and started nothing
      obtain rfl : s.client = client := (Prod.mk.inj (hc.symm.trans heq)).1
      have hlen := congrArg List.length hops
      rw [List.length_append, List.length_singleton] at hlen
      omega
    · exact absurd hl hne
    · cases he
    · obtain rfl : _ = client := (Prod.mk.inj (hc.symm.trans heq)).1
      obtain ⟨threads, htry, -⟩ := Client.tryConnect_eq { s.client with running := true }
      rw [htry] at hst
      exact ⟨hr, hst⟩
  · rintro ⟨hr, hst⟩
    obtain ⟨threads, htry, hpos⟩ := Client.tryConnect_eq { s.client with running := true }
    rcases s.client.connect_cases none with ⟨hr', -⟩ | ⟨-, hne, -⟩ | ⟨-, -, ⟨err, he, -⟩ | ⟨-, hc⟩⟩
    · rw [hr] at hr'
      cases hr'
    · exact absurd hl hne
    · cases he
    · refine ⟨_, hc, ?_⟩
      rw [htry]
      exact ⟨rfl, rfl, hst, hpos hst⟩

theorem connectsAgain_iff :
    s.ConnectsAgain ↔ (s.AtRest → s.client.encryption.lastError = "" → s.Fresh) := by
  constructor
  · intro h hq hl
    exact (connects_iff_fresh hl).mp (h hq hl)
  · intro h hq hl
    exact (connects_iff_fresh hl).mpr (h hq hl)

/-! ## The stages of a client -/

/-- How far a client has come. -/
inductive Stage (s : Connecting κ) : Prop where
  | fresh (h : s.Fresh) (hops : s.client.ops = []) (hn : s.client.nextConn = 0)
  /-- The first session waits for the server. -/
  | attempt (op : ClientOp) (hr : s.client.running = true) (hst : s.client.stopped = false)
      (hops : s.client.ops = [op]) (hn : s.client.nextConn = 0)
  | spent (hf : ¬ s.Fresh) (h : s.client.stopped = true ∨ s.client.ops = [])

/-- The stage, and there is one connection at most. -/
structure Inv (s : Connecting κ) : Prop where
  stage : s.Stage
  conns_lt : ∀ conn c, s.client.conns conn = some c → conn < s.client.nextConn
  ended_lt : ∀ conn ∈ s.ended, conn < s.client.nextConn
  one : s.client.nextConn ≤ 1

theorem init_inv : (init κ).Inv :=
  { stage := .fresh ⟨rfl, rfl⟩ rfl rfl
    conns_lt := by
      intro conn c hc
      cases hc
    ended_lt := by
      intro conn hmem
      cases hmem
    one := Nat.zero_le 1 }

theorem attempt_connectsAgain {op : ClientOp} (hst : s.client.stopped = false)
    (hops : s.client.ops = [op]) : s.ConnectsAgain := by
  rintro (hq | ⟨hq, -⟩) -
  · rw [hst] at hq
    cases hq
  · rw [hops] at hq
    cases hq

/-- A spent client can only be kept from rest, by a service that runs and a connection that is open. -/
theorem spent_connectsAgain_iff (hf : ¬ s.Fresh) (h : s.client.stopped = true ∨ s.client.ops = []) :
    s.ConnectsAgain ↔
      (s.client.encryption.lastError = "" → s.client.stopped = false ∧ s.ConnectionOpen) := by
  rw [connectsAgain_iff]
  constructor
  · intro hc hl
    have hrest : ¬ s.AtRest := fun hrest => hf (hc hrest hl)
    have hst : s.client.stopped = false := by
      by_contra hst
      exact hrest (.inl (by simpa using hst))
    refine ⟨hst, ?_⟩
    by_contra hopen
    refine hrest (.inr ⟨h.resolve_left ?_, hopen⟩)
    rw [hst]
    exact Bool.false_ne_true
  · rintro hc (hst | ⟨-, hclosed⟩) hl
    · rw [(hc hl).1] at hst
      cases hst
    · exact absurd (hc hl).2 hclosed

/-- On a stopped service it cannot be kept from rest. -/
theorem stopped_connectsAgain_iff (hst : s.client.stopped = true) :
    s.ConnectsAgain ↔ s.client.encryption.lastError ≠ "" := by
  have hf : ¬ s.Fresh := by
    rintro ⟨-, hrun⟩
    rw [hst] at hrun
    cases hrun
  rw [spent_connectsAgain_iff hf (.inl hst)]
  refine ⟨fun hc hl => ?_, fun hne hl => absurd hl hne⟩
  rw [(hc hl).1] at hst
  cases hst

/-- A client with no connection has none that is open. -/
theorem not_open (hn : s.client.nextConn = 0) : ¬ s.ConnectionOpen := by
  rintro ⟨conn, hlt, -⟩
  omega

/-! ## Steps that leave the stage alone -/

/-- What the stage reads is kept. -/
structure Keeps (s s' : Connecting κ) : Prop where
  running : s'.client.running = s.client.running
  stopped : s'.client.stopped = s.client.stopped
  ops : s'.client.ops = s.client.ops
  nextConn : s'.client.nextConn = s.client.nextConn
  conns : ∀ conn, s.client.conns conn = none → s'.client.conns conn = none
  ended : ∀ conn ∈ s'.ended, conn ∈ s.ended ∨ conn < s.client.nextConn

theorem Keeps.fresh_iff (hk : Keeps s s') : s'.Fresh ↔ s.Fresh := by
  unfold Fresh
  rw [hk.running, hk.stopped]

theorem Keeps.inv (hk : Keeps s s') (h : s.Inv) : s'.Inv where
  stage := by
    cases h.stage with
    | fresh hf hops hn =>
      exact .fresh (hk.fresh_iff.mpr hf) (hk.ops.trans hops) (hk.nextConn.trans hn)
    | attempt op hr hst hops hn =>
      exact .attempt op (hk.running.trans hr) (hk.stopped.trans hst) (hk.ops.trans hops)
        (hk.nextConn.trans hn)
    | spent hf hrest =>
      refine .spent (fun hf' => hf (hk.fresh_iff.mp hf')) ?_
      rw [hk.stopped, hk.ops]
      exact hrest
  conns_lt := by
    intro conn c hc
    rw [hk.nextConn]
    cases hold : s.client.conns conn with
    | none =>
      rw [hk.conns conn hold] at hc
      cases hc
    | some c₀ => exact h.conns_lt conn c₀ hold
  ended_lt := by
    intro conn hmem
    rw [hk.nextConn]
    exact (hk.ended conn hmem).elim (h.ended_lt conn) id
  one := hk.nextConn ▸ h.one

theorem Keeps.open_iff (hk : Keeps s s') (he : s'.ended = s.ended) :
    s'.ConnectionOpen ↔ s.ConnectionOpen := by
  unfold ConnectionOpen
  rw [hk.nextConn, he]

theorem Keeps.atRest_iff (hk : Keeps s s') (he : s'.ended = s.ended) : s'.AtRest ↔ s.AtRest := by
  unfold AtRest
  rw [hk.stopped, hk.ops, hk.open_iff he]

theorem Keeps.connectsAgain_iff (hk : Keeps s s') (he : s'.ended = s.ended)
    (hl : s'.client.encryption.lastError = s.client.encryption.lastError) :
    s'.ConnectsAgain ↔ s.ConnectsAgain := by
  rw [Connecting.connectsAgain_iff, Connecting.connectsAgain_iff, hk.atRest_iff he, hl, hk.fresh_iff]

/-- A client that has a connection is spent. -/
theorem Inv.spent_of_conn (h : s.Inv) {conn : Nat} {c : Connection κ}
    (hc : s.client.conns conn = some c) :
    ¬ s.Fresh ∧ (s.client.stopped = true ∨ s.client.ops = []) := by
  have hlt := h.conns_lt conn c hc
  cases h.stage with
  | fresh _ _ hn | attempt _ _ _ _ hn => omega
  | spent hf hrest => exact ⟨hf, hrest⟩

/-- Once its connection has ended, the client is at rest. -/
theorem Keeps.ended_iff (hk : Keeps s s') (h : s.Inv) {conn : Nat} {c : Connection κ}
    (hc : s.client.conns conn = some c) (he : s'.ended = s.ended ++ [conn]) :
    s'.ConnectsAgain ↔ s'.client.encryption.lastError ≠ "" := by
  obtain ⟨hf, hrest⟩ := h.spent_of_conn hc
  have hrest' : s'.client.stopped = true ∨ s'.client.ops = [] := by
    rw [hk.stopped, hk.ops]
    exact hrest
  have hclosed : ¬ s'.ConnectionOpen := by
    rintro ⟨conn', hlt, hopen⟩
    have hone := h.one
    have hlt₀ := h.conns_lt conn c hc
    rw [hk.nextConn] at hlt
    obtain rfl : conn' = conn := by omega
    rw [he] at hopen
    exact hopen (List.mem_append_right _ (List.mem_singleton.mpr rfl))
  rw [spent_connectsAgain_iff (fun hf' => hf (hk.fresh_iff.mp hf')) hrest']
  exact ⟨fun hc hl => hclosed (hc hl).2, fun hne hl => absurd hl hne⟩

/-! ## Steps of a connection -/

theorem runSlots_client (conn : Nat) (es : List (Emission κ)) (s : Connecting κ) :
    ∃ emitted, (s.runSlots conn es).client = { s.client with emitted := emitted } := by
  show ∃ emitted, es.foldl (fun client e => client.runSlot conn e) s.client = _
  generalize s.client = client
  induction es generalizing client with
  | nil => exact ⟨client.emitted, rfl⟩
  | cons e es ih =>
    obtain ⟨emitted, he⟩ := client.runSlot_eq conn e
    obtain ⟨emitted', he'⟩ := ih { client with emitted := emitted }
    refine ⟨emitted', ?_⟩
    rw [List.foldl_cons, he, he']

/-- Whether the handler of a read ends the connection. -/
theorem readHandler_ends (junk : Nat → UInt8) (op : ReadOp) (err : ErrorCode) (c : Connection κ) :
    (c.readHandler o junk op err).2.1.any endsConnection = true ↔ ¬ Connection.Silent err := by
  have hout := Connection.readHandler_outcome o junk op err c
  generalize c.readHandler o junk op err = r at hout ⊢
  have hno : Connection.Silent err → (false = true ↔ ¬ Connection.Silent err) := by
    intro hs
    exact ⟨fun h => (by cases h), fun h => absurd hs h⟩
  cases hout with
  | ended h => exact hno (h.elim .inr fun h => .inl h.1)
  | size n h => exact hno (.inl h)
  | body c' e h hh hb hs he =>
    obtain ⟨stream, rfl⟩ | ⟨cb, stream, rfl⟩ := he
    · exact hno (.inl h)
    · exact hno (.inl h)
  | closed h =>
    refine ⟨fun _ hs => ?_, fun _ => rfl⟩
    rcases hs with hs | hs
    · rcases h with h | h <;> simp [ErrorCode.isError, h, ErrorCode.eof, ErrorCode.sslShortRead] at hs
    · rcases h with h | h <;>
        simp [h, ErrorCode.eof, ErrorCode.sslShortRead, ErrorCode.operationAborted] at hs
  | error h => exact ⟨fun _ => h, fun _ => rfl⟩

/-- Whether the handler of a write does. -/
theorem checkError_ends (err : ErrorCode) :
    (Connection.checkError err : Bool × List (Emission κ)).2.any endsConnection = true ↔
      ¬ Connection.Silent err := by
  obtain ⟨hnil, -⟩ := @Connection.checkError_emitted κ err
  rw [← hnil]
  cases he : err.isError with
  | false => simp [Connection.checkError_success he]
  | true =>
    rcases @Connection.checkError_cases κ err he with ⟨-, hc⟩ | ⟨-, hc⟩ | ⟨-, hc⟩
    · simp [hc]
    · simp [hc, endsConnection]
    · simp [hc, endsConnection]

/-- Replacing a connection, with emissions. -/
theorem Inv.keeps_of_conn (h : s.Inv) {conn : Nat} {c c' : Connection κ}
    (hc : s.client.conns conn = some c) {emitted : List ClientEmission}
    (heq : s'.client = { s.client with
      conns := Function.update s.client.conns conn (some c')
      emitted := emitted })
    (he : s'.ended = s.ended ∨ s'.ended = s.ended ++ [conn]) : Keeps s s' where
  running := by rw [heq]
  stopped := by rw [heq]
  ops := by rw [heq]
  nextConn := by rw [heq]
  conns := by
    intro conn' hnone
    rw [heq]
    by_cases hne : conn' = conn
    · subst hne
      rw [hc] at hnone
      cases hnone
    · exact (Function.update_of_ne hne _ _).trans hnone
  ended := by
    intro conn' hmem
    rcases he with he | he
    · exact .inl (he ▸ hmem)
    · rw [he] at hmem
      rcases List.mem_append.mp hmem with hold | hnew
      · exact .inl hold
      · obtain rfl := List.mem_singleton.mp hnew
        exact .inr (h.conns_lt conn' c hc)

/-- What a handler of a connection or `close()` does, by whether it ends the connection. -/
theorem Inv.runSlots (h : s.Inv) (hp : s.ConnectsAgain) {conn : Nat} {c c' : Connection κ}
    (hc : s.client.conns conn = some c) (es : List (Emission κ)) {handlers : List (Option Nat)}
    (hs : { (s.setConn conn c').runSlots conn es with handlers := handlers } = s') :
    (s'.ConnectsAgain ↔
      (s.client.encryption.lastError = "" → ¬ es.any endsConnection = true)) ∧ s'.Inv := by
  obtain ⟨emitted, hclient⟩ := runSlots_client conn es (s.setConn conn c')
  have heq : s'.client = { s.client with
      conns := Function.update s.client.conns conn (some c')
      emitted := emitted } := by
    rw [← hs]
    exact hclient
  have hended : s'.ended = if es.any endsConnection then s.ended ++ [conn] else s.ended := by
    rw [← hs]
    rfl
  have hk := h.keeps_of_conn hc heq (by rw [hended]; split_ifs <;> simp)
  have hl : s'.client.encryption.lastError = s.client.encryption.lastError := by rw [heq]
  refine ⟨?_, hk.inv h⟩
  by_cases hends : es.any endsConnection = true
  · have he : s'.ended = s.ended ++ [conn] := hended.trans (if_pos hends)
    rw [hk.ended_iff h hc he, hl]
    exact ⟨fun hne hl' => absurd hl' hne, fun h' hl' => h' hl' hends⟩
  · have he : s'.ended = s.ended := hended.trans (if_neg hends)
    rw [hk.connectsAgain_iff he hl]
    exact ⟨fun _ _ => hends, fun _ => hp⟩

/-! ## Steps of the client -/

theorem connect_step (h : s.Inv) (hp : s.ConnectsAgain) (resolved : Option ErrorCode)
    (hs : { s with client := (s.client.connect resolved).1 } = s') :
    (s'.ConnectsAgain ↔ s.OnceOnly (.connect resolved : ConnectingAct κ)) ∧ s'.Inv := by
  rcases s.client.connect_cases resolved with
    ⟨hr, hc⟩ | ⟨hr, hne, e, hc⟩ | ⟨hr, hl, ⟨err, rfl, hc⟩ | ⟨rfl, hc⟩⟩
  · rw [hc] at hs
    subst hs
    refine ⟨⟨fun _ _ hr' => ?_, fun _ => hp⟩, h⟩
    rw [hr] at hr'
    cases hr'
  · rw [hc] at hs
    have hk : Keeps s s' := by
      subst hs
      exact ⟨rfl, rfl, rfl, rfl, fun _ hn => hn, fun _ hm => .inl hm⟩
    refine ⟨?_, hk.inv h⟩
    subst hs
    exact ⟨fun _ hl => absurd hl hne, fun _ => (hk.connectsAgain_iff rfl rfl).mpr hp⟩
  · -- the resolver throws after `_running` was set
    rw [hc] at hs
    subst hs
    have hf : ¬ Fresh { s with client := { s.client with running := true } } := fun hf => (by cases hf.1)
    have hrest : s.client.stopped = true ∨ s.client.ops = [] := by
      cases h.stage with
      | fresh _ hops => exact .inr hops
      | attempt _ hr' =>
        rw [hr] at hr'
        cases hr'
      | spent _ hrest => exact hrest
    refine ⟨?_, { h with stage := .spent hf hrest }⟩
    rw [spent_connectsAgain_iff hf hrest]
    refine ⟨fun hopen => ?_, fun hC _ => nomatch hC hl hr⟩
    have hst : s.client.stopped = false := (hopen hl).1
    cases h.stage with
    | fresh _ _ hn => exact absurd (hopen hl).2 (not_open hn)
    | attempt _ hr' =>
      rw [hr] at hr'
      cases hr'
    | spent hf' => exact absurd ⟨hr, hst⟩ hf'
  · -- a session is started
    rw [hc] at hs
    obtain ⟨threads, htry, -⟩ := Client.tryConnect_eq { s.client with running := true }
    rw [htry] at hs
    have hpos : s.OnceOnly (.connect none : ConnectingAct κ) := fun _ _ => rfl
    cases h.stage with
    | fresh hf hops hn =>
      subst hs
      have hfirst : s.client.ops ++ [.connect s.client.nextSession] =
          [.connect s.client.nextSession] := by rw [hops]; rfl
      exact ⟨⟨fun _ => hpos, fun _ => attempt_connectsAgain hf.2 hfirst⟩,
        { h with stage := .attempt _ rfl hf.2 hfirst hn }⟩
    | attempt _ hr' =>
      rw [hr] at hr'
      cases hr'
    | spent hf hrest =>
      -- a spent client that does not run was stopped
      exact absurd ⟨hr, ((spent_connectsAgain_iff hf hrest).mp hp hl).1⟩ hf

theorem disconnect_step (h : s.Inv) (hp : s.ConnectsAgain)
    (hs : { s with client := s.client.disconnect } = s') :
    (s'.ConnectsAgain ↔ s.OnceOnly (.disconnect : ConnectingAct κ)) ∧ s'.Inv := by
  unfold Client.disconnect at hs
  split_ifs at hs with hr
  · subst hs
    have hf : ¬ Fresh { s with client := { s.client.stopService with running := false } } :=
      fun hf => (by cases hf.2)
    refine ⟨?_, { h with stage := .spent hf (.inl rfl) }⟩
    rw [stopped_connectsAgain_iff rfl]
    refine ⟨fun hne hl => absurd hl hne, fun hC hl => ?_⟩
    rw [hC hl] at hr
    cases hr
  · subst hs
    exact ⟨⟨fun _ _ => by simpa using hr, fun _ => hp⟩, h⟩

/-- The handler of a session decides the attempt. -/
theorem sessionHandler_step (h : s.Inv) {i : Nat} {err : ErrorCode} {op : ClientOp}
    (hst : s.client.stopped = false) (hi : s.client.ops[i]? = some op)
    (hs : { s with
      client := { s.client with ops := s.client.ops.eraseIdx i }.sessionHandler op err
      handlers := s.handlers ++ [none] } = s') :
    (s'.ConnectsAgain ↔ s.OnceOnly (.sessionHandler i err : ConnectingAct κ)) ∧ s'.Inv := by
  -- an operation is outstanding, so this is the first attempt
  obtain ⟨hr, hrest, hn⟩ : s.client.running = true ∧ s.client.ops.eraseIdx i = [] ∧
      s.client.nextConn = 0 := by
    cases h.stage with
    | fresh _ hops =>
      rw [hops] at hi
      cases hi
    | attempt op' hr _ hops hn =>
      rw [hops] at hi ⊢
      cases i with
      | zero => exact ⟨hr, rfl, hn⟩
      | succ i => cases hi
    | spent _ hrest =>
      rcases hrest with hst' | hops
      · rw [hst] at hst'
        cases hst'
      · rw [hops] at hi
        cases hi
  set client : Client κ := { s.client with ops := s.client.ops.eraseIdx i } with hclient
  rcases Client.sessionHandler_cases op err client with
    ⟨he, hh⟩ | ⟨he, session, hh⟩ | ⟨he, session, hh⟩
  · -- the attempt has failed, and nothing takes `_running` back
    rw [hh] at hs
    subst hs
    have hf : ¬ Fresh { s with client := client.emit (Client.failure err), handlers := s.handlers ++ [none] } := by
      rintro ⟨hr', -⟩
      rw [show (client.emit (Client.failure err)).running = s.client.running from rfl, hr] at hr'
      cases hr'
    have hops : (client.emit (Client.failure err)).ops = [] := hrest
    refine ⟨?_, { h with stage := .spent hf (.inr hops) }⟩
    rw [spent_connectsAgain_iff hf (.inr hops)]
    refine ⟨fun hopen hl => absurd (hopen hl).2 (not_open hn), fun hC hl => ?_⟩
    rw [hC hl] at he
    cases he
  · rw [hh] at hs
    subst hs
    have hops : client.ops ++ [.handshake session] = [.handshake session] := by
      rw [show client.ops = [] from hrest]
      rfl
    exact ⟨⟨fun _ _ => he, fun _ => attempt_connectsAgain hst hops⟩,
      { h with stage := .attempt _ hr hst hops hn }⟩
  · rw [hh] at hs
    have hrunning : s'.client.running = true := by
      rw [← hs]
      exact hr
    have hnext : s'.client.nextConn = 1 := by
      rw [← hs]
      exact congrArg (· + 1) hn
    have hf : ¬ s'.Fresh := by
      rintro ⟨hr', -⟩
      rw [hrunning] at hr'
      cases hr'
    have hops : s'.client.stopped = true ∨ s'.client.ops = [] := by
      rw [← hs]
      exact .inr hrest
    have hended : s'.ended = s.ended := by rw [← hs]
    have hopen : s'.ConnectionOpen := by
      refine ⟨0, by omega, fun hmem => ?_⟩
      have := h.ended_lt 0 (hended ▸ hmem)
      omega
    have hrun : s'.client.stopped = false := by
      rw [← hs]
      exact hst
    refine ⟨⟨fun _ _ => he, fun _ => (spent_connectsAgain_iff hf hops).mpr fun _ => ⟨hrun, hopen⟩⟩, ?_⟩
    refine { stage := .spent hf hops, conns_lt := ?_, ended_lt := ?_, one := by omega }
    · intro conn c hc
      by_contra hge
      have hconns : s'.client.conns =
          Function.update s.client.conns s.client.nextConn (some (Connection.construct κ)) := by
        rw [← hs]
        rfl
      rw [hconns, Function.update_of_ne (by omega)] at hc
      have := h.conns_lt conn c hc
      omega
    · intro conn hmem
      have := h.ended_lt conn (hended ▸ hmem)
      omega

/-- A service that runs out of work leaves a client at rest. -/
theorem finish_step (h : s.Inv) (hp : s.ConnectsAgain) :
    (s.finish.ConnectsAgain ↔
      (s.client.encryption.lastError = "" → s.handlers = [] → ¬ s.client.OutOfWork)) ∧ s.finish.Inv := by
  unfold finish
  split_ifs with hw
  · have hf' : ¬ Fresh { s with client := s.client.stopService } := fun hf' => (by cases hf'.2)
    refine ⟨?_, { h with stage := .spent hf' (.inl rfl) }⟩
    rw [stopped_connectsAgain_iff rfl]
    exact ⟨fun hne hl => absurd hl hne, fun hC hl => hC hl hw.1 hw.2⟩
  · exact ⟨⟨fun _ _ hh hout => hw ⟨hh, hout⟩, fun _ => hp⟩, h⟩

/-- A connection that waits for a package is work. -/
theorem not_outOfWork {conn : Nat} {c : Connection κ} (hlt : conn < s.client.nextConn) :
    ¬ (s.setConn conn c.waitPackage).client.OutOfWork := by
  rintro ⟨-, hout⟩
  have hreads := (hout conn hlt c.waitPackage (Function.update_self conn _ _)).1
  exact List.append_ne_nil_of_right_ne_nil _ (List.cons_ne_nil _ _) hreads

theorem handlerReturn_step (h : s.Inv) (hp : s.ConnectsAgain) {k : Nat}
    (hs : step o s (.handlerReturn k) = some s') :
    (s'.ConnectsAgain ↔ s.OnceOnly (.handlerReturn k : ConnectingAct κ)) ∧ s'.Inv := by
  obtain ⟨handler, hk, hs⟩ := Option.bind_eq_some_iff.mp hs
  set s₁ : Connecting κ := { s with handlers := s.handlers.eraseIdx k } with hs₁
  have hk₁ : Keeps s s₁ := ⟨rfl, rfl, rfl, rfl, fun _ hn => hn, fun _ hm => .inl hm⟩
  have hi₁ := hk₁.inv h
  have hp₁ := (hk₁.connectsAgain_iff rfl rfl).mpr hp
  cases handler with
  | none =>
    obtain rfl := Option.some.inj hs
    obtain ⟨hiff, hinv⟩ := finish_step hi₁ hp₁
    exact ⟨hiff.trans ⟨fun hC hl _ => hC hl, fun hC hl => hC hl hk⟩, hinv⟩
  | some conn =>
    obtain ⟨c, hc, rfl⟩ := Option.map_eq_some_iff.mp hs
    have hk₂ : Keeps s₁ (s₁.setConn conn c.waitPackage) :=
      hi₁.keeps_of_conn hc rfl (.inl rfl)
    obtain ⟨hiff, hinv⟩ := finish_step (hk₂.inv hi₁) ((hk₂.connectsAgain_iff rfl rfl).mpr hp₁)
    refine ⟨⟨fun _ _ hk' => ?_, fun _ => hiff.mpr fun _ _ => ?_⟩, hinv⟩
    · rw [hk] at hk'
      cases hk'
    · exact not_outOfWork (h.conns_lt conn c hc)

/-- A handler of a connection, by the result it is given. -/
theorem Inv.handler_step (h : s.Inv) (hp : s.ConnectsAgain) {conn : Nat} {c c' : Connection κ}
    (hc : s.client.conns conn = some c) {es : List (Emission κ)} {err : ErrorCode}
    (hends : es.any endsConnection = true ↔ ¬ Connection.Silent err) {handlers : List (Option Nat)}
    (hs : { (s.setConn conn c').runSlots conn es with handlers := handlers } = s') :
    (s'.ConnectsAgain ↔
      (s.client.encryption.lastError = "" → Connection.Silent err)) ∧ s'.Inv := by
  obtain ⟨hiff, hi⟩ := h.runSlots hp hc es hs
  refine ⟨hiff.trans (imp_congr_right fun _ => ?_), hi⟩
  rw [hends, not_not]

/-- A step keeps the client able to connect again exactly when it does not bring it to rest. -/
theorem connectsAgain_step {a : ConnectingAct κ} (h : s.Inv) (hp : s.ConnectsAgain)
    (hs : step o s a = some s') : (s'.ConnectsAgain ↔ s.OnceOnly a) ∧ (s'.ConnectsAgain → s'.Inv) := by
  have hkeeps : Keeps s s' → s'.ended = s.ended →
      s'.client.encryption.lastError = s.client.encryption.lastError → s.OnceOnly a →
      (s'.ConnectsAgain ↔ s.OnceOnly a) ∧ (s'.ConnectsAgain → s'.Inv) := by
    intro hk he hl hC
    exact ⟨⟨fun _ => hC, fun _ => (hk.connectsAgain_iff he hl).mpr hp⟩, fun _ => hk.inv h⟩
  have hconn : ∀ conn c c', s.client.conns conn = some c → s.setConn conn c' = s' → s.OnceOnly a →
      (s'.ConnectsAgain ↔ s.OnceOnly a) ∧ (s'.ConnectsAgain → s'.Inv) := by
    intro conn c c' hc hs' hC
    subst hs'
    exact hkeeps (h.keeps_of_conn hc rfl (.inl rfl)) rfl rfl hC
  cases a with
  | setEnabled enabled =>
    cases hs
    exact hkeeps ⟨rfl, rfl, rfl, rfl, fun _ hn => hn, fun _ hm => .inl hm⟩ rfl rfl trivial
  | setLastError lastError =>
    cases hs
    have hk : Keeps s { s with client := s.client.setLastError lastError } :=
      ⟨rfl, rfl, rfl, rfl, fun _ hn => hn, fun _ hm => .inl hm⟩
    refine ⟨?_, fun _ => hk.inv h⟩
    rw [Connecting.connectsAgain_iff, hk.atRest_iff rfl, hk.fresh_iff]
    exact ⟨fun hC hl hq => hC hq hl, fun hC hq hl => hC hl hq⟩
  | connect resolved =>
    have hstep := connect_step h hp resolved (Option.some.inj hs)
    exact ⟨hstep.1, fun _ => hstep.2⟩
  | disconnect =>
    have hstep := disconnect_step h hp (Option.some.inj hs)
    exact ⟨hstep.1, fun _ => hstep.2⟩
  | sessionHandler i err =>
    simp only [step] at hs
    split_ifs at hs with hthread
    obtain ⟨op, hi, hs⟩ := Option.map_eq_some_iff.mp hs
    have hstep := sessionHandler_step h hthread.1 hi hs
    exact ⟨hstep.1, fun _ => hstep.2⟩
  | readResult conn i buffer err =>
    obtain ⟨c, hc, hs⟩ := Option.bind_eq_some_iff.mp hs
    obtain ⟨c', -, hs⟩ := Option.map_eq_some_iff.mp hs
    exact hconn conn c c' hc hs trivial
  | readHandler conn i junk =>
    simp only [step] at hs
    split_ifs at hs with hthread
    obtain ⟨c, hc, hs⟩ := Option.bind_eq_some_iff.mp hs
    obtain ⟨⟨c', es, goesOn⟩, hread, hs⟩ := Option.map_eq_some_iff.mp hs
    obtain ⟨op, err, hi, herr, heq⟩ := Connection.invokeRead_eq_some o hread
    have hends := readHandler_ends (o := o) junk op err (c.setReads (c.socket.reads.eraseIdx i))
    rw [← heq] at hends
    obtain ⟨hiff, hinv⟩ := h.handler_step hp hc hends hs
    refine ⟨hiff.trans (imp_congr_right fun _ => ?_), fun _ => hinv⟩
    simp [hc, hi, herr]
  | writeResult conn i err =>
    obtain ⟨c, hc, hs⟩ := Option.bind_eq_some_iff.mp hs
    obtain ⟨c', -, hs⟩ := Option.map_eq_some_iff.mp hs
    exact hconn conn c c' hc hs trivial
  | writeHandler conn i =>
    simp only [step] at hs
    split_ifs at hs with hthread
    obtain ⟨c, hc, hs⟩ := Option.bind_eq_some_iff.mp hs
    obtain ⟨⟨c', es⟩, hwrite, hs⟩ := Option.map_eq_some_iff.mp hs
    obtain ⟨op, err, hi, herr, rfl, -⟩ := Connection.invokeWrite_spec hwrite
    obtain ⟨hiff, hinv⟩ := h.handler_step hp hc (checkError_ends err) hs
    refine ⟨hiff.trans (imp_congr_right fun _ => ?_), fun _ => hinv⟩
    simp [hc, hi, herr]
  | dispatch conn ptr buffer =>
    obtain ⟨c, hc, hs⟩ := Option.map_eq_some_iff.mp hs
    exact hconn conn c _ hc hs trivial
  | createStream conn cmd command cb =>
    obtain ⟨c, hc, hs⟩ := Option.map_eq_some_iff.mp hs
    cases cb with
    | some cb => exact hconn conn c _ hc hs trivial
    | none => exact hconn conn c _ hc hs trivial
  | close conn shutdown =>
    obtain ⟨c, hc, hs⟩ := Option.map_eq_some_iff.mp hs
    rcases c.close_cases shutdown with ⟨hopen, hok, ops, hclose⟩ | ⟨hthrows, e, hclose⟩
    · rw [hclose] at hs
      obtain ⟨hiff, hinv⟩ := h.runSlots hp hc [.closed] hs
      refine ⟨hiff.trans (imp_congr_right fun _ => ?_), fun _ => hinv⟩
      simp [hc, hopen, hok, endsConnection]
    · rw [hclose] at hs
      cases hs
      refine ⟨⟨fun _ _ => ?_, fun _ => hp⟩, fun _ => h⟩
      intro c₀ hc₀ hopen
      obtain rfl := Option.some.inj (hc.symm.trans hc₀)
      rcases hthrows with hclosed | hshut
      · rw [hopen] at hclosed
        cases hclosed
      · exact hshut
  | handlerReturn k =>
    have hstep := handlerReturn_step h hp hs
    exact ⟨hstep.1, fun _ => hstep.2⟩

/-- **A client connects once.** A client at rest can connect throughout a run exactly when no step of the run
    brings it to rest after a first `connect`. -/
theorem connectsAgain_iff_onceOnly {as : List (ConnectingAct κ)}
    (hr : run (step o) (init κ) as = some s) :
    Throughout (step o) ConnectsAgain (init κ) as ↔ Meets (step o) OnceOnly (init κ) as := by
  refine throughout_iff_meets (fun _ _ _ hi hp hs => connectsAgain_step hi hp hs) init_inv ?_ hr
  intro _ hl
  exact (connects_iff_fresh hl).mpr ⟨rfl, rfl⟩

/-- A client with encryption that connects, reads a size and is told to connect again; it is disconnected
    while an encryption error is pending. -/
theorem connectsAgain_one_connection :
    let as : List (ConnectingAct Unit) :=
      [.setEnabled true, .connect none, .sessionHandler 0 .success, .handlerReturn 0,
        .sessionHandler 0 .success, .handlerReturn 0,
        .readResult 0 0 [16, 0, 0, 0, 0, 0, 0, 0] .success, .readHandler 0 0 fun _ => 0,
        .handlerReturn 0, .connect none, .setLastError "use_certificate_file", .disconnect, .connect none]
    ∃ s, run (step .little) (init Unit) as = some s ∧
      Throughout (step .little) ConnectsAgain (init Unit) as := by
  intro as
  exact ⟨_, rfl, (connectsAgain_iff_onceOnly rfl).mpr (by decide +kernel)⟩

/-- A client whose first attempt was refused cannot connect. -/
theorem refused_client_is_spent :
    ¬ ∀ s : Connecting Unit, Reachable (step .little) (init Unit) s → s.ConnectsAgain := by
  intro hall
  obtain ⟨s, hr, hs⟩ : ∃ s : Connecting Unit, run (step .little) (init Unit)
      [.connect none, .sessionHandler 0 .connectionRefused, .handlerReturn 0] = some s ∧
      (decide s.AtRest, s.client.encryption.lastError, s.client.running) = (true, "", true) :=
    Option.map_eq_some_iff.mp rfl
  obtain ⟨hrest, hs⟩ := Prod.mk.inj hs
  obtain ⟨hl, hrunning⟩ := Prod.mk.inj hs
  have hf := (connects_iff_fresh hl).mp (hall s ⟨_, hr⟩ (of_decide_eq_true hrest) hl)
  rw [hf.1] at hrunning
  cases hrunning

end Connecting

end Lnetlib
