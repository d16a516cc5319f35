import Lnetlib.Server.Registry
import Mathlib.Data.List.Nodup

/-!
# What keeps the registry exact

A connection is alive while it has a read outstanding on an open socket or a slot of its read handler runs,
after which it reads on. An unregistered connection is not alive, and a registered one is, or else it is
leaving: user code runs in the slots of its `closed` or `error` (`ConnInv`). The steps that meet
`KeepsRegistry` keep this, and with no frame left it says that the registry is exact.
-/

namespace Lnetlib

open Bytes Transition

namespace Registry

variable {κ : Type} {o : ByteOrder} {s s' : Registry κ}

/-- What the registry depends on of a connection: whether its socket is open, and how many reads it has
    outstanding. -/
def reading (s : Registry κ) (conn : Nat) : Option (Bool × Nat) :=
  (s.server.conns conn).map fun c => (c.socket.isOpen, c.socket.reads.length)

/-- The connection reads on, now or once its slot has returned. -/
def Alive (s : Registry κ) (conn : Nat) : Prop :=
  ∃ n, s.reading conn = some (true, n) ∧ (n ≠ 0 ∨ .bodySlot conn ∈ s.stack)

/-- What holds of each connection. -/
structure ConnInv (s : Registry κ) (conn : Nat) : Prop where
  announced : s.Announced conn ↔ s.reading conn ≠ none
  known : conn ∈ s.server.connections → s.reading conn ≠ none
  single : ∀ b n, s.reading conn = some (b, n) → n + s.stack.count (.bodySlot conn) ≤ 1
  registered : conn ∈ s.server.connections → s.Alive conn ∨ Leaving s.stack conn
  unregistered : s.Alive conn → conn ∈ s.server.connections
  leaving : .disconnecting conn ∈ s.stack → ¬ s.Alive conn

/-- The inductive invariant. -/
structure Inv (s : Registry κ) : Prop where
  nodup : s.server.connections.Nodup
  keys : ∀ conn, s.server.sessions conn ≠ none ↔ conn ∈ s.server.connections
  fresh : ∀ conn, s.server.nextConn ≤ conn → s.reading conn = none
  conn : ∀ conn, s.ConnInv conn

theorem inv_init : (init κ).Inv where
  nodup := List.nodup_nil
  keys := by
    intro conn
    simp [init, Server.construct]
  fresh := by
    intro conn _
    rfl
  conn := by
    intro conn
    have hdead : ¬ (init κ).Alive conn := by
      rintro ⟨n, hr, -⟩
      cases hr
    refine ⟨?_, ?_, ?_, ?_, ?_, fun _ => hdead⟩
    · simp [Announced, init, Server.construct, reading]
    · intro h
      cases h
    · intro b n h
      cases h
    · intro h
      cases h
    · intro h
      exact absurd h hdead

theorem alive_iff_live (hs : s.stack = []) (conn : Nat) : s.Alive conn ↔ s.Live conn := by
  simp only [Alive, Live, reading, hs, List.not_mem_nil, or_false, Option.map_eq_some_iff,
    Prod.mk.injEq]
  constructor
  · rintro ⟨n, ⟨c, hc, ho, rfl⟩, hn⟩
    exact ⟨c, hc, ho, fun h => hn (by rw [h]; rfl)⟩
  · rintro ⟨c, hc, ho, hn⟩
    exact ⟨_, ⟨c, hc, ho, rfl⟩, fun h => hn (List.eq_nil_of_length_eq_zero h)⟩

/-- With no frame left the invariant says that the registry is exact. -/
theorem Inv.exact (h : s.Inv) : s.Exact := by
  intro hs
  refine ⟨fun conn => ?_, h.nodup, h.keys⟩
  have hc := h.conn conn
  rw [hc.announced, ← alive_iff_live hs]
  constructor
  · intro hmem
    refine ⟨hc.known hmem, (hc.registered hmem).resolve_right ?_⟩
    rw [hs]
    rintro (hl | hl) <;> cases hl
  · rintro ⟨-, ha⟩
    exact hc.unregistered ha

/-! ## Steps that leave a connection alone -/

/-- The frames of a connection are the same. -/
structure SameFrames (st st' : List Frame) (conn : Nat) : Prop where
  body : st'.count (.bodySlot conn) = st.count (.bodySlot conn)
  disconnecting : .disconnecting conn ∈ st' ↔ .disconnecting conn ∈ st
  error : .errorSlot (some conn) ∈ st' ↔ .errorSlot (some conn) ∈ st

theorem SameFrames.refl (st : List Frame) (conn : Nat) : SameFrames st st conn :=
  ⟨rfl, Iff.rfl, Iff.rfl⟩

/-- A frame about something else comes or goes. -/
theorem sameFrames_cons {f : Frame} {conn : Nat} (st : List Frame) (hf : f.conn ≠ some conn) :
    SameFrames st (f :: st) conn := by
  have hne : ∀ g : Frame, g.conn = some conn → f ≠ g := by
    rintro g hg rfl
    exact hf hg
  have hb := hne (.bodySlot conn) rfl
  have hd := hne (.disconnecting conn) rfl
  have he := hne (.errorSlot (some conn)) rfl
  exact ⟨List.count_cons_of_ne hb, by simp [hd.symm], by simp [he.symm]⟩

theorem SameFrames.symm {st st' : List Frame} {conn : Nat} (h : SameFrames st st' conn) :
    SameFrames st' st conn :=
  ⟨h.body.symm, h.disconnecting.symm, h.error.symm⟩

theorem ConnInv.congr {conn : Nat} (h : s.ConnInv conn)
    (hmem : conn ∈ s'.server.connections ↔ conn ∈ s.server.connections)
    (hann : s'.Announced conn ↔ s.Announced conn) (hread : s'.reading conn = s.reading conn)
    (hf : SameFrames s.stack s'.stack conn) : s'.ConnInv conn := by
  have hbody : .bodySlot conn ∈ s'.stack ↔ .bodySlot conn ∈ s.stack := by
    rw [← List.count_pos_iff, ← List.count_pos_iff, hf.body]
  have halive : s'.Alive conn ↔ s.Alive conn := by simp only [Alive, hread, hbody]
  have hleaving : Leaving s'.stack conn ↔ Leaving s.stack conn := by
    simp only [Leaving, hf.disconnecting, hf.error]
  exact
    { announced := by rw [hann, hread]; exact h.announced
      known := by rw [hmem, hread]; exact h.known
      single := by rw [hread, hf.body]; exact h.single
      registered := by rw [hmem, halive, hleaving]; exact h.registered
      unregistered := by rw [hmem, halive]; exact h.unregistered
      leaving := by rw [hf.disconnecting, halive]; exact h.leaving }

/-- A step that changes nothing the registry depends on. -/
theorem Inv.congr (h : s.Inv) (hcon : s'.server.connections = s.server.connections)
    (hses : s'.server.sessions = s.server.sessions) (hnext : s'.server.nextConn = s.server.nextConn)
    (hann : ∀ conn, s'.Announced conn ↔ s.Announced conn) (hread : ∀ conn, s'.reading conn = s.reading conn)
    (hf : ∀ conn, SameFrames s.stack s'.stack conn) : s'.Inv where
  nodup := by rw [hcon]; exact h.nodup
  keys := by rw [hcon, hses]; exact h.keys
  fresh := by
    intro conn hlt
    rw [hread]
    exact h.fresh conn (hnext ▸ hlt)
  conn := fun conn => (h.conn conn).congr (by rw [hcon]) (hann conn) (hread conn) (hf conn)

/-- A step about one connection. -/
theorem Inv.focus (h : s.Inv) {conn : Nat} (hcon : s'.server.connections = s.server.connections)
    (hses : s'.server.sessions = s.server.sessions) (hnext : s'.server.nextConn = s.server.nextConn)
    (hann : ∀ conn, s'.Announced conn ↔ s.Announced conn)
    (hread : ∀ conn', conn' ≠ conn → s'.reading conn' = s.reading conn')
    (hf : ∀ conn', conn' ≠ conn → SameFrames s.stack s'.stack conn')
    (hknown : s.reading conn ≠ none) (hinv : s'.ConnInv conn) : s'.Inv where
  nodup := by rw [hcon]; exact h.nodup
  keys := by rw [hcon, hses]; exact h.keys
  fresh := by
    intro conn' hlt
    have hfresh := h.fresh conn' (hnext ▸ hlt)
    have hne : conn' ≠ conn := by
      rintro rfl
      exact hknown hfresh
    rw [hread conn' hne, hfresh]
  conn := by
    intro conn'
    by_cases hc : conn' = conn
    · rw [hc]
      exact hinv
    · exact (h.conn conn').congr (by rw [hcon]) (hann conn') (hread conn' hc) (hf conn' hc)

theorem announced_emit {e : ServerEmission} (he : ∀ conn, e ≠ .connected conn) (s : Server κ)
    (conn : Nat) : .connected conn ∈ (s.emit e).emitted ↔ .connected conn ∈ s.emitted := by
  have := (he conn).symm
  simp [Server.emit, this]

theorem reading_setConn (conn conn' : Nat) (c : Connection κ) :
    (s.setConn conn c).reading conn' =
      if conn' = conn then some (c.socket.isOpen, c.socket.reads.length) else s.reading conn' := by
  by_cases h : conn' = conn
  · subst h
    simp [reading, setConn]
  · simp [reading, setConn, h]

/-- A connection changes, and neither whether it is open nor its reads. -/
theorem Inv.setConn (h : s.Inv) {conn : Nat} {c c' : Connection κ} (hc : s.server.conns conn = some c)
    (ho : c'.socket.isOpen = c.socket.isOpen)
    (hr : c'.socket.reads.length = c.socket.reads.length) : (s.setConn conn c').Inv := by
  refine h.congr rfl rfl rfl (fun _ => Iff.rfl) (fun conn' => ?_) (fun _ => .refl _ _)
  rw [reading_setConn, ho, hr]
  split
  · rename_i heq
    rw [heq, reading, hc]
    rfl
  · rfl

/-! ## Handlers -/

/-- The read whose handler is invoked is the only one of its connection. -/
theorem Inv.invokeRead (h : s.Inv) {conn i : Nat} {junk : Nat → UInt8}
    {c : Connection κ} {r : Connection κ × List (Emission κ) × Bool} (hc : s.server.conns conn = some c)
    (hr : c.invokeRead o junk i = some r) :
    ∃ op err, c.socket.reads = [op] ∧ c.socket.reads[i]? = some op ∧ op.result = some err ∧
      Connection.ReadOutcome (c.setReads []) op err r := by
  obtain ⟨op, err, hi, herr, rfl⟩ := Connection.invokeRead_eq_some o hr
  have hlen : c.socket.reads.length ≤ 1 := by
    have := (h.conn conn).single c.socket.isOpen c.socket.reads.length (by rw [reading, hc]; rfl)
    omega
  have hpos := (List.getElem?_eq_some_iff.mp hi).1
  obtain ⟨op', hop⟩ := List.length_eq_one_iff.mp (show c.socket.reads.length = 1 by omega)
  obtain rfl : i = 0 := by omega
  have hfirst : c.socket.reads[0]? = some op' := by rw [hop]; rfl
  obtain rfl := Option.some.inj (hi.symm.trans hfirst)
  have herase : c.socket.reads.eraseIdx 0 = [] := by rw [hop]; rfl
  refine ⟨op, err, hop, hfirst, herr, ?_⟩
  rw [herase]
  exact Connection.readHandler_outcome ..

/-- A connection is not alive when it has no read and no slot running. -/
theorem not_alive_of_reading {conn : Nat} {b : Bool} (hr : s.reading conn = some (b, 0))
    (hs : .bodySlot conn ∉ s.stack) : ¬ s.Alive conn := by
  rintro ⟨n, hn, hn' | hn'⟩
  · rw [hr] at hn
    cases hn
    exact hn' rfl
  · exact hs hn'

/-- The step of a read handler whose connection does not read on. -/
theorem ConnInv.ended {conn : Nat} {b : Bool} (h : s.ConnInv conn)
    (hmem : s'.server.connections = s.server.connections)
    (hann : s'.Announced conn ↔ s.Announced conn) (hold : s.reading conn ≠ none)
    (hread : s'.reading conn = some (b, 0)) (hbody : .bodySlot conn ∉ s'.stack)
    (hleave : conn ∈ s.server.connections → Leaving s'.stack conn) : s'.ConnInv conn := by
  have hdead : ¬ s'.Alive conn := not_alive_of_reading hread hbody
  refine
    { announced := ?_
      known := fun _ => by rw [hread]; simp
      single := ?_
      registered := fun hm => .inr (hleave (by rwa [hmem] at hm))
      unregistered := fun ha => absurd ha hdead
      leaving := fun _ => hdead }
  · rw [hann, h.announced, hread]
    simp [hold]
  · intro b' n hn
    rw [hread] at hn
    cases hn
    rw [List.count_eq_zero_of_not_mem hbody]
    exact Nat.zero_le 1

/-- The step of a read handler whose connection reads on. -/
theorem ConnInv.readsOn {conn : Nat} {b : Bool} {n : Nat} (h : s.ConnInv conn) (hs : s.stack = [])
    (hmem : s'.server.connections = s.server.connections)
    (hann : s'.Announced conn ↔ s.Announced conn) (hold : s.reading conn = some (b, 1))
    (hread : s'.reading conn = some (b, n))
    (hn : n + s'.stack.count (.bodySlot conn) = 1)
    (hdis : .disconnecting conn ∉ s'.stack) : s'.ConnInv conn := by
  have halive : s'.Alive conn ↔ s.Alive conn := by
    have hone : n ≠ 0 ∨ .bodySlot conn ∈ s'.stack := by
      rw [← List.count_pos_iff]
      omega
    simp only [Alive, hread, hold, Option.some.injEq, Prod.mk.injEq]
    constructor
    · rintro ⟨_, ⟨hb, rfl⟩, -⟩
      exact ⟨1, ⟨hb, rfl⟩, .inl one_ne_zero⟩
    · rintro ⟨_, ⟨hb, rfl⟩, -⟩
      exact ⟨n, ⟨hb, rfl⟩, hone⟩
  refine
    { announced := ?_
      known := fun _ => by rw [hread]; simp
      single := ?_
      registered := ?_
      unregistered := ?_
      leaving := fun hd => absurd hd hdis }
  · rw [hann, h.announced, hread, hold]
    simp
  · intro b' n' hn'
    rw [hread] at hn'
    cases hn'
    omega
  · intro hm
    rw [hmem] at hm
    refine .inl (halive.mpr ((h.registered hm).resolve_right ?_))
    rw [hs]
    rintro (hl | hl) <;> cases hl
  · intro ha
    rw [hmem]
    exact h.unregistered (halive.mp ha)

theorem Inv.readHandler (h : s.Inv) {conn i : Nat} {junk : Nat → UInt8}
    (hk : KeepsRegistry s (.readHandler conn i junk))
    (hstep : step o s (.readHandler conn i junk) = some s') : s'.Inv := by
  simp only [step] at hstep
  split_ifs at hstep with hcond
  obtain ⟨-, hs⟩ := hcond
  obtain ⟨c, hc, hstep⟩ := Option.bind_eq_some_iff.mp hstep
  obtain ⟨⟨c', emitted, goesOn⟩, hinv, rfl⟩ := Option.map_eq_some_iff.mp hstep
  obtain ⟨op, err, hone, hop, herr, hout⟩ := h.invokeRead hc hinv
  have hci := h.conn conn
  have hold : s.reading conn = some (c.socket.isOpen, 1) := by
    rw [reading, hc, Option.map_some, hone]
    rfl
  have hknown : s.reading conn ≠ none := by rw [hold]; simp
  -- what is the same for the other connections, whatever is emitted
  have hother : ∀ conn', conn' ≠ conn → (s.setConn conn c').reading conn' = s.reading conn' := by
    intro conn' hne
    rw [reading_setConn, if_neg hne]
  have hcons : ∀ f : Frame, f.conn = some conn → ∀ conn', conn' ≠ conn →
      SameFrames s.stack (f :: s.stack) conn' := by
    intro f hf conn' hne
    refine sameFrames_cons _ ?_
    rw [hf]
    simpa using hne.symm
  cases hout with
  | ended hend =>
    have hmem : conn ∉ s.server.connections := by
      intro hm
      obtain ⟨h1, h2⟩ := hk hm c op err hc hop herr
      rcases hend with hv | ⟨he, hb⟩
      · exact h1 hv
      · exact h2 he hb
    refine h.focus rfl rfl rfl (fun _ => Iff.rfl) hother (fun _ _ => .refl _ _) hknown ?_
    refine hci.ended (b := c.socket.isOpen) rfl Iff.rfl hknown ?_ ?_ (fun hm => absurd hm hmem)
    · simp [runSlots, reading_setConn, Connection.setReads]
    · simp [runSlots, Registry.setConn, hs]
  | size n he hh hb =>
    refine h.focus rfl rfl rfl (fun _ => Iff.rfl) hother (fun _ _ => .refl _ _) hknown ?_
    refine hci.readsOn (n := 1) hs rfl Iff.rfl hold ?_ ?_ ?_
    · simp [runSlots, reading_setConn, Connection.waitPackageBody, Socket.asyncRead,
        Connection.setReads]
    · simp [runSlots, Registry.setConn, hs]
    · simp [runSlots, Registry.setConn, hs]
  | body _ e he hh hb hsock hem =>
    have hread : (s.setConn conn c').reading conn = some (c.socket.isOpen, 0) := by
      rw [reading_setConn, if_pos rfl, hsock]
      rfl
    have hrun : ∃ x : Registry κ, runSlots conn true [e] (s.setConn conn c') = x ∧
        x.stack = .bodySlot conn :: s.stack ∧ x.server.connections = s.server.connections ∧
        x.server.sessions = s.server.sessions ∧ x.server.nextConn = s.server.nextConn ∧
        x.server.conns = (s.setConn conn c').server.conns ∧
        ∀ conn', x.Announced conn' ↔ s.Announced conn' := by
      rcases hem with ⟨stream, rfl⟩ | ⟨cb, stream, rfl⟩
      · exact ⟨_, rfl, rfl, rfl, rfl, rfl, rfl, announced_emit (by simp) s.server⟩
      · exact ⟨_, rfl, rfl, rfl, rfl, rfl, rfl, fun _ => Iff.rfl⟩
    obtain ⟨x, hx, hst, h1, h2, h3, h4, h5⟩ := hrun
    rw [hx]
    have hxread : ∀ conn', x.reading conn' = (s.setConn conn c').reading conn' := by
      intro conn'
      simp only [reading, h4]
    refine h.focus h1 h2 h3 h5 (fun conn' hne => (hxread conn').trans (hother conn' hne)) ?_ hknown ?_
    · rw [hst]
      exact hcons _ rfl
    · refine hci.readsOn (n := 0) hs h1 (h5 conn) hold ((hxread conn).trans hread) ?_ ?_
      · simp [hst, hs]
      · simp [hst, hs]
  | closed hv =>
    refine h.focus rfl rfl rfl (announced_emit (by simp) s.server) hother (hcons _ rfl) hknown ?_
    refine hci.ended (b := c.socket.isOpen) rfl (announced_emit (by simp) s.server conn) hknown ?_ ?_ ?_
    · exact (reading_setConn conn conn (c.setReads [])).trans (if_pos rfl)
    · simp [runSlots, runSlot, Registry.setConn, hs]
    · intro _
      exact .inl (by simp [runSlots, runSlot])
  | error hv =>
    refine h.focus rfl rfl rfl (announced_emit (by simp) s.server) hother (hcons _ rfl) hknown ?_
    refine hci.ended (b := c.socket.isOpen) rfl (announced_emit (by simp) s.server conn) hknown ?_ ?_ ?_
    · exact (reading_setConn conn conn (c.setReads [])).trans (if_pos rfl)
    · simp [runSlots, runSlot, Registry.setConn, hs]
    · intro _
      exact .inr (by simp [runSlots, runSlot])

/-- The slots of `closed` of a connection that is not alive, or those of `error` for a write. -/
theorem Inv.push (h : s.Inv) {f : Frame} {e : ServerEmission} (hb : ∀ conn, f ≠ .bodySlot conn)
    (hd : ∀ conn, f = .disconnecting conn → ¬ s.Alive conn) (he : ∀ conn, e ≠ .connected conn) :
    Inv { server := s.server.emit e, stack := f :: s.stack } := by
  refine ⟨h.nodup, h.keys, h.fresh, fun conn => ?_⟩
  have hc := h.conn conn
  have hcount : (f :: s.stack).count (.bodySlot conn) = s.stack.count (.bodySlot conn) :=
    List.count_cons_of_ne (hb conn)
  have hbody : .bodySlot conn ∈ f :: s.stack ↔ .bodySlot conn ∈ s.stack := by
    rw [← List.count_pos_iff, ← List.count_pos_iff, hcount]
  have halive : Alive { server := s.server.emit e, stack := f :: s.stack } conn ↔ s.Alive conn := by
    simp only [Alive, hbody]
    exact Iff.rfl
  refine
    { announced := (announced_emit he s.server conn).trans hc.announced
      known := hc.known
      single := ?_
      registered := ?_
      unregistered := fun ha => hc.unregistered (halive.mp ha)
      leaving := ?_ }
  · intro b n hn
    simp only [hcount]
    exact hc.single b n hn
  · intro hm
    rcases hc.registered hm with ha | hl | hl
    · exact .inl (halive.mpr ha)
    · exact .inr (.inl (List.mem_cons_of_mem _ hl))
    · exact .inr (.inr (List.mem_cons_of_mem _ hl))
  · intro hm
    rw [halive]
    rcases List.mem_cons.mp hm with hm | hm
    · exact hd conn hm.symm
    · exact hc.leaving hm

theorem Inv.writeHandler (h : s.Inv) {conn i : Nat} (hk : KeepsRegistry s (.writeHandler conn i))
    (hstep : step o s (.writeHandler conn i) = some s') : s'.Inv := by
  simp only [step] at hstep
  split_ifs at hstep with hcond
  obtain ⟨c, hc, hstep⟩ := Option.bind_eq_some_iff.mp hstep
  obtain ⟨⟨c', emitted⟩, hinv, rfl⟩ := Option.map_eq_some_iff.mp hstep
  obtain ⟨op, err, hi, herr, rfl, locked, packages, ops, rfl⟩ := Connection.invokeWrite_spec hinv
  have hset : (s.setConn conn (Connection.setWrites ops
      { c with socketLocked := locked, packages := packages })).Inv := h.setConn hc rfl rfl
  cases he : err.isError with
  | false =>
    rw [Connection.checkError_success he]
    exact hset
  | true =>
    rcases @Connection.checkError_cases κ err he with ⟨-, hv⟩ | ⟨hval, hv⟩ | ⟨-, hv⟩ <;> rw [hv]
    · exact hset
    · refine hset.push (fun _ => by simp) ?_ (fun _ => by simp)
      intro conn' hconn ha
      cases hconn
      obtain ⟨h1, h2⟩ := hk ((hset.conn conn).unregistered ha) c op err hc hi herr
      rcases hval with hv' | hv'
      · exact h1 hv'
      · exact h2 hv'
    · exact hset.push (fun _ => by simp) (fun _ hf => by simp at hf) (fun _ => by simp)

/-! ## Calls of `close()` -/

/-- A `close()` that does not throw closes the socket and keeps its operations. -/
theorem close_ok {c c' : Connection κ} {shutdown : ErrorCode} {emitted : List (Emission κ)}
    (h : c.close shutdown = .ok (c', emitted)) :
    emitted = [.closed] ∧ c'.socket.isOpen = false ∧
      c'.socket.reads.length = c.socket.reads.length := by
  rcases c.close_cases shutdown with ⟨-, -, ops, hclose⟩ | ⟨-, e, hclose⟩
  · rw [hclose] at h
    cases h
    exact ⟨rfl, rfl, List.length_map _⟩
  · rw [hclose] at h
    cases h

theorem Inv.close (h : s.Inv) {conn frames : Nat} {shutdown : ErrorCode}
    (hk : KeepsRegistry s (.close conn shutdown frames))
    (hstep : step o s (.close conn shutdown frames) = some s') : s'.Inv := by
  simp only [step] at hstep
  obtain ⟨c, hc, hstep⟩ := Option.bind_eq_some_iff.mp hstep
  split at hstep
  · rename_i c' emitted hclose
    cases hstep
    obtain ⟨rfl, hopen, hlen⟩ := close_ok hclose
    have hread : (s.setConn conn c').reading conn = some (false, c.socket.reads.length) := by
      rw [reading_setConn, if_pos rfl, hopen, hlen]
    have hold : s.reading conn = some (c.socket.isOpen, c.socket.reads.length) := by
      rw [reading, hc]
      rfl
    have hknown : s.reading conn ≠ none := by rw [hold]; simp
    have hdead : ¬ Alive (runSlots conn false [.closed] (s.setConn conn c')) conn := by
      rintro ⟨n, hn, -⟩
      have := hread.symm.trans hn
      cases this
    have hcount : (Frame.disconnecting conn :: s.stack).count (.bodySlot conn) =
        s.stack.count (.bodySlot conn) := List.count_cons_of_ne (by simp)
    have hci := h.conn conn
    refine h.focus rfl rfl rfl (announced_emit (by simp) s.server) ?_ ?_ hknown ?_
    · intro conn' hne
      exact (reading_setConn conn conn' c').trans (if_neg hne)
    · intro conn' hne
      refine sameFrames_cons _ ?_
      simpa [Frame.conn] using hne.symm
    · refine
        { announced := (announced_emit (by simp) s.server conn).trans (hci.announced.trans ?_)
          known := ?_
          single := ?_
          registered := fun _ => .inr (.inl (by simp [runSlots, runSlot]))
          unregistered := fun ha => absurd ha hdead
          leaving := fun _ => hdead }
      · rw [show reading (runSlots conn false [.closed] (s.setConn conn c')) conn = _ from hread, hold]
        simp
      · intro _
        rw [show reading (runSlots conn false [.closed] (s.setConn conn c')) conn = _ from hread]
        simp
      · intro b n hn
        have hn' := hread.symm.trans hn
        cases hn'
        have := hci.single c.socket.isOpen c.socket.reads.length hold
        show c.socket.reads.length + (Frame.disconnecting conn :: s.stack).count (.bodySlot conn) ≤ 1
        omega
  · rename_i e hclose
    split_ifs at hstep with hle
    cases hstep
    have hleave : ∀ f ∈ s.stack, ∀ conn', f.conn = some conn' → conn' ∈ s.server.connections →
        f ∈ s.stack.drop frames ∨ Leaving (s.stack.drop frames) conn' := by
      intro f hf conn' hfc hm
      rw [← List.take_append_drop frames s.stack] at hf
      rcases List.mem_append.mp hf with hf | hf
      · exact .inr (hk c e hc hclose f hf conn' hfc hm)
      · exact .inl hf
    have hsub : ∀ f ∈ s.stack.drop frames, f ∈ s.stack := fun f hf => List.mem_of_mem_drop hf
    refine ⟨h.nodup, h.keys, h.fresh, fun conn' => ?_⟩
    have hci := h.conn conn'
    have halive : Alive { s with stack := s.stack.drop frames } conn' → s.Alive conn' := by
      rintro ⟨n, hn, hn' | hn'⟩
      · exact ⟨n, hn, .inl hn'⟩
      · exact ⟨n, hn, .inr (hsub _ hn')⟩
    refine
      { announced := hci.announced
        known := hci.known
        single := ?_
        registered := ?_
        unregistered := fun ha => hci.unregistered (halive ha)
        leaving := fun hd ha => hci.leaving (hsub _ hd) (halive ha) }
    · intro b n hn
      have h1 := hci.single b n hn
      have h2 : (s.stack.drop frames).count (.bodySlot conn') ≤ s.stack.count (.bodySlot conn') :=
        (List.drop_sublist frames s.stack).count_le _
      show n + (s.stack.drop frames).count (.bodySlot conn') ≤ 1
      omega
    · intro hm
      rcases hci.registered hm with ⟨n, hn, hn' | hn'⟩ | hl | hl
      · exact .inl ⟨n, hn, .inl hn'⟩
      · rcases hleave _ hn' conn' rfl hm with hf | hf
        · exact .inl ⟨n, hn, .inr hf⟩
        · exact .inr hf
      · rcases hleave _ hl conn' rfl hm with hf | hf
        · exact .inr (.inl hf)
        · exact .inr hf
      · rcases hleave _ hl conn' rfl hm with hf | hf
        · exact .inr (.inr hf)
        · exact .inr hf

/-! ## The other steps -/

/-- The slots of a read handler return, and the connection reads on. -/
theorem Inv.bodySlot (h : s.Inv) {conn : Nat} {stack : List Frame} {c : Connection κ}
    (hs : s.stack = .bodySlot conn :: stack) (hc : s.server.conns conn = some c) :
    Inv ({ s with stack := stack }.setConn conn c.waitPackage) := by
  have hci := h.conn conn
  have hold : s.reading conn = some (c.socket.isOpen, c.socket.reads.length) := by
    rw [reading, hc]
    rfl
  have hsingle := hci.single _ _ hold
  rw [hs, List.count_cons_self] at hsingle
  have hread : reading ({ s with stack := stack }.setConn conn c.waitPackage) conn =
      some (c.socket.isOpen, c.socket.reads.length + 1) := by
    rw [reading_setConn, if_pos rfl]
    simp [Connection.waitPackage, Socket.asyncRead]
  have halive : Alive ({ s with stack := stack }.setConn conn c.waitPackage) conn ↔ s.Alive conn := by
    simp only [Alive, hread, hold, Option.some.injEq, Prod.mk.injEq]
    constructor
    · rintro ⟨_, ⟨hb, -⟩, -⟩
      exact ⟨_, ⟨hb, rfl⟩, .inr (by rw [hs]; exact List.mem_cons_self)⟩
    · rintro ⟨_, ⟨hb, -⟩, -⟩
      exact ⟨_, ⟨hb, rfl⟩, .inl (Nat.succ_ne_zero _)⟩
  have hmem : ∀ f : Frame, f ≠ .bodySlot conn → (f ∈ stack ↔ f ∈ s.stack) := by
    intro f hf
    simp [hs, hf]
  refine h.focus rfl rfl rfl (fun _ => Iff.rfl) ?_ ?_ (by rw [hold]; simp) ?_
  · intro conn' hne
    rw [reading_setConn, if_neg hne]
    rfl
  · intro conn' hne
    rw [hs]
    refine (sameFrames_cons stack ?_).symm
    simpa [Frame.conn] using hne.symm
  · refine
      { announced := hci.announced.trans (by rw [hread, hold]; simp)
        known := fun _ => by rw [hread]; simp
        single := ?_
        registered := ?_
        unregistered := fun ha => hci.unregistered (halive.mp ha)
        leaving := ?_ }
    · intro b n hn
      rw [hread] at hn
      cases hn
      show c.socket.reads.length + 1 + stack.count (.bodySlot conn) ≤ 1
      omega
    · intro hm
      rcases hci.registered hm with ha | hl | hl
      · exact .inl (halive.mpr ha)
      · exact .inr (.inl ((hmem _ (by simp)).mpr hl))
      · exact .inr (.inr ((hmem _ (by simp)).mpr hl))
    · intro hd ha
      exact hci.leaving ((hmem _ (by simp)).mp hd) (halive.mp ha)

/-- The slots of `disconnected` return, and the connection is removed. -/
theorem Inv.removeConnection (h : s.Inv) {conn : Nat} {stack : List Frame}
    (hs : s.stack = .disconnecting conn :: stack) :
    Inv { server := s.server.removeConnection conn, stack := stack } := by
  have hdead : ¬ s.Alive conn := (h.conn conn).leaving (by rw [hs]; exact List.mem_cons_self)
  have hbody : ∀ conn', .bodySlot conn' ∈ s.stack ↔ .bodySlot conn' ∈ stack := by
    intro conn'
    simp [hs]
  have hmem : ∀ conn', conn' ∈ (s.server.removeConnection conn).connections ↔
      conn' ≠ conn ∧ conn' ∈ s.server.connections := fun conn' => h.nodup.mem_erase_iff
  have hcount : ∀ conn', s.stack.count (.bodySlot conn') = stack.count (.bodySlot conn') := by
    intro conn'
    rw [hs]
    exact List.count_cons_of_ne (by simp)
  have halive : ∀ conn', Alive { server := s.server.removeConnection conn, stack := stack } conn' ↔
      s.Alive conn' := by
    intro conn'
    simp only [Alive, hbody]
    exact Iff.rfl
  refine ⟨h.nodup.erase _, ?_, h.fresh, ?_⟩
  · intro conn'
    rw [hmem, ← h.keys]
    by_cases hc : conn' = conn
    · simp [Server.removeConnection, hc]
    · simp [Server.removeConnection, hc]
  · intro conn'
    by_cases hc : conn' = conn
    · subst hc
      have hci := h.conn conn'
      have hnot : conn' ∉ (s.server.removeConnection conn').connections := by
        rw [hmem]
        exact fun hm => hm.1 rfl
      refine
        { announced := hci.announced
          known := fun hm => absurd hm hnot
          single := ?_
          registered := fun hm => absurd hm hnot
          unregistered := fun ha => absurd ((halive conn').mp ha) hdead
          leaving := fun _ ha => hdead ((halive conn').mp ha) }
      intro b n hn
      rw [← hcount]
      exact hci.single b n hn
    · refine (h.conn conn').congr ?_ Iff.rfl rfl ?_
      · rw [hmem]
        simp [hc]
      · rw [hs]
        refine (sameFrames_cons stack ?_).symm
        simpa [Frame.conn] using Ne.symm hc

theorem Inv.slotReturn (h : s.Inv) (hk : KeepsRegistry s .slotReturn)
    (hstep : step o s .slotReturn = some s') : s'.Inv := by
  simp only [step] at hstep
  split at hstep
  · rename_i frame stack hs
    cases frame with
    | connectedSlot =>
      cases hstep
      obtain ⟨threads, heq⟩ := s.server.waitNextConnection_eq
      rw [heq]
      refine h.congr rfl rfl rfl (fun _ => Iff.rfl) (fun _ => rfl) (fun conn => ?_)
      rw [hs]
      exact (sameFrames_cons stack (by simp [Frame.conn])).symm
    | bodySlot conn =>
      obtain ⟨c, hc, rfl⟩ := Option.map_eq_some_iff.mp hstep
      exact h.bodySlot hs hc
    | disconnecting conn =>
      simp only [resume] at hstep
      split_ifs at hstep
      cases hstep
      exact h.removeConnection hs
    | errorSlot conn =>
      cases hstep
      refine ⟨h.nodup, h.keys, h.fresh, fun conn' => ?_⟩
      by_cases hc : conn = some conn'
      · subst hc
        have hci := h.conn conn'
        have hnot : conn' ∉ s.server.connections := hk conn' stack hs
        have halive : Alive { s with stack := stack } conn' ↔ s.Alive conn' := by
          simp [Alive, hs, reading]
        refine
          { announced := hci.announced
            known := hci.known
            single := ?_
            registered := fun hm => absurd hm hnot
            unregistered := fun ha => hci.unregistered (halive.mp ha)
            leaving := ?_ }
        · intro b n hn
          have := hci.single b n hn
          rwa [hs, List.count_cons_of_ne (by simp)] at this
        · intro hd
          rw [halive]
          exact hci.leaving (by rw [hs]; exact List.mem_cons_of_mem _ hd)
      · refine (h.conn conn').congr Iff.rfl Iff.rfl rfl ?_
        rw [hs]
        exact (sameFrames_cons (f := .errorSlot conn) stack hc).symm
  · cases hstep

theorem Inv.accepted (h : s.Inv) (hs : s.stack = []) (session : Nat) (ops : List SessionOp) :
    Inv { server := { s.server with ops := ops }.accepted session, stack := [.connectedSlot] } := by
  have hfresh : s.reading s.server.nextConn = none := h.fresh _ (Nat.le_refl _)
  have hnew : s.server.nextConn ∉ s.server.connections := fun hm => (h.conn _).known hm hfresh
  set s₁ : Registry κ := ⟨{ s.server with ops := ops }.accepted session, [.connectedSlot]⟩ with hs₁
  have hconns : s₁.server.connections = s.server.connections ++ [s.server.nextConn] := rfl
  have hread : ∀ conn, s₁.reading conn =
      if conn = s.server.nextConn then some (true, 1) else s.reading conn := by
    intro conn
    by_cases hc : conn = s.server.nextConn
    · subst hc
      simp only [hs₁, reading, Server.accepted, Server.addConnection, Server.emit,
        Function.update_self, if_true]
      rfl
    · simp [hs₁, reading, Server.accepted, Server.addConnection, Server.emit, hc]
  have hann : ∀ conn, s₁.Announced conn ↔ s.Announced conn ∨ conn = s.server.nextConn := by
    intro conn
    simp [hs₁, Announced, Server.accepted, Server.addConnection, Server.emit]
  refine ⟨?_, ?_, ?_, ?_⟩
  · rw [hconns, List.nodup_append]
    refine ⟨h.nodup, List.nodup_singleton _, ?_⟩
    intro conn hm conn' hm' he
    rw [he, List.mem_singleton.mp hm'] at hm
    exact hnew hm
  · intro conn
    rw [hconns, List.mem_append, List.mem_singleton, ← h.keys]
    by_cases hc : conn = s.server.nextConn
    · simp [hs₁, Server.accepted, Server.addConnection, Server.emit, hc]
    · simp [hs₁, Server.accepted, Server.addConnection, Server.emit, hc]
  · intro conn hlt
    have hlt' : s.server.nextConn + 1 ≤ conn := hlt
    rw [hread, if_neg (by omega)]
    exact h.fresh conn (by omega)
  · intro conn
    by_cases hc : conn = s.server.nextConn
    · subst hc
      have hr : s₁.reading s.server.nextConn = some (true, 1) := by rw [hread, if_pos rfl]
      have ha : s₁.Alive s.server.nextConn := ⟨1, hr, .inl one_ne_zero⟩
      have hm : s.server.nextConn ∈ s₁.server.connections := by rw [hconns]; simp
      refine
        { announced := by rw [hann, hr]; simp
          known := fun _ => by rw [hr]; simp
          single := ?_
          registered := fun _ => .inl ha
          unregistered := fun _ => hm
          leaving := fun hd => by simp [hs₁] at hd }
      intro b n hn
      rw [hr] at hn
      cases hn
      simp [hs₁]
    · refine (h.conn conn).congr ?_ ?_ ?_ ?_
      · rw [hconns]
        simp [hc]
      · rw [hann]
        simp [hc]
      · rw [hread, if_neg hc]
      · rw [hs]
        exact sameFrames_cons [] (by simp [Frame.conn])

theorem Inv.sessionHandler (h : s.Inv) {i : Nat} {err : ErrorCode}
    (hstep : step o s (.sessionHandler i err) = some s') : s'.Inv := by
  simp only [step] at hstep
  by_cases hcond : s.server.stopped = false ∧ s.stack = []
  · rw [if_pos hcond] at hstep
    have hs := hcond.2
    split at hstep
    · rename_i op hi
      rcases Server.sessionHandler_cases op err { s.server with ops := s.server.ops.eraseIdx i } with
        ⟨he, hh⟩ | ⟨he, session, hh⟩ | ⟨he, session, hh⟩
      · simp only [hh, he, Bool.false_eq_true, if_false, if_true] at hstep
        cases hstep
        refine h.congr rfl rfl rfl (announced_emit (by simp) _) (fun _ => rfl) (fun conn => ?_)
        rw [hs]
        exact sameFrames_cons [] (by simp [Frame.conn])
      · simp only [hh, he, Bool.false_eq_true, if_false] at hstep
        cases hstep
        refine h.congr rfl rfl rfl (fun _ => Iff.rfl) (fun _ => rfl) (fun conn => ?_)
        rw [hs]
        exact .refl _ _
      · simp only [hh, if_true] at hstep
        cases hstep
        exact h.accepted hs session _
    · cases hstep
  · rw [if_neg hcond] at hstep
    cases hstep

/-- A call of user code that concerns the settings or the sessions. -/
theorem Inv.settings (h : s.Inv) {server : Server κ}
    (hcon : server.connections = s.server.connections) (hses : server.sessions = s.server.sessions)
    (hnext : server.nextConn = s.server.nextConn) (hconns : server.conns = s.server.conns)
    (hann : ∀ conn, .connected conn ∈ server.emitted ↔ .connected conn ∈ s.server.emitted) :
    Inv { s with server := server } :=
  h.congr hcon hses hnext hann (fun _ => by simp only [reading, hconns]) (fun _ => .refl _ _)

theorem Inv.start (h : s.Inv) (bound : Option ErrorCode) (hardware : Int) :
    Inv { s with server := s.server.start bound hardware } := by
  rcases s.server.start_cases bound hardware with heq | ⟨code, message, heq⟩ | ⟨-, count, threads, heq⟩
  · rw [heq]
    exact h
  · rw [heq]
    exact h.settings rfl rfl rfl rfl (announced_emit (by simp) s.server)
  · rw [heq]
    exact h.settings rfl rfl rfl rfl (fun _ => Iff.rfl)

/-- A step that meets the condition keeps the invariant. -/
theorem inv_step {a : RegistryAct κ} (h : s.Inv) (hk : KeepsRegistry s a)
    (hs : step o s a = some s') : s'.Inv := by
  cases a with
  | setThreadPolicy policy count =>
    cases hs
    unfold Server.setThreadPolicy
    split
    · exact h
    · exact h.settings rfl rfl rfl rfl (fun _ => Iff.rfl)
  | setEnabled | setLastError =>
    cases hs
    exact h.settings rfl rfl rfl rfl (fun _ => Iff.rfl)
  | start bound hardware =>
    cases hs
    exact h.start bound hardware
  | stop =>
    cases hs
    unfold Server.stop
    split
    · exact h.settings rfl rfl rfl rfl (fun _ => Iff.rfl)
    · exact h
  | sessionHandler i err => exact h.sessionHandler hs
  | readResult conn i buffer err =>
    obtain ⟨c, hc, hs⟩ := Option.bind_eq_some_iff.mp hs
    obtain ⟨c', hr, rfl⟩ := Option.map_eq_some_iff.mp hs
    obtain ⟨op, -, -, rfl⟩ := Connection.completeRead_eq_some hr
    exact h.setConn hc rfl (List.length_set ..)
  | readHandler conn i junk => exact h.readHandler hk hs
  | writeResult conn i err =>
    obtain ⟨c, hc, hs⟩ := Option.bind_eq_some_iff.mp hs
    obtain ⟨c', hr, rfl⟩ := Option.map_eq_some_iff.mp hs
    obtain ⟨ops, rfl⟩ := Connection.completeWrite_eq_some hr
    exact h.setConn hc rfl rfl
  | writeHandler conn i => exact h.writeHandler hk hs
  | dispatch conn ptr buffer =>
    obtain ⟨c, hc, rfl⟩ := Option.map_eq_some_iff.mp hs
    obtain ⟨locked, packages, ops, heq⟩ :=
      c.dispatchLocked_eq (Connection.createPackage o ptr buffer)
    rw [heq]
    exact h.setConn hc rfl rfl
  | createStream conn cmd command cb =>
    obtain ⟨c, hc, rfl⟩ := Option.map_eq_some_iff.mp hs
    cases cb <;> exact h.setConn hc rfl rfl
  | close conn shutdown frames => exact h.close hk hs
  | slotReturn => exact h.slotReturn hk hs

/-- **What keeps the registry exact.** In a run whose steps all meet `KeepsRegistry` the registry is exact
    whenever no handler is running. -/
theorem registry_exact {as : List (RegistryAct κ)}
    (h : Meets (step o) KeepsRegistry (init κ) as) : Throughout (step o) Exact (init κ) as :=
  throughout_of_meets (I := Inv) (fun _ hi => hi.exact) (fun _ _ _ hi hk hs => inv_step hi hk hs)
    inv_init h

/-- A client that connects and hangs up is registered and then removed. -/
def hangUp : List (RegistryAct Unit) :=
  [.start none 4, .sessionHandler 0 .success, .slotReturn, .readResult 0 0 [] .eof,
    .readHandler 0 0 (fun _ => 0), .slotReturn]

theorem registry_exact_hangUp : Throughout (step .little) Exact (init Unit) hangUp := by
  refine registry_exact ⟨trivial, fun s₁ h₁ => ?_⟩
  cases h₁
  refine ⟨trivial, fun s₂ h₂ => ?_⟩
  cases h₂
  refine ⟨?_, fun s₃ h₃ => ?_⟩
  · intro conn stack hs
    cases hs
  cases h₃
  refine ⟨trivial, fun s₄ h₄ => ?_⟩
  cases h₄
  refine ⟨?_, fun s₅ h₅ => ?_⟩
  · intro _ c op err hc hop herr
    cases hc
    cases hop
    cases herr
    exact ⟨by decide, fun he => by cases he⟩
  cases h₅
  refine ⟨?_, fun _ _ => trivial⟩
  intro conn stack hs
  cases hs

/-- A client that resets its connection stays in the registry, and nothing is read from it any more. -/
theorem reset_stays_registered :
    ¬ ∀ s : Registry Unit, Reachable (step .little) (init Unit) s → s.Exact := by
  intro hall
  have hr : Reachable (step .little) (init Unit) _ :=
    ⟨[.start none 4, .sessionHandler 0 .success, .slotReturn, .readResult 0 0 [] .connectionReset,
      .readHandler 0 0 (fun _ => 0), .slotReturn], rfl⟩
  obtain ⟨hmem, -, -⟩ := hall _ hr rfl
  obtain ⟨-, c, hc, -, hreads⟩ := (hmem 0).mp List.mem_cons_self
  cases hc
  exact hreads rfl

end Registry

end Lnetlib
