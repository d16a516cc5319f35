import Lnetlib.Server.Arrival

/-!
# When the events of a connection come in order

As long as the read handler finds each slot connected and `connected` emitted, the events start with
`connected` (`Announcement`), and the reader of the connection is at one stage of its life: it waits for
the next frame, handles a package, or has come to the end of the stream and takes the connection away
(`Stage`).
-/

namespace Lnetlib

open Bytes Transition

/-- A read handler works on a package. -/
def ReaderPc.handling : ReaderPc → Bool
  | emitReceived _ | emitServerReceived _ | inSlot | waitPackage => true
  | idle | emitClosed | emitDisconnected | inDisconnected | removeConnection => false

namespace Arrival

variable {κ : Type} {o : ByteOrder} {s s' : Arrival κ}

/-- What was emitted, next to where the accept handler stands. -/
def Announcement (s : Arrival κ) : Prop :=
  (s.acceptPc.announced = true ∧ ∃ rest, s.events = .connected :: rest) ∨
    (s.acceptPc.announced = false ∧ s.events = [])

/-- The outstanding read is for the size of the next frame, or for the body behind it. -/
def Expects (s : Arrival κ) (op : ReadOp) : Prop :=
  (op.handler = .readPackageSizeHandler ∧ op.exactly = 8) ∨
    (op.handler = .readPackageBodyHandler ∧
      ((∃ body rest, s.inbox = body :: rest ∧ op.exactly = body.length) ∨
        (s.inbox = [] ∧ s.hangUp ≠ none)))

/-- The life of the reader. -/
inductive Stage (s : Arrival κ) : Prop where
  | waiting (op : ReadOp) (hpc : s.readerPc = .idle) (he : s.ended = false)
      (hr : s.conn.socket.reads = [op]) (hop : s.Expects op)
  /-- An empty package has ended the reading. -/
  | deaf (hpc : s.readerPc = .idle) (he : s.ended = false) (hr : s.conn.socket.reads = [])
      (hin : ∀ body ∈ s.inbox, body = []) (hempty : [] ∈ s.sent)
  | handling (hpc : s.readerPc.handling = true) (he : s.ended = false)
      (hr : s.conn.socket.reads = [])
  /-- The end of the stream was read. -/
  | leaving (hpc : s.readerPc = .emitClosed ∨ s.readerPc = .emitDisconnected) (he : s.ended = true)
      (hr : s.conn.socket.reads = []) (hin : s.inbox = []) (hh : s.hangUp ≠ none)
  | left (hpc : s.readerPc = .inDisconnected ∨ s.readerPc = .removeConnection)
      (he : s.ended = true) (hr : s.conn.socket.reads = []) (hin : s.inbox = [])
      (hh : s.hangUp ≠ none) (hd : .disconnected ∈ s.events)
  | gone (hpc : s.readerPc = .idle) (he : s.ended = true) (hr : s.conn.socket.reads = [])
      (hin : s.inbox = []) (hh : s.hangUp ≠ none) (hd : .disconnected ∈ s.events)
      (hreg : s.registered = false)

/-- The inductive invariant. -/
structure Inv (s : Arrival κ) : Prop where
  announcement : s.Announcement
  stage : s.Stage
  isOpen : s.conn.socket.isOpen = true
  received_once : s.receivedBodies ++ s.pending = s.unclaimed
  sent_eq : s.sent = s.taken.map Taken.body ++ s.inbox
  /-- Behind an empty package there are empty ones only. -/
  empties : ∀ pre post, s.sent = pre ++ [] :: post → ∀ body ∈ post, body = []
  lengths : ∀ body ∈ s.inbox, body.length < 2 ^ 64
  hangUp : ∀ h, s.hangUp = some h → h.err = .eof ∨ h.err = .sslShortRead

theorem inv_init : (init κ).Inv where
  announcement := .inr ⟨rfl, rfl⟩
  stage := .waiting ⟨.readPackageSizeHandler, 8, [], none⟩ rfl rfl rfl (.inl ⟨rfl, rfl⟩)
  isOpen := rfl
  received_once := rfl
  sent_eq := rfl
  empties := by
    intro pre post h
    simp [init] at h
  lengths := by
    intro body h
    cases h
  hangUp := by
    intro h hh
    cases hh

/-! ## What the invariant says -/

theorem Announcement.connected_first (h : s.Announcement) (pre : List ServerEvent) (e : ServerEvent)
    (post : List ServerEvent) (hsplit : s.events = pre ++ e :: post) (he : e ≠ .connected) :
    .connected ∈ pre := by
  rcases h with ⟨-, rest, hev⟩ | ⟨-, hev⟩
  · rw [hev] at hsplit
    rcases pre with _ | ⟨x, pre⟩
    · exact absurd (List.cons.inj hsplit).1.symm he
    · rw [← (List.cons.inj hsplit).1]
      exact List.mem_cons_self
  · rw [hev] at hsplit
    simp at hsplit

/-- The next read can complete when a package is left. -/
theorem Stage.reads_on (h : s.Stage) (hne : ∃ body ∈ s.inbox, body ≠ []) :
    s.readerPc ≠ .idle ∨ ∀ junk, (step o s (.readHandler junk)).isSome = true := by
  obtain ⟨body, hmem, hbody⟩ := hne
  -- whatever is emitted, the handler runs
  have hruns : ∀ (op : ReadOp) (buffer : List UInt8) (rest : List (List UInt8)) (junk : Nat → UInt8),
      s.nextRead o op.handler = some (buffer, .success, rest) → buffer.length = op.exactly →
      (s.readHandler o op junk).isSome = true := by
    intro op buffer rest junk hnext hlen
    unfold readHandler
    rw [hnext]
    simp only [Option.bind_some, hlen, ne_eq, not_true_eq_false, and_false, if_false]
    split <;> rfl
  cases h with
  | waiting op hpc he hr hop =>
    refine .inr fun junk => ?_
    simp only [step, hpc, hr]
    obtain ⟨first, rest, hin⟩ := List.exists_cons_of_ne_nil (List.ne_nil_of_mem hmem)
    rcases hop with ⟨hh, hex⟩ | ⟨hh, ⟨b, rest', hin', hex⟩ | ⟨hin', -⟩⟩
    · refine hruns op (bytesOf o (UInt64.ofNat first.length)) (first :: rest) junk
        (by simp only [nextRead, hh, hin]) ?_
      rw [bytesOf_length, hex]
      rfl
    · exact hruns op b rest' junk (by simp only [nextRead, hh, hin']) hex.symm
    · rw [hin'] at hin
      cases hin
  | deaf _ _ _ hin => exact absurd (hin body hmem) hbody
  | handling hpc =>
    refine .inl fun hidle => ?_
    rw [hidle] at hpc
    cases hpc
  | leaving _ _ _ hin | left _ _ _ hin | gone _ _ _ hin =>
    rw [hin] at hmem
    cases hmem

theorem Inv.inOrder (h : s.Inv) : s.InOrder o where
  connected_first := h.announcement.connected_first
  received_once := h.received_once
  sent_eq := h.sent_eq
  reads_on := h.stage.reads_on
  gone := by
    intro he hidle _
    cases h.stage with
    | waiting _ _ he' | deaf _ he' | handling _ he' =>
      rw [he] at he'
      cases he'
    | leaving hpc | left hpc =>
      rw [hidle] at hpc
      rcases hpc with hpc | hpc <;> cases hpc
    | gone _ _ _ _ _ hd hreg => exact ⟨hd, hreg⟩

/-! ## The accept handler -/

/-- The stage of the reader does not depend on the accept handler. -/
theorem Stage.congr (h : s.Stage) (hreads : s'.conn.socket.reads = s.conn.socket.reads)
    (hpc : s'.readerPc = s.readerPc) (he : s'.ended = s.ended) (hin : s'.inbox = s.inbox)
    (hsent : s'.sent = s.sent) (hhang : s'.hangUp = s.hangUp) (hev : ∀ e ∈ s.events, e ∈ s'.events)
    (hreg : .disconnected ∈ s.events → s.registered = false → s'.registered = false) : s'.Stage := by
  cases h with
  | waiting op hpc₀ he₀ hr₀ hop =>
    refine .waiting op (hpc.trans hpc₀) (he.trans he₀) (hreads.trans hr₀) ?_
    simpa only [Expects, hin, hhang] using hop
  | deaf hpc₀ he₀ hr₀ hin₀ hempty =>
    exact .deaf (hpc.trans hpc₀) (he.trans he₀) (hreads.trans hr₀) (by rw [hin]; exact hin₀)
      (by rw [hsent]; exact hempty)
  | handling hpc₀ he₀ hr₀ =>
    exact .handling (by rw [hpc]; exact hpc₀) (he.trans he₀) (hreads.trans hr₀)
  | leaving hpc₀ he₀ hr₀ hin₀ hh =>
    exact .leaving (by rw [hpc]; exact hpc₀) (he.trans he₀) (hreads.trans hr₀) (hin.trans hin₀)
      (by rw [hhang]; exact hh)
  | left hpc₀ he₀ hr₀ hin₀ hh hd =>
    exact .left (by rw [hpc]; exact hpc₀) (he.trans he₀) (hreads.trans hr₀) (hin.trans hin₀)
      (by rw [hhang]; exact hh) (hev _ hd)
  | gone hpc₀ he₀ hr₀ hin₀ hh hd hregd =>
    exact .gone (hpc.trans hpc₀) (he.trans he₀) (hreads.trans hr₀) (hin.trans hin₀)
      (by rw [hhang]; exact hh) (hev _ hd) (hreg hd hregd)

theorem Inv.accept (h : s.Inv) (hs : step o s .accept = some s') : s'.Inv := by
  have hframe : s'.conn = s.conn ∧ s'.readerPc = s.readerPc ∧ s'.sent = s.sent ∧ s'.inbox = s.inbox ∧
      s'.taken = s.taken ∧ s'.hangUp = s.hangUp ∧ s'.ended = s.ended ∧
      s'.receivedBodies = s.receivedBodies ∧ (∀ e ∈ s.events, e ∈ s'.events) ∧
      (s.acceptPc.announced = true → s'.registered = s.registered) ∧ s'.Announcement := by
    have hann := h.announcement
    simp only [step, Arrival.accept] at hs
    cases hpc : s.acceptPc with
    | emitConnected =>
      simp only [hpc] at hs
      cases hs
      rcases hann with ⟨ha, -⟩ | ⟨-, hev⟩
      · rw [hpc] at ha
        cases ha
      · refine ⟨rfl, rfl, rfl, rfl, rfl, rfl, rfl, ?_, ?_, (fun ha => nomatch ha), .inl ⟨rfl, [], ?_⟩⟩
        · simp [receivedBodies]
        · intro e he
          exact List.mem_append_left _ he
        · simp [hev]
    | returned =>
      simp only [hpc] at hs
      cases hs
    | connectClosed | connectError | connectReceived | lock | pushConnection | addSession =>
      simp only [hpc] at hs
      cases hs
      refine ⟨rfl, rfl, rfl, rfl, rfl, rfl, rfl, rfl, fun _ he => he, (fun ha => nomatch ha), ?_⟩
      rcases hann with ⟨ha, -⟩ | ⟨-, hev⟩
      · rw [hpc] at ha
        cases ha
      · exact .inr ⟨rfl, hev⟩
    | inConnected | unlock | waitNextConnection =>
      simp only [hpc] at hs
      cases hs
      refine ⟨rfl, rfl, rfl, rfl, rfl, rfl, rfl, rfl, fun _ he => he, fun _ => rfl, ?_⟩
      rcases hann with ⟨-, hev⟩ | ⟨ha, -⟩
      · exact .inl ⟨rfl, hev⟩
      · rw [hpc] at ha
        cases ha
  obtain ⟨hconn, hrpc, hsent, hinbox, htaken, hhang, hended, hrec, hev, hreg, hann⟩ := hframe
  have hstage : s'.Stage := by
    refine h.stage.congr (by rw [hconn]) hrpc hended hinbox hsent hhang hev fun hd hregd => ?_
    rcases h.announcement with ⟨ha, -⟩ | ⟨-, hnil⟩
    · exact (hreg ha).trans hregd
    · rw [hnil] at hd
      cases hd
  exact
    { announcement := hann
      stage := hstage
      isOpen := by rw [hconn]; exact h.isOpen
      received_once := by
        rw [hrec, show s'.pending = s.pending by simp only [pending, hrpc],
          show s'.unclaimed = s.unclaimed by simp only [unclaimed, htaken]]
        exact h.received_once
      sent_eq := by rw [hsent, htaken, hinbox]; exact h.sent_eq
      empties := by rw [hsent]; exact h.empties
      lengths := by rw [hinbox]; exact h.lengths
      hangUp := by rw [hhang]; exact h.hangUp }

/-! ## The read handler -/

/-- What the read handler emits comes behind `connected`. -/
theorem Announcement.append (h : s.Announcement) (ha : s.acceptPc.announced = true) (e : ServerEvent) :
    s.acceptPc.announced = true ∧ ∃ rest, s.events ++ [e] = .connected :: rest := by
  rcases h with ⟨-, rest, hev⟩ | ⟨hnot, -⟩
  · exact ⟨ha, rest ++ [e], by rw [hev]; rfl⟩
  · rw [ha] at hnot
    cases hnot

theorem Stage.of_handling (h : s.Stage) (hpc : s.readerPc.handling = true) :
    s.ended = false ∧ s.conn.socket.reads = [] := by
  cases h with
  | waiting _ hpc' | deaf hpc' | gone hpc' =>
    rw [hpc'] at hpc
    cases hpc
  | handling _ he hr => exact ⟨he, hr⟩
  | leaving hpc' | left hpc' => rcases hpc' with hpc' | hpc' <;> rw [hpc'] at hpc <;> cases hpc

theorem Stage.of_leaving (h : s.Stage)
    (hpc : s.readerPc = .emitClosed ∨ s.readerPc = .emitDisconnected) :
    s.ended = true ∧ s.conn.socket.reads = [] ∧ s.inbox = [] ∧ s.hangUp ≠ none := by
  cases h with
  | waiting _ hpc' | deaf hpc' | gone hpc' => rcases hpc with hpc | hpc <;> rw [hpc] at hpc' <;> cases hpc'
  | handling hpc' => rcases hpc with hpc | hpc <;> rw [hpc] at hpc' <;> cases hpc'
  | leaving _ he hr hin hh => exact ⟨he, hr, hin, hh⟩
  | left hpc' => rcases hpc with hpc | hpc <;> rw [hpc] at hpc' <;> rcases hpc' with h | h <;> cases h

theorem Stage.of_left (h : s.Stage)
    (hpc : s.readerPc = .inDisconnected ∨ s.readerPc = .removeConnection) :
    s.ended = true ∧ s.conn.socket.reads = [] ∧ s.inbox = [] ∧ s.hangUp ≠ none ∧
      .disconnected ∈ s.events := by
  cases h with
  | waiting _ hpc' | deaf hpc' | gone hpc' => rcases hpc with hpc | hpc <;> rw [hpc] at hpc' <;> cases hpc'
  | handling hpc' => rcases hpc with hpc | hpc <;> rw [hpc] at hpc' <;> cases hpc'
  | leaving hpc' => rcases hpc with hpc | hpc <;> rw [hpc] at hpc' <;> rcases hpc' with h | h <;> cases h
  | left _ he hr hin hh hd => exact ⟨he, hr, hin, hh, hd⟩

theorem Inv.reader (h : s.Inv) (hk : Prompt s .reader) (hs : step o s .reader = some s') : s'.Inv := by
  have hrec := h.received_once
  simp only [step, Arrival.reader] at hs
  simp only [Prompt] at hk
  cases hpc : s.readerPc with
  | idle =>
    simp only [hpc] at hs
    cases hs
  | emitClosed =>
    simp only [hpc] at hs hk
    simp only [hk, if_true] at hs
    cases hs
    obtain ⟨he, hr, hin, hh⟩ := h.stage.of_leaving (.inl hpc)
    refine ⟨h.announcement, .leaving (.inr rfl) he hr hin hh, h.isOpen, ?_, h.sent_eq, h.empties,
      h.lengths, h.hangUp⟩
    simpa [receivedBodies, pending, unclaimed, hpc] using hrec
  | emitReceived body =>
    simp only [hpc] at hs hk
    simp only [hk, if_true] at hs
    cases hs
    obtain ⟨he, hr⟩ := h.stage.of_handling (by rw [hpc]; rfl)
    refine ⟨h.announcement, .handling rfl he hr, h.isOpen, ?_, h.sent_eq, h.empties, h.lengths,
      h.hangUp⟩
    simpa [receivedBodies, pending, unclaimed, hpc] using hrec
  | emitDisconnected =>
    simp only [hpc] at hs hk
    cases hs
    obtain ⟨he, hr, hin, hh⟩ := h.stage.of_leaving (.inr hpc)
    refine ⟨.inl (h.announcement.append hk _), .left (.inl rfl) he hr hin hh (by simp), h.isOpen, ?_,
      h.sent_eq, h.empties, h.lengths, h.hangUp⟩
    simpa [receivedBodies, pending, unclaimed, hpc] using hrec
  | emitServerReceived body =>
    simp only [hpc] at hs hk
    cases hs
    obtain ⟨he, hr⟩ := h.stage.of_handling (by rw [hpc]; rfl)
    refine ⟨.inl (h.announcement.append hk _), .handling rfl he hr, h.isOpen, ?_, h.sent_eq, h.empties,
      h.lengths, h.hangUp⟩
    simpa [receivedBodies, pending, unclaimed, hpc] using hrec
  | inDisconnected =>
    simp only [hpc] at hs
    cases hs
    obtain ⟨he, hr, hin, hh, hd⟩ := h.stage.of_left (.inl hpc)
    refine ⟨h.announcement, .left (.inr rfl) he hr hin hh hd, h.isOpen, ?_, h.sent_eq, h.empties,
      h.lengths, h.hangUp⟩
    simpa [receivedBodies, pending, unclaimed, hpc] using hrec
  | removeConnection =>
    simp only [hpc] at hs
    split_ifs at hs
    cases hs
    obtain ⟨he, hr, hin, hh, hd⟩ := h.stage.of_left (.inr hpc)
    refine ⟨h.announcement, .gone rfl he hr hin hh hd rfl, h.isOpen, ?_, h.sent_eq, h.empties,
      h.lengths, h.hangUp⟩
    simpa [receivedBodies, pending, unclaimed, hpc] using hrec
  | inSlot =>
    simp only [hpc] at hs
    cases hs
    obtain ⟨he, hr⟩ := h.stage.of_handling (by rw [hpc]; rfl)
    refine ⟨h.announcement, .handling rfl he hr, h.isOpen, ?_, h.sent_eq, h.empties, h.lengths,
      h.hangUp⟩
    simpa [receivedBodies, pending, unclaimed, hpc] using hrec
  | waitPackage =>
    simp only [hpc] at hs
    cases hs
    obtain ⟨he, hr⟩ := h.stage.of_handling (by rw [hpc]; rfl)
    refine ⟨h.announcement, ?_, h.isOpen, ?_, h.sent_eq, h.empties, h.lengths, h.hangUp⟩
    · refine .waiting ⟨.readPackageSizeHandler, 8, [], s.conn.socket.startResult⟩ rfl he ?_
        (.inl ⟨rfl, rfl⟩)
      simp only [Connection.waitPackage, Socket.asyncRead, hr, List.nil_append]
      rfl
    · simpa [receivedBodies, pending, unclaimed, hpc] using hrec

/-! ## The completion of a read -/

/-- A read handler that is given the end of the stream. -/
theorem Inv.readHandler_ended (h : s.Inv) {op : ReadOp} {junk : Nat → UInt8} {err : ErrorCode}
    (hin : s.inbox = []) (hpc : s.readerPc = .idle) (hh : s.hangUp ≠ none)
    (herr : err = .eof ∨ err = .sslShortRead)
    (hnext : s.nextRead o op.handler = some ([], err, []))
    (hs : s.readHandler o op junk = some s') : s'.Inv := by
  have hclosed : (s.conn.setReads []).readHandler o junk { op with buffer := [] } err =
      (s.conn.setReads [], [.closed], false) := Connection.readHandler_eof o junk _ herr _
  have hnot : err ≠ .success := by
    rcases herr with rfl | rfl <;> decide
  have hisError : err.isError = true := by
    rcases herr with rfl | rfl <;> rfl
  unfold Arrival.readHandler at hs
  rw [hnext] at hs
  simp only [Option.bind_some, hnot, false_and, if_false, hclosed, Option.some.injEq] at hs
  subst hs
  refine ⟨h.announcement, .leaving (.inl rfl) (by simp [hisError]) rfl rfl hh, h.isOpen, ?_, ?_,
    h.empties, ?_, h.hangUp⟩
  · simpa [receivedBodies, pending, unclaimed, hpc] using h.received_once
  · rw [h.sent_eq, hin]
  · intro body hb
    cases hb

/-- The handler of the read of a size. -/
theorem Inv.readHandler_size (h : s.Inv) {op : ReadOp} {junk : Nat → UInt8}
    (hpc : s.readerPc = .idle) (he : s.ended = false) (hh : op.handler = .readPackageSizeHandler)
    (hex : op.exactly = 8)
    (hs : s.readHandler o op junk = some s') : s'.Inv := by
  -- the read of the body is started with the size that was read
  have hbody : ∀ (size : UInt64), s.nextRead o op.handler =
        some (bytesOf o size, .success, s.inbox) →
      (∃ body rest, s.inbox = body :: rest ∧ size.toNat = body.length) ∨
        (s.inbox = [] ∧ s.hangUp ≠ none) → s'.Inv := by
    intro size hnext hexp
    have hlen : (bytesOf o size).length = op.exactly := by
      rw [bytesOf_length, hex]
      rfl
    have hne : bytesOf o size ≠ [] := by
      intro hnil
      rw [hnil, hex] at hlen
      cases hlen
    have hrun : (s.conn.setReads []).readHandler o junk { op with buffer := bytesOf o size } .success =
        ((s.conn.setReads []).waitPackageBody size, [], false) := by
      have hsize := @Connection.readHandler_size κ o junk { op with buffer := bytesOf o size } .success hh rfl
        hne (s.conn.setReads [])
      rwa [Connection.packageSize_bytesOf] at hsize
    unfold Arrival.readHandler at hs
    rw [hnext] at hs
    simp only [Option.bind_some, hlen, ne_eq, not_true_eq_false, and_false, if_false, hrun,
      Option.some.injEq] at hs
    subst hs
    refine ⟨h.announcement, ?_, h.isOpen, ?_, ?_, h.empties, h.lengths, h.hangUp⟩
    · exact .waiting _ hpc (by simp [he, ErrorCode.isError, ErrorCode.success]) rfl (.inr ⟨rfl, hexp⟩)
    · simpa [receivedBodies, pending, unclaimed, hpc, hh] using h.received_once
    · simpa [hh] using h.sent_eq
  cases hin : s.inbox with
  | cons body rest =>
    refine hbody (UInt64.ofNat body.length) (by simp only [nextRead, hh, hin]) (.inl ⟨body, rest, hin, ?_⟩)
    exact UInt64.toNat_ofNat_of_lt' (h.lengths body (by rw [hin]; exact List.mem_cons_self))
  | nil =>
    cases hhang : s.hangUp with
    | none =>
      have hnext : s.nextRead o op.handler = none := by simp only [nextRead, hh, hin, hhang]
      unfold Arrival.readHandler at hs
      rw [hnext] at hs
      cases hs
    | some hup =>
      obtain ⟨err, cut⟩ := hup
      have hsome : s.hangUp ≠ none := by
        rw [hhang]
        exact Option.some_ne_none _
      cases cut with
      | some size =>
        exact hbody size (by simp only [nextRead, hh, hin, hhang]) (.inr ⟨hin, hsome⟩)
      | none =>
        exact h.readHandler_ended hin hpc hsome (h.hangUp _ hhang)
          (by simp only [nextRead, hh, hin, hhang]) hs

/-- The handler of the read of a body. -/
theorem Inv.readHandler_body (h : s.Inv) {op : ReadOp} {junk : Nat → UInt8} {body : List UInt8}
    {rest : List (List UInt8)} (hpc : s.readerPc = .idle) (he : s.ended = false)
    (hh : op.handler = .readPackageBodyHandler) (hin : s.inbox = body :: rest)
    (hex : op.exactly = body.length) (hs : s.readHandler o op junk = some s') : s'.Inv := by
  have hnext : s.nextRead o op.handler = some (body, .success, rest) := by
    simp only [nextRead, hh, hin]
  have hsent : s.sent = s.taken.map Taken.body ++ body :: rest := by rw [h.sent_eq, hin]
  have hrec := h.received_once
  have hlengths : ∀ b ∈ rest, b.length < 2 ^ 64 := by
    intro b hb
    exact h.lengths b (by rw [hin]; exact List.mem_cons_of_mem _ hb)
  unfold Arrival.readHandler at hs
  rw [hnext] at hs
  simp only [Option.bind_some, ← hex, ne_eq, not_true_eq_false, and_false, if_false] at hs
  rcases @Connection.readHandler_body κ o junk { op with buffer := body } hh
      (s.conn.setReads []) with ⟨hb, hrun⟩ | ⟨hb, c', e, hrun, hc', ⟨stream, rfl⟩ | ⟨cb, stream, rfl⟩⟩
  · -- an empty package, behind which there are empty ones only
    simp only [hrun, Option.some.injEq] at hs
    subst hs
    obtain rfl : body = [] := hb
    refine ⟨h.announcement, .deaf hpc ?_ rfl ?_ ?_, h.isOpen, ?_, ?_, h.empties, hlengths, h.hangUp⟩
    · simp [he, ErrorCode.isError, ErrorCode.success]
    · exact h.empties _ _ hsent
    · show [] ∈ s.sent
      rw [hsent]
      simp
    · simpa [receivedBodies, pending, unclaimed, hpc, hh, ErrorCode.isError, ErrorCode.success] using hrec
    · simpa [hh, ErrorCode.isError, ErrorCode.success] using hsent
  · simp only [hrun, Option.some.injEq] at hs
    subst hs
    have hb' : body ≠ [] := hb
    refine ⟨h.announcement, .handling rfl ?_ ?_, ?_, ?_, ?_, h.empties, hlengths, h.hangUp⟩
    · simp [he, ErrorCode.isError, ErrorCode.success]
    · show c'.socket.reads = []
      rw [hc']
      rfl
    · show c'.socket.isOpen = true
      rw [hc']
      exact h.isOpen
    · simpa [receivedBodies, pending, unclaimed, hpc, hb'] using hrec
    · simpa using hsent
  · simp only [hrun, Option.some.injEq] at hs
    subst hs
    refine ⟨h.announcement, .handling rfl ?_ ?_, ?_, ?_, ?_, h.empties, hlengths, h.hangUp⟩
    · simp [he, ErrorCode.isError, ErrorCode.success]
    · show c'.socket.reads = []
      rw [hc']
      rfl
    · show c'.socket.isOpen = true
      rw [hc']
      exact h.isOpen
    · simpa [receivedBodies, pending, unclaimed, hpc] using hrec
    · simpa using hsent

theorem Inv.readHandler (h : s.Inv) {junk : Nat → UInt8} (hs : step o s (.readHandler junk) = some s') :
    s'.Inv := by
  simp only [step] at hs
  split at hs
  · rename_i op hpc hr
    cases h.stage with
    | waiting op' _ he hr' hop =>
      obtain rfl : op = op' := by
        rw [hr] at hr'
        exact List.singleton_inj.mp hr'
      rcases hop with ⟨hh, hex⟩ | ⟨hh, ⟨body, rest, hin, hex⟩ | ⟨hin, hhang⟩⟩
      · exact h.readHandler_size hpc he hh hex hs
      · exact h.readHandler_body hpc he hh hin hex hs
      · obtain ⟨hup, hsome⟩ := Option.ne_none_iff_exists'.mp hhang
        exact h.readHandler_ended hin hpc hhang (h.hangUp hup hsome)
          (by simp only [nextRead, hh, hin, hsome]) hs
    | deaf _ _ hr' | handling _ _ hr' | leaving _ _ hr' | left _ _ hr' | gone _ _ hr' =>
      rw [hr] at hr'
      cases hr'
  · cases hs

/-! ## The peer and user code -/

theorem Inv.peerSend (h : s.Inv) {body : List UInt8} (hk : Prompt s (.peerSend body))
    (hs : step o s (.peerSend body) = some s') : s'.Inv := by
  simp only [step] at hs
  split_ifs at hs with hguard
  obtain ⟨hnone, hlen⟩ := hguard
  cases hs
  refine ⟨h.announcement, ?_, h.isOpen, h.received_once, ?_, ?_, ?_, h.hangUp⟩
  · cases h.stage with
    | waiting op hpc he hr hop =>
      refine .waiting op hpc he hr ?_
      rcases hop with hsize | ⟨hh, ⟨b, rest, hin, hex⟩ | ⟨-, hhang⟩⟩
      · exact .inl hsize
      · refine .inr ⟨hh, .inl ⟨b, rest ++ [body], ?_, hex⟩⟩
        show s.inbox ++ [body] = _
        rw [hin, List.cons_append]
      · exact absurd hnone hhang
    | deaf hpc he hr hin hempty =>
      refine .deaf hpc he hr ?_ (List.mem_append_left _ hempty)
      intro b hb
      rcases List.mem_append.mp hb with hb | hb
      · exact hin b hb
      · rw [List.mem_singleton.mp hb]
        by_contra hne
        exact hk hne hempty
    | handling hpc he hr => exact .handling hpc he hr
    | leaving _ _ _ _ hh | left _ _ _ _ hh | gone _ _ _ _ hh => exact absurd hnone hh
  · show s.sent ++ [body] = s.taken.map Taken.body ++ (s.inbox ++ [body])
    rw [h.sent_eq, List.append_assoc]
  · intro pre post hsplit b hb
    rcases post.eq_nil_or_concat with rfl | ⟨post, last, rfl⟩
    · cases hb
    · rw [List.concat_eq_append] at hsplit hb
      have hsplit' : s.sent ++ [body] = (pre ++ [] :: post) ++ [last] := by
        rw [List.append_assoc]
        exact hsplit
      obtain ⟨hsent, hlast⟩ := List.append_inj' hsplit' rfl
      have hempty : [] ∈ s.sent := by
        rw [hsent]
        simp
      rcases List.mem_append.mp hb with hb | hb
      · exact h.empties pre post hsent b hb
      · rw [List.mem_singleton.mp hb, ← List.singleton_inj.mp hlast]
        by_contra hne
        exact hk hne hempty
  · intro b hb
    rcases List.mem_append.mp hb with hb | hb
    · exact h.lengths b hb
    · rw [List.mem_singleton.mp hb]
      exact hlen

theorem Inv.peerHangUp (h : s.Inv) {hup : HangUp} (hs : step o s (.peerHangUp hup) = some s') :
    s'.Inv := by
  simp only [step] at hs
  split_ifs at hs with hguard
  obtain ⟨hnone, herr, -⟩ := hguard
  cases hs
  refine ⟨h.announcement, ?_, h.isOpen, h.received_once, h.sent_eq, h.empties, h.lengths, ?_⟩
  · cases h.stage with
    | waiting op hpc he hr hop =>
      refine .waiting op hpc he hr ?_
      rcases hop with hsize | ⟨hh, hbody | ⟨-, hhang⟩⟩
      · exact .inl hsize
      · exact .inr ⟨hh, .inl hbody⟩
      · exact absurd hnone hhang
    | deaf hpc he hr hin hempty => exact .deaf hpc he hr hin hempty
    | handling hpc he hr => exact .handling hpc he hr
    | leaving _ _ _ _ hh | left _ _ _ _ hh | gone _ _ _ _ hh => exact absurd hnone hh
  · intro h' hh
    cases hh
    exact herr

/-- A step that leaves everything but the callbacks and the uids of the connection as it is. -/
theorem Inv.of_conn (h : s.Inv) {c : Connection κ} (hc : c.socket = s.conn.socket) :
    ({ s with conn := c } : Arrival κ).Inv := by
  refine ⟨h.announcement, ?_, ?_, h.received_once, h.sent_eq, h.empties, h.lengths, h.hangUp⟩
  · exact h.stage.congr (by rw [hc]) rfl rfl rfl rfl rfl (fun _ he => he) (fun _ hreg => hreg)
  · rw [hc]
    exact h.isOpen

theorem inv_step {a : ArrivalAct κ} (h : s.Inv) (hk : Prompt s a) (hs : step o s a = some s') :
    s'.Inv := by
  cases a with
  | peerSend body => exact h.peerSend hk hs
  | peerHangUp hup => exact h.peerHangUp hs
  | accept => exact h.accept hs
  | readHandler junk => exact h.readHandler hs
  | reader => exact h.reader hk hs
  | createStream cmd command cb =>
    cases cb with
    | none =>
      cases hs
      exact h.of_conn rfl
    | some cb =>
      cases hs
      exact h.of_conn rfl

/-! ## The event order -/

/-- **The events of a connection come in order**, and no package is lost, in every run in which its read
    handlers find their slots connected and the accept handler past the emission of `connected`, and in which
    the peer does not send on behind an empty package. -/
theorem inOrder_of_prompt {as : List (ArrivalAct κ)} (h : Meets (step o) Prompt (init κ) as) :
    Throughout (step o) (InOrder o) (init κ) as :=
  throughout_of_meets (fun _ hinv => hinv.inOrder) (fun _ _ _ hinv hk hs => inv_step hinv hk hs)
    inv_init h

/-- A client that sends one package after it was announced, and hangs up. -/
def oneVisit : List (ArrivalAct Unit) :=
  List.replicate 7 .accept ++ [.peerSend [1], .readHandler fun _ => 0, .readHandler fun _ => 0] ++
    List.replicate 4 .reader ++ List.replicate 3 .accept ++
    [.peerHangUp ⟨.eof, none⟩, .readHandler fun _ => 0] ++ List.replicate 4 .reader

theorem inOrder_oneVisit : Throughout (step .little) (InOrder .little) (init Unit) oneVisit ∧
    ∃ s, run (step .little) (init Unit) oneVisit = some s ∧
      s.events = [.connected, .received [1], .disconnected] := by
  refine ⟨inOrder_of_prompt (by decide), Option.map_eq_some_iff.mp rfl⟩

/-- A client that hangs up before the closed slot is connected stays registered. -/
theorem early_hangUp_stays_registered :
    ¬ ∀ s : Arrival Unit, Reachable (step .little) (init Unit) s → s.InOrder .little := by
  intro hall
  obtain ⟨s, hr, hs⟩ : ∃ s, run (step .little) (init Unit)
        ([.peerHangUp ⟨.eof, none⟩, .readHandler fun _ => 0, .reader] ++ List.replicate 10 .accept) =
          some s ∧ (s.ended, s.readerPc, s.acceptPc, s.events) = (true, .idle, .returned, [.connected]) :=
    Option.map_eq_some_iff.mp rfl
  simp only [Prod.mk.injEq] at hs
  obtain ⟨he, hidle, hret, hev⟩ := hs
  obtain ⟨hmem, -⟩ := (hall s ⟨_, hr⟩).gone he hidle hret
  rw [hev] at hmem
  simp at hmem

end Arrival

end Lnetlib
