import Lnetlib.Example.Proofs.ProgramsProofs

/-!
# Proofs: what is typed is what is shown

Two cases in which no request of the server meets a callback of the client: the client waits for no callback
(`hellos_and_files`), or only the slot of the server talks (`replies_in_order`). In the second, the `i`-th package
to the client is the reply to the `i`-th key (`Replying`), so the callback under the uid of a goodbye, which is
at most `i`, is gone.
-/

namespace Lnetlib

open Bytes Transition

namespace Example

variable {o : ByteOrder} {s s' : Example} {p p' : Peers}

/-! ## What is typed -/

/-- The keys of the client that mean something. -/
def typedClient (as : List ExampleAct) : List Said :=
  as.filterMap fun
    | .clientKey key => clientKey key
    | .serverKey _ _ | .call _ _ | .transmit _ _ _ _ | .connection _ _ => none

/-- The keys of the server that mean something. -/
def typedServer (as : List ExampleAct) : List Said :=
  as.filterMap fun
    | .serverKey key file => serverKey file key
    | .clientKey _ | .call _ _ | .transmit _ _ _ _ | .connection _ _ => none

theorem told_tell {r : Role} {w : Said} (hs : s.tell r w = some s') :
    s'.told = Function.update s.told r (s.told r ++ [w]) := by
  unfold tell at hs
  split_ifs at hs
  obtain rfl := Option.some.inj hs
  rfl

/-- The slot of the server is told by packages only. -/
theorem told_runSlot {r : Reading Nat} {j : Nat} {a : ReadingAct Nat} (hs : runSlot o r j a s = some s')
    {r' : Role} (hr : r' ≠ .slot) : s'.told r' = s.told r' := by
  unfold runSlot at hs
  split at hs
  · split at hs
    · rw [told_tell hs, Function.update_of_ne hr]
    · obtain rfl := Option.some.inj hs
      rfl
  · obtain rfl := Option.some.inj hs
    rfl

theorem told_step {a : ExampleAct} (hs : step o s a = some s') :
    s'.told .client = s.told .client ++ typedClient [a] ∧
      s'.told .operator = s.told .operator ++ typedServer [a] := by
  cases a with
  | clientKey key =>
    simp only [step] at hs
    cases hkey : clientKey key with
    | some w =>
      simp only [hkey] at hs
      rw [told_tell hs]
      simp [typedClient, typedServer, hkey]
    | none =>
      simp only [hkey] at hs
      obtain rfl := Option.some.inj hs
      simp [typedClient, typedServer, hkey]
  | serverKey key file =>
    simp only [step] at hs
    cases hkey : serverKey file key with
    | some w =>
      simp only [hkey] at hs
      rw [told_tell hs]
      simp [typedClient, typedServer, hkey]
    | none =>
      simp only [hkey] at hs
      obtain rfl := Option.some.inj hs
      simp [typedClient, typedServer, hkey]
  | call r shutdown =>
    obtain ⟨c, calls, stream, duplex, -, -, rfl⟩ := step_call hs
    simp [typedClient, typedServer]
  | transmit x i n junk =>
    obtain ⟨duplex, -, rfl⟩ := Option.map_eq_some_iff.mp hs
    simp [typedClient, typedServer]
  | connection x a =>
    simp only [step] at hs
    split_ifs at hs
    obtain ⟨duplex, -, hs⟩ := Option.bind_eq_some_iff.mp hs
    cases x with
    | left =>
      obtain rfl := Option.some.inj hs
      simp [typedClient, typedServer]
    | right =>
      rw [told_runSlot hs (by simp), told_runSlot hs (by simp)]
      simp [typedClient, typedServer]

/-- The threads of the keyboards are told what is typed. -/
theorem told_run {as : List ExampleAct} (hr : run (step o) init as = some s) :
    s.told .client = typedClient as ∧ s.told .operator = typedServer as := by
  refine run_induction (P := fun as s => s.told .client = typedClient as ∧ s.told .operator = typedServer as)
    ⟨rfl, rfl⟩ ?_ hr
  rintro as s a s' ⟨hclient, hserver⟩ hs
  obtain ⟨hclient', hserver'⟩ := told_step hs
  rw [hclient', hserver', hclient, hserver]
  exact ⟨List.filterMap_append.symm, List.filterMap_append.symm⟩

/-! ## The screen -/

/-- If every stream is shown as it was said, so is the screen. -/
theorem screen_eq {shown : Role × Said → List Line} {heard : List (Role × Said)}
    {rs : List (Istream × Option Nat)}
    (h : List.Forall₂ (fun e r => ∀ behind, lines o behind r = shown e) heard rs)
    (behind : Nat → List CChar) (k : Nat) :
    ((rs.zipIdx k).flatMap fun r => lines o (behind r.2) r.1) = heard.flatMap shown := by
  induction h generalizing k with
  | nil => rfl
  | cons he _ ih =>
    rw [List.zipIdx_cons, List.flatMap_cons, List.flatMap_cons, he, ih]

/-- Each stream that came in was handled, and as long as no message is typed none by a callback. -/
structure Shown (s : Example) (p : Peers) : Prop where
  paired : (p.party .left).incoming.length = (p.party .left).handled.length
  unanswered : Said.message ∉ s.told .client → ∀ e ∈ (p.party .left).handled, e.callback = none

/-- A call handles nothing. -/
theorem Called.handled {r : Role} {prog : Program} {new : List (Role × Said)} (hc : Called o s p r prog new p') :
    ∀ x, (p'.party x).incoming = (p.party x).incoming ∧ (p'.party x).handled = (p.party x).handled := by
  have hsame : ∀ q : Party, p'.party = (p.setParty r.side q).party →
      q.incoming = (p.party r.side).incoming → q.handled = (p.party r.side).handled →
      ∀ x, (p'.party x).incoming = (p.party x).incoming ∧ (p'.party x).handled = (p.party x).handled := by
    intro q hp' hincoming hhandled
    refine Side.both r.side ?_ ?_
    · rw [hp', Peers.setParty_self]
      exact ⟨hincoming, hhandled⟩
    · rw [hp', Peers.setParty_other]
      exact ⟨rfl, rfl⟩
  cases hc with
  | closed => exact fun _ => ⟨rfl, rfl⟩
  | created w ws tail hcalls htold hanswer hws htail hpayload =>
    exact hsame _ rfl (Peers.createStream_incoming ..) (Peers.createStream_handled ..)
  | responded | wrote | sent => exact hsame _ rfl rfl rfl

theorem Shown.congr (h : s.Shown p) (htold : ∀ w ∈ s.told .client, w ∈ s'.told .client)
    (hincoming : (p'.party .left).incoming = (p.party .left).incoming)
    (hhandled : (p'.party .left).handled = (p.party .left).handled) : s'.Shown p' where
  paired := by rw [hincoming, hhandled]; exact h.paired
  unanswered hm := by
    rw [hhandled]
    exact h.unanswered fun hmem => hm (htold _ hmem)

theorem Shown.deliver {x : Side} {junk : Nat → UInt8} {msg : Message} {rest : List Message}
    (h : s.Shown p) (hr : s.Registered p) (hi : p.Inv o) (hp : Peers.Delivered o p p' x junk msg rest) :
    s.Shown p' := by
  cases x with
  | right =>
    have hleft : p'.party .left = p.party .left := hp.other
    exact h.congr (fun _ hw => hw) (by rw [hleft]) (by rw [hleft])
  | left =>
    constructor
    · rw [hp.self, List.length_append, List.length_append, h.paired]
      rfl
    · intro hm e he
      rw [hp.self] at he
      rcases List.mem_append.mp he with he | he
      · exact h.unanswered hm e he
      · rw [List.mem_singleton.mp he]
        show (p.party .left).conn.callbacks msg.origin.uid = none
        cases hcb : (p.party .left).conn.callbacks msg.origin.uid with
        | none => rfl
        | some n =>
          have hlast := ((hi.party .left).callbacks _ n hcb).2
          exact absurd (hr.left (List.mem_of_getElem? hlast.1)) hm

theorem shown_moved (h : s.Shown p) (hi : s.Inv o p) (hm : Moved o s p s' p') : s'.Shown p' := by
  cases hm with
  | quiet duplex => exact ⟨h.paired, h.unanswered⟩
  | key r w _ hr hrole ht => exact h.congr (fun _ hw => mem_told_of_tell ht hw) rfl rfl
  | call r prog new duplex _ hc =>
    exact h.congr (fun _ hw => hw) (hc.handled .left).1 (hc.handled .left).2
  | deliver x junk duplex _ hp hx =>
    obtain ⟨msg, rest, hdelivered⟩ := Peers.step_deliver hi.duplex.peers hp
    have h' := h.deliver hi.registered hi.duplex.peers hdelivered
    exact ⟨h'.paired, h'.unanswered⟩
  | serve junk duplex _ stream origin w _ hp hincoming hw ht =>
    obtain ⟨msg, rest, hdelivered⟩ := Peers.step_deliver hi.duplex.peers hp
    have h' := h.deliver hi.registered hi.duplex.peers hdelivered
    exact h'.congr (fun _ hw => mem_told_of_tell (s := { s with duplex := duplex }) ht hw) rfl rfl

/-- What the client has shown is what it has heard, if each stream is shown as it was said. -/
theorem screen_said (h : s.Inv o p) (hs : s.Shown p) (shown : Said → List Line)
    (hlines : ∀ (i : Nat) (e : Role × Said) (r : Istream × Origin) (c : Handled),
      (s.said .right)[i]? = some e → (p.party .left).incoming[i]? = some r →
      (p.party .left).handled[i]? = some c → Heard o e r →
        ∀ behind, lines o behind (r.1, c.callback) = shown e.2) (behind : Nat → List CChar) :
    ∃ heard, heard <+: s.said .right ∧ heard.length = (p.party .left).incoming.length ∧
      screen o behind (s.duplex.endpoint .left) = heard.flatMap fun e => shown e.2 := by
  obtain ⟨heard, flying, hsaid, hheard, -⟩ := h.spoken.said .right
  have hlen : heard.length = (p.party .left).incoming.length := hheard.length_eq
  have hends := h.duplex.refines.ends .left
  refine ⟨heard, ⟨flying, hsaid.symm⟩, hlen, ?_⟩
  have hpaired := hs.paired
  refine screen_eq (List.forall₂_iff_get.mpr ⟨?_, ?_⟩) behind 0
  · rw [List.length_zip, ← hends.incoming, ← hends.handled, List.length_map, List.length_map]
    omega
  · intro i hi hi'
    have hget : ∀ (incoming : List Istream) (handled : List (Option Nat)) (hz : i < (incoming.zip handled).length),
        incoming = (p.party .left).incoming.map Prod.fst → handled = (p.party .left).handled.map Handled.callback →
        ∀ behind, lines o behind ((incoming.zip handled).get ⟨i, hz⟩) = shown (heard.get ⟨i, hi⟩).2 := by
      rintro _ _ hz rfl rfl behind
      have hlt : i < (p.party .left).incoming.length := by omega
      have hlt' : i < (p.party .left).handled.length := by omega
      simp only [List.get_eq_getElem, List.getElem_zip, List.getElem_map]
      refine hlines i heard[i] _ _ ?_ (List.getElem?_eq_getElem hlt) (List.getElem?_eq_getElem hlt') ?_ behind
      · rw [hsaid, List.getElem?_append_left hi, List.getElem?_eq_getElem]
      · exact (List.forall₂_iff_get.mp hheard).2 i hi hlt
    exact hget _ _ hi' hends.incoming.symm hends.handled.symm

/-- What one side has said is what its threads were told, up to what they are at. -/
theorem sentBy_isInitial (h : s.Spoken o p) (r : Role) : sentBy r (s.said r.side) <+: s.told r := by
  rcases (h.underway r).sent_or with heq | ⟨w, heq⟩
  · rw [← heq]
  · rw [heq]
    exact List.prefix_append _ _

theorem shown_reachable {as : List ExampleAct} (hr : run (step o) init as = some s) :
    ∃ p, s.Inv o p ∧ s.Shown p := by
  refine Reachable.invariant (I := fun s => ∃ p, s.Inv o p ∧ s.Shown p) ⟨as, hr⟩
    ⟨Peers.init, inv_init, rfl, by simp [Peers.init]⟩ ?_
  rintro s a s' ⟨p, hi, hs⟩ hstep
  obtain ⟨p', hd, hm⟩ := moved hi hstep
  exact ⟨p', inv_moved hi hd hm, shown_moved hs hi hm⟩

/-- The lines of the operator are those that are not a goodbye. -/
theorem flatMap_received {said : List (Role × Said)} (hrole : ∀ e ∈ said, e.2.role = e.1) :
    (said.flatMap fun e => e.2.received).filter (fun line => decide (line ≠ .goodbye)) =
      (sentBy .operator said).flatMap Said.shown := by
  induction said with
  | nil => rfl
  | cons e said ih =>
    obtain ⟨r, w⟩ := e
    have hw : w.role = r := hrole _ List.mem_cons_self
    rw [List.flatMap_cons, List.filter_append, ih fun e he => hrole e (List.mem_cons_of_mem _ he),
      ← List.singleton_append (l := said), sentBy_append, List.flatMap_append]
    congr 1
    subst hw
    cases w <;> rfl

/-- **Hellos and files.** As long as no message is typed, the client shows every hello and saves every file that
    was typed, in order and unchanged, up to what has not arrived. -/
theorem hellos_and_files (as : List ExampleAct) (hr : run (step o) init as = some s)
    (hm : Said.message ∉ typedClient as) (behind : Nat → List CChar) :
    (screen o behind (s.duplex.endpoint .left)).filter (fun line => decide (line ≠ .goodbye)) <+:
      (typedServer as).flatMap Said.shown := by
  obtain ⟨p, hi, hs⟩ := shown_reachable hr
  obtain ⟨hclient, hserver⟩ := told_run hr
  have hm' : Said.message ∉ s.told .client := by rwa [hclient]
  have hlines : ∀ (i : Nat) (e : Role × Said) (r : Istream × Origin) (c : Handled),
      (s.said .right)[i]? = some e → (p.party .left).incoming[i]? = some r →
      (p.party .left).handled[i]? = some c → Heard o e r →
        ∀ behind, lines o behind (r.1, c.callback) = e.2.received := by
    rintro i e ⟨stream, origin⟩ c - - hc ⟨junk, hstream⟩ behind
    rw [hs.unanswered hm' c (List.mem_of_getElem? hc), hstream]
    exact clientSlot_body e.2 origin.uid junk behind
  obtain ⟨heard, hpre, -, hscreen⟩ := screen_said hi hs Said.received hlines behind
  have hrole : ∀ e ∈ heard, e.2.role = e.1 := fun e he =>
    hi.spoken.roles _ _ (hi.spoken.told_of_said (hpre.subset he)).1
  have hsent : sentBy .operator heard <+: sentBy .operator (s.said .right) := (hpre.filter _).map _
  rw [hscreen, flatMap_received hrole, ← hserver]
  exact (hsent.trans (sentBy_isInitial hi.spoken .operator)).flatMap Said.shown

/-- The next call of a thread, `n` times. -/
def talk (r : Role) (n : Nat) : List ExampleAct := List.replicate n (.call r .success)

/-- The first package of `x`, of `n` bytes, goes to the user code of the other side. -/
def carry (x : Side) (n : Nat) : List ExampleAct :=
  [.transmit x 0 n fun _ => 0, .connection x (.writeResult 0 .success), .connection x (.writeHandler 0),
    .connection x.other (.readResult 0), .connection x.other (.invoke 0),
    .connection x.other (.advance 0 fun _ => 0), .connection x.other (.readResult 0),
    .connection x.other (.invoke 0), .connection x.other (.advance 0 fun _ => 0)]

/-- The user code of `x` returns. -/
def returned (x : Side) : List ExampleAct :=
  [.connection x (.slotReturn 0), .connection x (.advance 0 fun _ => 0)]

def shortFile : File where
  name := { chars := cchars "a", size_lt := by decide, size_le := by decide }
  bytes := { data := [1, 2], count_lt := by decide, bytes_le := by decide }

def helloAndFile : List ExampleAct :=
  .serverKey 'h' none :: (talk .operator 3 ++ carry .right 44 ++ returned .left) ++
    .serverKey 'f' (some shortFile) :: (talk .operator 4 ++ carry .right 43)

theorem hellos_and_files_two : ∃ s, run (step .little) init helloAndFile = some s ∧
    screen .little (fun _ => []) (s.duplex.endpoint .left) = [.hello imServer, .file (cchars "a") [1, 2]] ∧
    (screen .little (fun _ => []) (s.duplex.endpoint .left)).filter (fun line => decide (line ≠ .goodbye)) <+:
      (typedServer helloAndFile).flatMap Said.shown := by
  obtain ⟨s, hr, hs⟩ : ∃ s, run (step .little) init helloAndFile = some s ∧
      screen .little (fun _ => []) (s.duplex.endpoint .left) = [.hello imServer, .file (cchars "a") [1, 2]] :=
    Option.map_eq_some_iff.mp (by decide +kernel)
  exact ⟨s, hr, hs, hellos_and_files helloAndFile hr (by simp [helloAndFile, typedClient, talk, carry, returned]) _⟩

/-- While the callback of a message is pending, a hello of the server goes to it. -/
example : (run (step .little) init (.clientKey 'm' :: talk .client 2 ++ .serverKey 'h' none ::
    (talk .operator 3 ++ carry .right 44))).map (fun s => screen .little (fun _ => []) (s.duplex.endpoint .left)) =
    some [.callbackMessage imServer] := by decide +kernel

/-! ## When only the slot of the server talks -/

/-- What the slot of the server says for the `i`-th key. -/
def replyTo (i : Nat) : Said → Said
  | .message => .answer i
  | .quit | .answer _ | .goodbye | .hello | .file _ => .goodbye

/-- It is sent as a request, not as a response. -/
def Said.requests : Said → Bool
  | answer _ => false
  | quit | message | goodbye | hello | file _ => true

/-- Where the `i`-th of what a thread says comes from, if nobody else talks on its side. -/
def originOf (told : List Said) (i : Nat) : Origin :=
  match told[i]? with
  | some (.answer j) => .response (.request j)
  | _ => .request ((told.take i).countP Said.requests)

/-- What a thread was told, without what it has not opened a stream for. -/
def begun (s : Example) (r : Role) : List Said :=
  match (s.program r).calls with
  | c :: _ => if c.opens then (s.told r).dropLast else s.told r
  | [] => s.told r

/-- Where all that is given to one end comes from, in order. -/
def originsTo (p : Peers) (x : Side) : List Origin := p.came x ++ (p.inFlight x).map Message.origin

/-- The packages to the client are the replies to its keys. -/
structure Replying (s : Example) (p : Peers) : Prop where
  replies : s.told .slot = ((s.told .client).take (p.came .right).length).mapIdx replyTo
  count : ∀ r ≠ .operator, (p.party r.side).registered.length = (s.begun r).countP Said.requests
  registered : (p.party .left).registered = (s.begun .client).map Said.hasCallback
  origins : ∀ r ≠ .operator, ∀ i a, (originsTo p r.side.other)[i]? = some a → a = originOf (s.told r) i
  hand : ∀ r ≠ .operator, (s.program r).Holds → ∀ st,
    (p.party r.side).streams[(s.program r).stream]? = some st →
    st.origin = originOf (s.told r) (s.said r.side).length
  /-- Callbacks are pending for the messages that no reply has come for. -/
  pending : ∀ u n, (p.party .left).conn.callbacks u = some n ↔
    (p.came .left).length ≤ n ∧ (p.party .left).registered[n]? = some true ∧ (Origin.request n).uid = u
  answered : ∀ (i : Nat) (c : Handled) (w : Said), (p.party .left).handled[i]? = some c →
    (s.told .client)[i]? = some w → c.callback.isSome = w.hasCallback

/-- What is found in a list with one more. -/
theorem getElem?_concat_cases {α : Type} {xs : List α} {x y : α} {i : Nat} (h : (xs ++ [x])[i]? = some y) :
    xs[i]? = some y ∨ i = xs.length ∧ x = y := by
  by_cases hi : i < xs.length
  · rw [List.getElem?_append_left hi] at h
    exact .inl h
  · rw [List.getElem?_append_right (by omega), List.getElem?_singleton] at h
    split_ifs at h with hzero
    exact .inr ⟨by omega, Option.some.inj h⟩

theorem originOf_append {told : List Said} {i : Nat} (h : i < told.length) (w : Said) :
    originOf (told ++ [w]) i = originOf told i := by
  rw [originOf, originOf, List.getElem?_append_left h, List.take_append_of_le_length h.le]

theorem originOf_last (told : List Said) (w : Said) : originOf (told ++ [w]) told.length =
    match w with
    | .answer j => .response (.request j)
    | _ => .request (told.countP Said.requests) := by
  rw [originOf, List.getElem?_concat_length, List.take_left]
  cases w <;> rfl

/-- All keys of the client are requests. -/
theorem originOf_client {told : List Said} (h : ∀ w ∈ told, w.role = .client) {i : Nat}
    (hi : i ≤ told.length) : originOf told i = .request i := by
  have hcount : (told.take i).countP Said.requests = i := by
    rw [List.countP_eq_length.mpr, List.length_take, Nat.min_eq_left hi]
    intro w hw
    have hrole := h w (List.mem_of_mem_take hw)
    cases w <;> first | rfl | cases hrole
  rw [originOf, hcount]
  cases hget : told[i]? with
  | none => rfl
  | some w =>
    have hrole := h w (List.mem_of_getElem? hget)
    cases w <;> first | rfl | cases hrole

theorem begun_of_empty {r : Role} (h : (s.program r).calls = []) : s.begun r = s.told r := by
  rw [begun, h]

theorem begun_of_calls {r : Role} {w : Said} (h : (s.program r).calls = w.calls) :
    s.begun r = (s.told r).dropLast := by
  obtain ⟨c, ws, tail, hw, -, -, -, hc⟩ := w.calls_eq (o := .little)
  have hopens : c.opens = true := by
    rcases hc with ⟨rfl, -⟩ | ⟨j, -, rfl⟩ <;> rfl
  rw [begun, h, hw]
  exact if_pos hopens

/-- A thread that writes, or has sent, has opened its stream. -/
theorem begun_of_writes {r : Role} {ws tail : List Call} (h : (s.program r).calls = ws ++ tail)
    (hws : ∀ c ∈ ws, c.writes = true) (htail : Sent tail ∨ ∃ tail', tail = .send :: tail') :
    s.begun r = s.told r := by
  rw [begun, h]
  cases ws with
  | cons c ws =>
    have hopens : c.opens = false := by
      have hwrites := hws c List.mem_cons_self
      cases c <;> first | rfl | cases hwrites
    rw [List.cons_append]
    simp only [hopens, Bool.false_eq_true, if_false]
  | nil =>
    rcases htail with (rfl | rfl) | ⟨tail', rfl⟩ <;> rfl

/-- The other threads are where they were. -/
theorem begun_update {r r' : Role} {prog : Program} (hr : r' ≠ r)
    (hprogram : s'.program = Function.update s.program r prog) (htold : s'.told r' = s.told r') :
    s'.begun r' = s.begun r' := by
  rw [begun, begun, hprogram, Function.update_of_ne hr, htold]

/-- When the operator says nothing, each side has one thread that talks. -/
theorem Spoken.alone (h : s.Spoken o p) (hsilent : s.told .operator = []) {r : Role} (hr : r ≠ .operator) :
    ∀ e ∈ s.said r.side, e.1 = r := by
  intro e he
  obtain ⟨htold, hside⟩ := h.told_of_said he
  obtain ⟨r', w⟩ := e
  cases r' with
  | operator =>
    rw [show s.told (Role.operator, w).1 = [] from hsilent] at htold
    cases htold
  | client | slot =>
    cases r <;> first | exact absurd rfl hr | rfl | cases hside

theorem sentBy_alone {r : Role} {said : List (Role × Said)} (h : ∀ e ∈ said, e.1 = r) :
    sentBy r said = said.map Prod.snd := by
  rw [sentBy, List.filter_eq_self.mpr]
  intro e he
  simpa using h e he

/-- What such a side has said is what its thread was told. -/
theorem Spoken.said_alone (h : s.Spoken o p) (hsilent : s.told .operator = []) {r : Role}
    (hr : r ≠ .operator) {i : Nat} {e : Role × Said} (he : (s.said r.side)[i]? = some e) :
    (s.told r)[i]? = some e.2 ∧ e.2.role = r := by
  have hmem := List.mem_of_getElem? he
  have hrole : e.1 = r := h.alone hsilent hr e hmem
  have hsent := sentBy_isInitial h r
  rw [sentBy_alone (h.alone hsilent hr)] at hsent
  have hmap : ((s.said r.side).map Prod.snd)[i]? = some e.2 := by
    rw [List.getElem?_map, he]
    rfl
  have hlt := (List.getElem?_eq_some_iff.mp hmap).1
  constructor
  · rw [List.prefix_iff_getElem?.mp hsent i hlt, ← hmap, List.getElem?_eq_getElem]
  · rw [← hrole]
    exact h.roles e.1 e.2 (h.told_of_said hmem).1

/-- As many packages are given to one end, or on their way there, as the other side has said. -/
theorem Spoken.length_originsTo (h : s.Spoken o p) (x : Side) :
    (originsTo p x.other).length = (s.said x).length := by
  obtain ⟨heard, flying, hsaid, hheard, hflying⟩ := h.said x
  rw [originsTo, Peers.came, hsaid, List.length_append, List.length_append, List.length_map, List.length_map,
    hheard.length_eq, hflying.length_eq]

/-- What a thread has sent, it has begun. -/
theorem sentBy_begun (h : s.Spoken o p) (r : Role) :
    sentBy r (s.said r.side) <+: s.begun r ∧ s.begun r <+: s.told r := by
  have hu := h.underway r
  generalize hsent : sentBy r (s.said r.side) = sent at hu
  generalize htold : s.told r = told at hu
  cases hu with
  | idle _ _ hcalls =>
    have hbegun : s.begun r = s.told r :=
      begun_of_writes (s := s) (List.nil_append _).symm (by simp) (.inl hcalls)
    rw [hbegun, htold]
    exact ⟨List.prefix_refl _, List.prefix_refl _⟩
  | opening _ w _ hcalls =>
    rw [begun_of_calls hcalls, htold, List.dropLast_concat]
    exact ⟨List.prefix_refl _, List.prefix_append _ _⟩
  | writing _ w _ ws tail os origin hcalls hws htail hi hos hbody =>
    rw [begun_of_writes hcalls hws (.inr ⟨tail, rfl⟩), htold]
    exact ⟨List.prefix_append _ _, List.prefix_refl _⟩

/-- How much each side has said, begun and was told. -/
theorem Spoken.lengths (h : s.Spoken o p) (hsilent : s.told .operator = []) {r : Role} (hr : r ≠ .operator) :
    (originsTo p r.side.other).length ≤ (s.begun r).length ∧ (s.begun r).length ≤ (s.told r).length := by
  obtain ⟨hsent, hbegun⟩ := sentBy_begun h r
  have hlen := hsent.length_le
  rw [sentBy_alone (h.alone hsilent hr), List.length_map] at hlen
  rw [h.length_originsTo]
  exact ⟨hlen, hbegun.length_le⟩

/-- Each reply has a key, and each key that has a reply was begun. -/
theorem Replying.bounds (h : s.Replying p) (hi : s.Spoken o p) (hsilent : s.told .operator = []) :
    (p.came .left).length ≤ (s.told .slot).length ∧ (s.told .slot).length ≤ (p.came .right).length ∧
      (p.came .right).length ≤ (s.begun .client).length ∧
      (s.begun .client).length ≤ (s.told .client).length := by
  obtain ⟨hslot, hslot'⟩ := hi.lengths hsilent (r := .slot) (by simp)
  obtain ⟨hclient, hclient'⟩ := hi.lengths hsilent (r := .client) (by simp)
  have hleft : (originsTo p Role.slot.side.other).length =
      (p.came .left).length + ((p.inFlight .left).map Message.origin).length := List.length_append
  have hright : (originsTo p Role.client.side.other).length =
      (p.came .right).length + ((p.inFlight .right).map Message.origin).length := List.length_append
  have hreplies : (s.told .slot).length ≤ (p.came .right).length := by
    rw [h.replies, List.length_mapIdx, List.length_take]
    omega
  omega

/-- A thread is told what to say, while what is given to both ends may be handled. -/
theorem Replying.tell {r : Role} {w : Said} (h : s.Replying p) (hi : s.Spoken o p) (hs : s.Shown p)
    (hsilent : s.told .operator = []) (ht : s.tell r w = some s') (hleft : p'.party .left = p.party .left)
    (hregistered : (p'.party .right).registered = (p.party .right).registered)
    (hstreams : (p'.party .right).streams = (p.party .right).streams)
    (horigins : ∀ x, originsTo p' x = originsTo p x)
    (hreplies : s'.told .slot = ((s'.told .client).take (p'.came .right).length).mapIdx replyTo) :
    s'.Replying p' := by
  obtain ⟨hb₁, hb₂, hb₃, hb₄⟩ := h.bounds hi hsilent
  have hregistered' : ∀ x, (p'.party x).registered = (p.party x).registered := by
    rintro (_ | _)
    · rw [hleft]
    · exact hregistered
  have hstreams' : ∀ x, (p'.party x).streams = (p.party x).streams := by
    rintro (_ | _)
    · rw [hleft]
    · exact hstreams
  have hcame : p'.came .left = p.came .left := by rw [Peers.came, Peers.came, hleft]
  have hlen : (p.came .left).length = (p.party .left).handled.length := by
    rw [Peers.came, List.length_map, hs.paired]
  unfold Example.tell at ht
  split_ifs at ht with hempty
  obtain rfl := Option.some.inj ht
  have hcalls : (s.program r).calls = [] := List.isEmpty_iff.mp hempty
  set s' : Example := { s with
    program := Function.update s.program r { s.program r with calls := w.calls }
    told := Function.update s.told r (s.told r ++ [w]) } with hs'
  have htold : s'.told r = s.told r ++ [w] := by
    rw [hs']
    exact Function.update_self ..
  have hprogram : s'.program r = { s.program r with calls := w.calls } := by
    rw [hs']
    exact Function.update_self ..
  have htold' : ∀ r' ≠ r, s'.told r' = s.told r' := fun r' hr => by
    rw [hs']
    exact Function.update_of_ne hr ..
  have hprogram' : ∀ r' ≠ r, s'.program r' = s.program r' := fun r' hr => by
    rw [hs']
    exact Function.update_of_ne hr ..
  have hbegun : ∀ r', s'.begun r' = s.begun r' := by
    intro r'
    by_cases hr : r' = r
    · subst hr
      rw [begun_of_calls (w := w) (by rw [hprogram]), htold, List.dropLast_concat, begun_of_empty hcalls]
    · exact begun_update hr rfl (htold' r' hr)
  refine ⟨hreplies, ?_, ?_, ?_, ?_, ?_, ?_⟩
  · intro r' hr'
    rw [hregistered', hbegun]
    exact h.count r' hr'
  · rw [hregistered', hbegun]
    exact h.registered
  · intro r' hr' i a ha
    rw [horigins] at ha
    have hlt := (List.getElem?_eq_some_iff.mp ha).1
    obtain ⟨hle, hle'⟩ := hi.lengths hsilent hr'
    by_cases hr : r' = r
    · subst hr
      rw [htold, originOf_append (by omega)]
      exact h.origins r' hr' i a ha
    · rw [htold' r' hr]
      exact h.origins r' hr' i a ha
  · intro r' hr' hholds st hst
    by_cases hr : r' = r
    · subst hr
      exact absurd hholds (Said.not_holds (w := w) (by rw [hprogram]))
    · rw [hprogram' r' hr] at hholds hst
      rw [hstreams'] at hst
      rw [htold' r' hr]
      exact h.hand r' hr' hholds st hst
  · rw [hleft, hcame]
    exact h.pending
  · intro i c w' hc hw'
    rw [hleft] at hc
    have hlt := (List.getElem?_eq_some_iff.mp hc).1
    have hprefix : s.told .client <+: s'.told .client := by
      by_cases hr : Role.client = r
      · subst hr
        rw [htold]
        exact List.prefix_append _ _
      · rw [htold' _ hr]
    refine h.answered i c w' hc ?_
    rw [← hw', List.prefix_iff_getElem?.mp hprefix i (by omega), List.getElem?_eq_getElem]

/-- A key of the client. -/
theorem Replying.key {w : Said} (h : s.Replying p) (hi : s.Spoken o p) (hs : s.Shown p)
    (hsilent : s.told .operator = []) (ht : s.tell .client w = some s') : s'.Replying p := by
  obtain ⟨hb₁, hb₂, hb₃, hb₄⟩ := h.bounds hi hsilent
  refine h.tell hi hs hsilent ht rfl rfl rfl (fun _ => rfl) ?_
  rw [told_tell ht, Function.update_self, Function.update_of_ne (by simp),
    List.take_append_of_le_length (by omega)]
  exact h.replies

theorem mapIdx_replyTo {told : List Said} {n : Nat} {w : Said} (h : told[n]? = some w) :
    (told.take (n + 1)).mapIdx replyTo = (told.take n).mapIdx replyTo ++ [replyTo n w] := by
  have hlt := (List.getElem?_eq_some_iff.mp h).1
  rw [List.take_add_one, h, Option.toList_some, List.mapIdx_append, List.length_take,
    Nat.min_eq_left (by omega)]
  simp

/-- What came in as the `i`-th stream is the `i`-th key. -/
theorem Spoken.heard_key (h : s.Spoken o p) (hsilent : s.told .operator = []) {i : Nat} {stream : Istream}
    {origin : Origin} (hi : (p.party .right).incoming[i]? = some (stream, origin)) :
    ∃ w, (s.told .client)[i]? = some w ∧ serverSlot i stream = some (replyTo i w) := by
  obtain ⟨e, he, hheard⟩ := h.heard (x := .left) hi
  obtain ⟨hget, hrole⟩ := h.said_alone hsilent (r := .client) (by simp) he
  refine ⟨e.2, hget, ?_⟩
  rw [serverSlot_heard i hheard]
  generalize e.2 = w at hrole
  cases w <;> first | rfl | cases hrole

/-- The server replies to a key. -/
theorem Replying.serve {junk : Nat → UInt8} {msg : Message} {rest : List Message} {w : Said}
    (h : s.Replying p) (hi : s.Spoken o p) (hs : s.Shown p) (hsilent : s.told .operator = [])
    (hp : Peers.Delivered o p p' .right junk msg rest)
    (hw : serverSlot (p.came .right).length (Istream.construct o msg.body junk) = some w)
    (ht : s.tell .slot w = some s') : s'.Replying p' := by
  have hcame : p'.came .right = p.came .right ++ [msg.origin] := by
    rw [Peers.came, hp.self, List.map_append]
    rfl
  have hother : p'.party .left = p.party .left := hp.other
  have hlast : (p'.party .right).incoming[(p.came .right).length]? =
      some (Istream.construct o msg.body junk, msg.origin) := by
    rw [hp.self, Peers.came, List.length_map]
    exact List.getElem?_concat_length ..
  obtain ⟨key, hkey, hreply⟩ := (hi.deliver hp).heard_key hsilent hlast
  obtain rfl := Option.some.inj (hreply.symm.trans hw)
  refine h.tell hi hs hsilent ht hother (by rw [hp.self]) (by rw [hp.self]) ?_ ?_
  · rintro (_ | _)
    · rw [originsTo, originsTo, Peers.came, Peers.came, hother]
      exact congrArg _ (congrArg _ hp.inFlight_other)
    · rw [originsTo, originsTo, hcame, hp.inFlight, hp.next, List.append_assoc]
      rfl
  · rw [told_tell ht, Function.update_self, Function.update_of_ne (by simp), hcame, List.length_append,
      List.length_singleton, mapIdx_replyTo hkey, ← h.replies]

/-- The next package to the client replies to a key of its. If the key has a callback, it is under the uid of
    the package, and if not, the uid is one of an earlier key or its own. -/
theorem Replying.next_reply {junk : Nat → UInt8} {msg : Message} {rest : List Message} (h : s.Replying p)
    (hi : s.Spoken o p) (hsilent : s.told .operator = [])
    (hp : Peers.Delivered o p p' .left junk msg rest) :
    ∃ w g, (s.told .client)[(p.came .left).length]? = some w ∧
      (p.party .left).registered[(p.came .left).length]? = some w.hasCallback ∧
      msg.origin.uid = (Origin.request g).uid ∧ g ≤ (p.came .left).length ∧
      (w.hasCallback = true → g = (p.came .left).length) := by
  obtain ⟨hb₁, hb₂, hb₃, hb₄⟩ := h.bounds hi hsilent
  obtain ⟨hslot, hslot'⟩ := hi.lengths hsilent (r := .slot) (by simp)
  set c := (p.came .left).length with hc
  have horigins : originsTo p .left = p.came .left ++ msg.origin :: rest.map Message.origin := by
    rw [originsTo, hp.next]
    rfl
  have hlen : c < (originsTo p .left).length := by
    rw [horigins, List.length_append, List.length_cons]
    omega
  have hsides : originsTo p Role.slot.side.other = originsTo p .left := rfl
  rw [hsides] at hslot
  have hlt : c < (s.told .client).length := by omega
  have horigin : msg.origin = originOf (s.told .slot) c := by
    refine h.origins .slot (by simp) c msg.origin ?_
    rw [hsides, horigins, hc, List.getElem?_append_right (Nat.le_refl _), Nat.sub_self]
    rfl
  have hrole := hi.roles .client (s.told .client)[c] (List.getElem_mem hlt)
  have hreply : (s.told .slot)[c]? = some (replyTo c (s.told .client)[c]) := by
    rw [h.replies, List.getElem?_mapIdx, List.getElem?_take_of_lt (by omega), List.getElem?_eq_getElem hlt]
    rfl
  have hregistered : (p.party .left).registered[c]? = some (s.told .client)[c].hasCallback := by
    have hpre := (sentBy_begun hi .client).2
    have hbegun : c < (s.begun .client).length := by omega
    rw [h.registered, List.getElem?_map, List.getElem?_eq_getElem hbegun, hpre.getElem hbegun]
    rfl
  refine ⟨_, msg.origin.root, List.getElem?_eq_getElem hlt, hregistered, msg.origin.uid_eq, ?_⟩
  rw [originOf, hreply] at horigin
  rw [horigin]
  have hcount : ((s.told .slot).take c).countP Said.requests ≤ c := by
    refine List.countP_le_length.trans ?_
    rw [List.length_take]
    exact Nat.min_le_left ..
  generalize (s.told .client)[c] = w at hrole
  cases w with
  | message => exact ⟨Nat.le_refl c, fun _ => rfl⟩
  | quit => exact ⟨hcount, fun hcb => by cases hcb⟩
  | answer | goodbye | hello | file => cases hrole

/-- A package is given to the client. -/
theorem Replying.deliver {junk : Nat → UInt8} {msg : Message} {rest : List Message} (h : s.Replying p)
    (hi : s.Spoken o p) (hs : s.Shown p) (hsilent : s.told .operator = [])
    (hmany : (s.told .client).length ≤ 2 ^ 64) (hp : Peers.Delivered o p p' .left junk msg rest) :
    s.Replying p' := by
  obtain ⟨w, g, hkey, hregistered, huid, hg, hcb⟩ := h.next_reply hi hsilent hp
  obtain ⟨hb₁, hb₂, hb₃, hb₄⟩ := h.bounds hi hsilent
  have hother : p'.party .right = p.party .right := hp.other
  have hcame : p'.came .left = p.came .left ++ [msg.origin] := by
    rw [Peers.came, hp.self, List.map_append]
    rfl
  have hcame' : p'.came .right = p.came .right := by rw [Peers.came, Peers.came, hother]
  have hstreams : ∀ x, (p'.party x).registered = (p.party x).registered ∧
      (p'.party x).streams = (p.party x).streams := by
    rintro (_ | _)
    · rw [hp.self]
      exact ⟨rfl, rfl⟩
    · rw [hother]
      exact ⟨rfl, rfl⟩
  have horigins : ∀ x, originsTo p' x = originsTo p x := by
    rintro (_ | _)
    · rw [originsTo, originsTo, hcame, hp.inFlight, hp.next, List.append_assoc]
      rfl
    · rw [originsTo, originsTo, hcame']
      exact congrArg _ (congrArg _ hp.inFlight_other)
  have hlen : (p.party .left).registered.length ≤ 2 ^ 64 := by
    rw [h.registered, List.length_map]
    omega
  -- a key at or after this one has the uid of the package only if it is this one
  have hsame : ∀ n, (p.came .left).length ≤ n → (p.party .left).registered[n]? = some true →
      (Origin.request n).uid = msg.origin.uid → n = (p.came .left).length ∧ w.hasCallback = true := by
    intro n hn hreg hu
    have hlt := (List.getElem?_eq_some_iff.mp hreg).1
    rw [huid] at hu
    have heq : n = g := Origin.request_uid_inj (by omega) (by omega) hu
    have hn' : n = (p.came .left).length := by omega
    refine ⟨hn', ?_⟩
    rw [hn', hregistered] at hreg
    exact Option.some.inj hreg
  refine ⟨by rw [hcame']; exact h.replies, ?_, ?_, ?_, ?_, ?_, ?_⟩
  · intro r hr
    rw [(hstreams _).1]
    exact h.count r hr
  · rw [(hstreams _).1]
    exact h.registered
  · intro r hr i a ha
    rw [horigins] at ha
    exact h.origins r hr i a ha
  · intro r hr hholds st hst
    rw [(hstreams _).2] at hst
    exact h.hand r hr hholds st hst
  · intro u n
    rw [(hstreams _).1, hcame, List.length_append, List.length_singleton, hp.self]
    show Function.update (p.party .left).conn.callbacks msg.origin.uid none u = some n ↔ _
    by_cases hu : u = msg.origin.uid
    · rw [hu, Function.update_self]
      constructor
      · intro hnone
        cases hnone
      · rintro ⟨hn, hreg, heq⟩
        have hn' := (hsame n (by omega) hreg heq).1
        omega
    · rw [Function.update_of_ne hu, h.pending]
      constructor
      · rintro ⟨hn, hreg, rfl⟩
        refine ⟨?_, hreg, rfl⟩
        by_contra hlt
        have hn' : n = (p.came .left).length := by omega
        rw [hn', hregistered] at hreg
        rw [huid, hcb (Option.some.inj hreg), hn'] at hu
        exact hu rfl
      · rintro ⟨hn, hreg, heq⟩
        exact ⟨by omega, hreg, heq⟩
  · intro i c w' hc hw'
    rw [hp.self] at hc
    have hhandled : (p.party .left).handled.length = (p.came .left).length := by
      rw [Peers.came, List.length_map, hs.paired]
    rcases getElem?_concat_cases hc with hc | ⟨rfl, rfl⟩
    · exact h.answered i c w' hc hw'
    · rw [hhandled, hkey] at hw'
      obtain rfl := Option.some.inj hw'
      dsimp only
      cases htaken : (p.party .left).conn.callbacks msg.origin.uid with
      | some n =>
        obtain ⟨hn, hreg, hu⟩ := (h.pending _ n).mp htaken
        rw [(hsame n hn hreg hu).2]
        rfl
      | none =>
        cases hw : w.hasCallback with
        | false => rfl
        | true =>
          have hpending := (h.pending msg.origin.uid (p.came .left).length).mpr
            ⟨Nat.le_refl _, by rw [hregistered, hw], by rw [huid, hcb hw]⟩
          rw [htaken] at hpending
          cases hpending

/-! ### The calls -/

/-- The other side does not notice a call. -/
theorem Called.other {r : Role} {prog : Program} {new : List (Role × Said)} (hc : Called o s p r prog new p') :
    p'.party r.side.other = p.party r.side.other ∧ p'.inFlight r.side = p.inFlight r.side := by
  cases hc with
  | closed => exact ⟨rfl, rfl⟩
  | created | responded | wrote => exact ⟨Peers.setParty_other .., rfl⟩
  | sent => exact ⟨Peers.setParty_other .., Function.update_of_ne r.side.ne_other ..⟩

/-- Only a thread of the other side can talk besides the one that calls. -/
theorem Called.apart {r r' : Role} {prog : Program} {new : List (Role × Said)}
    (hc : Called o s p r prog new p') (hsilent : s.told .operator = []) (hne : r' ≠ r) (hr' : r' ≠ .operator) :
    p'.party r'.side = p.party r'.side ∧ originsTo p' r'.side.other = originsTo p r'.side.other ∧
      Function.update s.said r.side (s.said r.side ++ new) r'.side = s.said r'.side := by
  by_cases hr : r = .operator
  · subst hr
    cases hc with
    | closed => exact ⟨rfl, rfl, by rw [List.append_nil, Function.update_eq_self]⟩
    | created w ws tail hcalls htold | responded j ws tail stream origin hcalls htold
    | wrote w c ws tail os origin hcalls htold | sent w tail os origin hcalls htold =>
      rw [hsilent] at htold
      simp at htold
  · have hside : r'.side = r.side.other := by
      cases r <;> cases r' <;> first | rfl | contradiction
    obtain ⟨hparty, hflight⟩ := hc.other
    rw [hside, Side.other_other, Function.update_of_ne r.side.ne_other.symm]
    refine ⟨hparty, ?_, rfl⟩
    rw [originsTo, originsTo, Peers.came, Peers.came, (hc.handled _).1, hflight]

/-- What a call opens is registered, if it is a request. -/
theorem Called.opens {r : Role} {prog : Program} {new : List (Role × Said)} (hc : Called o s p r prog new p')
    (hprogram : s'.program = Function.update s.program r prog) (htold' : s'.told = s.told) :
    ∃ opened, s'.begun r = s.begun r ++ opened ∧ (∀ w ∈ opened, w ∈ s.told r) ∧
      (p'.party r.side).registered =
        (p.party r.side).registered ++ (opened.filter Said.requests).map Said.hasCallback := by
  have hprog : s'.program r = prog := by rw [hprogram, Function.update_self]
  cases hc with
  | closed stream hcalls htold =>
    refine ⟨[], ?_, by simp, (List.append_nil _).symm⟩
    rw [List.append_nil, begun_of_empty (by rw [hprog]), htold']
    exact (begun_of_writes (hcalls.trans (List.nil_append _).symm) (by simp) (.inl (.inr rfl))).symm
  | created w ws tail hcalls htold hanswer hws htail hpayload =>
    refine ⟨[w], ?_, by simp [htold], ?_⟩
    · rw [begun_of_writes (by rw [hprog]) hws (.inr ⟨tail, rfl⟩), begun_of_calls hcalls, htold', htold,
        List.dropLast_concat]
    · have hrequests : w.requests = true := by
        cases w with
        | answer j => exact absurd rfl (hanswer j)
        | quit | message | goodbye | hello | file => rfl
      rw [Peers.setParty_self, Peers.createStream_registered, List.filter_cons_of_pos hrequests]
      rfl
  | responded j ws tail stream origin hcalls htold hws htail hpayload hj hcommand =>
    refine ⟨[.answer j], ?_, by simp [htold], ?_⟩
    · rw [begun_of_writes (by rw [hprog]) hws (.inr ⟨tail, rfl⟩), begun_of_calls hcalls, htold', htold,
        List.dropLast_concat]
    · rw [Peers.setParty_self]
      exact (List.append_nil _).symm
  | wrote w c ws tail os origin hcalls htold hws htail hi hos hbody =>
    refine ⟨[], ?_, by simp, ?_⟩
    · rw [List.append_nil, begun_of_writes (by rw [hprog])
        (fun c' hc' => hws c' (List.mem_cons_of_mem _ hc')) (.inr ⟨tail, rfl⟩), htold',
        begun_of_writes (hcalls.trans (List.cons_append ..).symm) hws (.inr ⟨tail, rfl⟩)]
    · rw [Peers.setParty_self]
      exact (List.append_nil _).symm
  | sent w tail os origin hcalls htold htail hi hbody =>
    refine ⟨[], ?_, by simp, ?_⟩
    · have hleft : s'.begun r = s'.told r :=
        begun_of_writes (by rw [hprog]; exact (List.nil_append _).symm) (by simp) (.inl htail)
      rw [List.append_nil, hleft, htold',
        begun_of_writes (hcalls.trans (List.nil_append _).symm) (by simp) (.inr ⟨tail, rfl⟩)]
    · exact (congrArg Party.registered (Peers.setParty_self (s := p) r.side _)).trans (List.append_nil _).symm

/-- What the thread that calls has sent is the reply, or the key, that it was to send. -/
theorem Replying.origins_call {r : Role} {prog : Program} {new : List (Role × Said)} (h : s.Replying p)
    (hi : s.Spoken o p) (hc : Called o s p r prog new p') (hr : r ≠ .operator) (i : Nat) (a : Origin)
    (ha : (originsTo p' r.side.other)[i]? = some a) : a = originOf (s.told r) i := by
  have hcame : p'.came r.side.other = p.came r.side.other := by
    rw [Peers.came, Peers.came, (hc.handled _).1]
  rw [originsTo, hcame] at ha
  cases hc with
  | closed | created | responded | wrote => exact h.origins r hr i a ha
  | sent w tail os origin hcalls htold htail hst hbody =>
    dsimp only at ha
    rw [Function.update_self, List.map_append, ← List.append_assoc] at ha
    rcases getElem?_concat_cases ha with ha | ⟨rfl, rfl⟩
    · exact h.origins r hr i a ha
    · have hhand := h.hand r hr ⟨[], tail, hcalls, by simp⟩ _ hst
      have hlen := hi.length_originsTo r.side
      rw [originsTo] at hlen
      rw [hlen]
      exact hhand

/-- The stream in the hands of the thread that calls is the next that its side sends. -/
theorem Replying.hand_call {r : Role} {prog : Program} {new : List (Role × Said)} (h : s.Replying p)
    (hi : s.Spoken o p) (hsilent : s.told .operator = []) (hc : Called o s p r prog new p') (hr : r ≠ .operator)
    (hholds : prog.Holds) {st : Outgoing} (hst : (p'.party r.side).streams[prog.stream]? = some st) :
    st.origin = originOf (s.told r) (s.said r.side ++ new).length := by
  have hlen : (sentBy r (s.said r.side)).length = (s.said r.side).length := by
    rw [sentBy_alone (hi.alone hsilent hr), List.length_map]
  cases hc with
  | closed => exact absurd hholds (Sent.not_holds (.inl rfl))
  | created w ws tail hcalls htold hanswer hws htail hpayload =>
    rw [Peers.setParty_self, Peers.createStream_streams, List.getElem?_concat_length] at hst
    obtain rfl := Option.some.inj hst
    have hcount := h.count r hr
    rw [begun_of_calls hcalls, htold, List.dropLast_concat] at hcount
    rw [List.append_nil, htold, ← hlen, originOf_last]
    cases w with
    | answer j => exact absurd rfl (hanswer j)
    | quit | message | goodbye | hello | file => exact congrArg Origin.request hcount
  | responded j ws tail stream origin hcalls htold hws htail hpayload hj hcommand =>
    rw [Peers.setParty_self, List.getElem?_concat_length] at hst
    obtain rfl := Option.some.inj hst
    rw [List.append_nil, htold, ← hlen, originOf_last]
    have hslot : r = .slot := (hi.roles r (.answer j) (by rw [htold]; simp)).symm
    subst hslot
    refine congrArg Origin.response ?_
    obtain ⟨key, hkey, -⟩ := hi.heard_key hsilent hj
    have hget : (originsTo p .right)[j]? = some origin := by
      have hcame : (p.came .right)[j]? = some origin := by
        rw [Peers.came, List.getElem?_map]
        exact congrArg (Option.map Prod.snd) hj
      rw [originsTo, List.getElem?_append_left (List.getElem?_eq_some_iff.mp hcame).1, hcame]
    have horigin := h.origins .client (by simp) j origin hget
    rw [horigin]
    exact originOf_client (hi.roles .client) (List.getElem?_eq_some_iff.mp hkey).1.le
  | wrote w c ws tail os origin hcalls htold hws htail hi' hos hbody =>
    have hlt := (List.getElem?_eq_some_iff.mp hi').1
    rw [Peers.setParty_self, List.getElem?_set_self hlt] at hst
    obtain rfl := Option.some.inj hst
    have hhand := h.hand r hr ⟨c :: ws, tail, hcalls, hws⟩ _ hi'
    rw [List.append_nil]
    exact hhand
  | sent w tail os origin hcalls htold htail hi' hbody => exact absurd hholds htail.not_holds

/-- The next uid of the client, with a callback or without. -/
theorem Replying.pending_next (h : s.Replying p) (hle : (p.came .left).length ≤ (p.party .left).registered.length)
    (hlt : (p.party .left).registered.length < 2 ^ 64) (callback : Bool) (u : UInt64) (n : Nat) :
    (if callback then Function.update (p.party .left).conn.callbacks
        (Origin.request (p.party .left).registered.length).uid (some (p.party .left).registered.length)
      else (p.party .left).conn.callbacks) u = some n ↔
    (p.came .left).length ≤ n ∧ ((p.party .left).registered ++ [callback])[n]? = some true ∧
      (Origin.request n).uid = u := by
  have hpending := h.pending u n
  generalize (p.party .left).conn.callbacks = table at hpending
  generalize (p.party .left).registered = registered at hle hlt hpending
  by_cases hn : n = registered.length
  · subst hn
    have hnone : table u ≠ some registered.length := by
      intro htable
      obtain ⟨-, hreg, -⟩ := hpending.mp htable
      rw [List.getElem?_eq_none (Nat.le_refl _)] at hreg
      cases hreg
    rw [List.getElem?_concat_length]
    cases callback with
    | false => simp [hnone]
    | true =>
      by_cases hu : u = (Origin.request registered.length).uid
      · simp [hu, hle]
      · simp [Function.update_of_ne hu, hnone, Ne.symm hu]
  · have hget : ∀ hreg : Bool, (registered ++ [hreg])[n]? = registered[n]? := by
      intro hreg
      by_cases hlt' : n < registered.length
      · exact List.getElem?_append_left hlt'
      · have hlen : (registered ++ [hreg]).length ≤ n := by
          rw [List.length_append, List.length_singleton]
          omega
        rw [List.getElem?_eq_none hlen, List.getElem?_eq_none (by omega)]
    rw [hget, ← hpending]
    cases callback with
    | false => rfl
    | true =>
      rw [if_pos rfl]
      by_cases hu : u = (Origin.request registered.length).uid
      · rw [hu, Function.update_self, ← hu, hpending]
        constructor
        · intro heq
          exact absurd (Option.some.inj heq).symm hn
        · rintro ⟨-, hreg, heq⟩
          have hlt' := (List.getElem?_eq_some_iff.mp hreg).1
          exact absurd (Origin.request_uid_inj (by omega) hlt (heq.trans hu)) hn
      · rw [Function.update_of_ne hu]

/-- A key with a callback registers it under its uid. -/
theorem Replying.pending_call {r : Role} {prog : Program} {new : List (Role × Said)} (h : s.Replying p)
    (hi : s.Spoken o p) (hp : p.Inv o) (hsilent : s.told .operator = [])
    (hmany : (s.told .client).length ≤ 2 ^ 64) (hc : Called o s p r prog new p') (u : UInt64) (n : Nat) :
    (p'.party .left).conn.callbacks u = some n ↔
      (p.came .left).length ≤ n ∧ (p'.party .left).registered[n]? = some true ∧
        (Origin.request n).uid = u := by
  by_cases hside : r.side = .left
  · have hsame : ∀ q : Party, p'.party = (p.setParty r.side q).party →
        q.conn.callbacks = (p.party r.side).conn.callbacks → q.registered = (p.party r.side).registered →
        ((p'.party .left).conn.callbacks u = some n ↔ (p.came .left).length ≤ n ∧
          (p'.party .left).registered[n]? = some true ∧ (Origin.request n).uid = u) := by
      intro q hp' hcallbacks hregistered
      rw [hp', ← hside, Peers.setParty_self, hcallbacks, hregistered, hside]
      exact h.pending u n
    cases hc with
    | closed => exact h.pending u n
    | responded | wrote | sent => exact hsame _ rfl rfl rfl
    | created w ws tail hcalls htold hanswer hws htail hpayload =>
      have hclient : r = .client := by
        cases r <;> first | rfl | cases hside
      subst hclient
      obtain ⟨hb₁, hb₂, hb₃, hb₄⟩ := h.bounds hi hsilent
      have hlen : (p.party .left).registered.length = (s.begun .client).length := by
        rw [h.registered, List.length_map]
      have hlt : (s.begun .client).length < 2 ^ 64 := by
        rw [begun_of_calls hcalls, htold, List.dropLast_concat]
        rw [htold, List.length_append, List.length_singleton] at hmany
        omega
      rw [← hside, Peers.setParty_self, Peers.createStream_callbacks, Peers.createStream_registered, hside,
        (hp.party .left).counter]
      exact h.pending_next (by omega) (by omega) w.hasCallback u n
  · have hother : Side.left = r.side.other := by
      cases r <;> first | rfl | exact absurd rfl hside
    have hleft : p'.party .left = p.party .left := by
      rw [hother]
      exact hc.other.1
    rw [hleft]
    exact h.pending u n

/-- A thread makes its next call. -/
theorem Replying.call {r : Role} {prog : Program} {new : List (Role × Said)} (h : s.Replying p)
    (hi : s.Spoken o p) (hp : p.Inv o) (hsilent : s.told .operator = [])
    (hmany : (s.told .client).length ≤ 2 ^ 64) (hc : Called o s p r prog new p')
    (hprogram : s'.program = Function.update s.program r prog) (htold : s'.told = s.told)
    (hsaid : s'.said = Function.update s.said r.side (s.said r.side ++ new)) : s'.Replying p' := by
  have hcame : ∀ x, p'.came x = p.came x := fun x => by rw [Peers.came, Peers.came, (hc.handled x).1]
  obtain ⟨opened, hbegun, hopened, hregistered⟩ := hc.opens hprogram htold
  have hbegun' : ∀ r' ≠ r, s'.begun r' = s.begun r' := fun r' hr =>
    begun_update hr hprogram (by rw [htold])
  refine ⟨?_, ?_, ?_, ?_, ?_, ?_, ?_⟩
  · rw [htold, hcame]
    exact h.replies
  · intro r' hr'
    by_cases hr : r' = r
    · subst hr
      rw [hbegun, hregistered, List.length_append, List.length_map, List.countP_append,
        List.countP_eq_length_filter (l := opened), h.count r' hr']
    · rw [hbegun' r' hr, (hc.apart hsilent hr hr').1]
      exact h.count r' hr'
  · by_cases hr : Role.client = r
    · subst hr
      have hrequests : opened.filter Said.requests = opened := by
        refine List.filter_eq_self.mpr fun w hw => ?_
        have hrole := hi.roles .client w (hopened w hw)
        cases w <;> first | rfl | cases hrole
      rw [hbegun, List.map_append, ← h.registered, ← hrequests]
      exact hregistered
    · rw [hbegun' _ hr]
      have hleft := (hc.apart hsilent hr (by simp)).1
      rw [show p'.party .left = p.party .left from hleft]
      exact h.registered
  · intro r' hr' i a ha
    rw [htold]
    by_cases hr : r' = r
    · subst hr
      exact h.origins_call hi hc hr' i a ha
    · rw [(hc.apart hsilent hr hr').2.1] at ha
      exact h.origins r' hr' i a ha
  · intro r' hr' hholds st hst
    rw [htold, hsaid]
    by_cases hr : r' = r
    · subst hr
      rw [hprogram, Function.update_self] at hholds hst
      rw [Function.update_self]
      exact h.hand_call hi hsilent hc hr' hholds hst
    · obtain ⟨hparty, -, hsame⟩ := hc.apart hsilent hr hr'
      rw [hprogram, Function.update_of_ne hr] at hholds hst
      rw [hparty] at hst
      rw [hsame]
      exact h.hand r' hr' hholds st hst
  · rw [hcame]
    exact h.pending_call hi hp hsilent hmany hc
  · rw [htold, (hc.handled _).2]
    exact h.answered

/-! ### Every run -/

theorem replying_init : init.Replying Peers.init where
  replies := rfl
  count _ _ := rfl
  registered := rfl
  origins _ _ i a ha := by cases ha
  hand r _ hholds := absurd hholds (Sent.not_holds (.inl rfl))
  pending u n := by
    constructor
    · intro h
      cases h
    · rintro ⟨-, h, -⟩
      cases h
  answered i c w hc := by cases hc

theorem replying_moved (h : s.Replying p) (hi : s.Inv o p) (hs : s.Shown p)
    (hsilent : s.told .operator = []) (hmany : (s.told .client).length ≤ 2 ^ 64)
    (hsilent' : s'.told .operator = []) (hm : Moved o s p s' p') : s'.Replying p' := by
  cases hm with
  | quiet duplex => exact ⟨h.replies, h.count, h.registered, h.origins, h.hand, h.pending, h.answered⟩
  | key r w _ hr hrole ht =>
    cases r with
    | client => exact h.key hi.spoken hs hsilent ht
    | slot => exact absurd rfl hr
    | operator =>
      rw [told_tell ht, Function.update_self] at hsilent'
      simp at hsilent'
  | call r prog new duplex _ hc => exact h.call hi.spoken hi.duplex.peers hsilent hmany hc rfl rfl rfl
  | deliver x junk duplex _ hp hx =>
    obtain ⟨msg, rest, hdelivered⟩ := Peers.step_deliver hi.duplex.peers hp
    cases x with
    | left =>
      have h' := h.deliver hi.spoken hs hsilent hmany hdelivered
      exact ⟨h'.replies, h'.count, h'.registered, h'.origins, h'.hand, h'.pending, h'.answered⟩
    | right =>
      -- the slot replies to every key
      have hcame := congrArg Party.incoming hdelivered.self
      have hlast : (p'.party .right).incoming[(p.party .right).incoming.length]? =
          some (Istream.construct o msg.body junk, msg.origin) := by
        rw [hcame]
        exact List.getElem?_concat_length ..
      obtain ⟨key, -, hreply⟩ := (hi.spoken.deliver hdelivered).heard_key hsilent hlast
      rw [hx rfl _ _ hcame] at hreply
      cases hreply
  | serve junk duplex _ stream origin w _ hp hincoming hw ht =>
    obtain ⟨msg, rest, hdelivered⟩ := Peers.step_deliver hi.duplex.peers hp
    have hcame := congrArg Party.incoming hdelivered.self
    rw [hincoming, List.append_cancel_left_eq] at hcame
    obtain ⟨rfl, -⟩ := Prod.mk.inj (List.cons.inj hcame).1
    have hlen : (p.came .right).length = (p.party .right).incoming.length := List.length_map _
    rw [← hlen] at hw
    have hquiet : Replying { s with duplex := duplex } p :=
      ⟨h.replies, h.count, h.registered, h.origins, h.hand, h.pending, h.answered⟩
    exact hquiet.serve (hi.spoken.withDuplex duplex) ⟨hs.paired, hs.unanswered⟩ hsilent hdelivered hw ht

theorem replying_reachable {as : List ExampleAct} (hr : run (step o) init as = some s)
    (hsilent : s.told .operator = []) (hmany : (s.told .client).length ≤ 2 ^ 64) :
    ∃ p, s.Inv o p ∧ s.Shown p ∧ s.Replying p := by
  refine Reachable.invariant (I := fun s => s.told .operator = [] → (s.told .client).length ≤ 2 ^ 64 →
    ∃ p, s.Inv o p ∧ s.Shown p ∧ s.Replying p) ⟨as, hr⟩ ?_ ?_ hsilent hmany
  · exact fun _ _ => ⟨Peers.init, inv_init, ⟨rfl, by simp [Peers.init]⟩, replying_init⟩
  · intro s a s' hold hstep hsilent' hmany'
    obtain ⟨hclient, hoperator⟩ := told_step hstep
    have hsilent : s.told .operator = [] := by
      rw [hoperator] at hsilent'
      exact (List.append_eq_nil_iff.mp hsilent').1
    have hmany : (s.told .client).length ≤ 2 ^ 64 := by
      rw [hclient, List.length_append] at hmany'
      omega
    obtain ⟨p, hi, hs, h⟩ := hold hsilent hmany
    obtain ⟨p', hd, hm⟩ := moved hi hstep
    exact ⟨p', inv_moved hi hd hm, shown_moved hs hi hm, replying_moved h hi hs hsilent hmany hsilent' hm⟩

/-- The client shows what it waits for. -/
theorem flatMap_replyTo {told : List Said} (h : ∀ w ∈ told, w.role = .client) :
    (told.mapIdx replyTo).flatMap Said.shown = told.flatMap Said.reply := by
  induction told using List.reverseRecOn with
  | nil => rfl
  | append_singleton told w ih =>
    have hrole := h w (by simp)
    rw [List.mapIdx_append, List.flatMap_append, List.flatMap_append,
      ih fun w' hw' => h w' (List.mem_append_left _ hw')]
    congr 1
    cases w <;> first | rfl | cases hrole

/-- **Replies in order.** If the operator types nothing, and the client has not typed more keys than there are
    uids, the client shows the answer of the server to each message and the goodbye to each quit, in the order
    of its keys, up to what has not arrived. -/
theorem replies_in_order (as : List ExampleAct) (hr : run (step o) init as = some s)
    (hsilent : typedServer as = []) (hmany : (typedClient as).length ≤ 2 ^ 64) (behind : Nat → List CChar) :
    screen o behind (s.duplex.endpoint .left) <+: (typedClient as).flatMap Said.reply := by
  obtain ⟨hclient, hoperator⟩ := told_run hr
  rw [← hoperator] at hsilent
  rw [← hclient] at hmany ⊢
  obtain ⟨p, hi, hs, h⟩ := replying_reachable hr hsilent hmany
  have hlines : ∀ (i : Nat) (e : Role × Said) (r : Istream × Origin) (c : Handled),
      (s.said .right)[i]? = some e → (p.party .left).incoming[i]? = some r →
      (p.party .left).handled[i]? = some c → Heard o e r →
        ∀ behind, lines o behind (r.1, c.callback) = e.2.shown := by
    rintro i ⟨r, w⟩ ⟨stream, origin⟩ c he - hc ⟨junk, hstream⟩ behind
    obtain ⟨htold, hrole⟩ := hi.spoken.said_alone hsilent (r := .slot) (by simp) he
    rw [h.replies, List.getElem?_mapIdx] at htold
    obtain ⟨key, hkey, rfl⟩ := Option.map_eq_some_iff.mp htold
    rw [List.getElem?_take] at hkey
    split_ifs at hkey
    have hcallback := h.answered i c key hc hkey
    rw [show stream = _ from hstream]
    cases hcb : c.callback with
    | none =>
      have hgoodbye : replyTo i key = .goodbye := by
        rw [hcb] at hcallback
        cases key <;> first | rfl | cases hcallback
      rw [hgoodbye]
      exact clientSlot_body .goodbye origin.uid junk behind
    | some n =>
      have hanswer : replyTo i key = .answer i := by
        rw [hcb] at hcallback
        cases key <;> first | rfl | cases hcallback
      rw [hanswer]
      exact clientCallback_answer i origin.uid junk behind
  obtain ⟨heard, hpre, -, hscreen⟩ := screen_said hi hs Said.shown hlines behind
  have hslot : heard.map Prod.snd <+: s.told .slot := by
    have hsent := sentBy_isInitial hi.spoken .slot
    rw [sentBy_alone (hi.spoken.alone hsilent (r := .slot) (by simp))] at hsent
    exact (hpre.map Prod.snd).trans hsent
  have hreply := hslot.flatMap Said.shown
  rw [h.replies, flatMap_replyTo fun w hw => hi.spoken.roles .client w (List.mem_of_mem_take hw),
    List.flatMap_map] at hreply
  rw [hscreen]
  exact hreply.trans ((List.take_prefix ..).flatMap Said.reply)

def messageAndQuit : List ExampleAct :=
  .clientKey 'm' :: (talk .client 2 ++ carry .left 24 ++ talk .slot 3 ++ returned .right ++ carry .right 49 ++
    returned .left) ++
  .clientKey 'q' :: (talk .client 2 ++ carry .left 24 ++ talk .slot 2 ++ carry .right 24 ++ talk .slot 1)

theorem replies_in_order_two : ∃ s, run (step .little) init messageAndQuit = some s ∧
    screen .little (fun _ => []) (s.duplex.endpoint .left) = [.callbackMessage ready, .goodbye] ∧
    screen .little (fun _ => []) (s.duplex.endpoint .left) <+: (typedClient messageAndQuit).flatMap Said.reply := by
  obtain ⟨s, hr, hs⟩ : ∃ s, run (step .little) init messageAndQuit = some s ∧
      screen .little (fun _ => []) (s.duplex.endpoint .left) = [.callbackMessage ready, .goodbye] :=
    Option.map_eq_some_iff.mp (by decide +kernel)
  have hsilent : typedServer messageAndQuit = [] := by
    simp [messageAndQuit, typedServer, talk, carry, returned]
  have htyped : typedClient messageAndQuit = [.message, .quit] := by
    simp [messageAndQuit, typedClient, talk, carry, returned, clientKey]
  exact ⟨s, hr, hs, replies_in_order messageAndQuit hr hsilent (by rw [htyped]; decide) _⟩

end Example

end Lnetlib
