import Lnetlib.Connection.Proofs.RequesterProofs
import Lnetlib.Example.Proofs.ScreenProofs

/-!
# Proofs: what the example programs say is heard

Each side hears what the other has said, in this order (`Spoken.said`), and each thread has sent what it was
told, except the last as long as it is at it (`Underway`). Threads of one side write different streams
(`Spoken.distinct`). All of this is about whole packages: a run of the two programs is one of `Peers`.
-/

namespace Lnetlib

open Bytes Transition

namespace Duplex

variable {o : ByteOrder} {s s' : Duplex}

/-- A step of a connection gives its user code a package, or nothing. -/
theorem step_connection {x : Side} {a : ReadingAct Nat} (hintact : s.Intact)
    (hs : step o s (.connection x a) = some s') :
    (ran o (s.endpoint x).reading a = [] ∧ acts o s (.connection x a) = [] ∧
      (s'.endpoint x).incoming = (s.endpoint x).incoming) ∨
    ∃ junk callback stream, ran o (s.endpoint x).reading a = [(callback, stream)] ∧
      acts o s (.connection x a) = [.deliver x junk] ∧
      (s'.endpoint x).incoming = (s.endpoint x).incoming ++ [stream] ∧
      callback = (s.endpoint x).reading.conn.callbacks stream.uid := by
  have hkeeps : s.KeepsStorage (.connection x a) := trivial
  cases step_cases hintact hkeeps hs with
  | connection _ _ reading ha hs' =>
    have hstream : ∀ cmd command cb, a ≠ .createStream cmd command cb := by
      rintro cmd command cb rfl
      exact ha
    rw [setEndpoint_self]
    cases step_calls hs' hstream with
    | none _ hran hcounter htable hcalls =>
      refine .inl ⟨hran, ?_, by rw [hran]; exact List.append_nil _⟩
      unfold acts
      split <;> simp_all
    | package k junk body hran hcounter htable hcalls =>
      exact .inr ⟨junk, _, _, hran, by rw [acts, hran]; rfl, by rw [hran]; rfl, rfl⟩

end Duplex

namespace Example

variable {o : ByteOrder} {s s' : Example} {p p' : Peers}

/-! ## One thread -/

/-- The writers of a stream. -/
def Call.writes : Call → Bool
  | writeString _ | writeDataChunk _ => true
  | create _ _ | respond _ | send | close => false

/-- It is said with a callback for the response. -/
def Said.hasCallback : Said → Bool
  | message => true
  | quit | answer _ | goodbye | hello | file _ => false

/-- What is left after `send`. -/
def Sent (calls : List Call) : Prop := calls = [] ∨ calls = [.close]

/-- The thread has a stream in its hands that it has not sent. -/
def Program.Holds (prog : Program) : Prop :=
  ∃ ws tail, prog.calls = ws ++ .send :: tail ∧ ∀ c ∈ ws, c.writes = true

/-- Where a thread is in what it was told, and what it has sent of it. -/
inductive Underway (o : ByteOrder) (streams : List Outgoing) : List Said → List Said → Program → Prop where
  | idle (told : List Said) (prog : Program) (hcalls : Sent prog.calls) : Underway o streams told told prog
  | opening (sent : List Said) (w : Said) (prog : Program) (hcalls : prog.calls = w.calls) :
      Underway o streams (sent ++ [w]) sent prog
  | writing (sent : List Said) (w : Said) (prog : Program) (ws tail : List Call) (os : Ostream)
      (origin : Origin) (hcalls : prog.calls = ws ++ .send :: tail) (hws : ∀ c ∈ ws, c.writes = true)
      (htail : Sent tail) (hi : streams[prog.stream]? = some { os := os, origin := origin })
      (hos : os.sended = false) (hbody : os.buffer ++ ws.flatMap (Call.bytes o) = w.body o origin.uid) :
      Underway o streams (sent ++ [w]) sent prog

theorem Sent.not_send {ws tail : List Call} : ¬ Sent (ws ++ .send :: tail) := by
  rintro (h | h)
  · simp at h
  · cases ws with
    | nil => cases h
    | cons c ws => simp at h

theorem Sent.not_holds {prog : Program} (h : Sent prog.calls) : ¬ prog.Holds := by
  rintro ⟨ws, tail, hcalls, -⟩
  rw [hcalls] at h
  exact h.not_send

/-- A thread opens a stream, writes its fields, sends it, and may close. -/
theorem Said.calls_eq (w : Said) : ∃ c ws tail, w.calls = c :: (ws ++ .send :: tail) ∧
    (∀ c ∈ ws, c.writes = true) ∧ Sent tail ∧ ws.flatMap (Call.bytes o) = w.payload o ∧
    (c = .create w.command w.hasCallback ∧ (∀ j, w ≠ .answer j) ∨ ∃ j, w = .answer j ∧ c = .respond j) := by
  cases w with
  | quit | message => exact ⟨_, [], [], rfl, by simp, .inl rfl, rfl, .inl ⟨rfl, by simp⟩⟩
  | goodbye => exact ⟨_, [], [.close], rfl, by simp, .inr rfl, rfl, .inl ⟨rfl, by simp⟩⟩
  | answer j =>
    exact ⟨_, [.writeString ready], [], rfl, by simp [Call.writes], .inl rfl, rfl, .inr ⟨j, rfl, rfl⟩⟩
  | hello =>
    exact ⟨_, [.writeString imServer], [], rfl, by simp [Call.writes], .inl rfl, rfl, .inl ⟨rfl, by simp⟩⟩
  | file f =>
    refine ⟨_, [.writeString f.name.chars, .writeDataChunk f.bytes.data], [], rfl, by simp [Call.writes],
      .inl rfl, ?_, .inl ⟨rfl, by simp⟩⟩
    simp [Said.payload, Said.calls, Call.bytes]

theorem Said.not_holds {w : Said} {prog : Program} (h : prog.calls = w.calls) : ¬ prog.Holds := by
  obtain ⟨c, ws, tail, hcalls, -, -, -, hc⟩ := w.calls_eq (o := .little)
  rintro ⟨ws', tail', hcalls', hws'⟩
  rw [h, hcalls] at hcalls'
  cases ws' with
  | nil =>
    rcases hc with ⟨rfl, -⟩ | ⟨j, -, rfl⟩ <;> cases hcalls'
  | cons c' ws' =>
    obtain ⟨rfl, -⟩ := List.cons.inj hcalls'
    have hwrites := hws' c List.mem_cons_self
    rcases hc with ⟨rfl, -⟩ | ⟨j, -, rfl⟩ <;> cases hwrites

namespace Underway

variable {streams streams' : List Outgoing} {told sent : List Said} {prog : Program}

/-- The thread depends on the stream in its hands only. -/
theorem congr (h : Underway o streams told sent prog)
    (hst : prog.Holds → ∀ st, streams[prog.stream]? = some st → streams'[prog.stream]? = some st) :
    Underway o streams' told sent prog := by
  cases h with
  | idle _ _ hcalls => exact .idle told prog hcalls
  | opening _ w _ hcalls => exact .opening sent w prog hcalls
  | writing _ w _ ws tail os origin hcalls hws htail hi hos hbody =>
    exact .writing sent w prog ws tail os origin hcalls hws htail (hst ⟨ws, tail, hcalls, hws⟩ _ hi) hos hbody

/-- A thread with nothing left to do has sent all it was told. -/
theorem eq_of_empty (h : Underway o streams told sent prog) (he : prog.calls = []) : told = sent := by
  cases h with
  | idle _ _ _ => rfl
  | opening _ w _ hcalls =>
    obtain ⟨c, ws, tail, hw, -⟩ := w.calls_eq (o := o)
    rw [he, hw] at hcalls
    cases hcalls
  | writing _ w _ ws tail os origin hcalls _ _ _ _ _ =>
    rw [he] at hcalls
    simp at hcalls

/-- What it was told, or that without the last. -/
theorem sent_or (h : Underway o streams told sent prog) : told = sent ∨ ∃ w, told = sent ++ [w] := by
  cases h with
  | idle => exact .inl rfl
  | opening _ w | writing _ w => exact .inr ⟨w, rfl⟩

theorem stream_lt (h : Underway o streams told sent prog) (hh : prog.Holds) :
    prog.stream < streams.length := by
  cases h with
  | idle _ _ hcalls => exact absurd hh hcalls.not_holds
  | opening _ w _ hcalls => exact absurd hh (Said.not_holds hcalls)
  | writing _ w _ ws tail os origin _ _ _ hi _ _ => exact (List.getElem?_eq_some_iff.mp hi).1

/-- A thread writes only to a stream that it has not sent. -/
theorem unsent {c : Call} {calls : List Call} (h : Underway o streams told sent prog)
    (hcalls : prog.calls = c :: calls) (hc : c.writes = true) :
    ∃ os origin, streams[prog.stream]? = some { os := os, origin := origin } ∧ os.sended = false := by
  cases h with
  | idle _ _ hsent =>
    rw [hcalls] at hsent
    rcases hsent with h | h <;> cases h
    cases hc
  | opening _ w _ hopen =>
    obtain ⟨c', ws, tail, hw, -, -, -, hc'⟩ := w.calls_eq (o := o)
    rw [hcalls, hw] at hopen
    obtain ⟨rfl, -⟩ := List.cons.inj hopen
    rcases hc' with ⟨rfl, -⟩ | ⟨j, -, rfl⟩ <;> cases hc
  | writing _ w _ ws tail os origin _ _ _ hi hos _ => exact ⟨os, origin, hi, hos⟩

end Underway

/-! ## What has been said -/

/-- What one thread has sent. -/
def sentBy (r : Role) (said : List (Role × Said)) : List Said :=
  (said.filter fun e => e.1 = r).map Prod.snd

theorem sentBy_append (r : Role) (said said' : List (Role × Said)) :
    sentBy r (said ++ said') = sentBy r said ++ sentBy r said' := by
  rw [sentBy, List.filter_append, List.map_append]
  rfl

@[simp] theorem sentBy_self (r : Role) (w : Said) : sentBy r [(r, w)] = [w] := by
  simp [sentBy]

theorem sentBy_other {r r' : Role} {said : List (Role × Said)} (h : ∀ e ∈ said, e.1 = r) (hne : r' ≠ r) :
    sentBy r' said = [] := by
  rw [sentBy, List.filter_eq_nil_iff.mpr ?_, List.map_nil]
  intro e he
  rw [h e he]
  simpa using hne.symm

theorem mem_sentBy {r : Role} {w : Said} {said : List (Role × Said)} (h : (r, w) ∈ said) :
    w ∈ sentBy r said :=
  List.mem_map.mpr ⟨(r, w), List.mem_filter.mpr ⟨h, by simp⟩, rfl⟩

/-- A stream that came in, and what it says. -/
def Heard (o : ByteOrder) (e : Role × Said) (r : Istream × Origin) : Prop :=
  ∃ junk, r.1 = Istream.construct o (e.2.body o r.2.uid) junk

/-- A package on its way, and what it says. -/
def Flying (o : ByteOrder) (e : Role × Said) (msg : Message) : Prop :=
  msg.body = e.2.body o msg.origin.uid

/-- What holds of the threads, the streams and the packages. -/
structure Spoken (o : ByteOrder) (s : Example) (p : Peers) : Prop where
  underway : ∀ r, Underway o (p.party r.side).streams (s.told r) (sentBy r (s.said r.side)) (s.program r)
  distinct : ∀ r r', r ≠ r' → r.side = r'.side → (s.program r).Holds → (s.program r').Holds →
    (s.program r).stream ≠ (s.program r').stream
  said : ∀ x, ∃ heard flying, s.said x = heard ++ flying ∧
    List.Forall₂ (Heard o) heard (p.party x.other).incoming ∧
    List.Forall₂ (Flying o) flying (p.inFlight x.other)
  sides : ∀ x, ∀ e ∈ s.said x, e.1.side = x
  roles : ∀ r, ∀ w ∈ s.told r, w.role = r
  answers : ∀ j, Said.answer j ∈ s.told .slot → ∃ stream origin,
    (p.party .right).incoming[j]? = some (stream, origin) ∧ stream.command = Command.message.code

theorem spoken_init : init.Spoken o Peers.init where
  underway _ := .idle _ _ (.inl rfl)
  distinct r r' _ _ h := absurd h (Sent.not_holds (.inl rfl))
  said _ := ⟨[], [], rfl, .nil, .nil⟩
  sides _ _ h := by cases h
  roles _ _ h := by cases h
  answers _ h := by cases h

/-- A thread is told to say something. -/
theorem Spoken.tell {r : Role} {w : Said} (h : s.Spoken o p) (hs : s.tell r w = some s') (hrole : w.role = r)
    (hanswer : ∀ j, w = .answer j → ∃ stream origin,
      (p.party .right).incoming[j]? = some (stream, origin) ∧ stream.command = Command.message.code) :
    s'.Spoken o p := by
  unfold Example.tell at hs
  split_ifs at hs with hempty
  obtain rfl := Option.some.inj hs
  have hcalls : (s.program r).calls = [] := List.isEmpty_iff.mp hempty
  have hnot : ¬ Program.Holds { s.program r with calls := w.calls } := Said.not_holds rfl
  refine ⟨?_, ?_, h.said, h.sides, ?_, ?_⟩
  · intro r'
    by_cases hr : r' = r
    · subst hr
      dsimp only
      rw [Function.update_self, Function.update_self, ← (h.underway r').eq_of_empty hcalls]
      exact .opening _ w _ rfl
    · dsimp only
      rw [Function.update_of_ne hr, Function.update_of_ne hr]
      exact h.underway r'
  · intro r₁ r₂ hne hside h₁ h₂
    dsimp only at h₁ h₂ ⊢
    by_cases hr₁ : r₁ = r
    · subst hr₁
      rw [Function.update_self] at h₁
      exact absurd h₁ hnot
    · by_cases hr₂ : r₂ = r
      · subst hr₂
        rw [Function.update_self] at h₂
        exact absurd h₂ hnot
      · rw [Function.update_of_ne hr₁] at h₁ ⊢
        rw [Function.update_of_ne hr₂] at h₂ ⊢
        exact h.distinct r₁ r₂ hne hside h₁ h₂
  · intro r' w' hw'
    dsimp only at hw'
    by_cases hr : r' = r
    · subst hr
      rw [Function.update_self, List.mem_append, List.mem_singleton] at hw'
      rcases hw' with hw' | rfl
      · exact h.roles r' w' hw'
      · exact hrole
    · rw [Function.update_of_ne hr] at hw'
      exact h.roles r' w' hw'
  · intro j hj
    dsimp only at hj
    by_cases hr : r = .slot
    · subst hr
      rw [Function.update_self, List.mem_append, List.mem_singleton] at hj
      rcases hj with hj | hj
      · exact h.answers j hj
      · exact hanswer j hj.symm
    · rw [Function.update_of_ne (Ne.symm hr)] at hj
      exact h.answers j hj

/-! ## One call -/

/-- What the next call of a thread does: the program it leaves, what it has sent, and both connections. -/
inductive Called (o : ByteOrder) (s : Example) (p : Peers) (r : Role) :
    Program → List (Role × Said) → Peers → Prop where
  | closed (stream : Nat) (hcalls : (s.program r).calls = [.close])
      (htold : s.told r = sentBy r (s.said r.side)) : Called o s p r { calls := [], stream := stream } [] p
  | created (w : Said) (ws tail : List Call) (hcalls : (s.program r).calls = w.calls)
      (htold : s.told r = sentBy r (s.said r.side) ++ [w]) (hanswer : ∀ j, w ≠ .answer j)
      (hws : ∀ c ∈ ws, c.writes = true) (htail : Sent tail)
      (hpayload : ws.flatMap (Call.bytes o) = w.payload o) :
      Called o s p r { calls := ws ++ .send :: tail, stream := (p.party r.side).streams.length } []
        (p.setParty r.side
          (Peers.createStream o Command.type w.command.value w.hasCallback (p.party r.side)))
  | responded (j : Nat) (ws tail : List Call) (stream : Istream) (origin : Origin)
      (hcalls : (s.program r).calls = (Said.answer j).calls)
      (htold : s.told r = sentBy r (s.said r.side) ++ [.answer j])
      (hws : ∀ c ∈ ws, c.writes = true) (htail : Sent tail)
      (hpayload : ws.flatMap (Call.bytes o) = (Said.answer j).payload o)
      (hj : (p.party r.side).incoming[j]? = some (stream, origin))
      (hcommand : stream.command = Command.message.code) :
      Called o s p r { calls := ws ++ .send :: tail, stream := (p.party r.side).streams.length } []
        (p.setParty r.side { p.party r.side with
          streams := (p.party r.side).streams ++
            [{ os := stream.createResponse o, origin := .response origin }] })
  | wrote (w : Said) (c : Call) (ws tail : List Call) (os : Ostream) (origin : Origin)
      (hcalls : (s.program r).calls = c :: (ws ++ .send :: tail))
      (htold : s.told r = sentBy r (s.said r.side) ++ [w])
      (hws : ∀ c' ∈ c :: ws, c'.writes = true) (htail : Sent tail)
      (hi : (p.party r.side).streams[(s.program r).stream]? = some { os := os, origin := origin })
      (hos : os.sended = false)
      (hbody : os.buffer ++ (c :: ws).flatMap (Call.bytes o) = w.body o origin.uid) :
      Called o s p r { calls := ws ++ .send :: tail, stream := (s.program r).stream } []
        (p.setParty r.side { p.party r.side with
          streams := (p.party r.side).streams.set (s.program r).stream
            { os := os.write (c.bytes o), origin := origin } })
  | sent (w : Said) (tail : List Call) (os : Ostream) (origin : Origin)
      (hcalls : (s.program r).calls = .send :: tail) (htold : s.told r = sentBy r (s.said r.side) ++ [w])
      (htail : Sent tail)
      (hi : (p.party r.side).streams[(s.program r).stream]? = some { os := os, origin := origin })
      (hbody : os.buffer = w.body o origin.uid) :
      Called o s p r { calls := tail, stream := (s.program r).stream } [(r, w)]
        { p.setParty r.side { p.party r.side with
            streams := (p.party r.side).streams.set (s.program r).stream
              { os := { os with sended := true }, origin := origin } } with
          inFlight := Function.update p.inFlight r.side.other
            (p.inFlight r.side.other ++ [{ body := os.buffer, origin := origin }]) }

/-- What a thread sends with a call. -/
def sends (s : Example) (r : Role) : Call → List (Role × Said)
  | .send => (s.told r).getLast?.toList.map fun w => (r, w)
  | .create _ _ | .respond _ | .writeString _ | .writeDataChunk _ | .close => []

/-- The state after a call. -/
theorem step_call {r : Role} {shutdown : ErrorCode} (hs : step o s (.call r shutdown) = some s') :
    ∃ c calls stream duplex, s.program r = { calls := c :: calls, stream := stream } ∧
      s.duplex.step o (c.act o r.side stream shutdown) = some duplex ∧ s' =
        { s with
          duplex := duplex
          program := Function.update s.program r
            { calls := calls
              stream := if c.opens then (s.duplex.endpoint r.side).streams.length else stream }
          said := Function.update s.said r.side (s.said r.side ++ s.sends r c) } := by
  simp only [step] at hs
  split at hs
  · rename_i c calls stream hprog
    obtain ⟨duplex, hd, rfl⟩ := Option.map_eq_some_iff.mp hs
    refine ⟨c, calls, stream, duplex, hprog, hd, ?_⟩
    have hsame : s.said = Function.update s.said r.side (s.said r.side ++ []) := by
      rw [List.append_nil, Function.update_eq_self]
    cases c <;> first | rfl | exact congrArg (fun said => Example.mk _ _ _ said) hsame
  · cases hs

/-- The calls of the programs keep the storage of what they have sent. -/
theorem Spoken.keepsStorage {r : Role} {c : Call} {calls : List Call} {stream : Nat} (shutdown : ErrorCode)
    (h : s.Spoken o p) (hd : s.duplex.Inv o p)
    (hprog : s.program r = { calls := c :: calls, stream := stream }) :
    s.duplex.KeepsStorage (c.act o r.side stream shutdown) := by
  have hcalls : (s.program r).calls = c :: calls := by rw [hprog]
  have hunsent : c.writes = true → ∀ os ∈ (s.duplex.endpoint r.side).streams[stream]?, os.sended = false := by
    intro hc os hos
    obtain ⟨os', origin, hi, hsended⟩ := (h.underway r).unsent hcalls hc
    rw [hprog] at hi
    rw [← (hd.refines.ends r.side).streams, List.getElem?_map, hi] at hos
    obtain rfl : os' = os := Option.some.inj hos
    exact hsended
  cases c with
  | writeString | writeDataChunk =>
    intro os hos hsended
    rw [hunsent rfl os hos] at hsended
    cases hsended
  | create | respond | send | close => trivial

theorem Spoken.called {r : Role} {c : Call} {calls : List Call} {stream : Nat} {shutdown : ErrorCode}
    (h : s.Spoken o p) (hd : s.duplex.Inv o p)
    (hprog : s.program r = { calls := c :: calls, stream := stream })
    (hp : run (Peers.step o) p (Duplex.acts o s.duplex (c.act o r.side stream shutdown)) = some p') :
    Called o s p r
      { calls := calls, stream := if c.opens then (s.duplex.endpoint r.side).streams.length else stream }
      (s.sends r c) p' := by
  have hlen : (s.duplex.endpoint r.side).streams.length = (p.party r.side).streams.length := by
    rw [← (hd.refines.ends r.side).streams, List.length_map]
  have hstream : stream = (s.program r).stream := by rw [hprog]
  have hu := h.underway r
  generalize hsent : sentBy r (s.said r.side) = sent at hu
  generalize htold : s.told r = told at hu
  cases hu with
  | idle _ _ hcalls =>
    have hcalls' := hcalls
    rw [hprog] at hcalls'
    rcases hcalls' with hnil | hclose
    · cases hnil
    · obtain ⟨rfl, rfl⟩ := List.cons.inj hclose
      obtain rfl := Option.some.inj hp
      exact .closed stream (by rw [hprog]) (by rw [htold, hsent])
  | opening _ w _ hcalls =>
    obtain ⟨c', ws, tail, hw, hws, htail, hpayload, hc⟩ := w.calls_eq (o := o)
    have hcalls' := hcalls
    rw [hprog, hw] at hcalls'
    obtain ⟨rfl, rfl⟩ := List.cons.inj hcalls'
    rcases hc with ⟨rfl, hanswer⟩ | ⟨j, rfl, rfl⟩
    · rw [Call.act, Duplex.acts, run_singleton] at hp
      cases Peers.step_cases hp with
      | createStream =>
        rw [hlen]
        exact .created w ws tail hcalls (by rw [htold, hsent]) hanswer hws htail hpayload
    · rw [Call.act, Duplex.acts, run_singleton] at hp
      have hslot : r = .slot := (h.roles r (.answer j) (by rw [htold]; simp)).symm
      subst hslot
      cases Peers.step_cases hp with
      | createResponse _ _ stream' origin hj =>
        have hcommand : stream'.command = Command.message.code := by
          obtain ⟨stream'', origin'', hj', hcode⟩ := h.answers j (by rw [htold]; simp)
          obtain ⟨rfl, -⟩ := Prod.mk.inj (Option.some.inj (hj.symm.trans hj'))
          exact hcode
        rw [hlen]
        exact .responded j ws tail stream' origin hcalls (by rw [htold, hsent]) hws htail hpayload hj hcommand
  | writing _ w _ ws tail os origin hcalls hws htail hi hos hbody =>
    have hcalls' := hcalls
    rw [hprog] at hcalls'
    rw [hstream] at hp
    cases ws with
    | nil =>
      obtain ⟨rfl, rfl⟩ := List.cons.inj hcalls'
      rw [Call.act, Duplex.acts, run_singleton] at hp
      have hnew : s.sends r .send = [(r, w)] := by simp [sends, htold]
      rw [hnew, hstream]
      cases Peers.step_cases hp with
      | resend _ _ os' origin' hi' hs' =>
        obtain ⟨rfl, rfl⟩ := Outgoing.mk.inj (Option.some.inj (hi.symm.trans hi'))
        rw [hos] at hs'
        cases hs'
      | send _ _ os' origin' hi' hs' =>
        obtain ⟨rfl, rfl⟩ := Outgoing.mk.inj (Option.some.inj (hi.symm.trans hi'))
        rw [List.flatMap_nil, List.append_nil] at hbody
        exact .sent w calls os origin hcalls (by rw [htold, hsent]) htail hi hbody
    | cons c' ws =>
      obtain ⟨rfl, rfl⟩ := List.cons.inj hcalls'
      have hwrites := hws c List.mem_cons_self
      have hact : ∀ i, c.act o r.side i shutdown = .write r.side i (c.bytes o) := by
        intro i
        cases c <;> first | rfl | cases hwrites
      have hnew : s.sends r c = [] := by cases c <;> first | rfl | cases hwrites
      have hopens : c.opens = false := by cases c <;> first | rfl | cases hwrites
      rw [hact, Duplex.acts, run_singleton] at hp
      rw [hnew, hopens, hstream]
      cases Peers.step_cases hp with
      | write _ _ bs os' origin' hi' =>
        obtain ⟨rfl, rfl⟩ := Outgoing.mk.inj (Option.some.inj (hi.symm.trans hi'))
        exact .wrote w c ws tail os origin hcalls (by rw [htold, hsent]) hws htail hi hos hbody

/-- A call gives its side other streams, and `new` goes to the other side as `msgs`. -/
structure Proceeds (s s' : Example) (p p' : Peers) (r : Role) (prog : Program) (new : List (Role × Said))
    (msgs : List Message) : Prop where
  program : s'.program = Function.update s.program r prog
  told : s'.told = s.told
  said : s'.said = Function.update s.said r.side (s.said r.side ++ new)
  incoming : ∀ y, (p'.party y).incoming = (p.party y).incoming
  streams : (p'.party r.side.other).streams = (p.party r.side.other).streams
  inFlight : p'.inFlight = Function.update p.inFlight r.side.other (p.inFlight r.side.other ++ msgs)

theorem proceeds_update {r : Role} {prog : Program} {new : List (Role × Said)} {msgs : List Message}
    {q : Party} (hprogram : s'.program = Function.update s.program r prog) (htold : s'.told = s.told)
    (hsaid : s'.said = Function.update s.said r.side (s.said r.side ++ new))
    (hparty : p'.party = Function.update p.party r.side q)
    (hincoming : q.incoming = (p.party r.side).incoming)
    (hflight : p'.inFlight = Function.update p.inFlight r.side.other (p.inFlight r.side.other ++ msgs)) :
    Proceeds s s' p p' r prog new msgs := by
  refine ⟨hprogram, htold, hsaid, Side.both r.side ?_ ?_, ?_, hflight⟩
  · rw [hparty, Function.update_self, hincoming]
  · rw [hparty, Function.update_of_ne r.side.ne_other.symm]
  · rw [hparty, Function.update_of_ne r.side.ne_other.symm]

theorem Spoken.proceed {r : Role} {prog : Program} {new : List (Role × Said)} {msgs : List Message}
    (h : s.Spoken o p) (hp : Proceeds s s' p p' r prog new msgs)
    (hunder : Underway o (p'.party r.side).streams (s.told r) (sentBy r (s.said r.side ++ new)) prog)
    (hnew : List.Forall₂ (Flying o) new msgs) (hrole : ∀ e ∈ new, e.1 = r)
    (hkept : ∀ r' ≠ r, r'.side = r.side → (s.program r').Holds → ∀ st,
      (p.party r.side).streams[(s.program r').stream]? = some st →
      (p'.party r.side).streams[(s.program r').stream]? = some st)
    (hdistinct : prog.Holds → ∀ r' ≠ r, r'.side = r.side → (s.program r').Holds →
      prog.stream ≠ (s.program r').stream) : s'.Spoken o p' := by
  refine ⟨?_, ?_, ?_, ?_, fun r' w hw => h.roles r' w (by rwa [hp.told] at hw), fun j hj => ?_⟩
  · intro r'
    rw [hp.program, hp.told, hp.said]
    by_cases hr : r' = r
    · subst hr
      rw [Function.update_self, Function.update_self]
      exact hunder
    · rw [Function.update_of_ne hr]
      by_cases hside : r'.side = r.side
      · have hold := h.underway r'
        rw [hside] at hold
        rw [hside, Function.update_self, sentBy_append, sentBy_other hrole hr, List.append_nil]
        exact hold.congr (hkept r' hr hside)
      · have hother : r'.side = r.side.other := by
          cases hx : r'.side <;> cases hy : r.side <;> simp_all [Side.other]
        rw [Function.update_of_ne hside, hother, hp.streams]
        have hold := h.underway r'
        rwa [hother] at hold
  · intro r₁ r₂ hne hside h₁ h₂
    rw [hp.program] at h₁ h₂ ⊢
    by_cases hr₁ : r₁ = r
    · subst hr₁
      rw [Function.update_of_ne (Ne.symm hne)] at h₂ ⊢
      rw [Function.update_self] at h₁ ⊢
      exact hdistinct h₁ r₂ (Ne.symm hne) hside.symm h₂
    · rw [Function.update_of_ne hr₁] at h₁ ⊢
      by_cases hr₂ : r₂ = r
      · subst hr₂
        rw [Function.update_self] at h₂ ⊢
        exact (hdistinct h₂ r₁ hr₁ hside h₁).symm
      · rw [Function.update_of_ne hr₂] at h₂ ⊢
        exact h.distinct r₁ r₂ hne hside h₁ h₂
  · refine Side.both r.side ?_ ?_
    · obtain ⟨heard, flying, hsaid, hheard, hflying⟩ := h.said r.side
      refine ⟨heard, flying ++ new, ?_, ?_, ?_⟩
      · rw [hp.said, Function.update_self, hsaid, List.append_assoc]
      · rwa [hp.incoming]
      · rw [hp.inFlight, Function.update_self]
        exact List.rel_append hflying hnew
    · obtain ⟨heard, flying, hsaid, hheard, hflying⟩ := h.said r.side.other
      refine ⟨heard, flying, ?_, ?_, ?_⟩
      · rw [hp.said, Function.update_of_ne r.side.ne_other.symm, hsaid]
      · rwa [hp.incoming]
      · rw [hp.inFlight, Side.other_other, Function.update_of_ne r.side.ne_other]
        rwa [Side.other_other] at hflying
  · intro x e he
    rw [hp.said] at he
    by_cases hx : x = r.side
    · subst hx
      rw [Function.update_self] at he
      rcases List.mem_append.mp he with he | he
      · exact h.sides r.side e he
      · rw [hrole e he]
    · rw [Function.update_of_ne hx] at he
      exact h.sides x e he
  · rw [hp.told] at hj
    rw [hp.incoming]
    exact h.answers j hj

/-- A thread opens a stream. -/
theorem Spoken.opened {r : Role} {w : Said} {ws tail : List Call} {os : Ostream} {origin : Origin}
    {sent : List Said} (h : s.Spoken o p) (htold : s.told r = sent ++ [w])
    (hsent : sentBy r (s.said r.side) = sent) (hws : ∀ c ∈ ws, c.writes = true) (htail : Sent tail)
    (hstreams : (p'.party r.side).streams = (p.party r.side).streams ++ [{ os := os, origin := origin }])
    (hos : os.sended = false) (hbody : os.buffer ++ ws.flatMap (Call.bytes o) = w.body o origin.uid)
    (hp : Proceeds s s' p p' r
      { calls := ws ++ .send :: tail, stream := (p.party r.side).streams.length } [] []) :
    s'.Spoken o p' := by
  refine h.proceed hp ?_ .nil (by simp) ?_ ?_
  · rw [List.append_nil, hsent, htold]
    refine .writing sent w _ ws tail os origin rfl hws htail ?_ hos hbody
    rw [hstreams]
    exact List.getElem?_concat_length ..
  · intro r' _ hside hholds st hst
    have hlt := (h.underway r').stream_lt hholds
    rw [hside] at hlt
    rw [hstreams, List.getElem?_append_left hlt, hst]
  · intro _ r' _ hside hholds
    have hlt := (h.underway r').stream_lt hholds
    rw [hside] at hlt
    show (p.party r.side).streams.length ≠ _
    omega

/-- A thread changes the stream in its hands. -/
theorem Spoken.changed {r : Role} (st : Outgoing) {new : List (Role × Said)} {msgs : List Message}
    {calls : List Call} (h : s.Spoken o p) (hholds : (s.program r).Holds)
    (hstreams : (p'.party r.side).streams = (p.party r.side).streams.set (s.program r).stream st)
    (hp : Proceeds s s' p p' r { calls := calls, stream := (s.program r).stream } new msgs)
    (hunder : Underway o ((p.party r.side).streams.set (s.program r).stream st) (s.told r)
      (sentBy r (s.said r.side ++ new)) { calls := calls, stream := (s.program r).stream })
    (hnew : List.Forall₂ (Flying o) new msgs) (hrole : ∀ e ∈ new, e.1 = r) : s'.Spoken o p' := by
  have hne : ∀ r' ≠ r, r'.side = r.side → (s.program r').Holds →
      (s.program r).stream ≠ (s.program r').stream := fun r' hr hside hh =>
    h.distinct r r' (Ne.symm hr) hside.symm hholds hh
  refine h.proceed hp (by rwa [hstreams]) hnew hrole ?_ fun _ r' hr hside hh => hne r' hr hside hh
  intro r' hr hside hh st' hst'
  rw [hstreams, List.getElem?_set_ne (hne r' hr hside hh), hst']

/-- A thread makes its next call. -/
theorem Spoken.call {r : Role} {prog : Program} {new : List (Role × Said)} (h : s.Spoken o p)
    (hi : p.Inv o) (hc : Called o s p r prog new p') (hprogram : s'.program = Function.update s.program r prog)
    (htold' : s'.told = s.told) (hsaid : s'.said = Function.update s.said r.side (s.said r.side ++ new)) :
    s'.Spoken o p' := by
  have hflight : p.inFlight = Function.update p.inFlight r.side.other (p.inFlight r.side.other ++ []) := by
    rw [List.append_nil, Function.update_eq_self]
  have hinv := hi.party r.side
  cases hc with
  | closed stream hcalls htold =>
    refine h.proceed ⟨hprogram, htold', hsaid, fun _ => rfl, rfl, hflight⟩ ?_ .nil (by simp)
      (fun _ _ _ _ st hst => hst) fun hh => absurd hh (Sent.not_holds (.inl rfl))
    rw [List.append_nil, ← htold]
    exact .idle _ _ (.inl rfl)
  | created w ws tail hcalls htold hanswer hws htail hpayload =>
    set q := Peers.createStream o Command.type w.command.value w.hasCallback (p.party r.side) with hq
    have hstreams : ((p.setParty r.side q).party r.side).streams = (p.party r.side).streams ++
        [{ os := Ostream.construct o Command.type w.command.value (p.party r.side).conn.uidCounter
           origin := .request (p.party r.side).registered.length }] := by
      rw [Peers.setParty_self, hq, Peers.createStream_streams]
    refine h.opened htold rfl hws htail hstreams rfl ?_
      (proceeds_update hprogram htold' hsaid rfl (Peers.createStream_incoming ..) hflight)
    rw [hpayload, hinv.counter]
    rfl
  | responded j ws tail stream origin hcalls htold hws htail hpayload hj hcommand =>
    have huid : stream.uid = origin.uid := hinv.incoming _ (List.mem_of_getElem? hj)
    have hheader : (stream.createResponse o).buffer = bytesOf o stream.command ++ bytesOf o stream.uid := rfl
    refine h.opened htold rfl hws htail (congrArg Party.streams (Peers.setParty_self (s := p) r.side _)) rfl ?_
      (proceeds_update hprogram htold' hsaid rfl rfl hflight)
    rw [hpayload, hheader, huid, hcommand]
    rfl
  | wrote w c ws tail os origin hcalls htold hws htail hst hos hbody =>
    have hholds : (s.program r).Holds := ⟨c :: ws, tail, hcalls, hws⟩
    refine h.changed { os := os.write (c.bytes o), origin := origin } hholds
      (congrArg Party.streams (Peers.setParty_self (s := p) r.side _))
      (proceeds_update hprogram htold' hsaid rfl rfl hflight) ?_ .nil (by simp)
    rw [List.append_nil, htold]
    refine .writing _ w _ ws tail (os.write (c.bytes o)) origin rfl
      (fun c' hc' => hws c' (List.mem_cons_of_mem _ hc')) htail ?_ hos ?_
    · rw [List.getElem?_set_self (List.getElem?_eq_some_iff.mp hst).1]
    · rw [← hbody, List.flatMap_cons, Ostream.write_buffer, List.append_assoc]
  | sent w tail os origin hcalls htold htail hst hbody =>
    have hholds : (s.program r).Holds := ⟨[], tail, hcalls, by simp⟩
    refine h.changed { os := { os with sended := true }, origin := origin } hholds
      (congrArg Party.streams (Peers.setParty_self (s := p) r.side _))
      (proceeds_update hprogram htold' hsaid rfl rfl rfl) ?_ (.cons hbody .nil) (by simp)
    rw [sentBy_append, sentBy_self, htold]
    exact .idle _ _ htail

/-! ## The connections -/

/-- All that was said, a thread was told to say. -/
theorem Spoken.told_of_said (h : s.Spoken o p) {x : Side} {e : Role × Said} (he : e ∈ s.said x) :
    e.2 ∈ s.told e.1 ∧ e.1.side = x := by
  have hside := h.sides x e he
  refine ⟨?_, hside⟩
  have hmem : e.2 ∈ sentBy e.1 (s.said e.1.side) := mem_sentBy (by rwa [hside])
  rcases (h.underway e.1).sent_or with heq | ⟨w, heq⟩
  · rwa [heq]
  · rw [heq]
    exact List.mem_append_left _ hmem

theorem Spoken.withDuplex (h : s.Spoken o p) (duplex : Duplex) :
    Spoken o { s with duplex := duplex } p :=
  ⟨h.underway, h.distinct, h.said, h.sides, h.roles, h.answers⟩

/-- A package is delivered. -/
theorem Spoken.deliver {x : Side} {junk : Nat → UInt8} {msg : Message} {rest : List Message}
    (h : s.Spoken o p) (hp : Peers.Delivered o p p' x junk msg rest) : s.Spoken o p' := by
  have hstreams : ∀ y, (p'.party y).streams = (p.party y).streams := by
    refine Side.both x ?_ ?_
    · rw [hp.self]
    · rw [hp.other]
  obtain ⟨heard, flying, hsaid, hheard, hflying⟩ := h.said x.other
  rw [Side.other_other] at hheard hflying
  rw [hp.next] at hflying
  obtain ⟨e, later, he, hlater, rfl⟩ := List.forall₂_cons_right_iff.mp hflying
  have hnew : Heard o e (Istream.construct o msg.body junk, msg.origin) := ⟨junk, by rw [he]⟩
  refine ⟨?_, h.distinct, Side.both x ?_ ?_, h.sides, h.roles, ?_⟩
  · intro r
    rw [hstreams]
    exact h.underway r
  · obtain ⟨heard', flying', hsaid', hheard', hflying'⟩ := h.said x
    exact ⟨heard', flying', hsaid', by rwa [hp.other], by rwa [hp.inFlight_other]⟩
  · refine ⟨heard ++ [e], later, ?_, ?_, ?_⟩
    · rw [hsaid, List.append_assoc]
      rfl
    · rw [Side.other_other, hp.self]
      exact List.rel_append hheard (.cons hnew .nil)
    · rwa [Side.other_other, hp.inFlight]
  · intro j hj
    obtain ⟨stream, origin, hj', hcode⟩ := h.answers j hj
    refine ⟨stream, origin, ?_, hcode⟩
    by_cases hx : x = .right
    · subst hx
      rw [hp.self, List.getElem?_append_left (List.getElem?_eq_some_iff.mp hj').1, hj']
    · have hx' : Side.right = x.other := by
        cases x <;> first | rfl | exact absurd rfl hx
      rw [hx', hp.other, ← hx', hj']

/-! ## One step of both programs -/

/-- The callbacks that were registered: none by the server, and those of the client for messages. -/
structure Registered (s : Example) (p : Peers) : Prop where
  right : true ∉ (p.party .right).registered
  left : true ∈ (p.party .left).registered → .message ∈ s.told .client

/-- The server has no callbacks. -/
theorem Registered.callbacks (h : s.Registered p) (hi : p.Inv o) (u : UInt64) :
    (p.party .right).conn.callbacks u = none := by
  cases hcb : (p.party .right).conn.callbacks u with
  | none => rfl
  | some n =>
    have hlast := ((hi.party .right).callbacks u n hcb).2
    exact absurd (List.mem_of_getElem? hlast.1) h.right

/-- What holds of every state, and of the state of `Peers` that matches its connections. -/
structure Inv (o : ByteOrder) (s : Example) (p : Peers) : Prop where
  duplex : s.duplex.Inv o p
  spoken : s.Spoken o p
  registered : s.Registered p

theorem inv_init : init.Inv o Peers.init where
  duplex := Duplex.inv_init
  spoken := spoken_init
  registered := ⟨by simp [Peers.init], by simp [Peers.init]⟩

/-- What a step does, to the programs and to both connections. -/
inductive Moved (o : ByteOrder) (s : Example) (p : Peers) : Example → Peers → Prop where
  | quiet (duplex : Duplex) : Moved o s p { s with duplex := duplex } p
  | key (r : Role) (w : Said) (s' : Example) (hr : r ≠ .slot) (hrole : w.role = r)
      (ht : s.tell r w = some s') : Moved o s p s' p
  | call (r : Role) (prog : Program) (new : List (Role × Said)) (duplex : Duplex) (p' : Peers)
      (hc : Called o s p r prog new p') : Moved o s p
        { s with
          duplex := duplex
          program := Function.update s.program r prog
          said := Function.update s.said r.side (s.said r.side ++ new) } p'
  | deliver (x : Side) (junk : Nat → UInt8) (duplex : Duplex) (p' : Peers)
      (hp : Peers.step o p (.deliver x junk) = some p')
      (hx : x = .right → ∀ stream origin,
        (p'.party .right).incoming = (p.party .right).incoming ++ [(stream, origin)] →
        serverSlot (p.party .right).incoming.length stream = none) :
      Moved o s p { s with duplex := duplex } p'
  | serve (junk : Nat → UInt8) (duplex : Duplex) (p' : Peers) (stream : Istream) (origin : Origin) (w : Said)
      (s' : Example) (hp : Peers.step o p (.deliver .right junk) = some p')
      (hincoming : (p'.party .right).incoming = (p.party .right).incoming ++ [(stream, origin)])
      (hw : serverSlot (p.party .right).incoming.length stream = some w)
      (ht : tell .slot w { s with duplex := duplex } = some s') : Moved o s p s' p'

theorem tell_duplex {r : Role} {w : Said} (hs : s.tell r w = some s') : s'.duplex = s.duplex := by
  unfold tell at hs
  split_ifs at hs
  obtain rfl := Option.some.inj hs
  rfl

theorem key_role {c : Char} {w : Said} (h : clientKey c = some w) : w.role = .client := by
  unfold clientKey at h
  split at h <;> cases h <;> rfl

theorem serverKey_role {c : Char} {file : Option File} {w : Said} (h : serverKey file c = some w) :
    w.role = .operator := by
  unfold serverKey at h
  split at h
  · cases h
    rfl
  · obtain ⟨f, -, rfl⟩ := Option.map_eq_some_iff.mp h
    rfl
  · cases h

/-- A step of the connection of the server, and what its slot is told. -/
theorem moved_right {a : ReadingAct Nat} {duplex : Duplex} (h : s.Inv o p)
    (hd : s.duplex.step o (.connection .right a) = some duplex)
    (hs : runSlot o (s.duplex.endpoint .right).reading (s.duplex.endpoint .right).incoming.length a
      { s with duplex := duplex } = some s') :
    ∃ p', s'.duplex.Inv o p' ∧ Moved o s p s' p' := by
  have hkeeps : s.duplex.KeepsStorage (.connection .right a) := trivial
  obtain ⟨p', hp', hinv'⟩ := Duplex.inv_step h.duplex hkeeps hd
  unfold runSlot at hs
  rcases Duplex.step_connection h.duplex.intact hd with
    ⟨hran, hacts, -⟩ | ⟨junk, callback, stream, hran, hacts, hincoming, hcallback⟩
  · rw [hran] at hs
    rw [hacts] at hp'
    obtain rfl := Option.some.inj hs
    obtain rfl := Option.some.inj hp'
    exact ⟨p, hinv', .quiet duplex⟩
  · rw [hacts, run_singleton] at hp'
    obtain ⟨msg, rest, hdelivered⟩ := Peers.step_deliver h.duplex.peers hp'
    have hcame := congrArg Party.incoming hdelivered.self
    dsimp only at hcame
    have hlen : (s.duplex.endpoint .right).incoming.length = (p.party .right).incoming.length := by
      rw [← (h.duplex.refines.ends .right).incoming, List.length_map]
    have hstream : Istream.construct o msg.body junk = stream := by
      have hends := (hinv'.refines.ends .right).incoming
      rw [hcame, hincoming, List.map_append, (h.duplex.refines.ends .right).incoming] at hends
      simpa using hends
    have hnone : callback = none := by
      rw [hcallback, ← (h.duplex.refines.ends .right).callbacks]
      exact h.registered.callbacks h.duplex.peers _
    rw [hran, hnone, hlen] at hs
    rw [hstream] at hcame
    cases hw : serverSlot (p.party .right).incoming.length stream with
    | none =>
      simp only [hw] at hs
      obtain rfl := Option.some.inj hs
      refine ⟨p', hinv', .deliver .right junk duplex p' hp' fun _ stream' origin' hcame' => ?_⟩
      rw [hcame, List.append_cancel_left_eq] at hcame'
      cases hcame'
      exact hw
    | some w =>
      simp only [hw] at hs
      refine ⟨p', ?_, .serve junk duplex p' stream msg.origin w s' hp' hcame hw hs⟩
      rwa [tell_duplex hs]

theorem moved {a : ExampleAct} (h : s.Inv o p) (hs : step o s a = some s') :
    ∃ p', s'.duplex.Inv o p' ∧ Moved o s p s' p' := by
  cases a with
  | clientKey c =>
    simp only [step] at hs
    split at hs
    · rename_i w hw
      refine ⟨p, ?_, .key .client w s' (by simp) (key_role hw) hs⟩
      rw [tell_duplex hs]
      exact h.duplex
    · obtain rfl := Option.some.inj hs
      exact ⟨p, h.duplex, .quiet s.duplex⟩
  | serverKey c file =>
    simp only [step] at hs
    split at hs
    · rename_i w hw
      refine ⟨p, ?_, .key .operator w s' (by simp) (serverKey_role hw) hs⟩
      rw [tell_duplex hs]
      exact h.duplex
    · obtain rfl := Option.some.inj hs
      exact ⟨p, h.duplex, .quiet s.duplex⟩
  | call r shutdown =>
    obtain ⟨c, calls, stream, duplex, hprog, hd, rfl⟩ := step_call hs
    have hkeeps := h.spoken.keepsStorage shutdown h.duplex hprog
    obtain ⟨p', hp', hinv'⟩ := Duplex.inv_step h.duplex hkeeps hd
    exact ⟨p', hinv', .call r _ _ duplex p' (h.spoken.called h.duplex hprog hp')⟩
  | transmit x i n junk =>
    obtain ⟨duplex, hd, rfl⟩ := Option.map_eq_some_iff.mp hs
    have hkeeps : s.duplex.KeepsStorage (.transmit x i n junk) := trivial
    obtain ⟨p', hp', hinv'⟩ := Duplex.inv_step h.duplex hkeeps hd
    obtain rfl := Option.some.inj hp'
    exact ⟨p, hinv', .quiet duplex⟩
  | connection x a =>
    simp only [step] at hs
    split_ifs at hs
    obtain ⟨duplex, hd, hs⟩ := Option.bind_eq_some_iff.mp hs
    cases x with
    | right => exact moved_right h hd hs
    | left =>
      obtain rfl := Option.some.inj hs
      have hkeeps : s.duplex.KeepsStorage (.connection .left a) := trivial
      obtain ⟨p', hp', hinv'⟩ := Duplex.inv_step h.duplex hkeeps hd
      rcases Duplex.step_connection h.duplex.intact hd with ⟨-, hacts, -⟩ | ⟨junk, -, -, -, hacts, -, -⟩
      · rw [hacts] at hp'
        obtain rfl := Option.some.inj hp'
        exact ⟨p, hinv', .quiet duplex⟩
      · rw [hacts, run_singleton] at hp'
        exact ⟨p', hinv', .deliver .left junk duplex p' hp' fun hx => by cases hx⟩

/-! ## What holds of every state -/

/-- What came in as the `i`-th stream is what the other side has said as its `i`-th. -/
theorem Spoken.heard (h : s.Spoken o p) {x : Side} {i : Nat} {r : Istream × Origin}
    (hi : (p.party x.other).incoming[i]? = some r) : ∃ e, (s.said x)[i]? = some e ∧ Heard o e r := by
  obtain ⟨heard, flying, hsaid, hheard, -⟩ := h.said x
  obtain ⟨hlen, hget⟩ := List.forall₂_iff_get.mp hheard
  obtain ⟨hlt, rfl⟩ := List.getElem?_eq_some_iff.mp hi
  refine ⟨heard[i], ?_, hget i (by omega) hlt⟩
  rw [hsaid, List.getElem?_append_left (by omega), List.getElem?_eq_getElem]

theorem Heard.command {e : Role × Said} {stream : Istream} {origin : Origin}
    (h : Heard o e (stream, origin)) : stream.command = e.2.command.code := by
  obtain ⟨junk, hstream⟩ := h
  rw [show stream = _ from hstream]
  exact (construct_body e.2 origin.uid junk).1

/-- The slot of the server answers messages, and says goodbye to who quits. -/
theorem serverSlot_heard {e : Role × Said} {stream : Istream} {origin : Origin} (j : Nat)
    (h : Heard o e (stream, origin)) : serverSlot j stream =
      match e.2.command with
      | .message => some (.answer j)
      | .quit => some .goodbye
      | .hello | .goodbye | .sendFile => none := by
  rw [serverSlot, commandAs_code h.command]
  cases e.2.command <;> rfl

theorem Registered.call {r : Role} {prog : Program} {new : List (Role × Said)} (h : s.Registered p)
    (hroles : ∀ r, ∀ w ∈ s.told r, w.role = r) (hc : Called o s p r prog new p') (htold : s'.told = s.told) :
    s'.Registered p' := by
  -- only `create_stream` registers anything
  have hsame : ∀ q : Party, p'.party = (p.setParty r.side q).party →
      q.registered = (p.party r.side).registered → s'.Registered p' := by
    intro q hp' hq
    have hreg : ∀ x, (p'.party x).registered = (p.party x).registered := by
      refine Side.both r.side ?_ ?_
      · rw [hp', Peers.setParty_self, hq]
      · rw [hp', Peers.setParty_other]
    exact ⟨by rw [hreg]; exact h.right, by rw [hreg, htold]; exact h.left⟩
  cases hc with
  | closed => exact ⟨h.right, by rw [htold]; exact h.left⟩
  | responded | wrote | sent => exact hsame _ rfl rfl
  | created w ws tail hcalls hw hanswer hws htail hpayload =>
    have hreg := Peers.createStream_registered (o := o) Command.type w.command.value w.hasCallback
      (p.party r.side)
    have hmem : w ∈ s.told r := by rw [hw]; simp
    have hrole := hroles r w hmem
    have hclient : w.hasCallback = true → w = .message ∧ r = .client := by
      intro hcb
      cases w <;> first | exact ⟨rfl, hrole.symm⟩ | cases hcb
    constructor
    · intro htrue
      by_cases hside : r.side = .right
      · rw [← hside, Peers.setParty_self, hreg, hside, List.mem_append, List.mem_singleton] at htrue
        rcases htrue with htrue | htrue
        · exact h.right htrue
        · rw [(hclient htrue.symm).2] at hside
          cases hside
      · have hother : Side.right = r.side.other := by
          cases r <;> first | rfl | exact absurd rfl hside
        rw [hother, Peers.setParty_other, ← hother] at htrue
        exact h.right htrue
    · intro htrue
      rw [htold]
      by_cases hside : r.side = .left
      · rw [← hside, Peers.setParty_self, hreg, hside, List.mem_append, List.mem_singleton] at htrue
        rcases htrue with htrue | htrue
        · exact h.left htrue
        · obtain ⟨rfl, rfl⟩ := hclient htrue.symm
          exact hmem
      · have hother : Side.left = r.side.other := by
          cases r <;> first | rfl | exact absurd rfl hside
        rw [hother, Peers.setParty_other, ← hother] at htrue
        exact h.left htrue

/-- A thread is told more and more. -/
theorem mem_told_of_tell {r r' : Role} {w w' : Said} (hs : s.tell r w = some s') (h : w' ∈ s.told r') :
    w' ∈ s'.told r' := by
  unfold tell at hs
  split_ifs at hs
  obtain rfl := Option.some.inj hs
  by_cases hr : r' = r
  · subst hr
    show w' ∈ Function.update s.told r' _ r'
    rw [Function.update_self]
    exact List.mem_append_left _ h
  · show w' ∈ Function.update s.told r _ r'
    rwa [Function.update_of_ne hr]

theorem Registered.deliver {x : Side} {junk : Nat → UInt8} {msg : Message} {rest : List Message}
    (h : s.Registered p) (hp : Peers.Delivered o p p' x junk msg rest) : s.Registered p' := by
  have hreg : ∀ y, (p'.party y).registered = (p.party y).registered := by
    refine Side.both x ?_ ?_
    · rw [hp.self]
    · rw [hp.other]
  exact ⟨by rw [hreg]; exact h.right, by rw [hreg]; exact h.left⟩

theorem inv_moved (h : s.Inv o p) (hd : s'.duplex.Inv o p') (hm : Moved o s p s' p') : s'.Inv o p' := by
  have hspoken := h.spoken
  have hregistered := h.registered
  cases hm with
  | quiet duplex => exact ⟨hd, hspoken.withDuplex duplex, ⟨hregistered.right, hregistered.left⟩⟩
  | key r w _ hr hrole ht =>
    refine ⟨hd, hspoken.tell ht hrole ?_, hregistered.right, fun htrue => ?_⟩
    · rintro j rfl
      exact absurd hrole.symm hr
    · exact mem_told_of_tell ht (hregistered.left htrue)
  | call r prog new duplex _ hc =>
    exact ⟨hd, hspoken.call h.duplex.peers hc rfl rfl rfl, hregistered.call hspoken.roles hc rfl⟩
  | deliver x junk duplex _ hp hx =>
    obtain ⟨msg, rest, hdelivered⟩ := Peers.step_deliver h.duplex.peers hp
    have hregistered' := hregistered.deliver hdelivered
    exact ⟨hd, (hspoken.deliver hdelivered).withDuplex duplex, hregistered'.right, hregistered'.left⟩
  | serve junk duplex _ stream origin w _ hp hincoming hw ht =>
    obtain ⟨msg, rest, hdelivered⟩ := Peers.step_deliver h.duplex.peers hp
    have hspoken' := (hspoken.deliver hdelivered).withDuplex duplex
    have hregistered' := hregistered.deliver hdelivered
    have hlast : (p'.party .right).incoming[(p.party .right).incoming.length]? = some (stream, origin) := by
      rw [hincoming]
      exact List.getElem?_concat_length ..
    obtain ⟨e, -, he⟩ := hspoken'.heard (x := .left) hlast
    rw [serverSlot_heard _ he] at hw
    refine ⟨hd, hspoken'.tell ht ?_ ?_, hregistered'.right, fun htrue => ?_⟩
    · split at hw <;> cases hw <;> rfl
    · rintro j rfl
      cases hcommand : e.2.command <;> rw [hcommand] at hw <;> cases hw
      exact ⟨stream, origin, hlast, by rw [he.command, hcommand]⟩
    · exact mem_told_of_tell ht (hregistered'.left htrue)

end Example

end Lnetlib
