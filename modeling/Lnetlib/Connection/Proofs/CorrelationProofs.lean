import Lnetlib.Connection.Correlation
import Lnetlib.Stream.Proofs.CodecProofs

/-!
# When responses find their callbacks

A package is matched on its uid alone. The uid says which call of `create_stream` it goes back to, modulo
`2 ^ 64` and without the side that made the call (`Carries`); the callback pending under a uid is that of
the last stream of its side registered there (`Party.Inv`). So a package is given to the right callback
exactly when it answers that stream, and this is decided when it is handled (`correlated_step`).
-/

namespace Lnetlib

open Bytes Transition

namespace Peers

variable {o : ByteOrder} {s s' : Peers} {p : Party}

/-- A message that starts with a command and the uid of where it comes from. -/
def Carries (o : ByteOrder) (body : List UInt8) (origin : Origin) : Prop :=
  ∃ (cmd : UInt64) (post : List UInt8), body = bytesOf o cmd ++ bytesOf o origin.uid ++ post

theorem Carries.ne_nil {body : List UInt8} {origin : Origin} (h : Carries o body origin) :
    body.length ≠ 0 := by
  obtain ⟨cmd, post, rfl⟩ := h
  have hlen : (bytesOf o origin.uid).length = 8 := bytesOf_length o _
  simp only [List.length_append]
  omega

theorem Carries.uid {body : List UInt8} {origin : Origin} (h : Carries o body origin)
    (junk : Nat → UInt8) : (Istream.construct o body junk).uid = origin.uid := by
  obtain ⟨cmd, post, rfl⟩ := h
  exact (Istream.construct_header o post cmd origin.uid junk).2.1

theorem Carries.write {body : List UInt8} {origin : Origin} (h : Carries o body origin)
    (bs : List UInt8) : Carries o (body ++ bs) origin := by
  obtain ⟨cmd, post, rfl⟩ := h
  exact ⟨cmd, post ++ bs, by rw [List.append_assoc]⟩

theorem carries_construct {cmd : CommandType} {command : cmd.Value} {origin : Origin} {uid : UInt64}
    (h : uid = origin.uid) : Carries o (Ostream.construct o cmd command uid).buffer origin := by
  subst h
  exact ⟨cmd.toUInt64 command, [], by rw [Ostream.construct_buffer, List.append_nil]⟩

/-! ## One end -/

/-- What holds of one end. -/
structure PartyInv (o : ByteOrder) (p : Party) : Prop where
  counter : p.conn.uidCounter = (Origin.request p.registered.length).uid
  callbacks : ∀ u n, p.conn.callbacks u = some n →
    (Origin.request n).uid = u ∧ LastRegistered p n
  streams : ∀ st ∈ p.streams, Carries o st.os.buffer st.origin
  incoming : ∀ e ∈ p.incoming, e.1.uid = e.2.uid

/-- Only one stream is the last that registered a callback under a uid. -/
theorem LastRegistered.unique {n n' : Nat} (h : LastRegistered p n) (h' : LastRegistered p n')
    (hu : (Origin.request n).uid = (Origin.request n').uid) : n = n' := by
  rcases Nat.lt_trichotomy n n' with hlt | heq | hlt
  · exact absurd hu.symm (h.2 n' hlt h'.1)
  · exact heq
  · exact absurd hu (h'.2 n hlt h.1)

/-- One more stream, registered under another uid or without a callback. -/
theorem LastRegistered.append {n : Nat} {callback : Bool} (h : LastRegistered p n) {p' : Party}
    (hr : p'.registered = p.registered ++ [callback])
    (hu : callback = true → (Origin.request p.registered.length).uid ≠ (Origin.request n).uid) :
    LastRegistered p' n := by
  obtain ⟨hn, hlast⟩ := h
  have hlt : n < p.registered.length := (List.getElem?_eq_some_iff.mp hn).1
  refine ⟨by rw [hr, List.getElem?_append_left hlt, hn], ?_⟩
  intro m hm hmr
  rw [hr] at hmr
  rcases Nat.lt_trichotomy m p.registered.length with hml | rfl | hml
  · rw [List.getElem?_append_left hml] at hmr
    exact hlast m hm hmr
  · rw [List.getElem?_concat_length] at hmr
    exact hu (Option.some.inj hmr)
  · rw [List.getElem?_eq_none (by simp only [List.length_append, List.length_singleton]; omega)] at hmr
    cases hmr

theorem partyInv_createStream (h : PartyInv o p) (cmd : CommandType) (command : cmd.Value)
    (callback : Bool) : PartyInv o (createStream o cmd command callback p) := by
  set n := p.registered.length with hn
  have hcounter : p.conn.uidCounter + 1 = (Origin.request (n + 1)).uid := by
    rw [h.counter]
    exact (UInt64.ofNat_add n 1).symm
  have hlen : (p.registered ++ [callback]).length = n + 1 := by
    rw [List.length_append, List.length_singleton]
  have hstreams : ∀ st ∈ p.streams ++
      [{ os := Ostream.construct o cmd command p.conn.uidCounter, origin := .request n }],
      Carries o st.os.buffer st.origin := by
    intro st hst
    rcases List.mem_append.mp hst with hst | hst
    · exact h.streams st hst
    · rw [List.mem_singleton.mp hst]
      exact carries_construct h.counter
  cases callback with
  | false =>
    refine ⟨by rw [createStream, hlen]; exact hcounter, ?_, hstreams, h.incoming⟩
    intro u k hk
    obtain ⟨hu, hlast⟩ := h.callbacks u k hk
    refine ⟨hu, hlast.append rfl ?_⟩
    intro hfalse
    cases hfalse
  | true =>
    refine ⟨by rw [createStream, hlen]; exact hcounter, ?_, hstreams, h.incoming⟩
    intro u k hk
    by_cases hu : u = p.conn.uidCounter
    · -- the callback just registered
      have hkn : k = n := by
        rw [hu] at hk
        simpa [createStream, Connection.createStreamWith, Connection.createStream, Ostream.construct,
          Ostream.write, hn] using hk.symm
      rw [hkn]
      refine ⟨by rw [hu, h.counter], ?_, ?_⟩
      · show (p.registered ++ [true])[n]? = some true
        rw [hn, List.getElem?_concat_length]
      · intro m hm hmr
        have hnone : (p.registered ++ [true])[m]? = none := List.getElem?_eq_none (by omega)
        rw [show (createStream o cmd command true p).registered = p.registered ++ [true] from rfl,
          hnone] at hmr
        cases hmr
    · have hold : p.conn.callbacks u = some k := by
        have hne : Function.update p.conn.callbacks p.conn.uidCounter (some n) u =
            p.conn.callbacks u := Function.update_of_ne hu ..
        rw [← hne]
        exact hk
      obtain ⟨huk, hlast⟩ := h.callbacks u k hold
      refine ⟨huk, hlast.append rfl ?_⟩
      intro _ he
      rw [huk, ← h.counter] at he
      exact hu he.symm

/-- A package that arrives is handled by the callback pending under its uid, or else by `received`. -/
theorem handle_eq {msg : Message} (h : Carries o msg.body msg.origin) (junk : Nat → UInt8) :
    handle o junk msg p =
      { p with
        conn := { p.conn with callbacks := Function.update p.conn.callbacks msg.origin.uid none }
        incoming := p.incoming ++ [(Istream.construct o msg.body junk, msg.origin)]
        handled := p.handled ++
          [{ origin := msg.origin, callback := p.conn.callbacks msg.origin.uid }] } := by
  have hok : (Connection.checkError .success : Bool × List (Emission Nat)) = (true, []) :=
    Connection.checkError_success rfl
  unfold handle Connection.readPackageBodyHandler
  simp only [hok, Bool.not_true, Bool.false_eq_true, if_false, h.ne_nil, h.uid]
  cases hcb : p.conn.callbacks msg.origin.uid with
  | some cb => rfl
  | none =>
    have hself : Function.update p.conn.callbacks msg.origin.uid none = p.conn.callbacks := by
      rw [← hcb, Function.update_eq_self]
    rw [hself]
    rfl

theorem partyInv_handle (h : PartyInv o p) {msg : Message} (hm : Carries o msg.body msg.origin)
    (junk : Nat → UInt8) : PartyInv o (handle o junk msg p) := by
  rw [handle_eq hm]
  refine ⟨h.counter, ?_, h.streams, ?_⟩
  · intro u n hn
    by_cases hu : u = msg.origin.uid
    · rw [hu] at hn
      simp at hn
    · refine h.callbacks u n ?_
      rw [← hn]
      exact (Function.update_of_ne hu ..).symm
  · intro e he
    rcases List.mem_append.mp he with he | he
    · exact h.incoming e he
    · rw [List.mem_singleton.mp he]
      exact hm.uid junk

/-- A step that changes the streams of one end. -/
theorem PartyInv.withStreams (h : PartyInv o p) {sts : List Outgoing}
    (hs : ∀ st ∈ sts, Carries o st.os.buffer st.origin) :
    PartyInv o { p with streams := sts } :=
  ⟨h.counter, h.callbacks, hs, h.incoming⟩

theorem PartyInv.set (h : PartyInv o p) {i : Nat} {st : Outgoing}
    (hst : Carries o st.os.buffer st.origin) : PartyInv o { p with streams := p.streams.set i st } := by
  refine h.withStreams ?_
  intro st' hst'
  rcases List.mem_or_eq_of_mem_set hst' with hst' | rfl
  · exact h.streams st' hst'
  · exact hst

/-! ## Both ends -/

/-- The inductive invariant. -/
structure Inv (o : ByteOrder) (s : Peers) : Prop where
  party : ∀ x, PartyInv o (s.party x)
  inFlight : ∀ x, ∀ msg ∈ s.inFlight x, Carries o msg.body msg.origin

theorem inv_init : Inv o init where
  party := by
    intro x
    refine ⟨rfl, ?_, ?_, ?_⟩
    · intro u n h
      cases h
    · intro st h
      cases h
    · intro e h
      cases h
  inFlight := by
    intro x msg h
    cases h

theorem Inv.setParty (h : s.Inv o) {x : Side} (hp : PartyInv o p) : (s.setParty x p).Inv o := by
  refine ⟨?_, h.inFlight⟩
  intro y
  by_cases hy : y = x
  · subst hy
    simpa [Peers.setParty] using hp
  · simpa [Peers.setParty, hy] using h.party y

theorem Inv.setInFlight (h : s.Inv o) {x : Side} {msgs : List Message}
    (hm : ∀ msg ∈ msgs, Carries o msg.body msg.origin) :
    Inv o { s with inFlight := Function.update s.inFlight x msgs } := by
  refine ⟨h.party, ?_⟩
  intro y
  by_cases hy : y = x
  · subst hy
    simpa using hm
  · simpa [hy] using h.inFlight y

theorem inv_step {a : PeersAct} (h : s.Inv o) (hs : step o s a = some s') : s'.Inv o := by
  cases a with
  | createStream x cmd command callback =>
    cases hs
    exact h.setParty (partyInv_createStream (h.party x) cmd command callback)
  | createResponse x j =>
    simp only [step] at hs
    split at hs
    · rename_i stream origin hj
      cases hs
      have huid := (h.party x).incoming _ (List.mem_of_getElem? hj)
      refine h.setParty ((h.party x).withStreams ?_)
      intro st hst
      rcases List.mem_append.mp hst with hst | hst
      · exact (h.party x).streams st hst
      · rw [List.mem_singleton.mp hst]
        exact carries_construct huid
    · cases hs
  | write x i bs =>
    simp only [step] at hs
    split at hs
    · rename_i os origin hi
      cases hs
      have hst := (h.party x).streams _ (List.mem_of_getElem? hi)
      exact h.setParty ((h.party x).set (hst.write bs))
    · cases hs
  | send x i =>
    simp only [step] at hs
    split at hs
    · rename_i os origin hi
      have hst := (h.party x).streams _ (List.mem_of_getElem? hi)
      unfold Ostream.send at hs
      by_cases hsent : os.sended = true
      · simp only [hsent, if_true] at hs
        cases hs
        exact h.setParty ((h.party x).set hst)
      · simp only [hsent] at hs
        cases hs
        refine (h.setParty ((h.party x).set ?_)).setInFlight ?_
        · exact hst
        · intro msg hmsg
          rcases List.mem_append.mp hmsg with hmsg | hmsg
          · exact h.inFlight _ msg hmsg
          · rw [List.mem_singleton.mp hmsg]
            exact hst
    · cases hs
  | deliver x junk =>
    simp only [step] at hs
    split at hs
    · rename_i msg rest hq
      cases hs
      have hm := h.inFlight x msg (by rw [hq]; exact List.mem_cons_self)
      refine (h.setParty (partyInv_handle (h.party x) hm junk)).setInFlight ?_
      intro msg' hmsg'
      exact h.inFlight x msg' (by rw [hq]; exact List.mem_cons_of_mem _ hmsg')
    · cases hs

/-- What was handled is changed by the delivery of a package only. -/
theorem step_handled {a : PeersAct} (ha : ∀ x junk, a ≠ .deliver x junk)
    (hs : step o s a = some s') (y : Side) : (s'.party y).handled = (s.party y).handled := by
  have hset : ∀ (x : Side) (p : Party), p.handled = (s.party x).handled →
      ((s.setParty x p).party y).handled = (s.party y).handled := by
    intro x p hp
    by_cases hy : y = x
    · subst hy
      simpa [setParty] using hp
    · simp [setParty, hy]
  cases a with
  | createStream x cmd command callback =>
    cases hs
    refine hset x _ ?_
    cases callback <;> rfl
  | createResponse x j =>
    simp only [step] at hs
    split at hs
    · cases hs
      exact hset x _ rfl
    · cases hs
  | write x i bs =>
    simp only [step] at hs
    split at hs
    · cases hs
      exact hset x _ rfl
    · cases hs
  | send x i =>
    simp only [step] at hs
    split at hs
    · split at hs
      · cases hs
        exact hset x _ rfl
      · cases hs
        exact hset x _ rfl
    · cases hs
  | deliver x junk => exact absurd rfl (ha x junk)

/-- A step keeps the correlation exactly when the package it handles answers what is pending. -/
theorem correlated_step {a : PeersAct} (hi : s.Inv o) (hc : s.Correlated) (hs : step o s a = some s') :
    s'.Correlated ↔ AnswersPending s a := by
  have hsame : (∀ x junk, a ≠ .deliver x junk) → s'.Correlated := by
    intro ha y e he
    rw [step_handled ha hs] at he
    exact hc y e he
  cases a with
  | createStream | createResponse | write | send =>
    exact ⟨fun _ => trivial, fun _ => hsame (by simp)⟩
  | deliver x junk =>
    simp only [step] at hs
    split at hs
    · rename_i msg rest hq
      cases hs
      have hm := hi.inFlight x msg (by rw [hq]; exact List.mem_cons_self)
      set u := msg.origin.uid with hu
      -- the one package handled
      have hone : Correlated { s.setParty x (handle o junk msg (s.party x)) with
            inFlight := Function.update s.inFlight x rest } ↔
          ∀ n, (s.party x).conn.callbacks u = some n → msg.origin = .response (.request n) := by
        constructor
        · intro h n hn
          refine (h x { origin := msg.origin, callback := (s.party x).conn.callbacks u } ?_).1 n hn
          simp [setParty, handle_eq hm, hu]
        · intro h y e he
          by_cases hy : y = x
          · subst hy
            simp only [setParty, Function.update_self, handle_eq hm, List.mem_append,
              List.mem_singleton] at he
            rcases he with he | rfl
            · exact hc y e he
            · refine ⟨h, ?_⟩
              intro m hmo
              cases hcb : (s.party y).conn.callbacks u with
              | none => rfl
              | some n =>
                have := h n hcb
                rw [show msg.origin = .request m from hmo] at this
                cases this
          · simp only [setParty, Function.update_of_ne hy] at he
            exact hc y e he
      rw [hone]
      constructor
      · intro h msg' rest' hq' hpend
        rw [hq] at hq'
        cases hq'
        obtain ⟨n, hn⟩ := Option.ne_none_iff_exists'.mp hpend
        exact ⟨n, h n hn, ((hi.party x).callbacks u n hn).2⟩
      · intro h n hn
        obtain ⟨n', ho, hlast'⟩ := h msg rest hq (by rw [← hu, hn]; simp)
        obtain ⟨huid, hlast⟩ := (hi.party x).callbacks u n hn
        have hnn : n = n' := by
          refine hlast.unique hlast' ?_
          rw [huid, hu, ho]
          rfl
        rw [ho, hnn]
    · cases hs

/-- **When responses find their callbacks.** Callbacks get the responses to their own requests only, and
    requests go to `received`, throughout a run exactly when no package is handled while a callback is
    pending under its uid, except an answer to the last stream that registered one there. -/
theorem correlated_iff {as : List PeersAct} (hr : run (step o) init as = some s) :
    Throughout (step o) Correlated init as ↔ Meets (step o) AnswersPending init as := by
  refine throughout_iff_meets (I := Inv o) ?_ inv_init ?_ hr
  · intro s a s' hi hc hs
    exact ⟨correlated_step hi hc hs, fun _ => inv_step hi hs⟩
  · intro x e he
    cases he

/-- A request with a callback that is answered. -/
def answered : List PeersAct :=
  [.createStream .left .bool true true, .send .left 0, .deliver .right (fun _ => 0),
    .createResponse .right 0, .send .right 0, .deliver .left (fun _ => 0)]

theorem correlated_answered :
    ∃ s, run (step .little) init answered = some s ∧
      (s.party .left).handled = [{ origin := .response (.request 0), callback := some 0 }] ∧
      Throughout (step .little) Correlated init answered := by
  obtain ⟨s, hr, hs⟩ : ∃ s, run (step .little) init answered = some s ∧
      (s.party .left).handled = [{ origin := .response (.request 0), callback := some 0 }] :=
    Option.map_eq_some_iff.mp rfl
  refine ⟨s, hr, hs, (correlated_iff hr).mpr ?_⟩
  refine ⟨trivial, fun s₁ h₁ => ?_⟩
  cases h₁
  refine ⟨trivial, fun s₂ h₂ => ?_⟩
  cases h₂
  refine ⟨?_, fun s₃ h₃ => ?_⟩
  · intro msg rest hq hpend
    cases hq
    exact absurd rfl hpend
  cases h₃
  refine ⟨trivial, fun s₄ h₄ => ?_⟩
  cases h₄
  refine ⟨trivial, fun s₅ h₅ => ?_⟩
  cases h₅
  refine ⟨?_, fun s₆ _ => trivial⟩
  intro msg rest hq _
  cases hq
  refine ⟨0, rfl, rfl, ?_⟩
  intro m hm hmr
  rcases m with _ | m
  · exact absurd hm (Nat.lt_irrefl 0)
  · cases hmr

/-- Both sides number their first stream 0, so the request of the right side runs the callback of the
    left side. -/
theorem request_runs_callback :
    ¬ ∀ s, Reachable (step .little) init s → s.Correlated := by
  intro hall
  obtain ⟨s, hr, hs⟩ : ∃ s, run (step .little) init
      [.createStream .left .bool true true, .createStream .right .bool false false, .send .right 0,
        .deliver .left (fun _ => 0)] = some s ∧
      (s.party .left).handled = [{ origin := .request 0, callback := some 0 }] :=
    Option.map_eq_some_iff.mp rfl
  have hcorr := hall s ⟨_, hr⟩ .left { origin := .request 0, callback := some 0 } (by rw [hs]; simp)
  have hnone := hcorr.2 0 rfl
  cases hnone

end Peers

end Lnetlib
