import Lnetlib.Connection.Callbacks
import Lnetlib.Stream.Proofs.CodecProofs
import Mathlib.Data.List.Nodup

/-!
# Proofs: the discipline of the callback table

The counter has counted the streams created, so their uids are distinct as long as it does not come round.
The table is what the history says is pending; an arrival looks its uid up there and takes the entry out.
-/

namespace Lnetlib

open Bytes Transition

variable {κ : Type} {o : ByteOrder}

/-- The uid of an istream on a package with a full header is read from the package alone. -/
theorem construct_uid {body : List UInt8} (h : 16 ≤ body.length) (junk : Nat → UInt8) :
    (Istream.construct o body junk).uid = packageUid o body := by
  have h8 : sizeof UInt64 = 8 := rfl
  let is₀ : Istream :=
    { rest := body, eofbit := false, failbit := false, command := 0, uid := 0, junk := junk }
  have hbody : body = body.take 8 ++ ((body.drop 8).take 8 ++ (body.drop 8).drop 8) := by
    rw [List.take_append_drop, List.take_append_drop]
  have h₀ : is₀.HasLeft (body.take 8 ++ ((body.drop 8).take 8 ++ (body.drop 8).drop 8)) :=
    ⟨rfl, hbody⟩
  have h₁ := (h₀.uninit (sizeof UInt64)).uninit (sizeof UInt64)
  obtain ⟨-, h₂⟩ := h₁.read (is₀.uninit (sizeof UInt64)).1 (by
    rw [Istream.uninit_length, List.length_take_of_le (by omega), h8])
  obtain ⟨hu, -⟩ := h₂.read ((is₀.uninit (sizeof UInt64)).2.uninit (sizeof UInt64)).1 (by
    rw [Istream.uninit_length, List.length_take_of_le (by rw [List.length_drop]; omega), h8])
  exact congrArg (valueOf o UInt64) hu

/-! ## Steps that leave the table alone -/

/-- What a step of the connection does to the counter and to the table, apart from creating streams and
    from packages that arrive. -/
theorem readHandler_table (junk : Nat → UInt8) {op : ReadOp} {err : ErrorCode} {c : Connection κ}
    (h : ¬ (op.handler = .readPackageBodyHandler ∧ err.isError = false)) :
    (c.readHandler o junk op err).1.uidCounter = c.uidCounter ∧
      (c.readHandler o junk op err).1.callbacks = c.callbacks := by
  have hout := c.readHandler_outcome o junk op err
  generalize c.readHandler o junk op err = r at hout ⊢
  cases hout with
  | ended => exact ⟨rfl, rfl⟩
  | size => exact ⟨rfl, rfl⟩
  | body c' e herr hop => exact absurd ⟨hop, herr⟩ h
  | closed => exact ⟨rfl, rfl⟩
  | error => exact ⟨rfl, rfl⟩

/-- The body handler with a package: the uid is looked up and taken out of the table. -/
theorem readHandler_arrival (junk : Nat → UInt8) {op : ReadOp} {err : ErrorCode} (c : Connection κ)
    (hop : op.handler = .readPackageBodyHandler) (herr : err.isError = false)
    (hfull : 16 ≤ op.buffer.length) :
    ∃ stream : Istream, stream = Istream.construct o op.buffer junk ∧
      stream.uid = packageUid o op.buffer ∧
      (∀ cb, c.callbacks stream.uid = some cb → c.readHandler o junk op err =
        ({ c with callbacks := Function.update c.callbacks stream.uid none },
          [.callback cb stream], true)) ∧
      (c.callbacks stream.uid = none → c.readHandler o junk op err = (c, [.received stream], true)) := by
  have hlen : op.buffer.length ≠ 0 := by omega
  refine ⟨Istream.construct o op.buffer junk, rfl, construct_uid hfull junk, fun cb hcb => ?_,
    fun hcb => ?_⟩
  · unfold Connection.readHandler Connection.readPackageBodyHandler
    rw [hop, Connection.checkError_success herr]
    simp only [Bool.not_true, Bool.false_eq_true, if_false, hlen, List.nil_append, hcb]
  · unfold Connection.readHandler Connection.readPackageBodyHandler
    rw [hop, Connection.checkError_success herr]
    simp only [Bool.not_true, Bool.false_eq_true, if_false, hlen, List.nil_append, hcb]

namespace Callbacks

variable {s s' : Callbacks κ} {h : List (CallbackEvent κ)}

/-! ## Histories -/

theorem createdUids_append (h₁ h₂ : List (CallbackEvent κ)) :
    createdUids (h₁ ++ h₂) = createdUids h₁ ++ createdUids h₂ := List.filterMap_append

theorem invokedUids_append (h₁ h₂ : List (CallbackEvent κ)) :
    invokedUids o (h₁ ++ h₂) = invokedUids o h₁ ++ invokedUids o h₂ := List.filterMap_append

/-- What is pending after one more event. -/
theorem pending_snoc {e : CallbackEvent κ} {uid : UInt64} {cb : κ} :
    Pending o (h ++ [e]) uid cb ↔
      e = .created uid (some cb) ∨ (Pending o h uid cb ∧ ¬ ArrivalOf o uid e) := by
  constructor
  · rintro ⟨pre, post, heq, hpost⟩
    rcases List.eq_nil_or_concat post with rfl | ⟨post', e', rfl⟩
    · obtain ⟨-, he⟩ := List.append_inj' heq rfl
      exact .inl (List.singleton_inj.mp he)
    · rw [List.concat_eq_append, ← List.cons_append, ← List.append_assoc] at heq
      obtain ⟨hpre, he⟩ := List.append_inj' heq rfl
      obtain rfl := List.singleton_inj.mp he
      refine .inr ⟨⟨pre, post', hpre, fun e he => hpost e ?_⟩, hpost e ?_⟩
      · simp [he]
      · simp
  · rintro (rfl | ⟨⟨pre, post, rfl, hpost⟩, he⟩)
    · exact ⟨h, [], by simp, by simp⟩
    · refine ⟨pre, post ++ [e], by simp, fun e' he' => ?_⟩
      rcases List.mem_append.mp he' with he' | he'
      · exact hpost e' he'
      · obtain rfl := List.mem_singleton.mp he'
        exact he

/-- A callback is pending under the uid of a stream that was created. -/
theorem Pending.mem_createdUids {uid : UInt64} {cb : κ} (hp : Pending o h uid cb) :
    uid ∈ createdUids h := by
  obtain ⟨pre, post, rfl, -⟩ := hp
  exact List.mem_filterMap.mpr ⟨.created uid (some cb), by simp, rfl⟩

/-! ## What one step does -/

/-- The counter and the table of a connection. -/
structure Table (κ : Type) where
  uidCounter : UInt64
  callbacks : UInt64 → Option κ

/-- The table of a connection. -/
def table (s : Reading κ) : Table κ :=
  { uidCounter := s.conn.uidCounter, callbacks := s.conn.callbacks }

/-- What a step does to the table, and the events it is recorded with. -/
inductive TableMoves (o : ByteOrder) (t : Table κ) : List (CallbackEvent κ) → Table κ → Prop where
  | same : TableMoves o t [] t
  | created : TableMoves o t [.created t.uidCounter none] { t with uidCounter := t.uidCounter + 1 }
  | registered (cb : κ) :
      TableMoves o t [.created t.uidCounter (some cb)]
        { uidCounter := t.uidCounter + 1
          callbacks := Function.update t.callbacks t.uidCounter (some cb) }
  | claimed (body : List UInt8) (stream : Istream) (cb : κ) (huid : stream.uid = packageUid o body)
      (hcb : t.callbacks stream.uid = some cb) :
      TableMoves o t [.arrived body [.callback cb stream]]
        { t with callbacks := Function.update t.callbacks stream.uid none }
  | received (body : List UInt8) (stream : Istream) (huid : stream.uid = packageUid o body)
      (hcb : t.callbacks stream.uid = none) :
      TableMoves o t [.arrived body [.received stream]] t

/-- The handler of a read that is not a package leaves the table alone. -/
theorem table_handle {r : Reading κ} {junk : Nat → UInt8} {k : Nat} {op : ReadOp} {err : ErrorCode} :
    table (r.handle o junk k op err) =
      { uidCounter := (r.conn.readHandler o junk op err).1.uidCounter
        callbacks := (r.conn.readHandler o junk op err).1.callbacks } := by
  unfold Reading.handle
  generalize r.conn.readHandler o junk op err = out
  obtain ⟨c, es, goesOn⟩ := out
  cases goesOn with
  | true => rfl
  | false => cases es <;> rfl

theorem tableMoves_advance {r r' : Reading κ} {junk : Nat → UInt8} {k : Nat}
    (hs : r.step o (.advance k junk) = some r')
    (hfull : ∀ body es, .arrived body es ∈ events o r (.advance k junk) → 16 ≤ body.length) :
    TableMoves o (table r) (events o r (.advance k junk)) (table r') := by
  simp only [Reading.step] at hs
  cases hk : r.handlers[k]? with
  | none =>
    rw [hk] at hs
    cases hs
  | some f =>
    rw [hk] at hs
    cases f with
    | failing => cases hs
    | inSlot body => cases hs
    | waitPackage =>
      obtain rfl := Option.some.inj hs
      simp only [events, hk]
      exact .same
    | entered op err =>
      obtain rfl := Option.some.inj hs
      rw [table_handle]
      by_cases hbody : op.handler = .readPackageBodyHandler ∧ err.isError = false
      · simp only [events, hk, if_pos hbody] at hfull ⊢
        have hlen := hfull _ _ (List.mem_singleton_self _)
        obtain ⟨stream, -, huid, hclaimed, hreceived⟩ :=
          readHandler_arrival (o := o) junk r.conn hbody.1 hbody.2 hlen
        cases hcb : r.conn.callbacks stream.uid with
        | none =>
          rw [hreceived hcb]
          exact .received op.buffer stream huid hcb
        | some cb =>
          rw [hclaimed cb hcb]
          exact .claimed op.buffer stream cb huid hcb
      · simp only [events, hk, if_neg hbody]
        obtain ⟨hcounter, htable⟩ := readHandler_table (o := o) junk (c := r.conn) hbody
        rw [hcounter, htable]
        exact .same

theorem table_takeBytes {r r' : Reading κ} {i n : Nat} {err : ErrorCode}
    (hs : r.takeBytes i n err = some r') : table r' = table r := by
  unfold Reading.takeBytes at hs
  split_ifs at hs
  obtain ⟨conn, hconn, rfl⟩ := Option.map_eq_some_iff.mp hs
  obtain ⟨op, -, -, rfl⟩ := Connection.completeRead_eq_some hconn
  rfl

theorem step_tableMoves {r r' : Reading κ} {a : ReadingAct κ} (hs : r.step o a = some r')
    (hfull : ∀ body es, .arrived body es ∈ events o r a → 16 ≤ body.length) :
    TableMoves o (table r) (events o r a) (table r') := by
  cases a with
  | advance k junk => exact tableMoves_advance hs hfull
  | createStream cmd command cb =>
    cases cb with
    | none =>
      obtain rfl := Option.some.inj hs
      exact .created
    | some cb =>
      obtain rfl := Option.some.inj hs
      exact .registered cb
  | peerSend bs =>
    obtain rfl := Option.some.inj hs
    exact .same
  | readResult i =>
    obtain ⟨op, -, hs⟩ := Option.bind_eq_some_iff.mp hs
    rw [table_takeBytes hs]
    exact .same
  | readFail i n err =>
    obtain ⟨op, -, hs⟩ := Option.bind_eq_some_iff.mp hs
    split_ifs at hs
    rw [table_takeBytes hs]
    exact .same
  | invoke i =>
    simp only [Reading.step] at hs
    split at hs
    · obtain rfl := Option.some.inj hs
      exact .same
    · cases hs
  | slotReturn k | slotThrow k =>
    simp only [Reading.step] at hs
    split at hs
    · obtain rfl := Option.some.inj hs
      exact .same
    · obtain rfl := Option.some.inj hs
      exact .same
    · cases hs
  | writeResult i err =>
    obtain ⟨conn, hconn, rfl⟩ := Option.map_eq_some_iff.mp hs
    obtain ⟨ops, rfl⟩ := Connection.completeWrite_eq_some hconn
    exact .same
  | writeHandler i =>
    obtain ⟨⟨conn, es⟩, hconn, rfl⟩ := Option.map_eq_some_iff.mp hs
    obtain ⟨op, err, -, -, -, locked, packages, ops, rfl⟩ := Connection.invokeWrite_spec hconn
    exact .same
  | dispatch buffer =>
    obtain rfl := Option.some.inj hs
    obtain ⟨locked, packages, ops, heq⟩ :=
      r.conn.dispatchLocked_eq (Connection.createPackage o r.next buffer)
    rw [heq]
    exact .same
  | close shutdown =>
    rcases r.conn.close_cases shutdown with ⟨-, -, ops, hclose⟩ | ⟨-, e, hclose⟩
    · simp only [Reading.step, hclose] at hs
      obtain rfl := Option.some.inj hs
      exact .same
    · simp only [Reading.step, hclose] at hs
      obtain rfl := Option.some.inj hs
      exact .same

/-! ## The invariant -/

/-- The counter, the table and the packages handed over, as the history has them. -/
structure Inv (o : ByteOrder) (h : List (CallbackEvent κ)) (t : Table κ) : Prop where
  counter : t.uidCounter = UInt64.ofNat (createdUids h).length
  created : createdUids h = (List.range (createdUids h).length).map UInt64.ofNat
  pending : ∀ uid cb, t.callbacks uid = some cb ↔ Pending o h uid cb
  delivered : ∀ pre body es post, h = pre ++ .arrived body es :: post → Delivered o pre body es
  /-- A callback that was invoked is not in the table any more, and its uid is not given again. -/
  invoked : ∀ uid ∈ invokedUids o h, uid ∈ createdUids h ∧ t.callbacks uid = none
  nodup : (invokedUids o h).Nodup

theorem inv_init : Inv o ([] : List (CallbackEvent κ)) (table (Reading.init κ)) where
  counter := rfl
  created := rfl
  pending uid cb := by
    constructor
    · intro h
      cases h
    · rintro ⟨pre, post, heq, -⟩
      simp at heq
  delivered pre body es post heq := by simp at heq
  invoked uid h := absurd h List.not_mem_nil
  nodup := List.nodup_nil

/-- The uid that the counter gives next is new. -/
theorem Inv.fresh {t : Table κ} (hi : Inv o h t) (hlt : (createdUids h).length < 2 ^ 64) :
    t.uidCounter ∉ createdUids h := by
  rw [hi.counter, hi.created, List.length_map, List.length_range]
  intro hmem
  obtain ⟨n, hn, heq⟩ := List.mem_map.mp hmem
  have hn := List.mem_range.mp hn
  have := congrArg UInt64.toNat heq
  rw [UInt64.toNat_ofNat', UInt64.toNat_ofNat', Nat.mod_eq_of_lt (by omega),
    Nat.mod_eq_of_lt (by omega)] at this
  omega

theorem Inv.nodup_created {t : Table κ} (hi : Inv o h t) (hlt : (createdUids h).length < 2 ^ 64) :
    (createdUids h).Nodup := by
  rw [hi.created]
  refine List.Nodup.map_on ?_ List.nodup_range
  intro m hm n hn heq
  have hm := List.mem_range.mp hm
  have hn := List.mem_range.mp hn
  have := congrArg UInt64.toNat heq
  rwa [UInt64.toNat_ofNat', UInt64.toNat_ofNat', Nat.mod_eq_of_lt (by omega),
    Nat.mod_eq_of_lt (by omega)] at this

/-- An arrival in a history with one more event is the last event, or it was there. -/
theorem arrived_snoc {e : CallbackEvent κ} {pre post : List (CallbackEvent κ)} {body : List UInt8}
    {es : List (Emission κ)} (heq : h ++ [e] = pre ++ .arrived body es :: post) :
    (h = pre ∧ e = .arrived body es) ∨ ∃ post', h = pre ++ .arrived body es :: post' := by
  rcases List.eq_nil_or_concat post with rfl | ⟨post', e', rfl⟩
  · obtain ⟨hpre, he⟩ := List.append_inj' heq rfl
    exact .inl ⟨hpre, List.singleton_inj.mp he⟩
  · rw [List.concat_eq_append, ← List.cons_append, ← List.append_assoc] at heq
    obtain ⟨hpre, -⟩ := List.append_inj' heq rfl
    exact .inr ⟨post', hpre⟩

/-- A stream is created with the next uid of the counter. -/
theorem Inv.create {t : Table κ} (hi : Inv o h t) (hlt : (createdUids h).length < 2 ^ 64)
    (cb : Option κ) {callbacks : UInt64 → Option κ}
    (hnew : ∀ uid cb', callbacks uid = some cb' ↔
      (uid = t.uidCounter ∧ cb = some cb') ∨ (uid ≠ t.uidCounter ∧ t.callbacks uid = some cb') ∨
        (cb = none ∧ t.callbacks uid = some cb'))
    (hold : ∀ uid, uid ≠ t.uidCounter → callbacks uid = t.callbacks uid) :
    Inv o (h ++ [.created t.uidCounter cb])
      { uidCounter := t.uidCounter + 1, callbacks := callbacks } := by
  have hfresh := hi.fresh hlt
  have hcreated : createdUids (h ++ [.created t.uidCounter cb]) =
      createdUids h ++ [t.uidCounter] := createdUids_append _ _
  have hinvoked : invokedUids o (h ++ [.created t.uidCounter cb]) = invokedUids o h := by
    rw [invokedUids_append]
    exact List.append_nil _
  constructor
  · rw [hcreated, List.length_append, List.length_singleton]
    simp only [hi.counter, UInt64.ofNat_add]
    rfl
  · rw [hcreated, List.length_append, List.length_singleton, List.range_succ, List.map_append,
      ← hi.created, hi.counter]
    rfl
  · intro uid cb'
    rw [pending_snoc, hnew, ← hi.pending]
    constructor
    · rintro (⟨rfl, rfl⟩ | ⟨-, h⟩ | ⟨-, h⟩)
      · exact .inl rfl
      · exact .inr ⟨h, id⟩
      · exact .inr ⟨h, id⟩
    · rintro (heq | ⟨h, -⟩)
      · obtain ⟨rfl, rfl⟩ := CallbackEvent.created.inj heq
        exact .inl ⟨rfl, rfl⟩
      · refine .inr (.inl ⟨?_, h⟩)
        rintro rfl
        exact hfresh ((hi.pending _ _).mp h).mem_createdUids
  · intro pre body es post heq
    rcases arrived_snoc heq with ⟨-, he⟩ | ⟨post', rfl⟩
    · cases he
    · exact hi.delivered pre body es post' rfl
  · intro uid huid
    rw [hinvoked] at huid
    obtain ⟨hmem, hnone⟩ := hi.invoked uid huid
    have hne : uid ≠ t.uidCounter := fun heq => hfresh (heq ▸ hmem)
    refine ⟨?_, ?_⟩
    · rw [hcreated]
      exact List.mem_append_left _ hmem
    · exact (hold uid hne).trans hnone
  · rw [hinvoked]
    exact hi.nodup

/-- A package arrives, and its uid is pending no more. -/
theorem Inv.arrive {t : Table κ} (hi : Inv o h t) {body : List UInt8} {es : List (Emission κ)}
    {callbacks : UInt64 → Option κ} (hd : Delivered o h body es)
    (hgone : callbacks (packageUid o body) = none)
    (hold : ∀ uid, uid ≠ packageUid o body → callbacks uid = t.callbacks uid)
    (hinvoked : invokedUids o [.arrived body es] = [] ∨
      invokedUids o [.arrived body es] = [packageUid o body] ∧
        t.callbacks (packageUid o body) ≠ none) :
    Inv o (h ++ [.arrived body es]) { t with callbacks := callbacks } := by
  have hcreated : createdUids (h ++ [.arrived body es]) = createdUids h := by
    rw [createdUids_append]
    exact List.append_nil _
  have hpending : ∀ uid, t.callbacks uid ≠ none → uid ∈ createdUids h := by
    intro uid hne
    obtain ⟨cb, hcb⟩ := Option.ne_none_iff_exists'.mp hne
    exact ((hi.pending uid cb).mp hcb).mem_createdUids
  constructor
  · rw [hcreated]
    exact hi.counter
  · rw [hcreated]
    exact hi.created
  · intro uid cb
    rw [pending_snoc, ← hi.pending]
    by_cases heq : uid = packageUid o body
    · subst heq
      simp [hgone, ArrivalOf]
    · simp [hold uid heq, ArrivalOf, Ne.symm heq]
  · intro pre body' es' post heq
    rcases arrived_snoc heq with ⟨rfl, he⟩ | ⟨post', rfl⟩
    · obtain ⟨rfl, rfl⟩ := CallbackEvent.arrived.inj he
      exact hd
    · exact hi.delivered pre body' es' post' rfl
  · intro uid huid
    rw [hcreated]
    rw [invokedUids_append, List.mem_append] at huid
    by_cases heq : uid = packageUid o body
    · subst heq
      refine ⟨?_, hgone⟩
      rcases huid with huid | huid
      · exact (hi.invoked _ huid).1
      · rcases hinvoked with hnil | ⟨-, hne⟩
        · rw [hnil] at huid
          cases huid
        · exact hpending _ hne
    · rcases huid with huid | huid
      · obtain ⟨hmem, hnone⟩ := hi.invoked uid huid
        exact ⟨hmem, (hold uid heq).trans hnone⟩
      · rcases hinvoked with hnil | ⟨hone, -⟩
        · rw [hnil] at huid
          cases huid
        · rw [hone] at huid
          exact absurd (List.mem_singleton.mp huid) heq
  · rw [invokedUids_append]
    rcases hinvoked with hnil | ⟨hone, hne⟩
    · rw [hnil, List.append_nil]
      exact hi.nodup
    · rw [hone]
      refine hi.nodup.append (List.nodup_singleton _) ?_
      rw [List.disjoint_singleton]
      exact fun hmem => hne (hi.invoked _ hmem).2

/-- What one step preserves. -/
theorem Inv.moves {t t' : Table κ} {es : List (CallbackEvent κ)} (hi : Inv o h t)
    (hm : TableMoves o t es t') (hlt : (createdUids h).length < 2 ^ 64) : Inv o (h ++ es) t' := by
  cases hm with
  | same =>
    rw [List.append_nil]
    exact hi
  | created =>
    refine hi.create hlt none (fun uid cb' => ?_) fun _ _ => rfl
    constructor
    · exact fun h => .inr (.inr ⟨rfl, h⟩)
    · rintro (⟨-, h⟩ | ⟨-, h⟩ | ⟨-, h⟩)
      · cases h
      · exact h
      · exact h
  | registered cb =>
    refine hi.create hlt (some cb) (fun uid cb' => ?_) fun uid hne => Function.update_of_ne hne _ _
    by_cases heq : uid = t.uidCounter
    · subst heq
      simp
    · simp [heq]
  | claimed body stream cb huid hcb =>
    refine hi.arrive ⟨stream, huid, .inl ⟨cb, rfl, (hi.pending _ _).mp hcb⟩⟩ ?_ ?_ ?_
    · rw [← huid, Function.update_self]
    · intro uid hne
      rw [← huid] at hne
      exact Function.update_of_ne hne _ _
    · refine .inr ⟨rfl, ?_⟩
      rw [← huid, hcb]
      exact Option.some_ne_none cb
  | received body stream huid hcb =>
    refine hi.arrive ⟨stream, huid, .inr ⟨rfl, fun cb hp => ?_⟩⟩ (huid ▸ hcb) (fun _ _ => rfl) (.inl rfl)
    rw [(hi.pending _ _).mpr hp] at hcb
    cases hcb

/-- What a whole run preserves. -/
theorem inv_of_run {as : List (ReadingAct κ)} (hr : run (step o) (init κ) as = some s)
    (hcalls : (createdUids s.history).length < 2 ^ 64)
    (hfull : ∀ body es, .arrived body es ∈ s.history → 16 ≤ body.length) :
    Inv o s.history (table s.reading) := by
  refine run_induction (P := fun _ s => (createdUids s.history).length < 2 ^ 64 →
    (∀ body es, .arrived body es ∈ s.history → 16 ≤ body.length) →
      Inv o s.history (table s.reading)) (fun _ _ => inv_init) ?_ hr hcalls hfull
  intro as s a s' ih hs hcalls hfull
  obtain ⟨r, hstep, rfl⟩ := Option.map_eq_some_iff.mp hs
  have hlt : (createdUids s.history).length < 2 ^ 64 := by
    simp only [createdUids_append, List.length_append] at hcalls
    omega
  have hi := ih hlt fun body es hmem => hfull body es (List.mem_append_left _ hmem)
  have hm := step_tableMoves hstep fun body es hmem => hfull body es (List.mem_append_right _ hmem)
  exact hi.moves hm hlt

/-- In a run of fewer than `2 ^ 64` calls of `create_stream` in which every package has a full header: the
    streams have different uids, no callback is invoked twice, every package is given to the callback
    pending under its uid or else to `received`, and the table has what is pending. -/
theorem callbacks_disciplined (as : List (ReadingAct κ)) (hr : run (step o) (init κ) as = some s)
    (hcalls : (createdUids s.history).length < 2 ^ 64)
    (hfull : ∀ body es, .arrived body es ∈ s.history → 16 ≤ body.length) :
    (createdUids s.history).Nodup ∧ (invokedUids o s.history).Nodup ∧
      (∀ pre body es post, s.history = pre ++ .arrived body es :: post → Delivered o pre body es) ∧
      ∀ uid cb, s.reading.conn.callbacks uid = some cb ↔ Pending o s.history uid cb := by
  have hi := inv_of_run hr hcalls hfull
  exact ⟨hi.nodup_created hcalls, hi.nodup, hi.delivered, hi.pending⟩

/-- The body of a package with the given uid. -/
def bodyOf (uid : UInt8) : List UInt8 := List.replicate 8 0 ++ [uid, 0, 0, 0, 0, 0, 0, 0]

/-- The peer sends a package with the given uid, and it is handled. -/
def response (uid : UInt8) : List (ReadingAct Nat) :=
  [.peerSend ([16, 0, 0, 0, 0, 0, 0, 0] ++ bodyOf uid), .readResult 0, .invoke 0, .advance 0 fun _ => 0,
    .readResult 0, .invoke 0, .advance 0 fun _ => 0, .slotReturn 0, .advance 0 fun _ => 0]

/-- Two requests with callbacks and one without. Then come a response to the first, the same one again and one
    with a uid that nothing was sent with. -/
def forgedAndRepeated : List (ReadingAct Nat) :=
  [.createStream .bool true (some 7), .createStream .bool true none, .createStream .bool true (some 8)] ++
    (response 0 ++ response 0 ++ response 5)

/-- The first response is given to its callback and the others to `received`; the other callback is pending. -/
theorem callbacks_disciplined_forgedAndRepeated :
    let stream := fun uid => Istream.construct .little (bodyOf uid) fun _ => 0
    ∃ s, run (step .little) (init Nat) forgedAndRepeated = some s ∧
      s.history = [.created 0 (some 7), .created 1 none, .created 2 (some 8),
        .arrived (bodyOf 0) [.callback 7 (stream 0)], .arrived (bodyOf 0) [.received (stream 0)],
        .arrived (bodyOf 5) [.received (stream 5)]] ∧
      ((createdUids s.history).Nodup ∧ (invokedUids .little s.history).Nodup ∧
        (∀ pre body es post, s.history = pre ++ .arrived body es :: post → Delivered .little pre body es) ∧
        ∀ uid cb, s.reading.conn.callbacks uid = some cb ↔ Pending .little s.history uid cb) := by
  intro stream
  obtain ⟨s, hr, hh⟩ : ∃ s, run (step .little) (init Nat) forgedAndRepeated = some s ∧
      s.history = [.created 0 (some 7), .created 1 none, .created 2 (some 8),
        .arrived (bodyOf 0) [.callback 7 (stream 0)], .arrived (bodyOf 0) [.received (stream 0)],
        .arrived (bodyOf 5) [.received (stream 5)]] :=
    Option.map_eq_some_iff.mp rfl
  have hcalls : (createdUids s.history).length < 2 ^ 64 := by
    rw [hh]
    decide
  have hfull : ∀ body es, .arrived body es ∈ s.history → 16 ≤ body.length := by
    intro body es hmem
    rw [hh] at hmem
    simp only [List.mem_cons, reduceCtorEq, CallbackEvent.arrived.injEq, List.not_mem_nil, false_or,
      or_false] at hmem
    rcases hmem with ⟨rfl, -⟩ | ⟨rfl, -⟩ | ⟨rfl, -⟩
    · decide
    · decide
    · decide
  exact ⟨s, hr, hh, callbacks_disciplined _ hr hcalls hfull⟩

end Callbacks

end Lnetlib
