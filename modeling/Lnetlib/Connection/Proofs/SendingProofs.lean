import Lnetlib.Connection.Sending
import Mathlib.Data.List.Nodup

/-!
# At most one write is outstanding

`_socket_locked` stands for a token: it is set as long as a write is on the socket or the handler of a
successful write has not yet locked the mutex, and nobody else may write meanwhile. A write that fails
loses the token, and the flag stays set for good (`Phase.wedged`). `step_phase` says how each step moves
between the four phases, and the theorems on single writes and on wedged senders read off the phase.
-/

namespace Lnetlib

open Bytes Transition

namespace Sending

variable {κ : Type} {o : ByteOrder} {s s' : Sending κ}

/-- Thread `t` is in the handler of a successful write and has not locked the mutex. -/
def Completing (s : Sending κ) (t : Nat) : Prop := s.threads t = .writeHandler

/-- Who holds the right to write on the socket. -/
inductive Phase (s : Sending κ) : Prop where
  /-- Nobody: the next package is handed to the socket. -/
  | idle (hw : s.writing = []) (ht : ∀ t, ¬ s.Completing t) (hl : s.conn.socketLocked = false)
      (hp : s.conn.packages = []) (hf : s.NoFailure)
  /-- The one write on the socket. -/
  | writing (pkg : Package) (hw : s.writing = [pkg]) (ht : ∀ t, ¬ s.Completing t)
      (hl : s.conn.socketLocked = true) (hf : s.NoFailure)
  /-- The handler of the write that has completed last. -/
  | completing (t : Nat) (hw : s.writing = []) (ht : ∀ t', s.Completing t' ↔ t' = t)
      (hl : s.conn.socketLocked = true) (hf : s.NoFailure)
  /-- Nobody, and nobody will: a write has failed. -/
  | wedged (hw : s.writing = []) (ht : ∀ t, ¬ s.Completing t) (hl : s.conn.socketLocked = true)
      (hf : ¬ s.NoFailure)

/-- Every accepted package has completed, is being written or is waiting, and they follow each other in
    the order of acceptance. -/
def Accounted (s : Sending κ) : Prop :=
  s.accepted = s.completed.map Prod.fst ++ s.writing ++ s.conn.packages

/-- The package that a thread has made and that is not accepted yet. -/
def pending (s : Sending κ) (t : Nat) : Option Package :=
  match s.threads t with
  | .dispatch pkg => some pkg
  | _ => none

/-- Packages are told apart by their identity. -/
structure Distinct (s : Sending κ) : Prop where
  accepted_lt : ∀ p ∈ s.accepted, p.ptr < s.next
  pending_lt : ∀ t p, s.pending t = some p → p.ptr < s.next
  accepted_nodup : (s.accepted.map Package.ptr).Nodup
  pending_not_accepted : ∀ t p, s.pending t = some p → p.ptr ∉ s.accepted.map Package.ptr
  pending_inj : ∀ t t' p p', s.pending t = some p → s.pending t' = some p' → p.ptr = p'.ptr → t = t'

/-- The inductive invariant. -/
structure Inv (s : Sending κ) : Prop where
  mutex : ∀ t, s.mutex = some t → s.threads t = .unlock
  phase : s.Phase
  accounted : s.Accounted
  distinct : s.Distinct

theorem inv_init : Inv (init κ) where
  mutex := fun t h => by cases h
  phase := .idle rfl (fun t h => by simp [Completing, init] at h) rfl rfl (by simp [NoFailure, init])
  accounted := rfl
  distinct :=
    { accepted_lt := by simp [init]
      pending_lt := fun t p h => by simp [pending, init] at h
      accepted_nodup := by simp [init]
      pending_not_accepted := fun t p h => by simp [pending, init] at h
      pending_inj := fun t t' p p' h => by simp [pending, init] at h }

/-- What each step does. -/
inductive Stepped (o : ByteOrder) (s : Sending κ) : SendAct → Sending κ → Prop where
  | createPackage (t : Nat) (buffer : List UInt8) (ht : s.threads t = .idle) :
      Stepped o s (.createPackage t buffer) { s with
        threads := Function.update s.threads t (.dispatch (Connection.createPackage o s.next buffer))
        next := s.next + 1 }
  | dispatch (t : Nat) (pkg : Package) (hm : s.mutex = none) (ht : s.threads t = .dispatch pkg) :
      Stepped o s (.enter t) { s with
        conn := s.conn.dispatchLocked pkg
        mutex := some t
        threads := Function.update s.threads t .unlock
        accepted := s.accepted ++ [pkg] }
  | writeHandler (t : Nat) (hm : s.mutex = none) (ht : s.threads t = .writeHandler) :
      Stepped o s (.enter t) { s with
        conn := s.conn.writeHandlerLocked
        mutex := some t
        threads := Function.update s.threads t .unlock }
  | leave (t : Nat) (ht : s.threads t = .unlock) :
      Stepped o s (.leave t) { s with mutex := none, threads := Function.update s.threads t .idle }
  | result (i : Nat) (pkg : Package) (err : ErrorCode)
      (hi : s.writes[i]? = some { pkg := pkg, result := none }) :
      Stepped o s (.result i err) (s.setWrites (s.writes.set i { pkg := pkg, result := some err }))
  | completeSuccess (t i : Nat) (pkg : Package) (err : ErrorCode) (ht : s.threads t = .idle)
      (hi : s.writes[i]? = some { pkg := pkg, result := some err }) (he : err.isError = false) :
      Stepped o s (.complete t i) { s.setWrites (s.writes.eraseIdx i) with
        threads := Function.update s.threads t .writeHandler
        completed := s.completed ++ [(pkg, err)]
        emitted := s.emitted ++ [] }
  | completeError (t i : Nat) (pkg : Package) (err : ErrorCode) (emitted : List (Emission κ))
      (ht : s.threads t = .idle) (hi : s.writes[i]? = some { pkg := pkg, result := some err })
      (he : err.isError = true) :
      Stepped o s (.complete t i) { s.setWrites (s.writes.eraseIdx i) with
        threads := Function.update s.threads t .idle
        completed := s.completed ++ [(pkg, err)]
        emitted := s.emitted ++ emitted }
  | close (shutdown : ErrorCode) (conn : Connection κ) (emitted : List (Emission κ))
      (hc : s.conn.close shutdown = .ok (conn, emitted)) :
      Stepped o s (.close shutdown) { s with conn := conn, emitted := s.emitted ++ emitted }
  | closeThrows (shutdown : ErrorCode) : Stepped o s (.close shutdown) s

theorem step_cases {a : SendAct} (h : step o s a = some s') : Stepped o s a s' := by
  cases a with
  | createPackage t buffer =>
    simp only [step] at h
    split_ifs at h with ht
    cases h
    exact .createPackage t buffer ht
  | enter t =>
    simp only [step] at h
    split_ifs at h with hm
    split at h
    · rename_i pkg ht
      cases h
      exact .dispatch t pkg hm ht
    · rename_i ht
      cases h
      exact .writeHandler t hm ht
    · cases h
  | leave t =>
    simp only [step] at h
    split_ifs at h with ht
    cases h
    exact .leave t ht
  | result i err =>
    simp only [step] at h
    split at h
    · rename_i pkg hi
      cases h
      exact .result i pkg err hi
    · cases h
  | complete t i =>
    simp only [step] at h
    split at h
    · rename_i pkg err ht hi
      cases he : err.isError with
      | false =>
        rw [Connection.checkError_success he] at h
        cases h
        exact .completeSuccess t i pkg err ht hi he
      | true =>
        have hfst : (Connection.checkError err : Bool × List (Emission κ)).1 = !err.isError :=
          Connection.checkError_fst err
        rw [he] at hfst
        generalize Connection.checkError err = r at h hfst
        obtain ⟨ok, emitted⟩ := r
        simp only [Bool.not_true] at hfst
        subst hfst
        cases h
        exact .completeError t i pkg err emitted ht hi he
    · cases h
  | close shutdown =>
    simp only [step] at h
    split at h
    · rename_i conn emitted hc
      cases h
      exact .close shutdown conn emitted hc
    · cases h
      exact .closeThrows shutdown

/-- The thread that holds the mutex is at the end of the guarded section. -/
theorem step_mutex {a : SendAct} (h : ∀ t, s.mutex = some t → s.threads t = .unlock)
    (hs : Stepped o s a s') : ∀ t, s'.mutex = some t → s'.threads t = .unlock := by
  cases hs with
  | dispatch t pkg hm ht =>
    intro t' h'
    cases h'
    exact Function.update_self ..
  | writeHandler t hm ht =>
    intro t' h'
    cases h'
    exact Function.update_self ..
  | leave t ht =>
    intro t' h'
    cases h'
  | close | closeThrows | result => exact h
  | createPackage t _ ht | completeSuccess t _ _ _ ht | completeError t _ _ _ _ ht =>
    -- the thread that moves was idle, so it is not the one holding the mutex
    intro t' h'
    have htt : t' ≠ t := by
      rintro rfl
      have := h t' h'
      rw [ht] at this
      cases this
    show Function.update s.threads t _ t' = .unlock
    rw [Function.update_of_ne htt]
    exact h t' h'

/-! ## The phases -/

/-- A step that changes neither the packages, the flag and the results seen nor who is completing keeps
    the phase. -/
theorem Phase.congr (h : s.Phase) (hw : s'.writing = s.writing)
    (ht : ∀ t, s'.Completing t ↔ s.Completing t) (hl : s'.conn.socketLocked = s.conn.socketLocked)
    (hp : s'.conn.packages = s.conn.packages) (hf : s'.completed = s.completed) : s'.Phase := by
  have hnf : s'.NoFailure ↔ s.NoFailure := by simp only [NoFailure, hf]
  cases h with
  | idle hw₀ ht₀ hl₀ hp₀ hf₀ =>
    exact .idle (hw.trans hw₀) (fun t h => ht₀ t ((ht t).mp h)) (hl.trans hl₀) (hp.trans hp₀)
      (hnf.mpr hf₀)
  | writing pkg hw₀ ht₀ hl₀ hf₀ =>
    exact .writing pkg (hw.trans hw₀) (fun t h => ht₀ t ((ht t).mp h)) (hl.trans hl₀) (hnf.mpr hf₀)
  | completing t hw₀ ht₀ hl₀ hf₀ =>
    exact .completing t (hw.trans hw₀) (fun t' => (ht t').trans (ht₀ t')) (hl.trans hl₀)
      (hnf.mpr hf₀)
  | wedged hw₀ ht₀ hl₀ hf₀ =>
    exact .wedged (hw.trans hw₀) (fun t h => ht₀ t ((ht t).mp h)) (hl.trans hl₀)
      (fun h => hf₀ (hnf.mp h))

theorem completing_update {t t' : Nat} {x : Thread} (hx : x ≠ .writeHandler)
    (ht : s.threads t ≠ .writeHandler) :
    Function.update s.threads t x t' = .writeHandler ↔ s.Completing t' := by
  by_cases h : t' = t
  · subst h
    simp [Completing, hx, ht]
  · simp [Completing, h]

@[simp] theorem setWrites_writing (ws : List WriteOp) (s : Sending κ) :
    (s.setWrites ws).writing = ws.map WriteOp.pkg := rfl

/-- Completing a write keeps the packages being written. -/
theorem map_pkg_set {ws : List WriteOp} {i : Nat} {pkg : Package} {r : Option ErrorCode}
    (r' : Option ErrorCode) (h : ws[i]? = some { pkg := pkg, result := r }) :
    (ws.set i { pkg := pkg, result := r' }).map WriteOp.pkg = ws.map WriteOp.pkg := by
  have hi : (ws.map WriteOp.pkg)[i]? = some pkg := by rw [List.getElem?_map, h]; rfl
  rw [List.map_set]
  obtain ⟨hlt, hget⟩ := List.getElem?_eq_some_iff.mp hi
  rw [← hget, List.set_getElem_self]

/-- Closing the socket keeps everything that sending depends on. -/
theorem close_frame {c c' : Connection κ} {shutdown : ErrorCode} {emitted : List (Emission κ)}
    (h : c.close shutdown = .ok (c', emitted)) :
    c'.socketLocked = c.socketLocked ∧ c'.packages = c.packages ∧
      c'.socket.writes.map WriteOp.pkg = c.socket.writes.map WriteOp.pkg := by
  unfold Connection.close Socket.close at h
  split at h
  · cases h
  · rename_i sckt hs
    cases h
    split_ifs at hs
    cases hs
    exact ⟨rfl, rfl, by simp [Function.comp_def]⟩

/-- A write that completes was the only one. -/
theorem Phase.of_getElem? (h : s.Phase) {i : Nat} {op : WriteOp} (hi : s.writes[i]? = some op) :
    i = 0 ∧ s.writes = [op] ∧ (∀ t, ¬ s.Completing t) ∧ s.conn.socketLocked = true ∧
      s.NoFailure := by
  have hlen : i < s.writing.length := by
    rw [Sending.writing, List.length_map]
    exact (List.getElem?_eq_some_iff.mp hi).1
  cases h with
  | idle hw | completing _ hw | wedged hw => rw [hw] at hlen; exact absurd hlen (Nat.not_lt_zero _)
  | writing pkg hw ht hl hf =>
    rw [hw] at hlen
    obtain rfl : i = 0 := by simpa using hlen
    have hlen1 : s.writes.length = 1 := by
      have := congrArg List.length hw
      simpa [Sending.writing] using this
    obtain ⟨op', hop'⟩ := List.length_eq_one_iff.mp hlen1
    rw [hop'] at hi
    cases hi
    exact ⟨rfl, hop', ht, hl, hf⟩

/-- The thread that enters the write handler's section is the one that is completing. -/
theorem Phase.of_completing (h : s.Phase) {t : Nat} (ht : s.Completing t) :
    s.writing = [] ∧ (∀ t', s.Completing t' ↔ t' = t) ∧ s.NoFailure := by
  cases h with
  | idle _ ht₀ | writing _ _ ht₀ | wedged _ ht₀ => exact absurd ht (ht₀ t)
  | completing t₀ hw ht₀ hl hf =>
    obtain rfl := (ht₀ t).mp ht
    exact ⟨hw, ht₀, hf⟩

/-- The flag is clear in the idle phase only. -/
theorem Phase.of_unlocked (h : s.Phase) (hl : s.conn.socketLocked = false) :
    s.writing = [] ∧ (∀ t, ¬ s.Completing t) ∧ s.conn.packages = [] ∧ s.NoFailure := by
  cases h with
  | idle hw ht _ hp hf => exact ⟨hw, ht, hp, hf⟩
  | writing _ _ _ hl' | completing _ _ _ hl' | wedged _ _ hl' => rw [hl] at hl'; cases hl'

theorem step_phase {a : SendAct} (h : s.Phase) (hs : Stepped o s a s') : s'.Phase := by
  cases hs with
  | createPackage t buffer ht =>
    exact h.congr rfl (fun t' => completing_update (by simp) (by simp [ht])) rfl rfl rfl
  | leave t ht =>
    exact h.congr rfl (fun t' => completing_update (by simp) (by simp [ht])) rfl rfl rfl
  | closeThrows => exact h
  | close shutdown conn emitted hc =>
    obtain ⟨h1, h2, h3⟩ := close_frame hc
    exact h.congr h3 (fun t' => Iff.rfl) h1 h2 rfl
  | result i pkg err hi => exact h.congr (map_pkg_set _ hi) (fun t' => Iff.rfl) rfl rfl rfl
  | dispatch t pkg hm ht =>
    have hc : ∀ t', Function.update s.threads t .unlock t' = .writeHandler ↔ s.Completing t' :=
      fun t' => completing_update (by simp) (by simp [ht])
    by_cases hl : s.conn.socketLocked = true
    · -- the package is queued behind the write that holds the flag
      have hd := Connection.dispatchLocked_of_locked pkg hl
      cases h with
      | idle _ _ hl' => rw [hl] at hl'; cases hl'
      | writing pkg' hw ht₀ _ hf =>
        exact .writing pkg' (by simpa [writing, writes, hd] using hw)
          (fun t' h' => ht₀ t' ((hc t').mp h')) (by simp [hd, hl]) hf
      | completing t₀ hw ht₀ _ hf =>
        exact .completing t₀ (by simpa [writing, writes, hd] using hw)
          (fun t' => (hc t').trans (ht₀ t')) (by simp [hd, hl]) hf
      | wedged hw ht₀ _ hf =>
        exact .wedged (by simpa [writing, writes, hd] using hw)
          (fun t' h' => ht₀ t' ((hc t').mp h')) (by simp [hd, hl]) hf
    · have hl' : s.conn.socketLocked = false := by simpa using hl
      obtain ⟨hw, ht₀, -, hf⟩ := h.of_unlocked hl'
      have hd := Connection.dispatchLocked_of_unlocked pkg hl'
      refine .writing pkg ?_ (fun t' h' => ht₀ t' ((hc t').mp h')) (by simp [hd]) hf
      simpa [writing, writes, hd] using hw
  | writeHandler t hm ht =>
    obtain ⟨hw, ht₀, hf⟩ := h.of_completing ht
    have hc : ∀ t', ¬ Function.update s.threads t .unlock t' = .writeHandler := by
      intro t' h'
      by_cases htt : t' = t
      · subst htt
        simp at h'
      · rw [Function.update_of_ne htt] at h'
        exact htt ((ht₀ t').mp h')
    cases hp : s.conn.packages with
    | nil =>
      have hd := Connection.writeHandlerLocked_of_nil hp
      refine .idle ?_ hc (by simp [hd]) (by simp [hd, hp]) hf
      simpa [writing, writes, hd] using hw
    | cons pkg packages =>
      have hd := Connection.writeHandlerLocked_of_cons hp
      refine .writing pkg ?_ hc (by simp [hd]) hf
      simpa [writing, writes, hd] using hw
  | completeSuccess t i pkg err ht hi he =>
    obtain ⟨rfl, hw, ht₀, hl, hf⟩ := h.of_getElem? hi
    refine .completing t (by simp [writing, writes, setWrites, hw]) ?_ hl ?_
    · intro t'
      by_cases htt : t' = t
      · subst htt
        simp [Completing]
      · have := ht₀ t'
        simp only [Completing, Function.update_of_ne htt]
        exact ⟨fun h' => absurd h' this, fun h' => absurd h' htt⟩
    · intro e he'
      rcases List.mem_append.mp he' with he' | he'
      · exact hf e he'
      · rw [List.mem_singleton.mp he']
        exact he
  | completeError t i pkg err emitted ht hi he =>
    obtain ⟨rfl, hw, ht₀, hl, hf⟩ := h.of_getElem? hi
    refine .wedged (by simp [writing, writes, setWrites, hw]) ?_ hl ?_
    · intro t' h'
      exact ht₀ t' ((completing_update (by simp) (by simp [ht])).mp h')
    · intro hnf
      have := hnf (pkg, err) (by simp)
      rw [he] at this
      cases this

/-! ## The packages -/

theorem step_accounted {a : SendAct} (h : s.Accounted) (hph : s.Phase) (hs : Stepped o s a s') :
    s'.Accounted := by
  cases hs with
  | createPackage | leave | closeThrows => exact h
  | close shutdown conn emitted hc =>
    obtain ⟨-, h2, h3⟩ := close_frame hc
    simp only [Accounted, writing, writes, h2, h3]
    exact h
  | result i pkg err hi =>
    have hm := map_pkg_set (some err) hi
    simp only [Accounted, setWrites_writing, hm]
    exact h
  | dispatch t pkg hm ht =>
    by_cases hl : s.conn.socketLocked = true
    · simp only [Accounted, writing, writes, Connection.dispatchLocked_of_locked pkg hl] at h ⊢
      rw [h, List.append_assoc]
    · have hl' : s.conn.socketLocked = false := by simpa using hl
      obtain ⟨-, -, hp, -⟩ := hph.of_unlocked hl'
      simp only [Accounted, writing, writes, Connection.dispatchLocked_of_unlocked pkg hl',
        Connection.sendPackage_writes, Connection.sendPackage_packages] at h ⊢
      rw [h, hp]
      simp
  | writeHandler t hm ht =>
    obtain ⟨hw, -, -⟩ := hph.of_completing ht
    cases hp : s.conn.packages with
    | nil =>
      simp only [Accounted, writing, writes, Connection.writeHandlerLocked_of_nil hp, hp] at h ⊢
      exact h
    | cons pkg packages =>
      rw [Accounted, hw, hp] at h
      rw [writing] at hw
      simp only [Accounted, writing, writes, Connection.writeHandlerLocked_of_cons hp,
        Connection.sendPackage_writes, Connection.sendPackage_packages, List.map_append, hw]
      rw [h]
      simp
  | completeSuccess t i pkg err ht hi he =>
    obtain ⟨rfl, hw, -, -, -⟩ := hph.of_getElem? hi
    rw [Accounted, writing, hw] at h
    simp only [Accounted, writing, writes, setWrites, hw]
    rw [h]
    simp
  | completeError t i pkg err emitted ht hi he =>
    obtain ⟨rfl, hw, -, -, -⟩ := hph.of_getElem? hi
    rw [Accounted, writing, hw] at h
    simp only [Accounted, writing, writes, setWrites, hw]
    rw [h]
    simp

/-- A step that makes no package, accepts none and lets no thread enter the dispatch slot. -/
theorem Distinct.congr (h : s.Distinct) (hn : s'.next = s.next) (ha : s'.accepted = s.accepted)
    (hp : ∀ t p, s'.pending t = some p → s.pending t = some p) : s'.Distinct where
  accepted_lt := by rw [hn, ha]; exact h.accepted_lt
  pending_lt := fun t p ht => by rw [hn]; exact h.pending_lt t p (hp t p ht)
  accepted_nodup := by rw [ha]; exact h.accepted_nodup
  pending_not_accepted := fun t p ht => by rw [ha]; exact h.pending_not_accepted t p (hp t p ht)
  pending_inj := fun t t' p p' ht ht' => h.pending_inj t t' p p' (hp t p ht) (hp t' p' ht')

/-- A thread that moves elsewhere than into the dispatch slot has no pending package. -/
theorem pending_of_update {t t' : Nat} {x : Thread} {p : Package} (hx : ∀ pkg, x ≠ .dispatch pkg)
    (hth : s'.threads = Function.update s.threads t x) (h : s'.pending t' = some p) :
    s.pending t' = some p ∧ t' ≠ t := by
  by_cases htt : t' = t
  · subst htt
    simp only [pending, hth, Function.update_self] at h
    cases x with
    | dispatch pkg => exact absurd rfl (hx pkg)
    | idle | writeHandler | unlock => cases h
  · refine ⟨?_, htt⟩
    simpa only [pending, hth, Function.update_of_ne htt] using h

theorem step_distinct {a : SendAct} (h : s.Distinct) (hs : Stepped o s a s') : s'.Distinct := by
  cases hs with
  | closeThrows => exact h
  | close | result => exact h.congr rfl rfl (fun t p ht => ht)
  | leave t ht | writeHandler t _ ht | completeSuccess t _ _ _ ht | completeError t _ _ _ _ ht =>
    exact h.congr rfl rfl fun t' p h' => (pending_of_update (by simp) rfl h').1
  | createPackage t buffer ht =>
    have hself : ∀ p : Package, p.ptr < s.next →
        (Connection.createPackage o s.next buffer).ptr ≠ p.ptr := by
      intro p hp he
      exact absurd (he ▸ hp) (Nat.lt_irrefl _)
    have hpend : ∀ t' p, t' ≠ t →
        pending { s with
          threads := Function.update s.threads t (.dispatch (Connection.createPackage o s.next buffer))
          next := s.next + 1 } t' = some p → s.pending t' = some p := by
      intro t' p htt h'
      simpa [pending, htt] using h'
    have hnew : pending { s with
          threads := Function.update s.threads t (.dispatch (Connection.createPackage o s.next buffer))
          next := s.next + 1 } t = some (Connection.createPackage o s.next buffer) := by
      simp [pending]
    constructor
    · intro p hp
      exact Nat.lt_succ_of_lt (h.accepted_lt p hp)
    · intro t' p h'
      by_cases htt : t' = t
      · subst htt
        rw [hnew] at h'
        cases h'
        exact Nat.lt_succ_self _
      · exact Nat.lt_succ_of_lt (h.pending_lt t' p (hpend t' p htt h'))
    · exact h.accepted_nodup
    · intro t' p h' hmem
      obtain ⟨q, hq, hqe⟩ := List.mem_map.mp hmem
      by_cases htt : t' = t
      · subst htt
        rw [hnew] at h'
        cases h'
        exact hself q (h.accepted_lt q hq) hqe.symm
      · exact h.pending_not_accepted t' p (hpend t' p htt h') hmem
    · intro t₁ t₂ p₁ p₂ h₁ h₂ he
      by_cases h1 : t₁ = t <;> by_cases h2 : t₂ = t
      · rw [h1, h2]
      · subst h1
        rw [hnew] at h₁
        cases h₁
        exact absurd he (hself p₂ (h.pending_lt t₂ p₂ (hpend t₂ p₂ h2 h₂)))
      · subst h2
        rw [hnew] at h₂
        cases h₂
        exact absurd he.symm (hself p₁ (h.pending_lt t₁ p₁ (hpend t₁ p₁ h1 h₁)))
      · exact h.pending_inj t₁ t₂ p₁ p₂ (hpend t₁ p₁ h1 h₁) (hpend t₂ p₂ h2 h₂) he
  | dispatch t pkg hm ht =>
    have hpkg : s.pending t = some pkg := by simp [pending, ht]
    have hold : ∀ t' p, pending { s with
          conn := s.conn.dispatchLocked pkg
          mutex := some t
          threads := Function.update s.threads t .unlock
          accepted := s.accepted ++ [pkg] } t' = some p → s.pending t' = some p ∧ t' ≠ t :=
      fun t' p h' => pending_of_update (by simp) rfl h'
    constructor
    · intro p hp
      rcases List.mem_append.mp hp with hp | hp
      · exact h.accepted_lt p hp
      · rw [List.mem_singleton.mp hp]
        exact h.pending_lt t pkg hpkg
    · intro t' p h'
      exact h.pending_lt t' p (hold t' p h').1
    · rw [List.map_append, List.nodup_append]
      refine ⟨h.accepted_nodup, List.nodup_singleton _, ?_⟩
      intro q hq q' hq' he
      simp only [List.map_cons, List.map_nil, List.mem_singleton] at hq'
      rw [he, hq'] at hq
      exact h.pending_not_accepted t pkg hpkg hq
    · intro t' p h' hmem
      obtain ⟨hp, htt⟩ := hold t' p h'
      rw [List.map_append, List.mem_append] at hmem
      rcases hmem with hmem | hmem
      · exact h.pending_not_accepted t' p hp hmem
      · simp only [List.map_cons, List.map_nil, List.mem_singleton] at hmem
        exact htt (h.pending_inj t' t p pkg hp hpkg hmem)
    · intro t₁ t₂ p₁ p₂ h₁ h₂ he
      exact h.pending_inj t₁ t₂ p₁ p₂ (hold t₁ p₁ h₁).1 (hold t₂ p₂ h₂).1 he

theorem inv_step {a : SendAct} (h : s.Inv) (hs : step o s a = some s') : s'.Inv :=
  have hc := step_cases hs
  ⟨step_mutex h.mutex hc, step_phase h.phase hc, step_accounted h.accounted h.phase hc, step_distinct h.distinct hc⟩

/-- The invariant holds in every reachable state. -/
theorem inv_reachable (h : Reachable (step o) (init κ) s) : s.Inv :=
  h.invariant inv_init fun _ _ _ hi hs => inv_step hi hs

/-! ## At most one write -/

theorem Phase.writing_length (h : s.Phase) : s.writing.length ≤ 1 := by
  cases h with
  | idle hw | completing _ hw | wedged hw => rw [hw]; exact Nat.zero_le 1
  | writing _ hw => rw [hw]; exact Nat.le_refl 1

/-- **At most one write is outstanding**, the flag is set while one is and while packages wait, and every
    accepted package has completed, is being written or is waiting, exactly one of these. -/
theorem single_outstanding_write (h : Reachable (step o) (init κ) s) :
    s.writes.length ≤ 1 ∧
      (s.writes ≠ [] → s.conn.socketLocked = true) ∧
      (s.conn.packages ≠ [] → s.conn.socketLocked = true) ∧
      ∀ p ∈ s.accepted,
        (s.completed.map Prod.fst).count p + s.writing.count p + s.conn.packages.count p = 1 := by
  have hi := inv_reachable h
  have hunlocked : s.conn.socketLocked ≠ true → s.writing = [] ∧ s.conn.packages = [] := by
    intro hl
    obtain ⟨hw, -, hp, -⟩ := hi.phase.of_unlocked (by simpa using hl)
    exact ⟨hw, hp⟩
  refine ⟨?_, ?_, ?_, ?_⟩
  · have := hi.phase.writing_length
    rwa [writing, List.length_map] at this
  · intro hw
    by_contra hl
    exact hw (List.map_eq_nil_iff.mp (hunlocked hl).1)
  · intro hp
    by_contra hl
    exact hp (hunlocked hl).2
  · intro p hp
    have hnd : s.accepted.Nodup := List.Nodup.of_map _ hi.distinct.accepted_nodup
    have hcount := List.count_eq_one_of_mem hnd hp
    rw [hi.accounted, List.count_append, List.count_append] at hcount
    exact hcount

/-- One package being written and another waiting. -/
theorem single_outstanding_write_queued :
    ∃ s : Sending Unit, run (step .little) (init Unit)
        (dispatchSlot 0 [1] ++ dispatchSlot 1 [2]) = some s ∧
      s.writing.map Package.dataBuffer = [[1]] ∧ s.conn.packages.map Package.dataBuffer = [[2]] ∧
      s.writes.length ≤ 1 ∧ s.conn.socketLocked = true := by
  obtain ⟨s, hr, hs⟩ : ∃ s : Sending Unit, run (step .little) (init Unit)
      (dispatchSlot 0 [1] ++ dispatchSlot 1 [2]) = some s ∧
      (s.writing.map Package.dataBuffer, s.conn.packages.map Package.dataBuffer) = ([[1]], [[2]]) :=
    Option.map_eq_some_iff.mp rfl
  obtain ⟨hw, hp⟩ := Prod.mk.inj hs
  obtain ⟨h1, -, h3, -⟩ := single_outstanding_write ⟨_, hr⟩
  refine ⟨s, hr, hw, hp, h1, h3 fun hnil => ?_⟩
  rw [hnil] at hp
  cases hp

/-! ## After a failed write -/

/-- In a quiescent state nothing has failed exactly when the flag is clear and the queue empty. -/
theorem Inv.ready_iff (h : s.Inv) (hq : s.Quiescent) :
    (s.conn.socketLocked = false ∧ s.conn.packages = []) ↔ s.NoFailure := by
  obtain ⟨hw, ht⟩ := hq
  have hw' : s.writing = [] := by rw [writing, hw]; rfl
  cases h.phase with
  | idle _ _ hl hp hf => exact ⟨fun _ => hf, fun _ => ⟨hl, hp⟩⟩
  | writing pkg hw₁ =>
    rw [hw'] at hw₁
    cases hw₁
  | completing t _ ht₁ =>
    have hc : s.Completing t := (ht₁ t).mpr rfl
    rw [Completing, ht t] at hc
    cases hc
  | wedged _ _ hl hf =>
    refine ⟨fun h₀ => ?_, fun h₀ => absurd h₀ hf⟩
    rw [hl] at h₀
    cases h₀.1

/-- In a quiescent state every thread can run the dispatch slot. -/
theorem Inv.run_dispatchSlot (h : s.Inv) (hq : s.Quiescent) (t : Nat) (buffer : List UInt8) :
    ∃ s', run (step o) s (dispatchSlot t buffer) = some s' ∧
      s'.conn = s.conn.dispatchLocked (Connection.createPackage o s.next buffer) := by
  have hm : s.mutex = none := by
    by_contra hne
    obtain ⟨t', ht'⟩ := Option.ne_none_iff_exists'.mp hne
    have := h.mutex t' ht'
    rw [hq.2 t'] at this
    cases this
  have hrun : (run (step o) s (dispatchSlot t buffer)).map Sending.conn =
      some (s.conn.dispatchLocked (Connection.createPackage o s.next buffer)) := by
    simp [dispatchSlot, step, hq.2 t, hm]
  exact Option.map_eq_some_iff.mp hrun

/-- **A failed write wedges the sender.** In a quiescent state the flag is clear and the queue empty, and
    the next package dispatched is handed to the socket, exactly when no write has failed so far;
    otherwise the package is queued and nothing is written. -/
theorem ready_iff_noFailure (h : Reachable (step o) (init κ) s) (hq : s.Quiescent) :
    ((s.conn.socketLocked = false ∧ s.conn.packages = []) ↔ s.NoFailure) ∧
      ∀ t buffer, ∃ s', run (step o) s (dispatchSlot t buffer) = some s' ∧
        (s.NoFailure → s'.writing = [Connection.createPackage o s.next buffer]) ∧
        (¬ s.NoFailure → s'.writing = [] ∧
          s'.conn.packages = s.conn.packages ++ [Connection.createPackage o s.next buffer]) := by
  have hi := inv_reachable h
  refine ⟨hi.ready_iff hq, fun t buffer => ?_⟩
  obtain ⟨s', hr, hc⟩ := hi.run_dispatchSlot hq t buffer
  have hw : s.conn.socket.writes = [] := hq.1
  refine ⟨s', hr, fun hf => ?_, fun hf => ?_⟩
  · have hl := ((hi.ready_iff hq).mpr hf).1
    simp [writing, writes, hc, Connection.dispatchLocked, hl, hw]
  · have hl : s.conn.socketLocked = true := by
      cases hi.phase with
      | idle _ _ _ _ hf' => exact absurd hf' hf
      | writing _ _ _ hl | completing _ _ _ hl | wedged _ _ hl => exact hl
    simp [writing, writes, hc, Connection.dispatchLocked, hl, hw]

/-- One write that succeeds leaves the sender ready. -/
theorem ready_after_success :
    ∃ s : Sending Unit, run (step .little) (init Unit)
        (dispatchSlot 0 [1] ++ [.result 0 .success, .complete 1 0, .enter 1, .leave 1]) = some s ∧
      s.conn.socketLocked = false ∧ s.conn.packages = [] := by
  have hr : Reachable (step .little) (init Unit) _ :=
    ⟨dispatchSlot 0 [1] ++ [.result 0 .success, .complete 1 0, .enter 1, .leave 1], rfl⟩
  refine ⟨_, rfl, (ready_iff_noFailure hr ⟨rfl, ?_⟩).1.mpr ?_⟩
  · intro t
    rcases t with _ | _ | t <;> rfl
  · intro e he
    rw [List.mem_singleton.mp he]
    rfl

/-- After one write that failed the next package waits for ever: nothing is outstanding or running. -/
theorem wedged_after_failure :
    ¬ ∀ s : Sending Unit, Reachable (step .little) (init Unit) s → s.Quiescent →
      s.conn.socketLocked = false ∧ s.conn.packages = [] := by
  intro hall
  have hr : Reachable (step .little) (init Unit) _ :=
    ⟨dispatchSlot 0 [1] ++ [.result 0 .connectionReset, .complete 1 0] ++ dispatchSlot 0 [2], rfl⟩
  have hq := hall _ hr ⟨rfl, fun t => by rcases t with _ | _ | t <;> rfl⟩
  cases hq.1

end Sending

end Lnetlib
