import Lnetlib.Lsignal.LockDiscipline

/-!
# Proofs: the mutex of a signal

Until an aggregator ends the mutex is held by the thread whose innermost call is in a guarded section, and a
call has unlocked it once exactly if it is in its aggregator. The end of the aggregator is a second unlock.
-/

namespace Lnetlib.Lsignal.LockDiscipline

open Transition Threads

variable {κ : Type} {s s' : LockDiscipline κ} {t : Nat}

/-- The call is in a section guarded by the mutex. -/
def guarded (frame : CallFrame κ) : Bool := frame.phase.guarded

/-- How often a call has unlocked the mutex by where it is. -/
def releasedBy : Phase κ → Nat
  | .aggregating => 1
  | _ => 0

theorem releasedBy_of_guarded {phase : Phase κ} (hg : phase.guarded = true) : releasedBy phase = 0 := by
  cases phase with
  | aggregating => exact absurd hg (by simp [Phase.guarded])
  | _ => rfl

/-- The mutex is held by the thread of the call in a guarded section, and each call has unlocked the mutex as
    often as its place says. -/
structure Inv (s : LockDiscipline κ) : Prop where
  inside_eq : s.inside = if s.mutex.isSome then 1 else 0
  holder : ∀ t frames, s.threads[t]? = some frames → ∀ frame ∈ frames, guarded frame = true →
    s.mutex = some t
  released : ∀ frame ∈ Threads.frames s.threads, frame.released = releasedBy frame.phase

theorem inv_init : Inv (init κ) where
  inside_eq := rfl
  holder := fun t frames h => absurd h (by simp [init])
  released := fun frame h => absurd h (by simp [init, frames])

theorem Inv.inside_le (hi : Inv s) : s.inside ≤ 1 := by
  rw [hi.inside_eq]
  split <;> omega

/-- A thread replaces its calls, and the mutex changes its holder along with the guarded section. -/
theorem Inv.update (hi : Inv s) {st st' : List (CallFrame κ)} (ht : s.threads[t]? = some st)
    (hthreads : s'.threads = s.threads.set t st')
    (hcount : st'.countP guarded + (if s.mutex.isSome then 1 else 0) =
      st.countP guarded + (if s'.mutex.isSome then 1 else 0))
    (hheld : ∀ frame ∈ st', guarded frame = true → s'.mutex = some t)
    (hother : ∀ u, u ≠ t → s.mutex = some u → s'.mutex = some u)
    (hreleased : ∀ frame ∈ st', frame.released = releasedBy frame.phase) : Inv s' := by
  constructor
  · have hset : count guarded (s.threads.set t st') + st.countP guarded =
        count guarded s.threads + st'.countP guarded := count_set guarded ht
    have heq : count guarded s.threads = if s.mutex.isSome then 1 else 0 := hi.inside_eq
    have hgoal : count guarded s'.threads = if s'.mutex.isSome then 1 else 0 := by
      rw [hthreads]
      omega
    exact hgoal
  · intro u frames hu frame hf hg
    rw [hthreads] at hu
    by_cases hut : u = t
    · subst hut
      obtain ⟨hlt, -⟩ := List.getElem?_eq_some_iff.mp ht
      rw [List.getElem?_set_self hlt] at hu
      obtain rfl := Option.some.inj hu
      exact hheld frame hf hg
    · rw [List.getElem?_set_ne (Ne.symm hut)] at hu
      exact hother u hut (hi.holder u frames hu frame hf hg)
  · intro frame hf
    rw [hthreads] at hf
    rcases of_mem_frames_set hf with hnew | hold
    · exact hreleased frame hnew
    · exact hi.released frame hold

section

variable {frame : CallFrame κ} {below : List (CallFrame κ)}

/-- Below a call in a guarded section there is none. -/
theorem Inv.countP_below (hi : Inv s) (ht : s.threads[t]? = some (frame :: below))
    (hg : guarded frame = true) : below.countP guarded = 0 := by
  have hle := countP_le_count guarded ht
  have hin : count guarded s.threads ≤ 1 := hi.inside_le
  rw [List.countP_cons_of_pos hg] at hle
  omega

/-- The thread of a call in a guarded section holds the mutex. -/
theorem Inv.mutex_eq (hi : Inv s) (ht : s.threads[t]? = some (frame :: below))
    (hg : guarded frame = true) : s.mutex = some t :=
  hi.holder t _ ht frame List.mem_cons_self hg

theorem Inv.released_eq (hi : Inv s) (ht : s.threads[t]? = some (frame :: below)) :
    frame.released = releasedBy frame.phase :=
  hi.released frame (mem_frames ht List.mem_cons_self)

theorem Inv.released_below (hi : Inv s) (ht : s.threads[t]? = some (frame :: below)) :
    ∀ f ∈ below, f.released = releasedBy f.phase :=
  fun f hf => hi.released f (mem_frames ht (List.mem_cons_of_mem frame hf))

/-- A guarded section ends: the mutex is free, and the calls below or an aggregator go on. -/
theorem Inv.unlock (hi : Inv s) (ht : s.threads[t]? = some (frame :: below))
    (hg : guarded frame = true) {st' : List (CallFrame κ)} (hthreads : s'.threads = s.threads.set t st')
    (hmutex : s'.mutex = none) (hst : st'.countP guarded = 0)
    (hreleased : ∀ f ∈ st', f.released = releasedBy f.phase) : Inv s' := by
  refine hi.update ht hthreads ?_ ?_ ?_ hreleased
  · rw [hst, List.countP_cons_of_pos hg, hi.countP_below ht hg, hi.mutex_eq ht hg, hmutex]
    rfl
  · intro f hf hgf
    have hpos := List.countP_pos_iff.mpr ⟨f, hf, hgf⟩
    omega
  · intro u hu hheld
    have := (hi.mutex_eq ht hg).symm.trans hheld
    exact absurd (Option.some.inj this).symm hu

/-- An unlock by the thread that holds the mutex. -/
theorem Disciplined.byHolder_unlock (hd : s.Disciplined) (hm : s.mutex = some t) :
    ∀ release ∈ (s.unlock t).releases, release.holder = some release.thread := by
  intro release hr
  rcases List.mem_append.mp hr with hr | hr
  · exact hd.byHolder release hr
  · obtain rfl := List.mem_singleton.mp hr
    exact hm

/-- The destructor of the guard of a call that is still in its guarded section. -/
theorem Inv.leave (hi : Inv s) (hd : s.Disciplined) (ht : s.threads[t]? = some (frame :: below))
    (hg : guarded frame = true) : Inv (s.leave t frame below) ∧ (s.leave t frame below).Disciplined := by
  have hi' : Inv (s.leave t frame below) :=
    hi.unlock ht hg rfl rfl (hi.countP_below ht hg) (hi.released_below ht)
  have hreleased : frame.released = 0 := (hi.released_eq ht).trans (releasedBy_of_guarded hg)
  refine ⟨hi', hd.byHolder_unlock (hi.mutex_eq ht hg), hi'.inside_le, ?_⟩
  · intro released hr
    rcases List.mem_append.mp hr with hr | hr
    · exact hd.once released hr
    · obtain rfl := List.mem_singleton.mp hr
      rw [hreleased]

end

theorem Disciplined.congr (hd : s.Disciplined) (hi : Inv s') (hr : s'.releases = s.releases)
    (he : s'.ended = s.ended) : s'.Disciplined where
  byHolder := by rw [hr]; exact hd.byHolder
  exclusive := hi.inside_le
  once := by rw [he]; exact hd.once

theorem Inv.newThread (hi : Inv s) : Inv { s with threads := s.threads ++ [[]] } := by
  constructor
  · have hcount : count guarded (s.threads ++ [[]]) = count guarded s.threads := count_start _ _
    exact hcount.trans hi.inside_eq
  · intro t frames ht frame hf hg
    by_cases hlt : t < s.threads.length
    · rw [List.getElem?_append_left hlt] at ht
      exact hi.holder t frames ht frame hf hg
    · have hmem := List.mem_of_getElem? ht
      rw [List.getElem?_append_right (by omega)] at ht
      have hnil : frames = [] := List.mem_singleton.mp (List.mem_of_getElem? ht)
      rw [hnil] at hf
      exact absurd hf List.not_mem_nil
  · intro frame hf
    have hframes : Threads.frames (s.threads ++ [[]]) = Threads.frames s.threads := by
      simp [Threads.frames]
    rw [hframes] at hf
    exact hi.released frame hf

/-- A member is called by user code. -/
theorem Inv.call (hi : Inv s) {st : List (CallFrame κ)} (ht : s.threads[t]? = some st)
    (member : MemberCall κ) :
    Inv (s.setThread t ({ phase := .locking member, released := 0 } :: st)) := by
  refine hi.update ht rfl ?_ ?_ (fun _ _ hu => hu) ?_
  · rw [List.countP_cons_of_neg (by simp [guarded, Phase.guarded])]
    rfl
  · intro frame hf hg
    rcases List.mem_cons.mp hf with rfl | hf
    · exact absurd hg (by simp [guarded, Phase.guarded])
    · exact hi.holder t st ht frame hf hg
  · intro frame hf
    rcases List.mem_cons.mp hf with rfl | hf
    · rfl
    · exact hi.released frame (mem_frames ht hf)

theorem entered_guarded (s : LockDiscipline κ) (member : MemberCall κ) :
    (s.entered member).guarded = true := by
  cases member <;> rfl

/-- A `lock_guard` gets the mutex. -/
theorem Inv.lock (hi : Inv s) {member : MemberCall κ} {released : Nat} {below : List (CallFrame κ)}
    (ht : s.threads[t]? = some (⟨.locking member, released⟩ :: below)) (hm : s.mutex = none) :
    Inv { s.setThread t (⟨s.entered member, released⟩ :: below) with mutex := some t } := by
  have hg : guarded (⟨s.entered member, released⟩ : CallFrame κ) = true := s.entered_guarded member
  have hnone : below.countP guarded = 0 := by
    have hle := countP_le_count guarded ht
    have hin : count guarded s.threads = 0 := by
      have := hi.inside_eq
      rw [hm] at this
      exact this
    rw [List.countP_cons_of_neg (by simp [guarded, Phase.guarded])] at hle
    omega
  refine hi.update ht rfl ?_ (fun _ _ _ => rfl) ?_ ?_
  · rw [List.countP_cons_of_pos hg, List.countP_cons_of_neg (by simp [guarded, Phase.guarded]), hnone, hm]
    rfl
  · intro u _ hu
    rw [hm] at hu
    cases hu
  · intro frame hf
    rcases List.mem_cons.mp hf with rfl | hf
    · rw [releasedBy_of_guarded (s.entered_guarded member)]
      exact hi.released_eq ht
    · exact hi.released_below ht frame hf

/-- The loop of an emission goes on. -/
theorem Inv.pass (hi : Inv s) {aggregated : Bool} {jnt : Joint κ} {callbacks : List (Joint κ)}
    {released : Nat} {below : List (CallFrame κ)}
    (ht : s.threads[t]? = some (⟨.calling aggregated (jnt :: callbacks), released⟩ :: below)) :
    Inv (s.setThread t (⟨.calling aggregated callbacks, released⟩ :: below)) := by
  refine hi.update ht rfl ?_ ?_ (fun _ _ hu => hu) ?_
  · rw [List.countP_cons_of_pos rfl, List.countP_cons_of_pos rfl]
    rfl
  · intro frame _ _
    exact hi.mutex_eq ht rfl
  · have hreleased := hi.released_eq ht
    intro frame hf
    rcases List.mem_cons.mp hf with rfl | hf
    · exact hreleased
    · exact hi.released_below ht frame hf

/-- A guarded section ends. -/
theorem finish_disciplined (hi : Inv s) (hd : s.Disciplined) {frame : CallFrame κ}
    {below : List (CallFrame κ)} (ht : s.threads[t]? = some (frame :: below))
    (hs : s.finishStep t frame below = some s') : Inv s' ∧ s'.Disciplined := by
  have hframe := hi.released_eq ht
  obtain ⟨phase, released⟩ := frame
  unfold finishStep at hs
  cases phase with
  | locking member => cases hs
  | aggregating => cases hs
  | connecting jnt =>
    obtain rfl := Option.some.inj hs
    have hi' : Inv { s with callbacks := s.callbacks ++ [jnt] } := ⟨hi.inside_eq, hi.holder, hi.released⟩
    exact hi'.leave ⟨hd.byHolder, hd.exclusive, hd.once⟩ ht rfl
  | disconnecting connection =>
    obtain rfl := Option.some.inj hs
    have hi' : Inv { s with callbacks := s.callbacks.eraseP (·.connection == connection) } :=
      ⟨hi.inside_eq, hi.holder, hi.released⟩
    exact hi'.leave ⟨hd.byHolder, hd.exclusive, hd.once⟩ ht rfl
  | calling aggregated callbacks =>
    cases callbacks with
    | cons jnt callbacks => cases aggregated <;> cases hs
    | nil =>
      cases aggregated with
      | false =>
        obtain rfl := Option.some.inj hs
        exact hi.leave hd ht rfl
      | true =>
        -- the mutex is unlocked by hand, and the call goes on in the aggregator
        obtain rfl := Option.some.inj hs
        have hi' : Inv ((s.unlock t).setThread t
            ({ phase := .aggregating, released := released + 1 } :: below)) := by
          refine hi.unlock ht rfl rfl rfl ?_ ?_
          · rw [List.countP_cons_of_neg (by simp [guarded, Phase.guarded])]
            exact hi.countP_below ht rfl
          · intro f hf
            rcases List.mem_cons.mp hf with rfl | hf
            · exact congrArg (· + 1) hframe
            · exact hi.released_below ht f hf
        exact ⟨hi', hd.byHolder_unlock (hi.mutex_eq ht rfl), hi'.inside_le, hd.once⟩

/-- Every step but the end of an aggregator keeps the discipline. -/
theorem step_disciplined (hi : Inv s) (hd : s.Disciplined) {a : LockAct κ} (ha : s.NoAggregatorEnds a)
    (hs : s.step a = some s') : Inv s' ∧ s'.Disciplined := by
  -- a step that neither unlocks the mutex nor ends a call
  have quiet : ∀ {s' : LockDiscipline κ}, Inv s' → s'.releases = s.releases → s'.ended = s.ended →
      Inv s' ∧ s'.Disciplined := fun hi' hr he => ⟨hi', hd.congr hi' hr he⟩
  cases a with
  | newThread =>
    obtain rfl := Option.some.inj hs
    exact quiet hi.newThread rfl rfl
  | setLock lock =>
    obtain rfl := Option.some.inj hs
    exact quiet ⟨hi.inside_eq, hi.holder, hi.released⟩ rfl rfl
  | call t member =>
    simp only [step] at hs
    split at hs
    · rename_i st ht
      split at hs
      · obtain rfl := Option.some.inj hs
        exact quiet (hi.call ht member) rfl rfl
      · cases hs
    · cases hs
  | lock t =>
    simp only [step] at hs
    split at hs
    · rename_i member released below ht hm
      obtain rfl := Option.some.inj hs
      exact quiet (hi.lock ht hm) rfl rfl
    · cases hs
  | pass t =>
    simp only [step] at hs
    split at hs
    · rename_i aggregated jnt callbacks released below ht
      obtain rfl := Option.some.inj hs
      exact quiet (hi.pass ht) rfl rfl
    · cases hs
  | throwing t =>
    simp only [step] at hs
    split at hs
    · rename_i aggregated jnt callbacks released below ht
      obtain rfl := Option.some.inj hs
      exact hi.leave hd ht rfl
    · cases hs
  | finish t =>
    simp only [step] at hs
    split at hs
    · rename_i frame below ht
      exact finish_disciplined hi hd ht hs
    · cases hs
  | aggregated t => exact absurd ha id

/-- The end of an aggregator is the second unlock of its call. -/
theorem aggregated_undisciplined (hi : Inv s) (hs : s.step (.aggregated t) = some s') :
    ¬ s'.Disciplined := by
  simp only [step] at hs
  split at hs
  · rename_i released below ht
    obtain rfl := Option.some.inj hs
    have hreleased : released = 1 := hi.released_eq ht
    intro hd
    have hone := hd.once (released + 1) (List.mem_append_right _ (List.mem_singleton.mpr rfl))
    omega
  · cases hs

/-- **The mutex of a signal.** In a run of any number of threads every unlock is performed by the holder of the
    mutex, no two calls are in a guarded section at once, and every call that ends has unlocked the mutex
    once, in all states passed through, exactly if no aggregator ends. -/
theorem disciplined_throughout_iff (as : List (LockAct κ)) (hr : run step (init κ) as = some s) :
    Throughout step Disciplined (init κ) as ↔ Meets step NoAggregatorEnds (init κ) as := by
  refine throughout_iff_meets (I := Inv) ?_ inv_init ?_ hr
  · intro s a s' hi hd hs
    by_cases ha : s.NoAggregatorEnds a
    · obtain ⟨hi', hd'⟩ := step_disciplined hi hd ha hs
      exact ⟨⟨fun _ => ha, fun _ => hd'⟩, fun _ => hi'⟩
    · cases a with
      | aggregated t =>
        have hnot := aggregated_undisciplined hi hs
        exact ⟨⟨fun hd' => absurd hd' hnot, fun h => absurd h ha⟩, fun hd' => absurd hd' hnot⟩
      | _ => exact absurd trivial ha
  · exact ⟨fun _ h => absurd h List.not_mem_nil, Nat.zero_le 1, fun _ h => absurd h List.not_mem_nil⟩

/-- Two threads, a callback, and an emission with an aggregator that has collected the results. -/
def collected : List (LockAct String) :=
  [.newThread, .newThread, .call 0 (.connect ⟨"a", 0, none⟩), .lock 0, .finish 0, .call 0 .aggregate,
    .lock 0, .pass 0, .finish 0, .call 1 .emit, .lock 1]

theorem disciplined_throughout_collected : Throughout step Disciplined (init String) collected := by
  obtain ⟨s, hs⟩ : ∃ s, run step (init String) collected = some s := ⟨_, rfl⟩
  have hends : Meets step NoAggregatorEnds (init String) collected := by decide
  exact (disciplined_throughout_iff collected hs).mpr hends

/-- When the aggregator ends, its thread unlocks the mutex that the emission of the other thread holds, and
    a third call gets into its guarded section beside it. -/
theorem aggregator_unlocks_foreign_mutex :
    ∃ s, run step (init String) (collected ++ [.aggregated 0, .call 0 .emit, .lock 0]) = some s ∧
      ⟨0, some 1⟩ ∈ s.releases ∧ s.inside = 2 ∧
      ¬ Throughout step Disciplined (init String)
        (collected ++ [.aggregated 0, .call 0 .emit, .lock 0]) := by
  refine ⟨_, rfl, by decide, by decide, fun h => ?_⟩
  have hlast := (h.last rfl).exclusive
  exact absurd hlast (by decide)

end Lnetlib.Lsignal.LockDiscipline
