import Mathlib.Data.List.Nodup
import R4.ForStd.Lts
import R4.Native.ScriptRunner

/-!
# When scripts are executed in order and only once loaded

The timer is started as soon as the first script is loaded, also while the runner is suspended,
and the script that it was started for may be gone when the runner is resumed. `resume` starts
the timer all the same, so that it fires for a script that is not loaded or for none; and if a
firing still waits in the register, the timer fires twice.

## Key results

- `ExecutesInOrder`: what the runner should do
- `executes_in_order`: runs in which `resume` finds a loaded script, and no firing waits when the
  timer expires
- `unloaded_script_executed`: a run in which a script is executed before it is loaded, and one in
  which the timer fires for no script
-/

namespace R4

variable {S C : Type} [DecidableEq C]

/-- The runner, the resources that are loaded, the firings that have not returned, the scripts
    that were queued, those whose readiness was notified, and those that were executed, with
    whether they were loaded then. -/
structure ScriptRun (S C : Type) where
  runner : ScriptRunner S C
  loaded : List C
  firing : Nat
  queued : List (PendingScript S C)
  notified : List (PendingScript S C)
  executed : List (PendingScript S C × Bool)

namespace ScriptRun

open ScriptRunner

/-- The labels of a run. -/
inductive Label (S C : Type) where
  | queueScriptForExecution (script : PendingScript S C)
  | load (cachedScript : C)
  | notifyScriptReady (script : PendingScript S C)
  | suspend
  | resume
  | expire
  | beginFire (d : EventActionDescriptor)
  | endFire

/-- `isLoaded`. -/
def isLoaded (r : ScriptRun S C) (cachedScript : C) : Bool := cachedScript ∈ r.loaded

/-- One step. A script is queued once, and notified when it is queued and loaded. -/
def exec [DecidableEq S] (r : ScriptRun S C) : Label S C → Option (ScriptRun S C)
  | .queueScriptForExecution script =>
    if script ∈ r.queued then none
    else some { r with
      runner := r.runner.queueScriptForExecution script
      queued := r.queued ++ [script] }
  | .load cachedScript => some { r with loaded := r.loaded ++ [cachedScript] }
  | .notifyScriptReady script =>
    if script ∈ r.queued ∧ r.isLoaded script.cachedScript = true then
      some { r with
        runner := r.runner.notifyScriptReady r.isLoaded
        notified := r.notified ++ [script] }
    else none
  | .suspend => some { r with runner := r.runner.suspend }
  | .resume => some { r with runner := r.runner.resume }
  | .expire =>
    r.runner.inOrderTimer.expire.map fun timer =>
      { r with runner := { r.runner with inOrderTimer := timer } }
  | .beginFire d =>
    (r.runner.inOrderTimer.dispatch d).bind fun timer =>
      (takeScript { r.runner with inOrderTimer := timer }).map fun taken =>
        { r with
          runner := taken.2
          firing := r.firing + 1
          executed := r.executed ++ [(taken.1, r.isLoaded taken.1.cachedScript)] }
  | .endFire =>
    match r.firing with
    | 0 => none
    | firing + 1 =>
      some { r with runner := r.runner.updateInOrderTimer r.isLoaded, firing := firing }

/-- The runs of the runner. -/
def runs [DecidableEq S] : Lts (ScriptRun S C) (Label S C) where
  init r := ∃ id, r = ⟨ScriptRunner.init id, [], 0, [], [], []⟩
  step r l r' := r.exec l = some r'

/-- There is a first script, and it is loaded. -/
def HeadLoaded (r : ScriptRun S C) : Prop :=
  ∃ first rest, r.runner.scriptsToExecuteInOrder = first :: rest ∧
    r.isLoaded first.cachedScript = true

/-- The first script was notified. -/
def HeadNotified (r : ScriptRun S C) : Prop :=
  ∃ first rest, r.runner.scriptsToExecuteInOrder = first :: rest ∧ first ∈ r.notified

/-- The runner does what it is for. -/
structure ExecutesInOrder (r : ScriptRun S C) : Prop where
  order : r.executed.map Prod.fst ++ r.runner.scriptsToExecuteInOrder = r.queued
  once : r.queued.Nodup
  loaded : ∀ p ∈ r.executed, p.2 = true
  ready : r.runner.inOrderTimer.waiting ≠ [] → r.HeadLoaded
  active : r.firing = 0 → r.runner.suspended = false → r.HeadLoaded → r.HeadNotified →
    r.runner.inOrderTimer.isActive = true ∧ r.runner.inOrderTimer.isPending = true

/-- The condition on a step: `resume` starts the timer for a script that is loaded, and the timer
    expires while none of its firings waits in the register. -/
def Ok (r : ScriptRun S C) : Label S C → Prop
  | .resume => r.runner.suspended = true → r.HeadLoaded
  | .expire => r.runner.inOrderTimer.waiting = []
  | _ => True

/-! ## The timer -/

/-- At most one firing waits in the register, and the timer is not marked for nothing unless the
    runner is suspended. -/
structure TimerOk (t : OneShotTimer) (suspended : Bool) : Prop where
  waiting : t.waiting = [] ∨ t.waiting = [t.eventActionDescriptor] ∧ t.inEventActionRegister = true
  marked : t.inEventActionRegister = true → suspended = false → t.isPending = true

namespace TimerOk

variable {t t' : OneShotTimer} {suspended : Bool}

/-- A timer that is active expires, unless the runner is suspended. -/
theorem isPending (h : TimerOk t suspended) (hactive : t.isActive = true)
    (hnot : suspended = false) : t.isPending = true := by
  rw [OneShotTimer.isActive, Bool.or_eq_true] at hactive
  rcases hactive with hheap | hflag
  · rw [OneShotTimer.isPending, hheap]
    rfl
  · exact h.marked hflag hnot

/-- An inactive timer is given a descriptor and started. -/
theorem start (h : TimerOk t suspended) (hstopped : t.isActive = false)
    (d : EventActionDescriptor) :
    TimerOk (t.setEventActionDescriptor d).startOneShot suspended := by
  rw [OneShotTimer.isActive, Bool.or_eq_false_iff] at hstopped
  refine ⟨Or.inl ?_, fun _ _ => rfl⟩
  rcases h.waiting with hnil | ⟨-, hflag⟩
  · exact hnil
  · rw [hstopped.2] at hflag
    cases hflag

/-- `resume` starts the timer whatever is waiting. -/
theorem restart (h : TimerOk t suspended) : TimerOk t.startOneShot false :=
  ⟨h.waiting, fun _ _ => rfl⟩

/-- `stop` drops the firing that waits. -/
theorem stop (h : TimerOk t suspended) : TimerOk t.stop true ∧ t.stop.waiting = [] := by
  have hnil : t.stop.waiting = [] := by
    unfold OneShotTimer.stop
    dsimp only
    rcases h.waiting with hnil | ⟨hsingle, hflag⟩
    · rw [hnil]
      split <;> rfl
    · rw [hsingle, if_pos hflag]
      simp
  exact ⟨⟨Or.inl hnil, fun _ hnot => absurd hnot (by decide)⟩, hnil⟩

/-- A timer that expires, when it has not been waiting before. -/
theorem expire (hwaiting : t.waiting = []) (hexpire : t.expire = some t') :
    TimerOk t' suspended := by
  obtain ⟨-, -, rfl⟩ := OneShotTimer.expire_eq_some hexpire
  refine ⟨Or.inr ⟨?_, rfl⟩, fun _ _ => ?_⟩
  · dsimp only
    rw [hwaiting, List.nil_append]
  · rw [OneShotTimer.isPending]
    simp

/-- The firing that waits is dispatched, and nothing else is to come. -/
theorem dispatch (h : TimerOk t suspended) {d : EventActionDescriptor}
    (hdispatch : t.dispatch d = some t') :
    TimerOk t' suspended ∧ t'.inHeap = false ∧ t'.waiting = [] := by
  obtain ⟨hmem, rfl⟩ := OneShotTimer.dispatch_eq_some hdispatch
  have hnil : t.waiting.erase d = [] := by
    rcases h.waiting with hnil | ⟨hsingle, -⟩
    · rw [hnil] at hmem
      exact absurd hmem List.not_mem_nil
    · rw [hsingle] at hmem ⊢
      rw [List.mem_singleton.mp hmem, List.erase_cons_head]
  exact ⟨⟨Or.inl hnil, fun hflag => absurd hflag Bool.false_ne_true⟩, rfl, hnil⟩

end TimerOk

/-! ## The invariant -/

/-- What holds in every state of a run whose steps meet the condition, whether or not the timer
    has been started for the first script. -/
structure Core (r : ScriptRun S C) : Prop where
  order : r.executed.map Prod.fst ++ r.runner.scriptsToExecuteInOrder = r.queued
  once : r.queued.Nodup
  loaded : ∀ p ∈ r.executed, p.2 = true
  notified : ∀ script ∈ r.notified,
    script ∈ r.queued ∧ r.isLoaded script.cachedScript = true
  timer : TimerOk r.runner.inOrderTimer r.runner.suspended
  pending : r.runner.inOrderTimer.isPending = true → r.HeadLoaded

/-- What holds in every state of a run whose steps meet the condition. -/
structure Inv (r : ScriptRun S C) : Prop extends Core r where
  active : r.firing = 0 → r.runner.suspended = false → r.HeadLoaded → r.HeadNotified →
    r.runner.inOrderTimer.isActive = true

/-- What holds of a run gives the order of the scripts. -/
theorem Inv.executesInOrder {r : ScriptRun S C} (inv : Inv r) : ExecutesInOrder r where
  order := inv.order
  once := inv.once
  loaded := inv.loaded
  ready hwaiting := by
    refine inv.pending ?_
    rw [OneShotTimer.isPending, Bool.or_eq_true]
    exact Or.inr (by simpa using hwaiting)
  active hidle hnot hloaded hnotified := by
    have hactive := inv.active hidle hnot hloaded hnotified
    exact ⟨hactive, inv.timer.isPending hactive hnot⟩

/-- At the start no script is queued. -/
theorem inv_init (id : UInt32) :
    Inv (⟨ScriptRunner.init id, [], 0, [], [], []⟩ : ScriptRun S C) where
  order := rfl
  once := List.nodup_nil
  loaded _ h := absurd h List.not_mem_nil
  notified _ h := absurd h List.not_mem_nil
  timer := ⟨Or.inl rfl, fun h => absurd h Bool.false_ne_true⟩
  pending h := absurd h Bool.false_ne_true
  active _ _ h := by
    obtain ⟨first, rest, hcons, -⟩ := h
    cases hcons

/-- `updateInOrderTimer` starts the timer if the first script is loaded and it is not active. -/
theorem updateInOrderTimer_cases (r : ScriptRun S C) :
    (r.runner.updateInOrderTimer r.isLoaded = r.runner ∧
      (r.HeadLoaded → r.runner.inOrderTimer.isActive = true)) ∨
    (r.runner.inOrderTimer.isActive = false ∧ r.HeadLoaded ∧
      r.runner.updateInOrderTimer r.isLoaded = { r.runner with inOrderTimer :=
        (r.runner.inOrderTimer.setEventActionDescriptor
          r.runner.inOrderDescriptor).startOneShot }) := by
  unfold updateInOrderTimer
  split
  · -- no script waits
    rename_i hnil
    refine Or.inl ⟨rfl, fun ⟨first, rest, hcons, _⟩ => ?_⟩
    rw [hnil] at hcons
    cases hcons
  · rename_i first rest hcons
    cases hloaded : r.isLoaded first.cachedScript with
    | false =>
      -- the first one has not been loaded, and the timer is left alone
      refine Or.inl ⟨rfl, fun ⟨first', rest', hcons', hloaded'⟩ => ?_⟩
      rw [hcons] at hcons'
      obtain ⟨rfl, rfl⟩ := List.cons.inj hcons'
      rw [hloaded] at hloaded'
      cases hloaded'
    | true =>
      -- it has been loaded, and the timer is started unless it is active
      cases hactive : r.runner.inOrderTimer.isActive with
      | true => exact Or.inl ⟨rfl, fun _ => rfl⟩
      | false => exact Or.inr ⟨rfl, ⟨first, rest, hcons, hloaded⟩, rfl⟩

/-- After `updateInOrderTimer` the timer is active if the first script is loaded. -/
theorem Core.update {r : ScriptRun S C} (core : Core r) :
    Inv { r with runner := r.runner.updateInOrderTimer r.isLoaded } := by
  rcases updateInOrderTimer_cases r with ⟨hsame, hactive⟩ | ⟨hstopped, hloaded, hstart⟩
  · rw [hsame]
    exact ⟨core, fun _ _ h _ => hactive h⟩
  · rw [hstart]
    exact
      { order := core.order
        once := core.once
        loaded := core.loaded
        notified := core.notified
        timer := core.timer.start hstopped _
        pending := fun _ => hloaded
        active := fun _ _ _ _ => rfl }

/-! ## The steps -/

/-- Queueing a script keeps the order. -/
theorem inv_queue {r : ScriptRun S C} (inv : Inv r) {script : PendingScript S C}
    (hnew : script ∉ r.queued) :
    Inv { r with
      runner := r.runner.queueScriptForExecution script
      queued := r.queued ++ [script] } := by
  have happend : ∀ {first rest}, r.runner.scriptsToExecuteInOrder = first :: rest →
      (r.runner.queueScriptForExecution script).scriptsToExecuteInOrder =
        first :: (rest ++ [script]) := by
    intro first rest hcons
    rw [queueScriptForExecution, hcons]
    rfl
  have hloaded : r.HeadLoaded → HeadLoaded { r with
      runner := r.runner.queueScriptForExecution script
      queued := r.queued ++ [script] } := by
    rintro ⟨first, rest, hcons, hloaded⟩
    exact ⟨first, rest ++ [script], happend hcons, hloaded⟩
  refine ⟨⟨?_, ?_, inv.loaded, fun s hs => ?_, inv.timer, fun h => hloaded (inv.pending h)⟩, ?_⟩
  · rw [← inv.order, List.append_assoc]
    rfl
  · exact List.concat_eq_append ▸ inv.once.concat hnew
  · exact ⟨List.mem_append_left _ (inv.notified s hs).1, (inv.notified s hs).2⟩
  · intro hidle hnot hhead hnotified
    obtain ⟨first, rest, hcons, hfirst⟩ := hnotified
    -- a script that was notified was queued before
    cases hold : r.runner.scriptsToExecuteInOrder with
    | nil =>
      dsimp only at hcons
      rw [queueScriptForExecution, hold, List.nil_append] at hcons
      obtain ⟨rfl, -⟩ := List.cons.inj hcons
      exact absurd (inv.notified _ hfirst).1 hnew
    | cons first' rest' =>
      dsimp only at hcons
      rw [happend hold] at hcons
      obtain ⟨rfl, -⟩ := List.cons.inj hcons
      exact inv.active hidle hnot ⟨_, rest', hold, (inv.notified _ hfirst).2⟩
        ⟨_, rest', hold, hfirst⟩

/-- So does a script that has been loaded. -/
theorem inv_load {r : ScriptRun S C} (inv : Inv r) (cachedScript : C) :
    Inv { r with loaded := r.loaded ++ [cachedScript] } := by
  have hmono : ∀ {c}, r.isLoaded c = true →
      isLoaded { r with loaded := r.loaded ++ [cachedScript] } c = true := by
    intro c hc
    rw [isLoaded, decide_eq_true_eq] at hc ⊢
    exact List.mem_append_left _ hc
  refine ⟨⟨inv.order, inv.once, inv.loaded, fun s hs => ?_, inv.timer, fun h => ?_⟩, ?_⟩
  · exact ⟨(inv.notified s hs).1, hmono (inv.notified s hs).2⟩
  · obtain ⟨first, rest, hcons, hloaded⟩ := inv.pending h
    exact ⟨first, rest, hcons, hmono hloaded⟩
  · rintro hidle hnot - ⟨first, rest, hcons, hfirst⟩
    -- it was loaded when it was notified
    exact inv.active hidle hnot ⟨first, rest, hcons, (inv.notified first hfirst).2⟩
      ⟨first, rest, hcons, hfirst⟩

/-- So does suspending the runner. -/
theorem inv_suspend {r : ScriptRun S C} (inv : Inv r) :
    Inv { r with runner := r.runner.suspend } := by
  unfold suspend
  split
  · obtain ⟨htimer, hwaiting⟩ := inv.timer.stop
    refine ⟨⟨inv.order, inv.once, inv.loaded, inv.notified, htimer, fun h => ?_⟩, ?_⟩
    · have hnone : r.runner.inOrderTimer.stop.isPending = false := by
        rw [OneShotTimer.isPending, hwaiting]
        rfl
      rw [hnone] at h
      cases h
    · exact fun _ hnot => absurd hnot.symm Bool.false_ne_true
  · exact inv

/-- So does resuming it, under the condition. -/
theorem inv_resume {r : ScriptRun S C} (inv : Inv r) (hok : r.Ok .resume) :
    Inv { r with runner := r.runner.resume } := by
  unfold resume
  split
  · rename_i hsuspended
    exact ⟨⟨inv.order, inv.once, inv.loaded, inv.notified, inv.timer.restart,
      fun _ => hok hsuspended⟩, fun _ _ _ _ => rfl⟩
  · exact inv

/-- So does the timer when it expires, under the condition. -/
theorem inv_expire {r : ScriptRun S C} (inv : Inv r) (hok : r.Ok .expire) {t : OneShotTimer}
    (hexpire : r.runner.inOrderTimer.expire = some t) :
    Inv { r with runner := { r.runner with inOrderTimer := t } } := by
  have hpending : r.runner.inOrderTimer.isPending = true := by
    rw [OneShotTimer.isPending, (OneShotTimer.expire_eq_some hexpire).1]
    rfl
  refine ⟨⟨inv.order, inv.once, inv.loaded, inv.notified, TimerOk.expire hok hexpire,
    fun _ => inv.pending hpending⟩, fun _ _ _ _ => ?_⟩
  obtain ⟨-, -, rfl⟩ := OneShotTimer.expire_eq_some hexpire
  rfl

/-- The firing finds a script that is loaded, and no other firing is pending. -/
theorem inv_beginFire {r : ScriptRun S C} (inv : Inv r) {d : EventActionDescriptor}
    {t : OneShotTimer} (hdispatch : r.runner.inOrderTimer.dispatch d = some t) :
    ∃ first rest, r.runner.scriptsToExecuteInOrder = first :: rest ∧
      r.isLoaded first.cachedScript = true ∧
      Inv { r with
        runner := { r.runner with
          inOrderTimer := t
          inOrderExecuted := r.runner.inOrderExecuted + 1
          scriptsToExecuteInOrder := rest }
        firing := r.firing + 1
        executed := r.executed ++ [(first, true)] } := by
  obtain ⟨htimer, hheap, hwaiting⟩ := inv.timer.dispatch hdispatch
  -- the timer was pending, so the first script is loaded
  obtain ⟨first, rest, hcons, hloaded⟩ := inv.pending (by
    obtain ⟨hmem, -⟩ := OneShotTimer.dispatch_eq_some hdispatch
    rw [OneShotTimer.isPending, Bool.or_eq_true]
    exact Or.inr (by simpa using List.ne_nil_of_mem hmem))
  refine ⟨first, rest, hcons, hloaded, ⟨?_, inv.once, fun p hp => ?_, inv.notified, htimer,
    fun h => ?_⟩, fun hzero => absurd hzero (Nat.succ_ne_zero _)⟩
  · -- the script goes from the queue to what was executed
    rw [← inv.order, hcons, List.map_append, List.append_assoc]
    rfl
  · rcases List.mem_append.mp hp with hp | hp
    · exact inv.loaded p hp
    · rw [List.mem_singleton.mp hp]
  · -- the timer is not pending any more
    dsimp only at h
    rw [OneShotTimer.isPending, hheap, hwaiting] at h
    exact absurd h Bool.false_ne_true

/-- So does every step under the condition. -/
theorem inv_step [DecidableEq S] {r r' : ScriptRun S C} {l : Label S C} (inv : Inv r) (hok : r.Ok l)
    (h : r.exec l = some r') : Inv r' := by
  cases l with
  | queueScriptForExecution script =>
    rw [exec] at h
    split at h
    · -- a script is queued once
      cases h
    · rename_i hnew
      obtain rfl := Option.some.inj h
      exact inv_queue inv hnew
  | load cachedScript =>
    obtain rfl := Option.some.inj h
    exact inv_load inv cachedScript
  | notifyScriptReady script =>
    rw [exec] at h
    split at h
    · -- a script that is notified was loaded before
      rename_i hready
      obtain rfl := Option.some.inj h
      refine Core.update (r := { r with notified := r.notified ++ [script] })
        ⟨inv.order, inv.once, inv.loaded, fun s hs => ?_, inv.timer, inv.pending⟩
      rcases List.mem_append.mp hs with hs | hs
      · exact inv.notified s hs
      · rw [List.mem_singleton.mp hs]
        exact hready
    · cases h
  | suspend =>
    obtain rfl := Option.some.inj h
    exact inv_suspend inv
  | resume =>
    obtain rfl := Option.some.inj h
    exact inv_resume inv hok
  | expire =>
    obtain ⟨t, hexpire, rfl⟩ := Option.map_eq_some_iff.mp h
    exact inv_expire inv hok hexpire
  | beginFire d =>
    -- the first script is executed
    obtain ⟨t, hdispatch, hrest⟩ := Option.bind_eq_some_iff.mp h
    obtain ⟨first, rest, hcons, hloaded, hinv⟩ := inv_beginFire inv hdispatch
    rw [takeScript, hcons] at hrest
    obtain rfl := Option.some.inj hrest
    dsimp only
    rw [hloaded]
    exact hinv
  | endFire =>
    rw [exec] at h
    split at h
    · -- no handler is running
      cases h
    · -- the handler returns, and the next script may be due
      rename_i firing hfiring
      obtain rfl := Option.some.inj h
      exact Core.update (r := { r with firing := firing })
        ⟨inv.order, inv.once, inv.loaded, inv.notified, inv.timer, inv.pending⟩

/-- In every run whose steps meet the condition. -/
theorem inv_of_reachable [DecidableEq S] {r : ScriptRun S C}
    (h : (runs.restrict Ok).Reachable r) : Inv r := by
  refine Lts.Reachable.invariant ?_ ?_ h
  · rintro _ ⟨id, rfl⟩
    exact inv_init id
  · intro _ _ _ _ inv h
    exact inv_step inv h.1 h.2

/-- In every run in which `resume` starts the timer for a script that is loaded, and the timer
    does not expire while a firing of it waits in the register: the scripts are executed in the
    order in which they were queued, each once and only once loaded; every firing finds such a
    script; and outside of a firing, while the runner is not suspended, the timer is active and
    will fire if the first script is loaded and was notified. -/
theorem executes_in_order [DecidableEq S] {r : ScriptRun S C}
    (h : (runs.restrict Ok).Reachable r) :
    ExecutesInOrder r ∧
      ∀ d ∈ r.runner.inOrderTimer.waiting, ∃ r', r.exec (.beginFire d) = some r' := by
  have inv := inv_of_reachable h
  refine ⟨inv.executesInOrder, fun d hd => ?_⟩
  have hdispatch : r.runner.inOrderTimer.dispatch d = some _ := if_pos hd
  obtain ⟨first, rest, hcons, -⟩ := inv_beginFire inv hdispatch
  rw [exec, hdispatch, Option.bind_some, takeScript, hcons]
  exact ⟨_, rfl⟩

/-! ## Three runs -/

/-- The descriptor of the firing after `n` scripts have been executed. -/
def firingDescriptor (n : UInt32) : EventActionDescriptor :=
  inOrderDescriptor (S := Nat) (C := Nat) { ScriptRunner.init 0 with inOrderExecuted := n }

/-- The runner is suspended and resumed while its first script waits to be executed. -/
theorem executes_in_order_of_resumed :
    ∃ r : ScriptRun Nat Nat, (runs.restrict Ok).Reachable r ∧ r.executed = [(⟨0, 0⟩, true)] ∧
      ExecutesInOrder r := by
  -- a script is loaded while the runner is suspended, and executed after it resumes
  let r₀ : ScriptRun Nat Nat := ⟨ScriptRunner.init 0, [], 0, [], [], []⟩
  have hrun : ((r₀.exec (.queueScriptForExecution ⟨0, 0⟩)).bind fun r₁ =>
      (r₁.exec (.load 0)).bind fun r₂ => (r₂.exec (.notifyScriptReady ⟨0, 0⟩)).bind fun r₃ =>
        (r₃.exec .suspend).bind fun r₄ => (r₄.exec .resume).bind fun r₅ =>
          (r₅.exec .expire).bind fun r₆ =>
            (r₆.exec (.beginFire (firingDescriptor 0))).map fun r₇ =>
              -- before it resumes the script is loaded and no timer runs
              (decide (r₄.runner.scriptsToExecuteInOrder = [⟨0, 0⟩]) && r₄.isLoaded 0 &&
                r₅.runner.inOrderTimer.waiting.isEmpty, r₇.executed)) =
      some (true, [(⟨0, 0⟩, true)]) := by decide +kernel
  obtain ⟨r₁, h₁, hrun⟩ := Option.bind_eq_some_iff.mp hrun
  obtain ⟨r₂, h₂, hrun⟩ := Option.bind_eq_some_iff.mp hrun
  obtain ⟨r₃, h₃, hrun⟩ := Option.bind_eq_some_iff.mp hrun
  obtain ⟨r₄, h₄, hrun⟩ := Option.bind_eq_some_iff.mp hrun
  obtain ⟨r₅, h₅, hrun⟩ := Option.bind_eq_some_iff.mp hrun
  obtain ⟨r₆, h₆, hrun⟩ := Option.bind_eq_some_iff.mp hrun
  obtain ⟨r₇, h₇, hobs⟩ := Option.map_eq_some_iff.mp hrun
  simp only [Prod.mk.injEq, Bool.and_eq_true, decide_eq_true_eq, List.isEmpty_iff] at hobs
  obtain ⟨⟨⟨hscripts, hloaded⟩, hnone⟩, hexecuted⟩ := hobs
  have hinit : (runs.restrict Ok).Reachable r₀ := .init ⟨0, rfl⟩
  have hreach := (((hinit.restrict_step h₁ trivial).restrict_step h₂ trivial).restrict_step h₃
    trivial).restrict_step h₄ trivial
  -- it resumes with a script that is loaded
  have hready : r₄.Ok .resume := fun _ => ⟨⟨0, 0⟩, [], hscripts, hloaded⟩
  have hreach' := ((hreach.restrict_step h₅ hready).restrict_step h₆ hnone).restrict_step h₇ trivial
  exact ⟨r₇, hreach', hexecuted, (executes_in_order hreach').1⟩

/-- The runner is suspended, and the readiness of a later script starts the timer again. When
    the runner is resumed its first script is not loaded, and is executed; or there is none, and
    the firing finds an empty queue. -/
theorem unloaded_script_executed :
    (∃ r : ScriptRun Nat Nat, runs.Reachable r ∧
      r.executed = [(⟨0, 0⟩, true), (⟨1, 1⟩, false)] ∧ ¬ExecutesInOrder r) ∧
    ∃ r : ScriptRun Nat Nat, runs.Reachable r ∧ r.runner.scriptsToExecuteInOrder = [] ∧
      ∃ d ∈ r.runner.inOrderTimer.waiting, r.exec (.beginFire d) = none := by
  let r₀ : ScriptRun Nat Nat := ⟨ScriptRunner.init 0, [], 0, [], [], []⟩
  have hinit : runs.Reachable r₀ := .init ⟨0, rfl⟩
  refine ⟨?_, ?_⟩
  · -- the second script is never loaded, and the timer that was started for the first one takes it
    let run : List (Label Nat Nat) := [.queueScriptForExecution ⟨0, 0⟩,
      .queueScriptForExecution ⟨1, 1⟩, .queueScriptForExecution ⟨2, 2⟩, .load 0,
      .notifyScriptReady ⟨0, 0⟩, .suspend, .load 2, .notifyScriptReady ⟨2, 2⟩, .expire,
      .beginFire (firingDescriptor 0), .endFire, .resume, .expire,
      .beginFire (firingDescriptor 0)]
    have hrun : (run.foldlM exec r₀).map executed =
        some [(⟨0, 0⟩, true), (⟨1, 1⟩, false)] := by decide +kernel
    obtain ⟨r, hr, hexecuted⟩ := Option.map_eq_some_iff.mp hrun
    refine ⟨r, Lts.Reachable.foldlM (fun _ _ _ h => h) hinit hr, hexecuted, fun horder => ?_⟩
    have := horder.loaded (⟨1, 1⟩, false) (by rw [hexecuted]; simp)
    exact absurd this Bool.false_ne_true
  · -- the timer fires although no script is left
    let run : List (Label Nat Nat) := [.queueScriptForExecution ⟨0, 0⟩,
      .queueScriptForExecution ⟨1, 1⟩, .load 0, .notifyScriptReady ⟨0, 0⟩, .suspend, .load 1,
      .notifyScriptReady ⟨1, 1⟩, .expire, .beginFire (firingDescriptor 0), .endFire, .expire,
      .beginFire (firingDescriptor 1), .endFire, .resume, .expire]
    have hrun : (run.foldlM exec r₀).map (fun r => (r.runner.scriptsToExecuteInOrder,
        r.runner.inOrderTimer.waiting, (r.exec (.beginFire (firingDescriptor 1))).isNone)) =
          some ([], [firingDescriptor 1], true) := by decide +kernel
    obtain ⟨r, hr, hobs⟩ := Option.map_eq_some_iff.mp hrun
    simp only [Prod.mk.injEq, Option.isNone_iff_eq_none] at hobs
    obtain ⟨hscripts, hwaiting, hfire⟩ := hobs
    exact ⟨r, Lts.Reachable.foldlM (fun _ _ _ h => h) hinit hr, hscripts, firingDescriptor 1,
      by rw [hwaiting]; exact List.mem_singleton.mpr rfl, hfire⟩

end ScriptRun

end R4
