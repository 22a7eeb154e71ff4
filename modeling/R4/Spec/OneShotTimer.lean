import R4.Native.OneShotTimer
import R4.Spec.TimerRun

/-!
# A component's timer among all timers

What `OneShotTimer` says of the timer of a component is what the runs of all timers do to it, as
long as it is not made repeating, and no other timer is stopped whose descriptor has the string
under which a handler of this one waits: `stop` would take that handler away.

## Key results

- `Views.step`: a step of the timers is a step of the one timer, or leaves it alone
-/

namespace R4.TimerRun

variable {ι T : Type} [DecidableEq ι] [LinearOrder T] [Zero T] [Add T]

open ThreadTimers

/-- `o` is what there is of timer `t`. -/
structure Views (r : TimerRun ι T) (t : ι) (o : OneShotTimer) : Prop where
  inHeap : o.inHeap = true ↔ (r.timers.timers t).nextFireTime ≠ 0
  flag : o.inEventActionRegister = (r.timers.timers t).inEventActionRegister
  descriptor : o.eventActionDescriptor = (r.timers.timers t).eventActionDescriptor
  once : (r.timers.timers t).repeatInterval = 0
  waiting : ∀ key, (r.waiting.queue key).count t = o.waiting.countP fun d => d.toString = key

/-- The label is one that `OneShotTimer` has an operation for. -/
def Sees (r : TimerRun ι T) (t : ι) (o : OneShotTimer) : Label ι T → Prop
  | .start u now next again => u = t → now + next ≠ 0 ∧ again = 0
  | .stop u => u = t ∨ (r.timers.timers u).inEventActionRegister = false ∨
      ∀ d ∈ o.waiting, d.toString ≠ (r.timers.timers u).eventActionDescriptor.toString
  | .augmentFireInterval u _ => u ≠ t
  | .augmentRepeatInterval u _ => u ≠ t
  | .expire _ _ => o.inHeap = true → o.eventActionDescriptor.isNull = false
  | _ => True

variable {r r' : TimerRun ι T} {t : ι} {o : OneShotTimer}

omit [LinearOrder T] [Add T] in
/-- Before a run nothing has been started. -/
theorem views_init : Views (⟨ThreadTimers.init, none⟩ : TimerRun ι T) t OneShotTimer.init where
  inHeap := ⟨fun hheap => absurd hheap Bool.false_ne_true, fun hne => absurd rfl hne⟩
  flag := rfl
  descriptor := rfl
  once := rfl
  waiting _ := rfl

/-! ## Other timers -/

omit [LinearOrder T] [Add T] in
/-- The timer is left alone, and so are its handlers. -/
theorem Views.congr (h : Views r t o)
    (htimer : (r'.timers.timers t).withoutIndex = (r.timers.timers t).withoutIndex)
    (hwaiting : ∀ key, (r'.waiting.queue key).count t = (r.waiting.queue key).count t) :
    Views r' t o := by
  simp only [TimerBase.withoutIndex, TimerBase.mk.injEq] at htimer
  obtain ⟨htime, honce, -, -, hdesc, hflag⟩ := htimer
  exact
    { inHeap := by rw [htime]; exact h.inHeap
      flag := by rw [hflag]; exact h.flag
      descriptor := by rw [hdesc]; exact h.descriptor
      once := honce.trans h.once
      waiting := fun key => (hwaiting key).trans (h.waiting key) }

omit [LinearOrder T] [Zero T] [Add T] [DecidableEq ι] in
/-- What waits depends on the register alone. -/
theorem waiting_of_register {s : ThreadTimers ι T}
    (hreg : s.eventActionRegister = r.timers.eventActionRegister) :
    TimerRun.waiting { r with timers := s } = r.waiting :=
  waiting_congr hreg rfl

omit [LinearOrder T] [Zero T] [Add T] [DecidableEq ι] in
/-- What waits when the handlers under a string are deregistered. -/
theorem waiting_deregister {s : ThreadTimers ι T} {d : EventActionDescriptor}
    (hreg : s.eventActionRegister = r.timers.eventActionRegister.deregisterEventActionHandler d)
    (key : StdString) : (TimerRun.waiting { r with timers := s }).queue key =
      if key = d.toString then [] else r.waiting.queue key := by
  unfold TimerRun.waiting
  dsimp only
  rw [hreg, EventActionRegister.deregisterEventActionHandler]
  cases r.running with
  | none => exact QueueMap.queue_erase ..
  | some e =>
    dsimp only
    rw [QueueMap.queue_pop, QueueMap.queue_pop, QueueMap.queue_erase]
    split <;> split <;> rfl

omit [Add T] in
/-- Another timer is stopped. -/
theorem Views.stop_other (h : Views r t o) (hok : HeapOk r.timers) {u : ι} (hu : t ≠ u)
    (halone : (r.timers.timers u).inEventActionRegister = false ∨
      ∀ d ∈ o.waiting, d.toString ≠ (r.timers.timers u).eventActionDescriptor.toString)
    {s : ThreadTimers ι T} (hs : r.timers.stop u = some s) :
    Views { r with timers := s } t o := by
  obtain ⟨s', hs', -, hothers, -, -, hreg⟩ := stop_eq hok u
  obtain rfl := Option.some.inj (hs'.symm.trans hs)
  refine h.congr (hothers t hu) fun key => ?_
  split at hreg
  · rename_i hflag
    rw [waiting_deregister hreg key]
    split
    · -- no handler of the timer is under the string
      rename_i hkey
      rcases halone with hclear | halone
      · rw [hflag] at hclear
        cases hclear
      · rw [h.waiting key, hkey, List.count_nil, eq_comm, List.countP_eq_zero]
        exact fun d hd => by simpa using halone d hd
    · rfl
  · rw [waiting_of_register hreg]

/-! ## The timer's own steps -/

omit [LinearOrder T] [Add T] in
/-- A view has the descriptor that is set. -/
theorem Views.setEventActionDescriptor (h : Views r t o) (d : EventActionDescriptor) :
    Views { r with timers := r.timers.setEventActionDescriptor t d } t
      (o.setEventActionDescriptor d) := by
  have hself := modify_self r.timers t fun b => { b with eventActionDescriptor := d }
  have hwait := waiting_of_register (r := r) (s := r.timers.setEventActionDescriptor t d) rfl
  rw [ThreadTimers.setEventActionDescriptor] at hwait ⊢
  exact
    { inHeap := by
        rw [hself]
        exact h.inHeap
      flag := by
        rw [hself]
        exact h.flag
      descriptor := by
        rw [hself]
        rfl
      once := by
        rw [hself]
        exact h.once
      waiting := fun key => by
        rw [hwait]
        exact h.waiting key }

/-- A view starts with its timer. -/
theorem Views.start (h : Views r t o) (hok : HeapOk r.timers) {now next : T}
    (hne : now + next ≠ 0) {s : ThreadTimers ι T} (hs : r.timers.start t now next 0 = some s) :
    Views { r with timers := s } t o.startOneShot := by
  obtain ⟨s', hs', -, -, htime, hflag, honce, hdesc, hreg⟩ := sets_of_modify hok t (now + next)
    (fun b => { b with repeatInterval := 0 }) (fun _ => rfl) fun _ => rfl
  obtain rfl := Option.some.inj (hs'.symm.trans hs)
  exact
    { inHeap := by rw [htime]; exact ⟨fun _ => hne, fun _ => rfl⟩
      flag := h.flag.trans hflag.symm
      descriptor := h.descriptor.trans hdesc.symm
      once := honce
      waiting := fun key => by
        rw [waiting_of_register hreg]
        exact h.waiting key }

omit [Add T] in
/-- A view stops with its timer. -/
theorem Views.stop (h : Views r t o) (hok : HeapOk r.timers) {s : ThreadTimers ι T}
    (hs : r.timers.stop t = some s) : Views { r with timers := s } t o.stop := by
  obtain ⟨s₁, hs₁, -, -, htime, hflag, honce, hdesc, hreg₁⟩ := sets_of_modify hok t 0
    (fun b => { b with repeatInterval := 0 }) (fun _ => rfl) fun _ => rfl
  obtain ⟨s', hs', -, -, -, -, hreg⟩ := stop_eq hok t
  obtain rfl := Option.some.inj (hs'.symm.trans hs)
  -- deregistering handlers does not touch the timers
  have htimers : s'.timers = s₁.timers := by
    rw [ThreadTimers.stop, hs₁] at hs
    obtain rfl := Option.some.inj hs
    dsimp only
    split <;> rfl
  rw [← htimers] at htime hflag honce hdesc
  refine
    { inHeap := ⟨fun hheap => absurd hheap Bool.false_ne_true, fun hne => absurd htime hne⟩
      flag := h.flag.trans hflag.symm
      descriptor := h.descriptor.trans hdesc.symm
      once := honce
      waiting := fun key => ?_ }
  rw [← h.flag] at hreg
  rw [OneShotTimer.stop]
  dsimp only
  split at hreg
  · rename_i hset
    rw [if_pos hset, waiting_deregister hreg key, List.countP_filter, h.descriptor]
    split
    · rename_i hkey
      rw [List.count_nil, eq_comm, List.countP_eq_zero]
      simp [hkey]
    · rename_i hkey
      rw [h.waiting key]
      refine List.countP_congr fun d _ => ?_
      simp only [decide_eq_true_eq, Bool.and_eq_true]
      exact ⟨fun hd => ⟨hd, hd ▸ hkey⟩, And.left⟩
  · rename_i hset
    rw [if_neg hset, waiting_of_register hreg]
    exact h.waiting key

/-- The timer of the component expires. -/
theorem Views.expire (h : Views r t o) (hok : HeapOk r.timers) (hidle : r.running = none)
    (hnull : o.inHeap = true → o.eventActionDescriptor.isNull = false) {fireTime now : T}
    {s : ThreadTimers ι T} (hs : r.timers.expire fireTime now = some s) :
    ∃ o', Views { r with timers := s } t o' ∧ OneShotTimer.Step o o' := by
  obtain ⟨u, hmem, -, hothers, hreg⟩ := expire_eq hok hs
  by_cases hu : t = u
  · subst hu
    have hheap : o.inHeap = true := h.inHeap.mpr ((hok.active t).mp hmem)
    have hdescriptor := hnull hheap
    rcases hreg with ⟨hnull', -⟩ | ⟨htime, honce, hreg, hflag, hdesc⟩
    · rw [← h.descriptor, hdescriptor] at hnull'
      cases hnull'
    · refine ⟨_, ?_, .expire (if_pos ⟨hheap, hdescriptor⟩)⟩
      exact
        { inHeap := ⟨fun hheap => absurd hheap Bool.false_ne_true, fun hne => absurd htime hne⟩
          flag := hflag.symm
          descriptor := h.descriptor.trans hdesc.symm
          once := honce.trans h.once
          waiting := fun key => by
            have hwaiting := h.waiting key
            unfold TimerRun.waiting at hwaiting ⊢
            dsimp only
            rw [hidle] at hwaiting ⊢
            dsimp only at hwaiting ⊢
            rw [hreg, EventActionRegister.registerEventActionHandler]
            dsimp only
            rw [QueueMap.queue_push, List.countP_append, ← hwaiting, ← h.descriptor]
            split
            · rename_i hkey
              rw [List.count_append]
              simp [hkey]
            · rename_i hkey
              simp [Ne.symm hkey] }
  · -- another timer: its handler is registered
    refine ⟨o, h.congr (hothers t hu) fun key => ?_, .stay o⟩
    rcases hreg with ⟨-, hreg⟩ | ⟨-, -, hreg, -⟩
    · rw [waiting_of_register hreg]
    · unfold TimerRun.waiting
      dsimp only
      rw [hidle]
      dsimp only
      rw [hreg, EventActionRegister.registerEventActionHandler]
      dsimp only
      rw [QueueMap.queue_push]
      split
      · rw [List.count_append]
        simp [Ne.symm hu]
      · rfl

omit [LinearOrder T] [Zero T] [Add T] [DecidableEq ι] in
/-- A handler starts to run: it does not wait any more. -/
theorem waiting_begin {s : ThreadTimers ι T} {d : EventActionDescriptor}
    (hidle : r.running = none)
    (hreg : s.eventActionRegister.descriptorToHandler =
      r.timers.eventActionRegister.descriptorToHandler) (key : StdString) :
    (TimerRun.waiting ⟨s, some d⟩).queue key =
      if key = d.toString then (r.waiting.queue key).tail else r.waiting.queue key := by
  unfold TimerRun.waiting
  dsimp only
  rw [hidle, hreg]
  exact QueueMap.queue_pop _ _ _

/-- A handler of the timer of the component is dispatched. -/
theorem Views.beginDispatch (h : Views r t o) (hok : HeapOk r.timers) (hidle : r.running = none)
    {d : EventActionDescriptor} {id originalId : EventActionId} {now : T} {u : ι} {rest : List ι}
    (hfront : r.timers.eventActionRegister.descriptorToHandler.queue d.toString = u :: rest)
    {s : ThreadTimers ι T}
    (hs : { r.timers with eventActionRegister :=
        r.timers.eventActionRegister.eventActionDispatchStart id originalId d }.fireTimerCallback
          u now = some s) :
    ∃ o', Views ⟨s, some d⟩ t o' ∧ OneShotTimer.Step o o' := by
  have hfront' : r.waiting.queue d.toString = u :: rest := by
    unfold TimerRun.waiting
    rw [hidle]
    exact hfront
  by_cases hu : t = u
  · subst hu
    obtain ⟨s', hs', -, -, htime, hflag, honce, hdesc, hreg⟩ := sets_of_modify
      (hok.withRegister (r.timers.eventActionRegister.eventActionDispatchStart id originalId d)) t
      (nextTime (r.timers.timers t) now) (fun b => { b with inEventActionRegister := false })
      (fun _ => rfl) fun _ => rfl
    have hsame : s' = s := by
      rw [← Option.some_inj, ← hs', ← hs]
      simp only [fireTimerCallback, modify_self, nextTime]
    subst hsame
    rw [nextTime, h.once, if_neg (fun hne => hne rfl)] at htime
    -- the handler waits under a descriptor with this string
    have hcount := h.waiting d.toString
    rw [hfront', List.count_cons_self] at hcount
    obtain ⟨e, he, hstring⟩ := List.countP_pos_iff.mp (Nat.lt_of_lt_of_eq (Nat.succ_pos _) hcount)
    rw [decide_eq_true_eq] at hstring
    refine ⟨_, ?_, .dispatch (d := e) (if_pos he)⟩
    refine
      { inHeap := ⟨fun hheap => absurd hheap Bool.false_ne_true, fun hne => absurd htime hne⟩
        flag := hflag.symm
        descriptor := h.descriptor.trans hdesc.symm
        once := honce.trans h.once
        waiting := fun key => ?_ }
    have hwaiting := h.waiting key
    have herase := List.countP_cons (p := fun d => decide (EventActionDescriptor.toString d = key))
      (a := e) (l := o.waiting.erase e)
    rw [(List.perm_cons_erase he).countP_eq, herase] at hwaiting
    rw [waiting_begin hidle (by rw [hreg]; rfl) key]
    split
    · rename_i hkey
      rw [hkey, hfront', List.count_cons_self, if_pos (by simpa [hkey] using hstring)] at hwaiting
      rw [hkey, hfront', List.tail_cons]
      exact Nat.succ_inj.mp hwaiting
    · rename_i hkey
      have hne : ¬decide (e.toString = key) = true := by simpa [hstring] using Ne.symm hkey
      rw [if_neg hne] at hwaiting
      exact hwaiting
  · obtain ⟨s', hs', -, hothers, -, -, hreg⟩ := fireTimerCallback_eq (hok.withRegister _) u now
    obtain rfl := Option.some.inj (hs'.symm.trans hs)
    refine ⟨o, h.congr (hothers t hu) fun key => ?_, .stay o⟩
    rw [waiting_begin hidle (by rw [hreg]; rfl) key]
    split
    · rename_i hkey
      rw [hkey, hfront', List.tail_cons, List.count_cons_of_ne (Ne.symm hu)]
    · rfl

/-! ## The simulation -/

/-- A step of the timers is a step of the one timer, or leaves it alone. -/
theorem Views.step {l : Label ι T} (h : Views r t o) (hok : HeapOk r.timers) (hsees : Sees r t o l)
    (hexec : r.exec l = some r') : ∃ o', Views r' t o' ∧ OneShotTimer.Step o o' := by
  cases exec_step hexec with
  | @start u now next again s hs =>
    by_cases hu : t = u
    · subst hu
      obtain ⟨hne, rfl⟩ := hsees rfl
      exact ⟨_, h.start hok hne hs, .startOneShot o⟩
    · obtain ⟨s', hs', hset⟩ := start_sets hok u now next again
      obtain rfl := Option.some.inj (hs'.symm.trans hs)
      exact ⟨o, h.congr (hset.others t hu) fun key => by rw [waiting_of_register hset.register],
        .stay o⟩
  | @stop u s hs =>
    by_cases hu : t = u
    · subst hu
      exact ⟨_, h.stop hok hs, .stop o⟩
    · exact ⟨o, h.stop_other hok hu (hsees.resolve_left (Ne.symm hu)) hs, .stay o⟩
  | @augmentFireInterval u delta s hs =>
    obtain ⟨s', hs', hset⟩ := augmentFireInterval_sets hok u delta
    obtain rfl := Option.some.inj (hs'.symm.trans hs)
    exact ⟨o, h.congr (hset.others t (Ne.symm hsees)) fun key => by
      rw [waiting_of_register hset.register], .stay o⟩
  | @augmentRepeatInterval u delta s hs =>
    obtain ⟨s', hs', hset⟩ := augmentRepeatInterval_sets hok u delta
    obtain rfl := Option.some.inj (hs'.symm.trans hs)
    exact ⟨o, h.congr (hset.others t (Ne.symm hsees)) fun key => by
      rw [waiting_of_register hset.register], .stay o⟩
  | setEventActionDescriptor u d =>
    by_cases hu : t = u
    · subst hu
      exact ⟨_, h.setEventActionDescriptor d, .setEventActionDescriptor o d⟩
    · have hwait := waiting_of_register (r := r) (s := r.timers.setEventActionDescriptor u d) rfl
      exact ⟨o, h.congr (modify_withoutIndex (s := r.timers)
        (fun b => { b with eventActionDescriptor := d }) hu) fun key => by rw [hwait], .stay o⟩
  | expire hidle hs => exact h.expire hok hidle hsees hs
  | beginDispatch hidle hfront hs => exact h.beginDispatch hok hidle hfront hs
  | @endDispatch d originalId reg hrunning hpop =>
    obtain ⟨-, hmap, -⟩ := EventActionRegister.popHandler_eq_some hpop
    -- the handler that has run is popped, which `waiting` anticipates
    have hwait : TimerRun.waiting ⟨{ r.timers with
        eventActionRegister := reg.eventActionDispatchEnd true originalId }, none⟩ = r.waiting := by
      unfold TimerRun.waiting
      rw [hrunning]
      exact hmap
    exact ⟨o, h.congr rfl fun key => by rw [hwait], .stay o⟩

end R4.TimerRun
