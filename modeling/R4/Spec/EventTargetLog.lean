import R4.ForStd.Nesting
import R4.Spec.EventDispatch
import R4.Spec.LoggedAccesses

/-!
# What is reported of an event target

The race detector reads from the action log what an event action read and wrote. A type of event of
a target is one memory location: adding and removing a listener reports a write of it, firing an
event reports a read. This holds of every run, with one exception, the removal of all listeners,
which nothing is reported of. The scopes that the functions report are nested, and those that are
open are the activations under way. The action log drops an access that its event action has logged
already, and nothing of that is lost.

## Key results

- `reports_step`: what one step reports
- `HandedOver.kept`: the action log keeps the reads and writes that are reported
- `event_target_logs_changes`: as long as nothing is written to the location of a type of event, its
  listeners stay as they are
-/

namespace R4.EventTargetLog

open EventTarget EventDispatch

variable {L : Type}

/-- The commands that open and close a scope. -/
def scopes : Brackets LogReport where
  isOpen command := command.1 = .enterScope
  isClose command := command.1 = .exitScope
  disjoint command h := by
    rw [decide_eq_true_eq] at h
    rw [h]
    decide

/-- The registered listeners of a type. -/
def registered (s : EventTarget L) (t : AtomicString) : List (RegisteredEventListener L) :=
  ((s.find t).map EventListenerVector.listeners).getD []

/-- A run from `s` to `s'` reports `commands`. Scopes are closed that it has opened or that belong
    to an activation of `s`, and what is registered changes only with a write, or if `cleared`. -/
structure Reports (object : EventTargetObject) (cleared : Prop) (s s' : EventTarget L)
    (commands : List LogReport) : Prop where
  reports : s'.reports = s.reports ++ commands
  depth : s.firing.length + scopes.depth commands = s'.firing.length
  nested : ∀ u, u <+: commands → 0 ≤ s.firing.length + scopes.depth u
  unchanged : ∀ t, EventTargetAccess object .writeMemory t ∉ commands →
    cleared ∨ registered s' t = registered s t
  reads : ∀ f ∈ s'.firing, (∃ f' ∈ s.firing, f'.event = f.event) ∨
    EventTargetAccess object .readMemory f.event.type ∈ commands

/-- The scopes of commands without scopes. -/
theorem depth_of_plain {commands : List LogReport}
    (h : ∀ c ∈ commands, c.1 ≠ .enterScope ∧ c.1 ≠ .exitScope) : scopes.depth commands = 0 := by
  induction commands with
  | nil => rfl
  | cons c commands ih =>
    rw [List.forall_mem_cons] at h
    rw [scopes.depth_cons, ih h.2, scopes.depth_plain (by simp [scopes, h.1.1])
      (by simp [scopes, h.1.2]), Int.add_zero]

/-- Without a command that closes a scope all scopes that are opened stay open. -/
theorem depth_nonneg {commands : List LogReport} (h : ∀ c ∈ commands, c.1 ≠ .exitScope) :
    0 ≤ scopes.depth commands := by
  have hclose : commands.countP scopes.isClose = 0 :=
    List.countP_eq_zero.mpr fun c hc => by simp [scopes, h c hc]
  rw [Brackets.depth, hclose]
  omega

/-- What two steps report, one behind the other. -/
theorem Reports.trans {object : EventTargetObject} {cleared cleared' : Prop}
    {s s' s'' : EventTarget L} {commands commands' : List LogReport}
    (h : Reports object cleared s s' commands)
    (h' : Reports object cleared' s' s'' commands') :
    Reports object (cleared ∨ cleared') s s'' (commands ++ commands') where
  reports := by rw [h'.reports, h.reports, List.append_assoc]
  -- what is open after both is open after one of them or the other
  depth := by
    have := h.depth
    have := h'.depth
    rw [Brackets.depth_append]
    omega
  nested u hu := by
    -- a prefix ends in the first part, or in the second with the first one closed as far as it is
    rcases List.prefix_or_prefix_of_prefix hu (List.prefix_append _ _) with hu' | ⟨v, rfl⟩
    · exact h.nested u hu'
    · have hv := (List.prefix_append_right_inj _).mp hu
      have := h.depth
      have := h'.nested v hv
      rw [Brackets.depth_append]
      omega
  unchanged t ht := by
    rw [List.mem_append, not_or] at ht
    -- a type that no step mentions is left alone by both
    rcases h.unchanged t ht.1 with hc | heq
    · exact Or.inl (Or.inl hc)
    · rcases h'.unchanged t ht.2 with hc | heq'
      · exact Or.inl (Or.inr hc)
      · exact Or.inr (heq'.trans heq)
  reads f hf := by
    -- an activation was there before, or its vector has been read by one of the steps
    rcases h'.reads f hf with ⟨f', hf', heq⟩ | hread
    · rcases h.reads f' hf' with ⟨f'', hf'', heq'⟩ | hread
      · exact Or.inl ⟨f'', hf'', heq'.trans heq⟩
      · exact Or.inr (List.mem_append_left _ (heq ▸ hread))
    · exact Or.inr (List.mem_append_right _ hread)

/-- A step after which less is known to be left alone. -/
theorem Reports.mono {object : EventTargetObject} {cleared cleared' : Prop} {s s' : EventTarget L}
    {commands : List LogReport} (h : Reports object cleared s s' commands)
    (himp : cleared → cleared') : Reports object cleared' s s' commands where
  reports := h.reports
  depth := h.depth
  nested := h.nested
  unchanged t ht := (h.unchanged t ht).imp_left himp
  reads := h.reads

/-- Nothing happens. -/
theorem Reports.refl (object : EventTargetObject) (s : EventTarget L) :
    Reports object False s s [] where
  reports := (List.append_nil _).symm
  depth := by simp
  nested u hu := by
    rw [List.prefix_nil.mp hu, Brackets.depth_nil]
    omega
  unchanged _ _ := Or.inr rfl
  reads f hf := Or.inl ⟨f, hf, rfl⟩

/-- Commands without scopes, where the activations stay. -/
theorem Reports.of_plain {object : EventTargetObject} {cleared : Prop} {s s' : EventTarget L}
    {commands : List LogReport} (reports : s'.reports = s.reports ++ commands)
    (plain : ∀ c ∈ commands, c.1 ≠ .enterScope ∧ c.1 ≠ .exitScope)
    (firing : s'.firing.map FiringEventIterator.event = s.firing.map FiringEventIterator.event)
    (unchanged : ∀ t, EventTargetAccess object .writeMemory t ∉ commands →
      cleared ∨ registered s' t = registered s t) : Reports object cleared s s' commands where
  reports := reports
  depth := by
    have hlen := congrArg List.length firing
    rw [List.length_map, List.length_map] at hlen
    rw [depth_of_plain plain, hlen, Int.add_zero]
  nested u hu := by
    rw [depth_of_plain fun c hc => plain c (hu.subset hc)]
    omega
  unchanged := unchanged
  reads f hf := by
    obtain ⟨f', hf', heq⟩ := List.mem_map.mp (firing ▸ List.mem_map_of_mem hf)
    exact Or.inl ⟨f', hf', heq⟩

/-- The commands of a change: a scope with a write and the value written. -/
def changeCommands (object : EventTargetObject) (name : StdString) (t : AtomicString)
    (value : StdString) : List LogReport :=
  [ActionLogScopeStart name, EventTargetAccess object .writeMemory t,
    ActionLogFormat .memoryValue value, ActionLogScopeEnd]

/-- The reports of a change are a scope. -/
theorem exists_forest_changeCommands (object : EventTargetObject) (name : StdString)
    (t : AtomicString) (value : StdString) :
    ∃ forest : Brackets.Forest LogReport,
      forest.text = changeCommands object name t value ∧ forest.Proper scopes := by
  refine ⟨.scope (ActionLogScopeStart name) ActionLogScopeEnd
    (.plain (EventTargetAccess object .writeMemory t)
      (.plain (ActionLogFormat .memoryValue value) .nil)) .nil, rfl, ?_⟩
  simp [Brackets.Forest.Proper, scopes, ActionLogScopeStart, EventTargetAccess, ActionLogFormat,
    ActionLogScopeEnd]

/-- A step that changes the listeners of one type and reports so. -/
theorem Reports.of_change {object : EventTargetObject} {s s' : EventTarget L} {name : StdString}
    {t : AtomicString} {value : StdString}
    (reports : s'.reports = s.reports ++ changeCommands object name t value)
    (firing : s'.firing.map FiringEventIterator.event = s.firing.map FiringEventIterator.event)
    (unchanged : ∀ t', t' ≠ t → registered s' t' = registered s t') :
    Reports object False s s' (changeCommands object name t value) where
  reports := reports
  depth := by
    -- the reports are one scope, which is closed at its end
    obtain ⟨forest, htext, hproper⟩ := exists_forest_changeCommands object name t value
    have hlen := congrArg List.length firing
    rw [List.length_map, List.length_map] at hlen
    rw [← htext, hproper.depth_text, hlen, Int.add_zero]
  nested u hu := by
    obtain ⟨forest, htext, hproper⟩ := exists_forest_changeCommands object name t value
    -- no prefix of it closes more than it opens
    have := hproper.prefix_text (htext ▸ hu)
    omega
  unchanged t' ht' := by
    -- only the type of the listener changes
    refine Or.inr (unchanged t' ?_)
    rintro rfl
    exact ht' (List.mem_cons_of_mem _ List.mem_cons_self)
  reads f hf := by
    -- the activations are those from before
    obtain ⟨f', hf', heq⟩ := List.mem_map.mp (firing ▸ List.mem_map_of_mem hf)
    exact Or.inl ⟨f', hf', heq⟩

/-- Attaching an event reports nothing that is logged. -/
theorem reports_attachEvent (object : EventTargetObject) (s : EventTarget L) (t : AtomicString) :
    (s.attachEvent object t).reports = s.reports := by
  rw [attachEvent]
  split <;> rfl

/-- Nor does detaching the events. -/
theorem reports_detachEvents (object : EventTargetObject) (s : EventTarget L) :
    (s.detachEvents object).reports = s.reports := by
  rw [detachEvents]
  split <;> rfl

/-- What is registered depends on the vector alone. -/
theorem registered_congr {s s' : EventTarget L} {t : AtomicString} (h : s'.find t = s.find t) :
    registered s' t = registered s t := by
  rw [registered, registered, h]

section

variable [DecidableEq L]

/-- Registering a listener. -/
theorem reports_addEventListener {object : EventTargetObject} {s s' : EventTarget L}
    {t : AtomicString} {r : RegisteredEventListener L} {added : Bool}
    (h : s.addEventListener object t r = some (added, s')) :
    ∃ commands, Reports object False s s' commands := by
  obtain ⟨vector, -, hshows⟩ := shows_addEventListener h
  refine ⟨changeCommands object "addEventListener".toList t
    ("Event[".toList ++ pointerText r.listener.address ++ "]".toList), .of_change ?_ ?_ ?_⟩
  · rw [addEventListener, Option.map_eq_some_iff] at h
    obtain ⟨result, -, heq⟩ := h
    rw [← (Prod.mk.inj heq).2]
    simp only [report, reports_attachEvent, List.append_assoc]
    rfl
  · rw [hshows.firing]
  · intro t' ht'
    exact registered_congr ((hshows.find t').trans (if_neg ht'))

/-- Removing a listener. -/
theorem reports_removeEventListener (object : EventTargetObject) (s : EventTarget L)
    (t : AtomicString) (r : RegisteredEventListener L) :
    ∃ commands, Reports object False s (s.removeEventListener object t r).2 commands := by
  have hshows := shows_removeEventListener object s t r
  -- the activations may have been told of the removal, but they are for the same events
  have hfiring : (s.removeEventListener object t r).2.firing.map FiringEventIterator.event =
      s.firing.map FiringEventIterator.event := by
    rw [hshows.firing]
    cases (s.find t).bind fun vector => EventListenerMap.indexOf vector r with
    | none => rfl
    | some index =>
      rw [Option.elim_some, List.map_map]
      exact List.map_congr_left fun f _ => event_notify f t index
  cases hdata : s.eventTargetData with
  | none =>
    -- nothing is registered at the target, and nothing is reported
    have hs' : (s.removeEventListener object t r).2 = s.detachEvents object := by
      simp [removeEventListener, hdata]
    refine ⟨[], .of_plain ?_ (List.forall_mem_nil _) hfiring fun t' _ => Or.inr ?_⟩
    · rw [hs', reports_detachEvents, List.append_nil]
    · refine registered_congr ?_
      rw [hs', EventTarget.find, EventTarget.find, eventTargetData_detachEvents]
  | some d =>
    -- the removal is reported, whether or not the listener was found
    refine ⟨changeCommands object "removeEventListener".toList t "undefined".toList,
      .of_change ?_ hfiring ?_⟩
    · cases hremoved : (d.eventListenerMap.remove t r).1 <;>
        simp [removeEventListener, hdata, hremoved, report, reports_detachEvents, changeCommands]
    · intro t' ht'
      exact registered_congr ((hshows.find t').trans (if_neg ht'))

/-- Setting the listener of an attribute. -/
theorem reports_setAttributeEventListener {object : EventTargetObject} {isAttribute : L → Bool}
    {s s' : EventTarget L} {t : AtomicString} {listener : Option (EventListener L)} {added : Bool}
    (h : s.setAttributeEventListener object isAttribute t listener = some (added, s')) :
    ∃ commands, Reports object False s s' commands := by
  -- setting an attribute reads its listener first
  have hread : Reports object False s (s.report [EventTargetAccess object .readMemory t])
      [EventTargetAccess object .readMemory t] :=
    .of_plain rfl (by simp [EventTargetAccess, ActionLogFormat]) rfl fun _ _ => Or.inr rfl
  have hclear : ∃ commands, Reports object False s
      (s.clearAttributeEventListener object isAttribute t).2 commands := by
    have hget : s.getAttributeEventListener object isAttribute t =
        ((((((s.find t).map EventListenerVector.listeners).getD []).find?
          fun r => isAttribute r.listener.value).map RegisteredEventListener.listener),
          s.report [EventTargetAccess object .readMemory t]) := rfl
    rw [clearAttributeEventListener, hget]
    cases (((s.find t).map EventListenerVector.listeners).getD []).find?
        fun r => isAttribute r.listener.value with
    -- there is none to be removed
    | none => exact ⟨_, hread⟩
    | some r =>
      -- the one that was read is removed
      obtain ⟨commands, hreports⟩ := reports_removeEventListener object
        (s.report [EventTargetAccess object .readMemory t]) t ⟨r.listener, false⟩
      exact ⟨_, (hread.trans hreports).mono or_self_iff.mp⟩
  -- the new listener, if there is one, is added behind the removal
  cases listener with
  | none =>
    obtain ⟨-, rfl⟩ := Prod.mk.inj (Option.some.inj h)
    exact hclear
  | some listener =>
    obtain ⟨commands, hreports⟩ := hclear
    obtain ⟨commands', hreports'⟩ := reports_addEventListener h
    exact ⟨_, (hreports.trans hreports').mono or_self_iff.mp⟩

end

/-- Firing an event. -/
theorem reports_fireEventListeners (object : EventTargetObject) (s : EventTarget L)
    (event : FiredEvent) :
    ∃ commands, Reports object False s (s.fireEventListeners object event) commands := by
  have hshows := shows_fireEventListeners object s event
  have hfind : ∀ t, registered (s.fireEventListeners object event) t = registered s t :=
    fun t => registered_congr (hshows.find t)
  have hfiring := hshows.firing
  cases hdata : s.eventTargetData with
  | none =>
    -- the target has no data, and nothing is fired
    have hs' : s.fireEventListeners object event = s := by rw [fireEventListeners, hdata]
    rw [hs']
    exact ⟨[], .refl object s⟩
  | some d =>
    have hsfind : s.find event.type = d.eventListenerMap.find event.type := by
      rw [EventTarget.find, hdata]
    -- what is reported whether or not somebody listens
    let reads : List LogReport :=
      [ActionLogFormat .readMemory ("NodeTree:".toList ++ pointerText object.address),
        EventTargetAccess object .readMemory event.type]
    cases hentry : d.eventListenerMap.find event.type with
    | none =>
      -- nobody listens to the type
      refine ⟨reads, .of_plain ?_ (by simp [reads, EventTargetAccess, ActionLogFormat]) ?_
        fun t _ => Or.inr (hfind t)⟩
      · simp only [fireEventListeners, hdata, hentry, report, reads]
      · rw [hfiring, hsfind, hentry]
        rfl
    | some entry =>
      -- the scope of the dispatch is opened, and closed when its loop ends
      rw [hsfind, hentry, Option.elim_some] at hfiring
      refine ⟨reads ++ [ActionLogFormat .enterScope ("fire:".toList ++ asciiData event.type ++
        " @ ".toList ++ phaseText event.eventPhase)], ?_, ?_, ?_, fun t _ => Or.inr (hfind t), ?_⟩
      · simp only [fireEventListeners, hdata, hentry, report, reads, List.append_assoc]
      · -- it is one more scope that is open
        rw [hfiring, Brackets.depth_append,
          depth_of_plain (by simp [reads, EventTargetAccess, ActionLogFormat]),
          scopes.depth_open (by simp [scopes, ActionLogFormat]), List.length_cons]
        omega
      · intro u hu
        -- a prefix of the reports opens a scope at most
        have : 0 ≤ scopes.depth u := depth_nonneg fun c hc => by
          have hc' := hu.subset hc
          simp only [reads, List.cons_append, List.nil_append, List.mem_cons,
            List.not_mem_nil, or_false] at hc'
          rcases hc' with rfl | rfl | rfl <;> simp [EventTargetAccess, ActionLogFormat]
        omega
      · intro f hf
        rw [hfiring] at hf
        -- the new activation reads the vector of its type, which has been reported
        rcases List.mem_cons.mp hf with rfl | hf
        · exact Or.inr (List.mem_append_left _ (List.mem_cons_of_mem _ List.mem_cons_self))
        · exact Or.inl ⟨f, hf, rfl⟩

/-- An activation ends, and its scope with it. -/
theorem reports_finished (object : EventTargetObject) {s : EventTarget L} {d : EventTargetData L}
    {f : FiringEventIterator} {fs : List FiringEventIterator} (hdata : s.eventTargetData = some d)
    (hfiring : d.firingEventIterators = f :: fs) :
    Reports object False s
      (({ s with eventTargetData := some { d with firingEventIterators := fs } } :
        EventTarget L).report [ActionLogScopeEnd]) [ActionLogScopeEnd] := by
  have hs : s.firing = f :: fs := by rw [firing, hdata, ← hfiring]
  refine ⟨rfl, ?_, fun u hu => ?_, fun t _ => Or.inr ?_, fun f' hf' => Or.inl ⟨f', ?_, rfl⟩⟩
  · -- the scope of the dispatch is closed
    rw [scopes.depth_close (by simp [scopes, ActionLogScopeEnd]), hs, List.length_cons]
    simp [firing]
  · rw [hs, List.length_cons]
    rcases List.prefix_cons_iff.mp hu with rfl | ⟨v, rfl, hv⟩
    · -- the empty prefix
      rw [Brackets.depth_nil]
      omega
    · -- the whole of it, which closes a scope that was open
      rw [List.prefix_nil.mp hv, scopes.depth_close (by simp [scopes, ActionLogScopeEnd])]
      omega
  · refine registered_congr ?_
    rw [EventTarget.find, EventTarget.find, hdata]
    rfl
  · rw [hs]
    exact List.mem_cons_of_mem _ hf'

/-- The last activation goes on. -/
theorem reports_setFiring (object : EventTargetObject) {s : EventTarget L} {d : EventTargetData L}
    {f f' : FiringEventIterator} {fs : List FiringEventIterator}
    (hdata : s.eventTargetData = some d) (hfiring : d.firingEventIterators = f :: fs)
    (hevent : f'.event = f.event) :
    Reports object False s
      { s with eventTargetData := some { d with firingEventIterators := f' :: fs } } [] := by
  have hs : s.firing = f :: fs := by rw [firing, hdata, ← hfiring]
  refine .of_plain (List.append_nil _).symm (List.forall_mem_nil _) ?_ fun t _ => Or.inr ?_
  · rw [hs, List.map_cons, ← hevent]
    rfl
  · refine registered_congr ?_
    rw [EventTarget.find, EventTarget.find, hdata]

/-- The loop of a dispatch. -/
theorem reports_loop (object : EventTargetObject) {s s' : EventTarget L} {outcome : LoopOutcome L}
    (h : s.loop = some (outcome, s')) : ∃ commands, Reports object False s s' commands := by
  rw [loop] at h
  cases hdata : s.eventTargetData with
  | none =>
    rw [hdata] at h
    cases h
  | some d =>
    cases hfiring : d.firingEventIterators with
    | nil => simp [hdata, hfiring] at h
    | cons f fs =>
      simp only [hdata, hfiring] at h
      split at h
      · -- there is a listener to look at
        rw [Option.map_eq_some_iff] at h
        obtain ⟨r, -, heq⟩ := h
        split at heq
        · -- it is not called
          rw [← (Prod.mk.inj heq).2]
          exact ⟨_, reports_setFiring object hdata hfiring rfl⟩
        · split at heq
          · -- the dispatch was stopped, or the listener is called
            rw [← (Prod.mk.inj heq).2]
            exact ⟨_, reports_finished object hdata hfiring⟩
          · rw [← (Prod.mk.inj heq).2]
            exact ⟨_, reports_setFiring object hdata hfiring rfl⟩
      · -- the end is reached, or the index is behind it
        simp only [Option.some.injEq, Prod.mk.injEq] at h
        rw [← h.2]
        exact ⟨_, reports_finished object hdata hfiring⟩

/-- The return of a handler. -/
theorem reports_handled (object : EventTargetObject) (s : EventTarget L) :
    ∃ commands, Reports object False s s.handled commands := by
  cases hdata : s.eventTargetData with
  | none => exact ⟨[], by simpa [handled, hdata] using Reports.refl object s⟩
  | some d =>
    cases hfiring : d.firingEventIterators with
    | nil => exact ⟨[], by simpa [handled, hdata, hfiring] using Reports.refl object s⟩
    | cons f fs =>
      simp only [handled, hdata, hfiring]
      exact ⟨_, reports_setFiring object hdata hfiring rfl⟩

/-- Nothing is logged when all listeners go. -/
theorem reports_removeAllEventListeners (object : EventTargetObject) (s : EventTarget L) :
    Reports object True s s.removeAllEventListeners [] := by
  have hshows := shows_removeAllEventListeners s
  refine .of_plain ?_ (List.forall_mem_nil _) ?_ fun _ _ => Or.inl trivial
  · rw [removeAllEventListeners]
    split <;> exact (List.append_nil _).symm
  · rw [hshows.firing, List.map_map]
    rfl

variable [DecidableEq L]

/-- Every step reports what it changes, unless it removes all listeners. -/
theorem reports_step {object : EventTargetObject} {isAttribute : L → Bool} {s s' : EventTarget L}
    {l : Label L} (h : s.step object isAttribute l = some s') :
    ∃ commands, Reports object (l = .removeAllEventListeners) s s' commands := by
  -- only the removal of all listeners changes something without a report
  have hmono : (∃ commands, Reports object False s s' commands) →
      ∃ commands, Reports object (l = .removeAllEventListeners) s s' commands :=
    fun ⟨commands, hreports⟩ => ⟨commands, hreports.mono False.elim⟩
  cases l with
  | addEventListener t r =>
    simp only [step, Option.ite_none_right_eq_some, Option.map_eq_some_iff] at h
    obtain ⟨-, ⟨added, s''⟩, hadd, rfl⟩ := h
    exact hmono (reports_addEventListener hadd)
  | removeEventListener t r =>
    simp only [step, Option.ite_none_right_eq_some, Option.some.injEq] at h
    obtain ⟨-, rfl⟩ := h
    exact hmono (reports_removeEventListener object s t r)
  | setAttributeEventListener t listener =>
    simp only [step, Option.ite_none_right_eq_some, Option.map_eq_some_iff] at h
    obtain ⟨-, ⟨added, s''⟩, hset, rfl⟩ := h
    exact hmono (reports_setAttributeEventListener hset)
  | removeAllEventListeners =>
    simp only [step, Option.ite_none_right_eq_some, Option.some.injEq] at h
    obtain ⟨-, rfl⟩ := h
    exact ⟨[], (reports_removeAllEventListeners object s).mono fun _ => rfl⟩
  | fireEventListeners event =>
    simp only [step, Option.ite_none_right_eq_some, Option.some.injEq] at h
    obtain ⟨-, rfl⟩ := h
    exact hmono (reports_fireEventListeners object s event)
  | stopImmediatePropagation event =>
    simp only [step, Option.ite_none_right_eq_some, Option.some.injEq] at h
    obtain ⟨-, rfl⟩ := h
    exact ⟨[], .of_plain (List.append_nil _).symm (List.forall_mem_nil _) rfl
      fun _ _ => Or.inr rfl⟩
  | loop outcome =>
    simp only [step, Option.ite_none_left_eq_some, Option.bind_eq_some_iff,
      Option.ite_none_right_eq_some, Option.some.injEq] at h
    obtain ⟨-, ⟨outcome', s''⟩, hloop, -, rfl⟩ := h
    exact hmono (reports_loop object hloop)
  | handled =>
    simp only [step, Option.ite_none_right_eq_some, Option.some.injEq] at h
    obtain ⟨-, rfl⟩ := h
    exact hmono (reports_handled object s)

/-- The runs that go on from a state. -/
def systemFrom (object : EventTargetObject) (isAttribute : L → Bool) (s₀ : EventTarget L) :
    Lts (EventTarget L) (Label L) where
  init s := s = s₀
  step := (EventTarget.system object isAttribute).step

/-- What a run reports, from any state on. -/
theorem reports_run {object : EventTargetObject} {isAttribute : L → Bool} {s₀ s : EventTarget L}
    {ls : List (Label L)} (r : (systemFrom object isAttribute s₀).Runs ls s) :
    ∃ commands, Reports object (.removeAllEventListeners ∈ ls) s₀ s commands := by
  induction r with
  | nil hinit =>
    rw [hinit]
    exact ⟨[], (Reports.refl object s₀).mono False.elim⟩
  | @snoc s s' ls l _ hstep ih =>
    obtain ⟨commands, hreports⟩ := ih
    obtain ⟨commands', hreports'⟩ := reports_step hstep
    refine ⟨_, (hreports.trans hreports').mono ?_⟩
    rintro (hmem | rfl)
    · exact List.mem_append_left _ hmem
    · exact List.mem_append_right _ (List.mem_singleton_self _)

/-! ## The commands of the event actions -/

/-- The action log has got each report inside an event action, among its other calls. -/
def HandedOver (addString : CommandType → StdString → Int) (commands : List LogReport)
    (calls : List ActionLog.LogCall) : Prop :=
  ∀ report ∈ commands, ∃ i, ActionLog.LogsAt calls i (report.command addString)

/-- An event action that has made the report has its command. -/
def Kept (addString : CommandType → StdString → Int) (calls : List ActionLog.LogCall)
    (report : LogReport) : Prop :=
  ∃ i, ActionLog.LogsAt calls i (report.command addString) ∧
    report.command addString ∈ (ActionLog.LogCall.run calls).commandsOf
      (ActionLog.LogCall.run (calls.take i)).currentEventActionId

/-- A report of a read or a write is kept. -/
theorem HandedOver.kept {addString : CommandType → StdString → Int} {commands : List LogReport}
    {calls : List ActionLog.LogCall} (h : HandedOver addString commands calls) {report : LogReport}
    (hmem : report ∈ commands) (haccess : report.1.isAccess = true) :
    Kept addString calls report := by
  have hcommand : (report.command addString).cmdType.isAccess = true := by
    rw [LogReport.command]
    split
    · rename_i hexit
      rw [hexit] at haccess
      exact absurd haccess (by decide)
    · exact haccess
  obtain ⟨i, hi⟩ := h report hmem
  exact ⟨i, hi, ActionLog.logged_access_stays hcommand hi⟩

/-- One event action can make all reports. -/
theorem handedOver_callsOf (addString : CommandType → StdString → Int)
    (commands : List LogReport) :
    HandedOver addString commands
      (ActionLog.callsOf 1 (commands.map fun report => report.command addString)) :=
  fun _ hreport => ActionLog.exists_logsAt_callsOf (by decide) (List.mem_map_of_mem hreport)

/-- What a run reports, from any state on: its scopes are nested into those of the activations under
    way, and those that are open at its end are the ones of the activations at its end; every
    activation has reported a read of the location of its event; and the listeners of a type whose
    location is not written are what they were, unless all listeners were removed. Where the action
    log gets the reports inside event actions, the commands of these show it as well: a type whose
    listeners have changed is written by one, and the type of an activation is read by one. -/
theorem event_target_logs_changes (object : EventTargetObject) (isAttribute : L → Bool)
    {s₀ s : EventTarget L} {ls : List (Label L)}
    (r : (systemFrom object isAttribute s₀).Runs ls s) :
    ∃ commands, Reports object (.removeAllEventListeners ∈ ls) s₀ s commands ∧
      ∀ addString calls, HandedOver addString commands calls →
        (∀ t, registered s t ≠ registered s₀ t → .removeAllEventListeners ∈ ls ∨
          Kept addString calls (EventTargetAccess object .writeMemory t)) ∧
        ∀ f ∈ s.firing, (∃ f' ∈ s₀.firing, f'.event = f.event) ∨
          Kept addString calls (EventTargetAccess object .readMemory f.event.type) := by
  obtain ⟨commands, hreports⟩ := reports_run r
  refine ⟨commands, hreports, fun addString calls handed => ⟨fun t hchanged => ?_, fun f hf => ?_⟩⟩
  · by_cases hwrite : EventTargetAccess object .writeMemory t ∈ commands
    · exact .inr (handed.kept hwrite rfl)
    · exact .inl ((hreports.unchanged t hwrite).resolve_right hchanged)
  · exact (hreports.reads f hf).imp_right fun hread => handed.kept hread rfl

/-- Listeners that are added, called and removed, all in one event action: it has a write of their
    type. -/
theorem event_target_logs_changes_of_removing :
    ∃ s : EventTarget Nat, s.find clickType = some ⟨0, [bubbling 3]⟩ ∧ ∃ commands,
      Reports divElement (.removeAllEventListeners ∈ removingListeners) freshTarget s commands ∧
        ∀ addString : CommandType → StdString → Int, Kept addString
          (ActionLog.callsOf 1 (commands.map fun report => report.command addString))
          (EventTargetAccess divElement .writeMemory clickType) := by
  -- the run of the example, from a target on which nothing has happened
  let run := removingListeners.foldlM (fun s l => if True then
    s.step divElement (fun _ => false) l else none) freshTarget
  have hrun : (run.bind fun s => s.find clickType) = some ⟨0, [bubbling 3]⟩ := by decide +kernel
  obtain ⟨s, hs, hfind⟩ := Option.bind_eq_some_iff.mp hrun
  have r := Lts.Runs.foldlM (T := systemFrom divElement (fun _ => false) freshTarget)
    (fun _ _ => True) (fun _ _ _ h => h) (.nil rfl) hs
  obtain ⟨commands, hreports, hkept⟩ :=
    event_target_logs_changes divElement (fun _ => false) r.of_restrict
  refine ⟨s, hfind, commands, hreports, fun addString => ?_⟩
  -- at the end the listeners are not those of the start
  have hchanged : registered s clickType ≠ registered freshTarget clickType := by
    rw [registered, hfind]
    exact List.cons_ne_nil _ _
  have hkeeps : .removeAllEventListeners ∉ removingListeners := by simp [removingListeners]
  exact ((hkept addString _ (handedOver_callsOf addString commands)).1 clickType
    hchanged).resolve_left hkeeps

end R4.EventTargetLog
