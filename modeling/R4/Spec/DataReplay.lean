import R4.Spec.DataRecord
import R4.Spec.ReplayConservation

/-!
# Time and random values are replayed

A strict replay of a dispatch history looks up values under the unpatched string of the
schedule item that it runs, and that is the string under which the history's run logged
them. So the log of a key always starts with what the next event action with that key read,
however often the scheduler had to wait for it.

## Key results

- `runHandler_strict`: an event action that makes the reads of its log gets its values
- `dataInv_step`: what is left of the logs is what the event actions that are left read
-/

namespace R4

variable {O Q D E : Type} [DecidableEq Q]

/-- What a handler does: it asks for a value and goes on with the answer, it changes anything
    else and goes on, or it is done. `default` is what the provider that is replaced would
    return. -/
inductive Handler (O D E : Type) where
  | done
  | read (default : Read D) (next : Read D → Handler O D E)
  | change (f : EventActionRegister O × E → EventActionRegister O × E)
      (next : EventActionRegister O × E → Handler O D E)

/-- Started in a state and answered with these values, the handler asks for values of their
    kinds in their order, and for no other. -/
def Handler.Makes : Handler O D E → EventActionRegister O × E → List (Read D) → Prop
  | .done, _, reads => reads = []
  | .read _ _, _, [] => False
  | .read default next, s, value :: reads => value.kind = default.kind ∧ (next value).Makes s reads
  | .change f next, s, reads => (next (f s)).Makes (f s) reads

instance Handler.decidableMakes : (handler : Handler O D E) → (s : EventActionRegister O × E) →
    (reads : List (Read D)) → Decidable (handler.Makes s reads)
  | .done, _, [] => isTrue rfl
  | .done, _, _ :: _ => isFalse (fun h => nomatch h)
  | .read _ _, _, [] => isFalse id
  | .read _ next, s, value :: reads =>
    have := decidableMakes (next value) s reads
    inferInstanceAs (Decidable (_ ∧ _))
  | .change f next, s, reads => decidableMakes (next (f s)) (f s) reads

/-- The program around a replay. `takes` is what the handler or provider that takes an event
    action does, if there is one. -/
structure DataEnv (O D E : Type) where
  takes : EventActionRegister O → E → EventActionDescriptor → Option (Handler O D E)
  hbAllocateEventActionId : E → EventActionId × E
  actionLogStrictMode : Bool → E → E
  warningCollectorSetCurrentEventAction : EventActionId → E → E
  warningCollectorReport : StdString → StdString → StdString → E → E
  score : StdString → StdString → Nat

/-- The register, the providers and the rest. `values` is what the reads so far returned,
    which the source does not store. -/
structure DataWorld (O Q D E : Type) [DecidableEq Q] where
  register : EventActionRegister O
  time : TimeProviderReplay Q D
  random : RandomProviderReplay Q D
  values : List (Read D)
  rest : E

namespace DataWorld

/-- The logs that are replayed. -/
def inLogs (w : DataWorld O Q D E) : DataLogs Q D :=
  ⟨w.time.inLog, w.random.inDoubleLog, w.random.inUnsignedLog⟩

/-- A warning is reported. -/
def warn (p : DataEnv O D E) (warning : Option (String × String)) (rest : E) : E :=
  match warning with
  | none => rest
  | some (moduleName, text) => p.warningCollectorReport moduleName.toList text.toList [] rest

/-- One read: the value that is returned. -/
def read (p : DataEnv O D E) (fromStdString : StdString → Q) (providers : Providers)
    (w : DataWorld O Q D E) : Read D → Except String (Read D × DataWorld O Q D E)
  | .time default => do
    let (value, time, warning) ←
      w.time.currentTime fromStdString w.register providers.time default
    return (.time value, { w with
      time := time, values := w.values ++ [.time value], rest := warn p warning w.rest })
  | .random default => do
    let (value, random, warning) ←
      w.random.get fromStdString w.register providers.random default
    return (.random value, { w with
      random := random, values := w.values ++ [.random value], rest := warn p warning w.rest })
  | .randomUint32 default => do
    let (value, random, warning) ←
      w.random.getUint32 fromStdString w.register providers.random default
    return (.randomUint32 value, { w with
      random := random
      values := w.values ++ [.randomUint32 value]
      rest := warn p warning w.rest })

/-- A handler runs, up to the read that ends the process. -/
def runHandler (p : DataEnv O D E) (fromStdString : StdString → Q) (providers : Providers) :
    Handler O D E → DataWorld O Q D E → Except String (DataWorld O Q D E)
  | .done, w => .ok w
  | .read default next, w => do
    let (value, w) ← w.read p fromStdString providers default
    runHandler p fromStdString providers (next value) w
  | .change f next, w =>
    let s := f (w.register, w.rest)
    runHandler p fromStdString providers (next s) { w with register := s.1, rest := s.2 }

/-- `runEventAction`: whoever takes the event action runs between the two dispatch calls. -/
def runEventAction (p : DataEnv O D E) (fromStdString : StdString → Q) (providers : Providers)
    (newEventActionId originalEventActionId : EventActionId) (d : EventActionDescriptor)
    (w : DataWorld O Q D E) : Except String (Bool × DataWorld O Q D E) :=
  match p.takes w.register w.rest d with
  | none => .ok (false, w)
  | some handler => do
    let register := w.register.eventActionDispatchStart newEventActionId originalEventActionId d
    let w ← runHandler p fromStdString providers handler { w with register := register }
    return (true,
      { w with register := w.register.eventActionDispatchEnd true originalEventActionId })

end DataWorld

/-- What the scheduler sees of the program. -/
def DataEnv.replayEnv (p : DataEnv O D E) (fromStdString : StdString → Q) :
    ReplayEnv (DataWorld O Q D E) where
  runEventAction providers newId originalId d w :=
    (w.runEventAction p fromStdString providers newId originalId d).toOption
  getWaitingNames w := w.register.getWaitingNames
  translateOldIdToNew w := w.register.translateOldIdToNew
  debugPrintNames w := w.register.debugPrintNames
  hbAllocateEventActionId w :=
    let (id, rest) := p.hbAllocateEventActionId w.rest
    (id, { w with rest := rest })
  actionLogStrictMode mode w := { w with rest := p.actionLogStrictMode mode w.rest }
  warningCollectorSetCurrentEventAction id w :=
    { w with rest := p.warningCollectorSetCurrentEventAction id w.rest }
  warningCollectorReport module description details w :=
    { w with rest := p.warningCollectorReport module description details w.rest }
  score := p.score

/-! ## Reads -/

namespace DataWorld

/-- In strict mode a read gets the first value that is left. -/
theorem read_strict {p : DataEnv O D E} {fromStdString : StdString → Q} {providers : Providers}
    {ident : StdString} (htime : providers.time = ⟨.strict, some ident⟩)
    (hrandom : providers.random = ⟨.strict, some ident⟩) {w : DataWorld O Q D E}
    {default value : Read D} {rest : List (Read D)}
    (h : w.inLogs.entries default.kind (fromStdString ident) = value :: rest) :
    ∃ w', w.read p fromStdString providers default = .ok (value, w') ∧
      w'.values = w.values ++ [value] ∧ w'.register = w.register ∧ w'.rest = w.rest ∧
      ∀ kind key, w'.inLogs.entries kind key =
        if kind = default.kind ∧ key = fromStdString ident then rest
        else w.inLogs.entries kind key := by
  -- what a queue gives away is gone from the entries of its key only
  have hentries : ∀ {α : Type} (f : α → Read D) (m : QueueMap Q α) (q : List α) (key : Q),
      ((QueueMap.queue (m.insert (fromStdString ident) q) key).map f) =
        if key = fromStdString ident then q.map f else (m.queue key).map f := by
    intro α f m q key
    rw [QueueMap.queue_insert]
    split <;> rfl
  cases default with
  | time default =>
    -- the time
    obtain ⟨v, vs, hqueue, rfl, rfl⟩ := List.map_eq_cons_iff.mp h
    simp only [read, htime]
    rw [TimeProviderReplay.currentTime_strict w.register hqueue]
    refine ⟨_, rfl, rfl, rfl, rfl, fun kind key => ?_⟩
    cases kind <;> simp [inLogs, DataLogs.entries, Read.kind, hentries]
  | random default =>
    -- a random number
    obtain ⟨v, vs, hqueue, rfl, rfl⟩ := List.map_eq_cons_iff.mp h
    simp only [read, hrandom]
    rw [RandomProviderReplay.get_strict w.register hqueue]
    refine ⟨_, rfl, rfl, rfl, rfl, fun kind key => ?_⟩
    cases kind <;> simp [inLogs, DataLogs.entries, Read.kind, hentries]
  | randomUint32 default =>
    -- a random number without a sign
    obtain ⟨v, vs, hqueue, rfl, rfl⟩ := List.map_eq_cons_iff.mp h
    simp only [read, hrandom]
    rw [RandomProviderReplay.getUint32_strict w.register hqueue]
    refine ⟨_, rfl, rfl, rfl, rfl, fun kind key => ?_⟩
    cases kind <;> simp [inLogs, DataLogs.entries, Read.kind, hentries]

/-- A handler that makes the reads of the log gets the values of the log, and leaves what
    comes after them. -/
theorem runHandler_strict {p : DataEnv O D E} {fromStdString : StdString → Q}
    {providers : Providers} {ident : StdString} (htime : providers.time = ⟨.strict, some ident⟩)
    (hrandom : providers.random = ⟨.strict, some ident⟩) {tail : ReadKind → List (Read D)}
    {handler : Handler O D E} {reads : List (Read D)} {w : DataWorld O Q D E}
    (hmakes : handler.Makes (w.register, w.rest) reads)
    (h : ∀ kind, w.inLogs.entries kind (fromStdString ident) =
      reads.filter (fun r => r.kind = kind) ++ tail kind) :
    ∃ w', runHandler p fromStdString providers handler w = .ok w' ∧
      w'.values = w.values ++ reads ∧
      ∀ kind key, w'.inLogs.entries kind key =
        if key = fromStdString ident then tail kind else w.inLogs.entries kind key := by
  induction handler generalizing reads w with
  | done =>
    -- nothing is left to read
    obtain rfl := hmakes
    refine ⟨w, rfl, (List.append_nil _).symm, fun kind key => ?_⟩
    split
    · rename_i hkey
      rw [hkey, h]
      rfl
    · rfl
  | change f next ih =>
    exact ih _ (w := { w with register := (f (w.register, w.rest)).1, rest := _ }) hmakes h
  | read default next ih =>
    cases reads with
    | nil => exact hmakes.elim
    | cons value reads =>
      obtain ⟨hkind, hmakes⟩ := hmakes
      -- the first read of its kind is the first entry of the log
      have hfirst : w.inLogs.entries default.kind (fromStdString ident) =
          value :: (reads.filter (fun r => r.kind = default.kind) ++ tail default.kind) := by
        rw [h, List.filter_cons_of_pos (by simpa using hkind), List.cons_append]
      obtain ⟨w₁, hread, hvalues, hregister, hrest, hentries⟩ :=
        read_strict (p := p) htime hrandom hfirst
      rw [← hregister, ← hrest] at hmakes
      -- the logs of the other kinds are as they were
      obtain ⟨w₂, hrun, hvalues', hentries'⟩ := ih value hmakes fun kind => by
        rw [hentries]
        split
        · rename_i hsame
          rw [hsame.1]
        · rename_i hother
          rw [h, List.filter_cons_of_neg]
          simp only [decide_eq_true_eq]
          exact fun hvalue => hother ⟨(hvalue.symm.trans hkind), rfl⟩
      refine ⟨w₂, ?_, ?_, fun kind key => ?_⟩
      · simp only [runHandler, hread]
        exact hrun
      · rw [hvalues', hvalues, List.append_assoc, List.singleton_append]
      · rw [hentries']
        split
        · rfl
        · rename_i hkey
          rw [hentries, if_neg (fun hsame => hkey hsame.2)]

end DataWorld

/-! ## The scheduler -/

namespace DataReplay

open ReplayScheduler

/-- An attempt on the next item while the scheduler does not skip. -/
theorem tryHead_exact {W : Type} {env : ReplayEnv W} {x : ReplayItem} {rest : List ReplayItem}
    {s s' : ReplayScheduler W} {more : Bool} (hskip : s.skipAfterNextTry = false)
    (hnull : x.descriptor.isNull = false) (h : s.tryHead env x rest = some (more, s')) :
    ∃ d found w,
      patchDescriptor env x.descriptor
        (env.warningCollectorSetCurrentEventAction s.nextEventActionId s.world) = some d ∧
      env.runEventAction (s.providers.setCurrentDescriptorString d.toUnpatchedString)
        s.nextEventActionId x.id d
        (env.warningCollectorSetCurrentEventAction s.nextEventActionId s.world) = some (found, w) ∧
      s'.scheduleBacklog = s.scheduleBacklog ∧ s'.skipAfterNextTry = false ∧ s'.mode = s.mode ∧
      s'.providers = (s.providers.setCurrentDescriptorString
        d.toUnpatchedString).unsetCurrentDescriptorString ∧
      ((found = true ∧ s'.schedule = rest ∧
          s'.consumed = s.consumed ++ [{ x with descriptor := d }] ∧
          s'.world = (env.hbAllocateEventActionId w).2) ∨
        (found = false ∧ s'.schedule = { x with descriptor := d } :: rest ∧
          s'.consumed = s.consumed ∧ s'.world = w)) := by
  simp only [tryHead, tryExecuteEventActionDescriptor, hnull, Bool.false_eq_true, if_false,
    Option.bind_eq_bind, Option.bind_eq_some_iff, Option.pure_def, Option.some.injEq] at h
  -- the exact match is tried first
  obtain ⟨_, ⟨d, hd, ⟨found, s₁⟩, htry, rfl⟩, h⟩ := h
  simp only [tryDescriptor, runUnder, Option.bind_eq_bind, Option.bind_eq_some_iff,
    Option.pure_def, Option.some.injEq] at htry
  obtain ⟨_, ⟨⟨found₀, w⟩, hrun, rfl⟩, ⟨found₁, s₂⟩, hfuzzy, htry⟩ := htry
  -- no fuzzy match, since nothing is skipped
  simp only [fuzzyStage, hskip, Bool.false_eq_true, false_and, and_false, if_false,
    Option.some.injEq, Prod.mk.injEq] at hfuzzy
  obtain ⟨rfl, rfl⟩ := hfuzzy
  refine ⟨d, found₀, w, hd, hrun, ?_⟩
  cases found₀ with
  | true =>
    -- a hit takes the head off the schedule
    simp only [if_true] at htry
    obtain ⟨rfl, rfl⟩ := htry
    simp only [if_true] at h
    obtain ⟨-, rfl⟩ := h
    exact ⟨rfl, rfl, rfl, rfl, .inl ⟨rfl, rfl, rfl, rfl⟩⟩
  | false =>
    -- a miss leaves it, and starts the timer
    simp only [Bool.false_eq_true, if_false] at htry
    obtain ⟨rfl, rfl⟩ := htry
    simp only [Bool.false_eq_true, if_false] at h
    split at h
    · obtain ⟨-, rfl⟩ := Prod.mk.inj (Option.some.inj h)
      exact ⟨rfl, rfl, rfl, rfl, .inr ⟨rfl, rfl, rfl, rfl⟩⟩
    · simp only [Option.bind_eq_some_iff, Option.some.injEq, Prod.mk.injEq] at h
      obtain ⟨interval, -, -, rfl⟩ := h
      exact ⟨rfl, rfl, rfl, rfl, .inr ⟨rfl, rfl, rfl, rfl⟩⟩

/-- The step runs nothing: it can at most stop the replay. -/
structure Kept (s s' : ReplayScheduler (DataWorld O Q D E)) : Prop where
  schedule : s'.schedule = s.schedule
  scheduleBacklog : s'.scheduleBacklog = s.scheduleBacklog
  skipAfterNextTry : s'.skipAfterNextTry = s.skipAfterNextTry
  consumed : s'.consumed = s.consumed
  values : s'.world.values = s.world.values
  inLogs : s'.world.inLogs = s.world.inLogs
  mode : (s'.mode = s.mode ∧ s'.providers = s.providers) ∨ s'.mode = .stop

theorem Kept.trans {s s' s'' : ReplayScheduler (DataWorld O Q D E)} (h : Kept s s')
    (h' : Kept s' s'') : Kept s s'' where
  schedule := h'.schedule.trans h.schedule
  scheduleBacklog := h'.scheduleBacklog.trans h.scheduleBacklog
  skipAfterNextTry := h'.skipAfterNextTry.trans h.skipAfterNextTry
  consumed := h'.consumed.trans h.consumed
  values := h'.values.trans h.values
  inLogs := h'.inLogs.trans h.inLogs
  mode := by
    rcases h'.mode with ⟨hmode', hproviders'⟩ | hstop
    · rcases h.mode with ⟨hmode, hproviders⟩ | hstop
      · exact .inl ⟨hmode'.trans hmode, hproviders'.trans hproviders⟩
      · exact .inr (hmode'.trans hstop)
    · exact .inr hstop

variable (p : DataEnv O D E) (fromStdString : StdString → Q)

/-- A report keeps the data. -/
theorem kept_report (description : String) (details : StdString)
    (s : ReplayScheduler (DataWorld O Q D E)) :
    Kept s (s.report (p.replayEnv fromStdString) description details) :=
  ⟨rfl, rfl, rfl, rfl, rfl, rfl, .inl ⟨rfl, rfl⟩⟩

/-- So does a stop. -/
theorem kept_stop (s : ReplayScheduler (DataWorld O Q D E)) : Kept s s.stop := by
  unfold stop
  split
  · exact ⟨rfl, rfl, rfl, rfl, rfl, rfl, .inl ⟨rfl, rfl⟩⟩
  · exact ⟨rfl, rfl, rfl, rfl, rfl, rfl, .inr rfl⟩

/-- So does a change of the mode. -/
theorem kept_stopState (state : ReplaySchedulerState) (s : ReplayScheduler (DataWorld O Q D E)) :
    Kept s (s.stopState state) := by
  have hstate : Kept s { s with state := state } :=
    ⟨rfl, rfl, rfl, rfl, rfl, rfl, .inl ⟨rfl, rfl⟩⟩
  unfold stopState
  split
  · exact ⟨rfl, rfl, rfl, rfl, rfl, rfl, .inl ⟨rfl, rfl⟩⟩
  · exact hstate.trans (kept_stop _)

/-- So does the stop of the register. -/
theorem kept_stopRegister (state : ReplaySchedulerState)
    (s : ReplayScheduler (DataWorld O Q D E)) :
    Kept s (s.stopRegister (p.replayEnv fromStdString) state) := by
  have hstate : Kept s { s with state := state } :=
    ⟨rfl, rfl, rfl, rfl, rfl, rfl, .inl ⟨rfl, rfl⟩⟩
  -- nothing is read for the warnings
  have hreports : ∀ (names : List StdString) (s : ReplayScheduler (DataWorld O Q D E)),
      Kept s (names.foldl (fun s name =>
        s.report (p.replayEnv fromStdString) "Non-executed event action." name) s) := by
    intro names
    induction names with
    | nil => exact fun s => ⟨rfl, rfl, rfl, rfl, rfl, rfl, .inl ⟨rfl, rfl⟩⟩
    | cons name names ih => exact fun s => (kept_report p fromStdString _ _ s).trans (ih _)
  unfold stopRegister
  split
  · exact ⟨rfl, rfl, rfl, rfl, rfl, rfl, .inl ⟨rfl, rfl⟩⟩
  · dsimp only
    split
    · exact (hstate.trans (hreports _ _)).trans (kept_stop _)
    · exact hstate.trans (kept_stop _)

/-! ## Strict replays -/

/-- The labels of a replay: changes outside the scheduler and the providers, the scheduler's
    calls and its two timeouts. -/
inductive Label (O E : Type) where
  | environment (register : EventActionRegister O) (rest : E)
  | execute
  | eventTimeout
  | globalTimeout

/-- One step. -/
def exec (s : ReplayScheduler (DataWorld O Q D E)) :
    Label O E → Option (ReplayScheduler (DataWorld O Q D E))
  | .environment register rest =>
    some { s with world := { s.world with register := register, rest := rest } }
  | .execute => (s.executeDelayedEventAction (p.replayEnv fromStdString)).map Prod.snd
  | .eventTimeout => s.slEventActionTimeout (p.replayEnv fromStdString)
  | .globalTimeout => some (s.timeout (p.replayEnv fromStdString))

/-- The replays of a schedule with the given providers. -/
def runs (items : List EventActionScheduleItem) (time : TimeProviderReplay Q D)
    (random : RandomProviderReplay Q D) :
    Lts (ReplayScheduler (DataWorld O Q D E)) (Label O E) where
  init s := ∃ schedulerTimeout register rest,
    s = ReplayScheduler.init (p.replayEnv fromStdString) items schedulerTimeout
      ⟨register, time, random, [], rest⟩
  step s l s' := exec p fromStdString s l = some s'

/-- The world in which the next item is tried. -/
def worldFor (s : ReplayScheduler (DataWorld O Q D E)) : DataWorld O Q D E :=
  (p.replayEnv fromStdString).warningCollectorSetCurrentEventAction s.nextEventActionId s.world

/-- What the scheduler is about to run makes the reads that the event action made before. -/
def SameReads (order : List (DispatchedEvent D)) (s : ReplayScheduler (DataWorld O Q D E)) :
    Label O E → Prop
  | .execute =>
    let w := worldFor p fromStdString s
    ∀ x ∈ s.schedule.head?, ∀ d ∈ patchDescriptor (p.replayEnv fromStdString) x.descriptor w,
      ∀ handler ∈ p.takes w.register w.rest d, ∃ e ∈ order[x.pos]?,
        handler.Makes (w.register.eventActionDispatchStart s.nextEventActionId x.id d, w.rest)
          e.reads
  | _ => True

instance (order : List (DispatchedEvent D)) (s : ReplayScheduler (DataWorld O Q D E)) :
    (l : Label O E) → Decidable (SameReads p fromStdString order s l)
  | .environment _ _ => isTrue trivial
  | .execute => inferInstanceAs (Decidable (∀ x ∈ _, ∀ d ∈ _, ∀ handler ∈ _, ∃ e ∈ _,
      Handler.Makes _ _ _))
  | .eventTimeout => isTrue trivial
  | .globalTimeout => isTrue trivial

/-- The item is one for the event action. -/
structure IsEvent (order : List (DispatchedEvent D)) (x : ReplayItem) (e : DispatchedEvent D) :
    Prop where
  notNull : x.descriptor.isNull = false
  text : x.descriptor.toUnpatchedString = e.text
  pos : order[x.pos]? = some e

/-- What holds in every state of a strict replay that has run `k` event actions. -/
structure DataInv (order : List (DispatchedEvent D)) (k : Nat)
    (s : ReplayScheduler (DataWorld O Q D E)) : Prop where
  scheduleBacklog : s.scheduleBacklog = []
  skipAfterNextTry : s.skipAfterNextTry = false
  mode : (s.mode = .strict ∧ s.providers.time.mode = .strict ∧ s.providers.random.mode = .strict) ∨
    s.mode = .stop
  schedule : List.Forall₂ (IsEvent order) s.schedule (order.drop k)
  consumed : s.consumed.length = k
  values : s.world.values = (order.take k).flatMap DispatchedEvent.reads
  logs : ∀ kind key, s.world.inLogs.entries kind key =
    readBy fromStdString (order.drop k) kind key

variable {p fromStdString}

/-- What keeps the data keeps the account. -/
theorem DataInv.kept {order : List (DispatchedEvent D)} {k : Nat}
    {s s' : ReplayScheduler (DataWorld O Q D E)} (inv : DataInv fromStdString order k s)
    (h : Kept s s') : DataInv fromStdString order k s' where
  scheduleBacklog := h.scheduleBacklog.trans inv.scheduleBacklog
  skipAfterNextTry := h.skipAfterNextTry.trans inv.skipAfterNextTry
  mode := by
    rcases h.mode with ⟨hmode, hproviders⟩ | hstop
    · rw [hmode, hproviders]
      exact inv.mode
    · exact .inr hstop
  schedule := h.schedule ▸ inv.schedule
  consumed := h.consumed ▸ inv.consumed
  values := h.values.trans inv.values
  logs kind key := by rw [h.inLogs]; exact inv.logs kind key

/-- The patch does not change the string under which values are looked up. -/
theorem IsEvent.patch {W : Type} {env : ReplayEnv W} {order : List (DispatchedEvent D)}
    {x : ReplayItem} {e : DispatchedEvent D} {d : EventActionDescriptor} {w : W}
    (h : IsEvent order x e) (hd : patchDescriptor env x.descriptor w = some d) :
    IsEvent order { x with descriptor := d } e := by
  rcases patchDescriptor_cases hd with rfl | ⟨hfresh, v, hv⟩
  · exact h
  · refine ⟨(EventActionDescriptor.patchParameter_frame hv).2.2.1.trans h.notNull, ?_, h.pos⟩
    have htext := h.text
    rw [EventActionDescriptor.toUnpatchedString, if_neg (by rw [hfresh]; decide)] at htext
    exact (EventActionDescriptor.patchParameter_toUnpatchedString hv).trans htext

/-- Whoever takes the next event action gets the values that it read before. -/
theorem runEventAction_strict {order : List (DispatchedEvent D)} {k : Nat}
    {s : ReplayScheduler (DataWorld O Q D E)} (inv : DataInv fromStdString order k s)
    (hstrict : s.mode = .strict) (hsame : SameReads p fromStdString order s .execute)
    {x : ReplayItem} {rest : List ReplayItem} (hx : s.schedule = x :: rest)
    {d : EventActionDescriptor}
    (hd : patchDescriptor (p.replayEnv fromStdString) x.descriptor (worldFor p fromStdString s) =
      some d) :
    ∃ found w, (worldFor p fromStdString s).runEventAction p fromStdString
        (s.providers.setCurrentDescriptorString d.toUnpatchedString) s.nextEventActionId x.id d =
          .ok (found, w) ∧
      ((found = false ∧ w.values = s.world.values ∧ w.inLogs = s.world.inLogs) ∨
        (found = true ∧ k < order.length ∧
          w.values = (order.take (k + 1)).flatMap DispatchedEvent.reads ∧
          ∀ kind key, w.inLogs.entries kind key =
            readBy fromStdString (order.drop (k + 1)) kind key)) := by
  cases htakes : p.takes (worldFor p fromStdString s).register (worldFor p fromStdString s).rest
    d with
  | none =>
    refine ⟨false, worldFor p fromStdString s, ?_, .inl ⟨rfl, rfl, rfl⟩⟩
    rw [DataWorld.runEventAction, htakes]
  | some handler =>
    obtain ⟨e, he, hmakes⟩ := hsame x (by rw [hx]; rfl) d hd handler htakes
    have hschedule := inv.schedule
    rw [hx] at hschedule
    obtain ⟨e', events, hevent, -, hdrop⟩ := List.forall₂_cons_left_iff.mp hschedule
    obtain rfl : e = e' := Option.some.inj (he.symm.trans hevent.pos)
    have hlt : k < order.length := by
      by_contra hge
      rw [List.drop_eq_nil_of_le (by omega)] at hdrop
      exact nomatch hdrop
    have hsplit := List.drop_eq_getElem_cons hlt
    rw [hdrop] at hsplit
    obtain ⟨hhead, htail⟩ := List.cons.inj hsplit
    have htext : d.toUnpatchedString = e.text := (hevent.patch hd).text
    obtain ⟨-, htime, hrandom⟩ := inv.mode.resolve_right (by rw [hstrict]; decide)
    -- the log of the key starts with the reads of the event action
    have hlogs : ∀ kind, s.world.inLogs.entries kind (fromStdString e.text) =
        e.reads.filter (fun r => r.kind = kind) ++
          readBy fromStdString (order.drop (k + 1)) kind (fromStdString e.text) := by
      intro kind
      rw [inv.logs, hdrop, ← List.singleton_append, DataRecord.readBy_append,
        DataRecord.readBy_singleton, if_pos rfl, htail]
    have htime' : (s.providers.setCurrentDescriptorString d.toUnpatchedString).time =
        ⟨.strict, some e.text⟩ := by
      simp [Providers.setCurrentDescriptorString, htime, htext]
    have hrandom' : (s.providers.setCurrentDescriptorString d.toUnpatchedString).random =
        ⟨.strict, some e.text⟩ := by
      simp [Providers.setCurrentDescriptorString, hrandom, htext]
    obtain ⟨w, hrun, hvalues, hentries⟩ := DataWorld.runHandler_strict
      (p := p) (w := { worldFor p fromStdString s with
        register := (worldFor p fromStdString s).register.eventActionDispatchStart
          s.nextEventActionId x.id d }) htime' hrandom' hmakes hlogs
    refine ⟨true, _, by rw [DataWorld.runEventAction, htakes]; dsimp only; rw [hrun]; rfl,
      .inr ⟨rfl, hlt, ?_, fun kind key => ?_⟩⟩
    · rw [List.take_add_one, List.getElem?_eq_getElem hlt, ← hhead, List.flatMap_append]
      refine hvalues.trans ?_
      rw [← inv.values]
      simp [worldFor, DataEnv.replayEnv]
    · refine (hentries kind key).trans ?_
      split
      · rename_i hkey
        rw [hkey]
      · rename_i hkey
        refine (inv.logs kind key).trans ?_
        rw [hdrop, ← List.singleton_append, DataRecord.readBy_append, DataRecord.readBy_singleton,
          if_neg (Ne.symm hkey), htail]
        rfl

/-- The attempt on the next item keeps the logs in step with the schedule. -/
theorem dataInv_tryHead {order : List (DispatchedEvent D)} {k : Nat}
    {s s' : ReplayScheduler (DataWorld O Q D E)} (inv : DataInv fromStdString order k s)
    (hstrict : s.mode = .strict) (hsame : SameReads p fromStdString order s .execute)
    {x : ReplayItem} {rest : List ReplayItem} (hx : s.schedule = x :: rest) {more : Bool}
    (h : s.tryHead (p.replayEnv fromStdString) x rest = some (more, s')) :
    ∃ k', DataInv fromStdString order k' s' := by
  have hschedule := inv.schedule
  rw [hx] at hschedule
  -- the head is the next event of the order
  obtain ⟨e, events, hevent, hevents, hdrop⟩ := List.forall₂_cons_left_iff.mp hschedule
  obtain ⟨d, found, w, hd, hrun, hbacklog, hskip, hmode, hproviders, hcases⟩ :=
    tryHead_exact inv.skipAfterNextTry hevent.notNull h
  obtain ⟨found', w', hrun', hresult⟩ := runEventAction_strict inv hstrict hsame hx hd
  -- the run that the replay computes is that of the strict one
  obtain ⟨rfl, rfl⟩ : found' = found ∧ w' = w := by
    have : (Except.ok (found', w') : Except String _).toOption = some (found, w) :=
      hrun' ▸ hrun
    exact Prod.mk.inj (Option.some.inj this)
  -- the mode stays, or is `STOP`
  have hmode' : (s'.mode = .strict ∧ s'.providers.time.mode = .strict ∧
      s'.providers.random.mode = .strict) ∨ s'.mode = .stop := by
    rw [hmode, hproviders]
    exact inv.mode
  rcases hcases with ⟨rfl, hrest, hconsumed, hworld⟩ | ⟨rfl, hrest, hconsumed, hworld⟩
  · -- the head has been found: it has read its values, and those behind it are left
    obtain ⟨-, hlt, hvalues, hlogs⟩ := hresult.resolve_left (fun h => nomatch h.1)
    refine ⟨k + 1, hbacklog.trans inv.scheduleBacklog, hskip, hmode', ?_, ?_, ?_, ?_⟩
    · rw [List.drop_eq_getElem_cons hlt] at hdrop
      rw [hrest, (List.cons.inj hdrop).2]
      exact hevents
    · rw [hconsumed, List.length_append, inv.consumed, List.length_singleton]
    · rw [hworld]
      exact hvalues
    · rw [hworld]
      exact hlogs
  · -- it has not been found: nothing was read, and the head may have been patched
    obtain ⟨-, hvalues, hlogs⟩ := hresult.resolve_right (fun h => nomatch h.1)
    refine ⟨k, hbacklog.trans inv.scheduleBacklog, hskip, hmode', ?_, ?_, ?_, ?_⟩
    · rw [hrest, hdrop]
      exact .cons (hevent.patch hd) hevents
    · rw [hconsumed, inv.consumed]
    · rw [hworld, hvalues, inv.values]
    · rw [hworld, hlogs]
      exact inv.logs

/-- Every step of a strict replay keeps the logs in step with the schedule. -/
theorem dataInv_step {order : List (DispatchedEvent D)} {k : Nat}
    {s s' : ReplayScheduler (DataWorld O Q D E)} {l : Label O E}
    (inv : DataInv fromStdString order k s) (hsame : SameReads p fromStdString order s l)
    (h : exec p fromStdString s l = some s') : ∃ k', DataInv fromStdString order k' s' := by
  cases l with
  | environment register rest =>
    -- what happens elsewhere reads nothing
    obtain rfl := Option.some.inj h
    exact ⟨k, inv.kept ⟨rfl, rfl, rfl, rfl, rfl, rfl, .inl ⟨rfl, rfl⟩⟩⟩
  | execute =>
    simp only [exec, executeDelayedEventAction] at h
    cases hschedule : s.schedule with
    | nil =>
      -- the schedule is empty
      simp only [hschedule, Option.map_some, Option.some.injEq] at h
      exact ⟨k, inv.kept (h ▸ kept_stopRegister p fromStdString _ s)⟩
    | cons x rest =>
      simp only [hschedule] at h
      -- the mode is `STOP`
      split at h
      · obtain rfl := Option.some.inj h
        exact ⟨k, inv.kept (kept_stopRegister p fromStdString _ s)⟩
      · -- the backlog is empty, so the head is tried
        rename_i hmode
        simp only [inv.scheduleBacklog, tryBacklog, Option.bind_eq_bind, Option.bind_some,
          Bool.false_eq_true, if_false, Option.map_eq_some_iff] at h
        obtain ⟨⟨more, _⟩, htry, rfl⟩ := h
        exact dataInv_tryHead inv (inv.mode.resolve_right hmode).1 hsame hschedule htry
  | eventTimeout =>
    simp only [exec, slEventActionTimeout] at h
    -- the timer is not active any more
    have hkept : Kept s { s with timeoutTimerActive := false } :=
      ⟨rfl, rfl, rfl, rfl, rfl, rfl, .inl ⟨rfl, rfl⟩⟩
    split at h
    · obtain rfl := Option.some.inj h
      exact ⟨k, inv.kept hkept⟩
    · -- a strict replay exits
      rcases inv.mode with ⟨hmode, -⟩ | hmode
      · simp only [hmode] at h
        simp at h
      · -- a replay that has stopped goes on
        simp only [hmode, Option.some.injEq] at h
        exact ⟨k, inv.kept (h ▸ hmode ▸ hkept)⟩
  | globalTimeout =>
    -- the timeout of the replay stops it
    obtain rfl := Option.some.inj h
    exact ⟨k, inv.kept ((kept_report p fromStdString _ _ s).trans (kept_stopState _ _))⟩

end DataReplay

end R4
