import R4.ForStd.Lts
import R4.Native.Register

/-!
# The queues of the register

Handlers run once, and those of one descriptor in the order in which they were registered.
A handler is called while it is still at the front of its queue, so what it registers and
deregisters itself changes the queue that it is popped from.

A run registers and deregisters handlers and runs event actions, in any order. What a
handler or a provider does is a parameter of the call: any sequence of registrations and
deregistrations, as long as a handler does not deregister the descriptor it runs under. A
trace next to the register keeps what has been registered, run and deregistered.

## Key results

- `queue_applyAll`: what a running handler does to its own queue
- `Ok.runEventAction`: the register is in order after every event action
- `register_one_shot_fifo`: handlers run once, first in first out
-/

namespace R4.RegisterQueues

open StdString EventActionRegister

variable {O E : Type}

/-- A function pointer with its object, registered as a handler or as a provider. -/
inductive Target (O : Type) where
  | handler (o : O)
  | provider (o : O)
deriving DecidableEq

/-- What has been registered, run and deregistered, each with its descriptor's string. -/
structure Trace (O : Type) where
  registered : List (StdString × Target O)
  ran : List (StdString × Target O)
  deregistered : List (StdString × Target O)

/-- The register with its trace. -/
abbrev Traced (O : Type) := EventActionRegister (Target O) × Trace O

/-- What a running handler can do to the register. -/
inductive Op (O : Type) where
  | register (d : EventActionDescriptor) (o : O)
  | deregister (d : EventActionDescriptor)

namespace Op

/-- One registration or deregistration. -/
def apply : Op O → Traced O → Traced O
  | register d o, (r, t) =>
    (r.registerEventActionHandler d (.handler o),
      { t with registered := t.registered ++ [(d.toString, .handler o)] })
  | deregister d, (r, t) =>
    (r.deregisterEventActionHandler d,
      { t with deregistered := t.deregistered ++
          (r.descriptorToHandler.queue d.toString).map fun x => (d.toString, x) })

/-- One after the other. -/
def applyAll (ops : List (Op O)) (s : Traced O) : Traced O :=
  ops.foldl (fun s op => op.apply s) s

/-- The operations are applied one after the other. -/
theorem applyAll_cons (op : Op O) (ops : List (Op O)) (s : Traced O) :
    applyAll (op :: ops) s = applyAll ops (op.apply s) := rfl

end Op

/-- What a target does when it is called: its registrations, its result and the rest. -/
abbrev Behaviour (O E : Type) :=
  Target O → EventActionDescriptor → EventActionRegister (Target O) × E →
    Option (List (Op O) × Bool × E)

/-- A handler that runs under `d` does not deregister `d`. -/
def Lawful (behaviour : Behaviour O E) (d : EventActionDescriptor) : Prop :=
  ∀ o s ops done env, behaviour (.handler o) d s = some (ops, done, env) →
    ∀ d', Op.deregister d' ∈ ops → d'.toString ≠ d.toString

/-- What the register calls besides its targets. -/
structure Outside (O E : Type) where
  hbAllocateEventActionId : E → EventActionId × E
  hbEnterEventAction : EventActionId → ActionLogType → E → Option E
  hbExitEventAction : Bool → E → Option E
  actionLogEventTriggered : Target O → E → E

/-- The trace when a target is called: a handler is run. -/
def Trace.enter (t : Trace O) (target : Target O) (d : EventActionDescriptor) : Trace O :=
  match target with
  | .handler _ => { t with ran := t.ran ++ [(d.toString, target)] }
  | .provider _ => t

/-- A call of a target. -/
def call (behaviour : Behaviour O E) (target : Target O) (d : EventActionDescriptor)
    (s : EventActionRegister (Target O) × (E × Trace O)) :
    Option (Bool × (EventActionRegister (Target O) × (E × Trace O))) :=
  (behaviour target d (s.1, s.2.1)).map fun result =>
    let s' := Op.applyAll result.1 (s.1, s.2.2.enter target d)
    (result.2.1, s'.1, result.2.2, s'.2)

/-- The platform on which targets behave as given. -/
def platform (out : Outside O E) (behaviour : Behaviour O E) :
    Platform (Target O) (E × Trace O) where
  hbAllocateEventActionId s :=
    ((out.hbAllocateEventActionId s.1).1, (out.hbAllocateEventActionId s.1).2, s.2)
  hbEnterEventAction id type s := (out.hbEnterEventAction id type s.1).map fun env => (env, s.2)
  hbExitEventAction commit s := (out.hbExitEventAction commit s.1).map fun env => (env, s.2)
  actionLogEventTriggered target s := (out.actionLogEventTriggered target s.1, s.2)
  call := call behaviour

/-- The register, the rest of the program and the trace. -/
abbrev RunState (O E : Type) := EventActionRegister (Target O) × (E × Trace O)

/-- The register of a state with its trace. -/
def traced (s : RunState O E) : Traced O := (s.1, s.2.2)

/-- What happens to the register. -/
inductive Label (O E : Type) where
  | environment
  | op (op : Op O)
  | registerProvider
  | run

/-- The steps: the rest of the program moves, a handler is registered or deregistered, a
    provider is registered, or an event action is run. -/
inductive Step (out : Outside O E) : RunState O E → Label O E → RunState O E → Prop where
  | environment (s : RunState O E) (env : E) : Step out s .environment (s.1, env, s.2.2)
  | op (s : RunState O E) (op : Op O) :
      Step out s (.op op) ((op.apply (traced s)).1, s.2.1, (op.apply (traced s)).2)
  | registerProvider (s : RunState O E) (type : StdString) (o : O) :
      Step out s .registerProvider (s.1.registerEventActionProvider type (.provider o), s.2)
  | run {s s' : RunState O E} {newId originalId : EventActionId} {d : EventActionDescriptor}
      {behaviour : Behaviour O E} {found : Bool} (lawful : Lawful behaviour d)
      (h : runEventAction (platform out behaviour) newId originalId d s = some (found, s')) :
      Step out s .run s'

/-- The runs of the register. -/
def registerRuns (out : Outside O E) : Lts (RunState O E) (Label O E) where
  init s := s.1 = .empty ∧ s.2.2 = ⟨[], [], []⟩
  step := Step out

/-! ## The register is in order -/

/-- The entries under one key. -/
def under (k : StdString) (l : List (StdString × Target O)) : List (Target O) :=
  (l.filter fun e => e.1 = k).map Prod.snd

/-- What is under a key in two lists, one behind the other. -/
theorem under_append (k : StdString) (l l' : List (StdString × Target O)) :
    under k (l ++ l') = under k l ++ under k l' := by
  simp [under]

/-- One entry is under its key alone. -/
theorem under_singleton (k k' : StdString) (x : Target O) :
    under k [(k', x)] = if k' = k then [x] else [] := by
  by_cases h : k' = k
  · simp [under, h]
  · simp [under, h]

/-- What holds of the register between any two calls. While a handler runs, it is `running`:
    it is queued although it counts as run already. -/
structure Ok (running : List (StdString × Target O)) (s : Traced O) : Prop where
  names : ∀ k, k ∈ s.1.currentDescriptors ↔ k ∈ s.1.descriptorToHandler
  namesNodup : s.1.currentDescriptors.Nodup
  nonEmpty : s.1.descriptorToHandler.NonEmpty
  handlers : ∀ k, ∀ x ∈ s.1.descriptorToHandler.queue k, ∃ o, x = .handler o
  providers : ∀ e ∈ s.1.typeToProvider, ∀ x ∈ e.2, ∃ o, x = .provider o
  oldestFirst : ∀ k, s.1.descriptorToHandler.queue k <:+ under k s.2.registered
  conserved : (running ++ s.2.registered).Perm
    (s.1.descriptorToHandler.elems ++ s.2.ran ++ s.2.deregistered)

/-- Queues and traces say everything: the rest of the register is free. -/
theorem Ok.congr {running : List (StdString × Target O)} {s s' : Traced O} (ok : Ok running s)
    (hnames : s'.1.currentDescriptors = s.1.currentDescriptors)
    (hqueues : s'.1.descriptorToHandler = s.1.descriptorToHandler)
    (hproviders : s'.1.typeToProvider = s.1.typeToProvider) (htrace : s'.2 = s.2) :
    Ok running s' := by
  obtain ⟨names, namesNodup, nonEmpty, handlers, providers, oldestFirst, conserved⟩ := ok
  constructor
  · rwa [hnames, hqueues]
  · rwa [hnames]
  · rwa [hqueues]
  · rwa [hqueues]
  · rwa [hproviders]
  · rwa [hqueues, htrace]
  · rwa [hqueues, htrace]

/-- Registering a handler keeps the account of the queues. -/
theorem Ok.register {running : List (StdString × Target O)} {s : Traced O} (ok : Ok running s)
    (d : EventActionDescriptor) (o : O) : Ok running ((Op.register d o).apply s) := by
  obtain ⟨r, t⟩ := s
  refine ⟨?_, ?_, ok.nonEmpty.push _ _, ?_, ok.providers, ?_, ?_⟩
  · intro k
    have hname := ok.names k
    -- the name is new if and only if the queue is
    simp only [Op.apply, registerEventActionHandler, QueueMap.push, AList.mem_insert]
    split
    · rename_i hmem
      rw [hname]
      refine ⟨Or.inr, fun h => ?_⟩
      rcases h with rfl | h
      · exact hname.mp hmem
      · exact h
    · rw [List.mem_orderedInsert, hname]
  · simp only [Op.apply, registerEventActionHandler]
    split
    · exact ok.namesNodup
    · rename_i hmem
      -- the set of names is kept in order, so the new one goes to its place
      exact (List.perm_orderedInsert _ _ _).nodup_iff.mpr
        (List.nodup_cons.mpr ⟨hmem, ok.namesNodup⟩)
  · intro k x hx
    simp only [Op.apply, registerEventActionHandler, QueueMap.queue_push] at hx
    split at hx
    · rcases List.mem_append.mp hx with hx | hx
      · exact ok.handlers k x hx
      · exact ⟨o, List.mem_singleton.mp hx⟩
    · exact ok.handlers k x hx
  · intro k
    simp only [Op.apply, registerEventActionHandler, QueueMap.queue_push, under_append,
      under_singleton]
    by_cases hk : k = d.toString
    · rw [if_pos hk, if_pos hk.symm]
      obtain ⟨before, hbefore⟩ := ok.oldestFirst k
      exact ⟨before, by rw [← List.append_assoc, hbefore]⟩
    · rw [if_neg hk, if_neg (Ne.symm hk), List.append_nil]
      exact ok.oldestFirst k
  · have hpush := QueueMap.elems_push r.descriptorToHandler d.toString (Target.handler o)
    simp only [Op.apply, registerEventActionHandler, List.append_assoc]
    -- both sides have the new handler once
    have hsnoc : (running ++ (t.registered ++ [(d.toString, Target.handler o)])).Perm
        ((d.toString, .handler o) :: (running ++ t.registered)) := by
      rw [← List.append_assoc]
      exact List.perm_append_singleton _ _
    refine hsnoc.trans (List.Perm.trans ?_ (hpush.append_right _).symm)
    rw [List.cons_append, ← List.append_assoc]
    exact List.Perm.cons _ ok.conserved

/-- So does deregistering one. -/
theorem Ok.deregister {running : List (StdString × Target O)} {s : Traced O} (ok : Ok running s)
    (d : EventActionDescriptor) : Ok running ((Op.deregister d : Op O).apply s) := by
  obtain ⟨r, t⟩ := s
  refine ⟨?_, ok.namesNodup.erase _, ok.nonEmpty.erase _, ?_, ok.providers, ?_, ?_⟩
  · intro k
    -- names are pairwise distinct, so the name is gone with its queue
    simp only [Op.apply, deregisterEventActionHandler, AList.mem_erase]
    rw [ok.namesNodup.mem_erase_iff, ok.names k]
  · intro k x hx
    simp only [Op.apply, deregisterEventActionHandler, QueueMap.queue_erase] at hx
    split at hx
    · simp at hx
    · exact ok.handlers k x hx
  · intro k
    simp only [Op.apply, deregisterEventActionHandler, QueueMap.queue_erase]
    split
    · exact List.nil_suffix
    · exact ok.oldestFirst k
  · simp only [Op.apply, deregisterEventActionHandler, QueueMap.elems_erase]
    refine ok.conserved.trans ?_
    -- the queue that is dropped moves from what is queued to what was deregistered
    have hsplit := QueueMap.elems_perm r.descriptorToHandler d.toString
    refine ((hsplit.append_right _).append_right _).trans ?_
    simp only [List.append_assoc]
    refine List.perm_append_comm.trans ?_
    simp only [List.append_assoc]
    exact List.Perm.refl _

/-- So does any number of operations of a handler. -/
theorem Ok.applyAll {running : List (StdString × Target O)} {s : Traced O} (ok : Ok running s)
    (ops : List (Op O)) : Ok running (Op.applyAll ops s) := by
  induction ops generalizing s with
  | nil => exact ok
  | cons op ops ih =>
    cases op with
    | register d o => exact ih (ok.register d o)
    | deregister d => exact ih (ok.deregister d)

/-! ## What a running handler does to its own queue -/

/-- Registrations under the key of a running handler go behind it. Deregistrations are of
    other keys. -/
theorem queue_applyAll {k : StdString} {ops : List (Op O)}
    (h : ∀ d, Op.deregister d ∈ ops → d.toString ≠ k) (s : Traced O) :
    ∃ new gone, (Op.applyAll ops s).2.registered = s.2.registered ++ new ∧
      (Op.applyAll ops s).2.ran = s.2.ran ∧
      (Op.applyAll ops s).2.deregistered = s.2.deregistered ++ gone ∧ (∀ e ∈ gone, e.1 ≠ k) ∧
      (Op.applyAll ops s).1.descriptorToHandler.queue k =
        s.1.descriptorToHandler.queue k ++ under k new := by
  induction ops generalizing s with
  | nil => exact ⟨[], [], by simp [Op.applyAll, under]⟩
  | cons op ops ih =>
    obtain ⟨new, gone, hregistered, hran, hderegistered, hgone, hqueue⟩ :=
      ih (fun d hd => h d (List.mem_cons_of_mem _ hd)) (op.apply s)
    rw [Op.applyAll_cons]
    cases op with
    | register d o =>
      refine ⟨(d.toString, .handler o) :: new, gone, ?_, hran, hderegistered, hgone, ?_⟩
      · rw [hregistered]
        simp [Op.apply]
      · refine hqueue.trans ?_
        simp only [Op.apply, registerEventActionHandler, QueueMap.queue_push]
        rw [← List.singleton_append (l := new), under_append, under_singleton]
        by_cases hk : k = d.toString
        · -- a handler of the same descriptor waits behind those that are there
          rw [if_pos hk, if_pos hk.symm, List.append_assoc]
        · rw [if_neg hk, if_neg (Ne.symm hk), List.nil_append]
    | deregister d =>
      have hne : d.toString ≠ k := h d List.mem_cons_self
      refine ⟨new,
        (s.1.descriptorToHandler.queue d.toString).map (fun x => (d.toString, x)) ++ gone,
        hregistered, hran, ?_, ?_, ?_⟩
      · rw [hderegistered]
        simp [Op.apply]
      · intro e he
        rcases List.mem_append.mp he with he | he
        · obtain ⟨x, -, rfl⟩ := List.mem_map.mp he
          exact hne
        · exact hgone e he
      · refine hqueue.trans ?_
        simp only [Op.apply, deregisterEventActionHandler, QueueMap.queue_erase]
        rw [if_neg (Ne.symm hne)]

/-- Traces only grow. -/
structure Grows (t t' : Trace O) : Prop where
  registered : t.registered <+: t'.registered
  ran : t.ran <+: t'.ran
  deregistered : t.deregistered <+: t'.deregistered

theorem Grows.refl (t : Trace O) : Grows t t :=
  ⟨List.prefix_rfl, List.prefix_rfl, List.prefix_rfl⟩

theorem Grows.trans {t t' t'' : Trace O} (h : Grows t t') (h' : Grows t' t'') : Grows t t'' :=
  ⟨h.registered.trans h'.registered, h.ran.trans h'.ran, h.deregistered.trans h'.deregistered⟩

/-- An operation adds to the trace, runs nothing and leaves the providers alone. -/
theorem grows_apply (op : Op O) (s : Traced O) :
    Grows s.2 (op.apply s).2 ∧ (op.apply s).2.ran = s.2.ran ∧
      (op.apply s).1.typeToProvider = s.1.typeToProvider := by
  cases op with
  | register d o => exact ⟨⟨List.prefix_append _ _, List.prefix_rfl, List.prefix_rfl⟩, rfl, rfl⟩
  | deregister d => exact ⟨⟨List.prefix_rfl, List.prefix_rfl, List.prefix_append _ _⟩, rfl, rfl⟩

/-- So do several of them. -/
theorem grows_applyAll (ops : List (Op O)) (s : Traced O) :
    Grows s.2 (Op.applyAll ops s).2 ∧ (Op.applyAll ops s).2.ran = s.2.ran ∧
      (Op.applyAll ops s).1.typeToProvider = s.1.typeToProvider := by
  induction ops generalizing s with
  | nil => exact ⟨.refl _, rfl, rfl⟩
  | cons op ops ih =>
    obtain ⟨hgrows, hran, hproviders⟩ := grows_apply op s
    obtain ⟨hgrows', hran', hproviders'⟩ := ih (op.apply s)
    exact ⟨hgrows.trans hgrows', hran'.trans hran, hproviders'.trans hproviders⟩

/-! ## Running an event action -/

section Run

variable {out : Outside O E} {behaviour : Behaviour O E} {newId originalId : EventActionId}
  {d : EventActionDescriptor} {s s' : RunState O E} {found : Bool}

/-- Allocating an id and entering an event action leave queues and trace alone. -/
theorem enterDispatch_frame {first : Target O} {r : EventActionRegister (Target O)}
    {env : E × Trace O}
    (h : enterDispatch (platform out behaviour) (eventActionId (platform out behaviour) newId env).1
      originalId d first r (eventActionId (platform out behaviour) newId env).2 = some s) :
    s.1.currentDescriptors = r.currentDescriptors ∧
      s.1.descriptorToHandler = r.descriptorToHandler ∧
      s.1.typeToProvider = r.typeToProvider ∧ s.2.2 = env.2 := by
  have htrace : (eventActionId (platform out behaviour) newId env).2.2 = env.2 := by
    -- the id is given, or allocated outside the register
    unfold eventActionId
    split <;> rfl
  obtain ⟨env', henter, rfl⟩ := Option.map_eq_some_iff.mp h
  obtain ⟨e, -, rfl⟩ := Option.map_eq_some_iff.mp henter
  exact ⟨rfl, rfl, rfl, htrace⟩

/-- A provider that is called registers and deregisters handlers, and no handler is run. -/
theorem Ok.runProvider {first : Target O} {o : O} (ok : Ok [] (traced s))
    (h : runProvider (platform out behaviour) newId originalId d first (.provider o) s =
      some (found, s')) :
    Ok [] (traced s') ∧ Grows s.2.2 s'.2.2 ∧ s'.2.2.ran = s.2.2.ran := by
  simp only [EventActionRegister.runProvider, Option.bind_eq_bind, Option.bind_eq_some_iff] at h
  obtain ⟨s₁, henter, ⟨found₁, r₂, env₂⟩, hcall, env₃, hexit, h⟩ := h
  simp only [Option.pure_def, Option.some.injEq, Prod.mk.injEq] at h
  obtain ⟨-, rfl⟩ := h
  obtain ⟨hnames, hqueues, hproviders, htrace⟩ := enterDispatch_frame henter
  obtain ⟨⟨ops, done, e⟩, -, hcall⟩ := Option.map_eq_some_iff.mp hcall
  simp only [Prod.mk.injEq] at hcall
  obtain ⟨-, rfl, rfl⟩ := hcall
  obtain ⟨e', -, rfl⟩ := Option.map_eq_some_iff.mp hexit
  have ok₁ : Ok [] (traced s₁) := ok.congr hnames hqueues hproviders htrace
  obtain ⟨hgrows, hran, -⟩ := grows_applyAll ops (traced s₁)
  -- the end of the dispatch touches the history and the ids only
  simp only [traced, htrace] at hgrows hran
  refine ⟨?_, ?_, ?_⟩
  · refine (ok₁.applyAll ops).congr ?_ ?_ ?_ rfl <;>
    · simp only [traced, eventActionDispatchEnd, Trace.enter]
      split <;> rfl
  · simpa [Trace.enter, htrace] using hgrows
  · simpa [Trace.enter, htrace] using hran

/-- The providers that are offered an event action. -/
theorem Ok.runProviders {providers : List (Target O × Target O)}
    (hall : ∀ e ∈ providers, ∃ o, e.2 = .provider o) (ok : Ok [] (traced s))
    (h : runProviders (platform out behaviour) newId originalId d providers s = some (found, s')) :
    Ok [] (traced s') ∧ Grows s.2.2 s'.2.2 ∧ s'.2.2.ran = s.2.2.ran := by
  induction providers generalizing s with
  | nil =>
    -- nobody is left to be asked
    simp only [EventActionRegister.runProviders, Option.some.injEq, Prod.mk.injEq] at h
    obtain ⟨-, rfl⟩ := h
    exact ⟨ok, .refl _, rfl⟩
  | cons e providers ih =>
    obtain ⟨first, target⟩ := e
    obtain ⟨o, rfl⟩ : ∃ o, target = .provider o := hall _ List.mem_cons_self
    simp only [EventActionRegister.runProviders, Option.bind_eq_bind, Option.bind_eq_some_iff] at h
    obtain ⟨⟨found₁, s₁⟩, hfirst, h⟩ := h
    obtain ⟨ok₁, hgrows, hran⟩ := ok.runProvider hfirst
    split at h
    · -- the first provider accepts
      simp only [Option.pure_def, Option.some.injEq, Prod.mk.injEq] at h
      obtain ⟨-, rfl⟩ := h
      exact ⟨ok₁, hgrows, hran⟩
    · -- it declines, and the rest is asked
      obtain ⟨ok₂, hgrows', hran'⟩ := ih (fun e he => hall e (List.mem_cons_of_mem _ he)) ok₁ h
      exact ⟨ok₂, hgrows.trans hgrows', hran'.trans hran⟩

/-- Every provider that is offered was registered as one. -/
theorem Ok.providersFrom {t : Traced O} (ok : Ok [] t) (type : StdString) :
    ∀ e ∈ t.1.providersFrom type, ∃ o, e.2 = .provider o := by
  intro e he
  obtain ⟨entry, hentry, he⟩ := List.mem_flatMap.mp he
  have hmem : entry ∈ t.1.typeToProvider := (List.dropWhile_sublist _).mem hentry
  obtain ⟨type', targets⟩ := entry
  cases targets with
  | nil => simp at he
  | cons first rest =>
    obtain ⟨target, htarget, rfl⟩ := List.mem_map.mp he
    exact ok.providers _ hmem target htarget

/-- The handler that has run is popped, and its descriptor dropped with its last handler. -/
theorem Ok.popHandler {r : EventActionRegister (Target O)} {t : Trace O} {key : StdString}
    {front : Target O} {rest : List (Target O)} (ok : Ok [(key, front)] (r, t))
    (hqueue : r.descriptorToHandler.queue key = front :: rest) :
    ∃ r', r.popHandler key = some r' ∧ r'.descriptorToHandler = r.descriptorToHandler.pop key ∧
      Ok [] (r', t) := by
  have hlookup := QueueMap.lookup_of_queue_ne_nil (m := r.descriptorToHandler) (k := key)
    (by rw [hqueue]; exact List.cons_ne_nil _ _)
  rw [hqueue] at hlookup
  have hconserved : ([] ++ t.registered).Perm
      ((r.descriptorToHandler.pop key).elems ++ t.ran ++ t.deregistered) := by
    refine (List.perm_cons (key, front)).mp (ok.conserved.trans ?_)
    exact ((QueueMap.elems_pop _ hqueue).append_right _).append_right _
  have hhandlers : ∀ k, ∀ x ∈ (r.descriptorToHandler.pop key).queue k, ∃ o, x = .handler o := by
    intro k x hx
    rw [QueueMap.queue_pop] at hx
    split at hx
    · exact ok.handlers k x (List.mem_of_mem_tail hx)
    · exact ok.handlers k x hx
  have holdest : ∀ k, (r.descriptorToHandler.pop key).queue k <:+ under k t.registered := by
    intro k
    rw [QueueMap.queue_pop]
    split
    · exact (List.tail_suffix _).trans (ok.oldestFirst k)
    · exact ok.oldestFirst k
  unfold EventActionRegister.popHandler
  rw [hlookup]
  cases rest with
  | nil =>
    -- the last handler: queue and name go
    have hpop : r.descriptorToHandler.pop key = r.descriptorToHandler.erase key := by
      rw [QueueMap.pop, hqueue]
    refine ⟨_, rfl, rfl, ?_, ok.namesNodup.erase _, ok.nonEmpty.pop _, hhandlers, ok.providers,
      holdest, hconserved⟩
    intro k
    simp only [hpop, AList.mem_erase]
    rw [ok.namesNodup.mem_erase_iff, ok.names k]
  | cons second rest =>
    -- others are waiting: the name stays
    have hpop : r.descriptorToHandler.pop key =
        r.descriptorToHandler.insert key (second :: rest) := by
      rw [QueueMap.pop, hqueue]
    refine ⟨_, rfl, rfl, ?_, ok.namesNodup, ok.nonEmpty.pop _, hhandlers, ok.providers, holdest,
      hconserved⟩
    intro k
    simp only [hpop, AList.mem_insert]
    rw [ok.names k]
    refine ⟨Or.inr, fun h => ?_⟩
    rcases h with rfl | h
    · exact AList.lookup_isSome.mp (by rw [hlookup]; rfl)
    · exact h

/-- What running the oldest handler of a descriptor does. -/
structure RanOldest (s s' : RunState O E) (key : StdString) (front : Target O)
    (rest : List (Target O)) (new gone : List (StdString × Target O)) : Prop where
  registered : s'.2.2.registered = s.2.2.registered ++ new
  ran : s'.2.2.ran = s.2.2.ran ++ [(key, front)]
  deregistered : s'.2.2.deregistered = s.2.2.deregistered ++ gone
  others : ∀ e ∈ gone, e.1 ≠ key
  queue : s'.1.descriptorToHandler.queue key = rest ++ under key new

/-- A handler that has been called is at the front of its queue and can be popped. -/
theorem Ok.call {s₁ : RunState O E} {front : Target O} {rest : List (Target O)} {done : Bool}
    {r₂ : EventActionRegister (Target O)} {env₂ : E × Trace O} (ok : Ok [] (traced s))
    (lawful : Lawful behaviour d)
    (hqueue : s.1.descriptorToHandler.queue d.toString = front :: rest)
    (henter : enterDispatch (platform out behaviour)
      (eventActionId (platform out behaviour) newId s.2).1 originalId d front s.1
      (eventActionId (platform out behaviour) newId s.2).2 = some s₁)
    (hcall : (platform out behaviour).call front d s₁ = some (done, r₂, env₂)) :
    ∃ r₃, r₂.popHandler d.toString = some r₃ ∧ Ok [] (r₃, env₂.2) ∧
      ∃ new gone, RanOldest s (r₃, env₂) d.toString front rest new gone := by
  obtain ⟨o, rfl⟩ := ok.handlers d.toString front
    (by simp only [traced, hqueue]; exact List.mem_cons_self)
  obtain ⟨hnames, hqueues, hproviders, htrace⟩ := enterDispatch_frame henter
  obtain ⟨⟨ops, done', e⟩, hbehaviour, hcall⟩ := Option.map_eq_some_iff.mp hcall
  simp only [Prod.mk.injEq] at hcall
  obtain ⟨-, rfl, rfl⟩ := hcall
  -- the handler counts as run from here on, and is still at the front of its queue
  let s₂ : Traced O := (s₁.1, s₁.2.2.enter (.handler o) d)
  have ok₂ : Ok [(d.toString, .handler o)] s₂ := by
    have ok₁ : Ok [] (traced s₁) := ok.congr hnames hqueues hproviders htrace
    refine ⟨ok₁.names, ok₁.namesNodup, ok₁.nonEmpty, ok₁.handlers, ok₁.providers,
      ok₁.oldestFirst, ?_⟩
    have hconserved := ok₁.conserved
    simp only [List.nil_append, traced] at hconserved
    refine (List.Perm.cons _ hconserved).trans ?_
    have hsplit : s₁.1.descriptorToHandler.elems ++ (s₁.2.2.enter (.handler o) d).ran ++
        (s₁.2.2.enter (.handler o) d).deregistered =
        (s₁.1.descriptorToHandler.elems ++ s₁.2.2.ran) ++
          (d.toString, .handler o) :: s₁.2.2.deregistered := by
      simp [Trace.enter]
    rw [hsplit]
    exact List.perm_middle.symm
  have ok₃ := ok₂.applyAll ops
  obtain ⟨new, gone, hregistered, hran, hderegistered, hgone, hbehind⟩ :=
    queue_applyAll (lawful o _ ops done' e hbehaviour) s₂
  -- nothing that it did has touched the front of its own queue
  have hown : s₂.1.descriptorToHandler.queue d.toString = .handler o :: rest := by
    simp only [s₂, hqueues, hqueue]
  rw [hown, List.cons_append] at hbehind
  obtain ⟨r₃, hpop, hqueues₃, ok₄⟩ := Ok.popHandler ok₃ hbehind
  refine ⟨r₃, hpop, ok₄, new, gone, ?_, ?_, ?_, hgone, ?_⟩
  · exact hregistered.trans (by simp [s₂, Trace.enter, htrace])
  · exact hran.trans (by simp [s₂, Trace.enter, htrace])
  · exact hderegistered.trans (by simp [s₂, Trace.enter, htrace])
  · simp only [hqueues₃, QueueMap.queue_pop]
    exact congrArg List.tail hbehind

/-- A handler that is queued is run and popped, and behind it the queue is what it was and
    what the handler registered. -/
theorem Ok.runHandler {front : Target O} {rest : List (Target O)} (ok : Ok [] (traced s))
    (lawful : Lawful behaviour d)
    (hqueue : s.1.descriptorToHandler.queue d.toString = front :: rest)
    (h : runHandler (platform out behaviour) newId originalId d s = some (found, s')) :
    found = true ∧ Ok [] (traced s') ∧
      ∃ new gone, RanOldest s s' d.toString front rest new gone := by
  have hlookup := QueueMap.lookup_of_queue_ne_nil (m := s.1.descriptorToHandler) (k := d.toString)
    (by rw [hqueue]; exact List.cons_ne_nil _ _)
  unfold EventActionRegister.runHandler at h
  rw [hlookup, hqueue] at h
  simp only [Option.bind_eq_bind, Option.bind_eq_some_iff] at h
  obtain ⟨s₁, henter, ⟨done, r₂, env₂⟩, hcall, r₃, hpop, env₄, hexit, h⟩ := h
  simp only [Option.pure_def, Option.some.injEq, Prod.mk.injEq] at h
  obtain ⟨rfl, rfl⟩ := h
  obtain ⟨e, -, rfl⟩ := Option.map_eq_some_iff.mp hexit
  obtain ⟨r₃', hpop', ok₃, new, gone, hran⟩ := ok.call lawful hqueue henter hcall
  obtain rfl : r₃ = r₃' := Option.some.inj (hpop.symm.trans hpop')
  exact ⟨rfl, ok₃.congr rfl rfl rfl rfl, new, gone, hran.registered, hran.ran, hran.deregistered,
    hran.others, hran.queue⟩

/-- Without a queue there is nothing to run. -/
theorem Ok.runHandler_of_nil (ok : Ok [] (traced s))
    (hqueue : s.1.descriptorToHandler.queue d.toString = []) :
    EventActionRegister.runHandler (platform out behaviour) newId originalId d s =
      some (false, s) := by
  have hlookup : s.1.descriptorToHandler.lookup d.toString = none :=
    (ok.nonEmpty.lookup_eq d.toString).trans (if_pos hqueue)
  unfold EventActionRegister.runHandler
  rw [hlookup]

/-! ## A call comes to its end -/

/-- Nothing that the register calls ends the process. -/
structure Returns (out : Outside O E) (behaviour : Behaviour O E) : Prop where
  enter : ∀ id type env, (out.hbEnterEventAction id type env).isSome
  exit : ∀ commit env, (out.hbExitEventAction commit env).isSome
  call : ∀ target d s, (behaviour target d s).isSome

/-- The calls around a target return if those outside the register do. -/
theorem Returns.call_isSome (returns : Returns out behaviour) (id originalId : EventActionId)
    (d : EventActionDescriptor) (first target : Target O) (r : EventActionRegister (Target O))
    (env : E × Trace O) :
    ∃ s₁ result, enterDispatch (platform out behaviour) id originalId d first r env = some s₁ ∧
      (platform out behaviour).call target d s₁ = some result := by
  obtain ⟨e, he⟩ := Option.isSome_iff_exists.mp
    (returns.enter id (toActionLogType d.category) env.1)
  have henter : enterDispatch (platform out behaviour) id originalId d first r env =
      some (r.eventActionDispatchStart id originalId d,
        out.actionLogEventTriggered first e, env.2) := by
    simp [enterDispatch, platform, he]
  obtain ⟨result, hresult⟩ := Option.isSome_iff_exists.mp (returns.call target d
    (r.eventActionDispatchStart id originalId d, out.actionLogEventTriggered first e))
  exact ⟨_, _, henter, by simp only [platform, RegisterQueues.call, hresult, Option.map_some]; rfl⟩

/-- Leaving an event action returns. -/
theorem Returns.exit_isSome (returns : Returns out behaviour) (commit : Bool) (env : E × Trace O) :
    ∃ env', (platform out behaviour).hbExitEventAction commit env = some env' := by
  obtain ⟨e, he⟩ := Option.isSome_iff_exists.mp (returns.exit commit env.1)
  exact ⟨(e, env.2), by simp [platform, he]⟩

/-- The loop over the providers returns. -/
theorem Returns.runProviders_isSome (returns : Returns out behaviour)
    (newId originalId : EventActionId) (d : EventActionDescriptor)
    (providers : List (Target O × Target O)) (s : RunState O E) :
    ∃ result,
      runProviders (platform out behaviour) newId originalId d providers s = some result := by
  induction providers generalizing s with
  | nil => exact ⟨_, rfl⟩
  | cons e providers ih =>
    obtain ⟨s₁, ⟨found, r, env⟩, henter, hcall⟩ := returns.call_isSome
      (eventActionId (platform out behaviour) newId s.2).1 originalId d e.1 e.2 s.1
      (eventActionId (platform out behaviour) newId s.2).2
    obtain ⟨env', hexit⟩ := returns.exit_isSome found env
    simp only [EventActionRegister.runProviders, EventActionRegister.runProvider, henter, hcall,
      hexit, Option.bind_eq_bind, Option.bind_some, Option.pure_def]
    split
    · exact ⟨_, rfl⟩
    · exact ih _

/-- A handler that is queued is run to its end: it is there to be popped. -/
theorem Returns.runHandler_isSome (returns : Returns out behaviour)
    (newId originalId : EventActionId) (ok : Ok [] (traced s)) (lawful : Lawful behaviour d) :
    ∃ result, runHandler (platform out behaviour) newId originalId d s = some result := by
  cases hqueue : s.1.descriptorToHandler.queue d.toString with
  | nil => exact ⟨_, ok.runHandler_of_nil hqueue⟩
  | cons front rest =>
    have hlookup := QueueMap.lookup_of_queue_ne_nil (m := s.1.descriptorToHandler)
      (k := d.toString) (by rw [hqueue]; exact List.cons_ne_nil _ _)
    obtain ⟨s₁, ⟨done, r₂, env₂⟩, henter, hcall⟩ := returns.call_isSome
      (eventActionId (platform out behaviour) newId s.2).1 originalId d front front s.1
      (eventActionId (platform out behaviour) newId s.2).2
    -- the front is still there after the call, so popping it is defined
    obtain ⟨r₃, hpop, -⟩ := ok.call lawful hqueue henter hcall
    obtain ⟨env₃, hexit⟩ := returns.exit_isSome true env₂
    unfold EventActionRegister.runHandler
    rw [hlookup, hqueue]
    simp only [henter, hcall, hpop, hexit, Option.bind_eq_bind, Option.bind_some, Option.pure_def]
    exact ⟨_, rfl⟩

end Run

/-! ## Every run -/

/-- The targets of the providers are those from before and the new one. -/
theorem mem_pushProvider {type : StdString} {target : Target O}
    {l : List (StdString × List (Target O))} {e : StdString × List (Target O)}
    (he : e ∈ pushProvider type target l) {x : Target O} (hx : x ∈ e.2) :
    x = target ∨ ∃ e' ∈ l, x ∈ e'.2 := by
  have hregistered : Registered (pushProvider type target l) e.1 x := ⟨e.2, he, hx⟩
  rcases registered_pushProvider_iff.mp hregistered with ⟨-, htarget⟩ | ⟨targets, hmem, hx⟩
  · exact Or.inl htarget
  · exact Or.inr ⟨_, hmem, hx⟩

/-- An event action that is run: a provider handles it, or the oldest handler, or nobody. -/
theorem Ok.runEventAction {out : Outside O E} {behaviour : Behaviour O E}
    {newId originalId : EventActionId} {d : EventActionDescriptor} {s s' : RunState O E}
    {found : Bool} (ok : Ok [] (traced s)) (lawful : Lawful behaviour d)
    (h : runEventAction (platform out behaviour) newId originalId d s = some (found, s')) :
    Ok [] (traced s') ∧ Grows s.2.2 s'.2.2 := by
  simp only [EventActionRegister.runEventAction, Option.bind_eq_bind, Option.bind_eq_some_iff] at h
  obtain ⟨⟨handled, s₁⟩, hproviders, h⟩ := h
  obtain ⟨ok₁, hgrows, -⟩ := ok.runProviders (ok.providersFrom d.type) hproviders
  split at h
  · simp only [Option.pure_def, Option.some.injEq, Prod.mk.injEq] at h
    obtain ⟨-, rfl⟩ := h
    exact ⟨ok₁, hgrows⟩
  · -- the handlers are looked up after the providers have been asked
    cases hqueue : s₁.1.descriptorToHandler.queue d.toString with
    | nil =>
      rw [ok₁.runHandler_of_nil hqueue, Option.some.injEq, Prod.mk.injEq] at h
      exact h.2 ▸ ⟨ok₁, hgrows⟩
    | cons front rest =>
      obtain ⟨-, ok₂, new, gone, hran⟩ := ok₁.runHandler lawful hqueue h
      refine ⟨ok₂, hgrows.trans ⟨?_, ?_, ?_⟩⟩
      · exact hran.registered ▸ List.prefix_append _ _
      · exact hran.ran ▸ List.prefix_append _ _
      · exact hran.deregistered ▸ List.prefix_append _ _

/-- Every step keeps the account of the queues, and the trace only grows. -/
theorem Ok.step {out : Outside O E} {s s' : RunState O E} {l : Label O E} (ok : Ok [] (traced s))
    (h : Step out s l s') : Ok [] (traced s') ∧ Grows s.2.2 s'.2.2 := by
  cases h with
  -- what happens outside does not touch the queues
  | environment env => exact ⟨ok.congr rfl rfl rfl rfl, .refl _⟩
  | op op =>
    refine ⟨?_, (grows_apply op (traced s)).1⟩
    -- a handler or the program registers or deregisters
    cases op with
    | register d o => exact ok.register d o
    | deregister d => exact ok.deregister d
  | registerProvider type o =>
    refine ⟨{ ok with providers := ?_ }, .refl _⟩
    intro e he x hx
    -- the provider is the new one, or was there
    rcases mem_pushProvider he hx with rfl | ⟨e', he', hx⟩
    · exact ⟨o, rfl⟩
    · exact ok.providers e' he' x hx
  | run lawful h => exact ok.runEventAction lawful h

/-- In every run the queues are accounted for. -/
theorem ok_of_reachable {out : Outside O E} {s : RunState O E}
    (hs : (registerRuns out).Reachable s) : Ok [] (traced s) := by
  refine Lts.Reachable.invariant (P := fun s => Ok [] (traced s)) ?_ ?_ hs
  · rintro ⟨r, env, t⟩ ⟨hr, ht⟩
    dsimp only at hr ht
    subst hr ht
    -- at the start all queues are empty
    refine ⟨?_, List.nodup_nil, ?_, ?_, ?_, ?_, List.Perm.refl _⟩
    · intro k
      simp [traced, EventActionRegister.empty]
    · intro k
      simp [traced, EventActionRegister.empty]
    · intro k x hx
      simp [traced, EventActionRegister.empty] at hx
    · intro e he
      simp [traced, EventActionRegister.empty] at he
    · intro k
      simp [traced, EventActionRegister.empty]
  · intro s l s' _ ok h
    exact (ok.step h).1

/-- One-shot handlers, first in first out. In every reachable state the waiting names are
    the keys of the handler map, no queue is empty, every queue is the latest part of what
    was registered under its key, and every handler that was ever registered is queued, has
    been run or has been deregistered, exactly one of these and for good. When no provider
    handles an event action, it is run exactly if a handler is queued for it, and then the
    oldest one is run and leaves its queue. -/
theorem register_one_shot_fifo (out : Outside O E) (s : RunState O E)
    (hs : (registerRuns out).Reachable s) :
    ((∀ k, k ∈ s.1.getWaitingNames ↔ k ∈ s.1.descriptorToHandler) ∧ s.1.getWaitingNames.Nodup) ∧
    s.1.descriptorToHandler.NonEmpty ∧
    (∀ k, s.1.descriptorToHandler.queue k <:+ under k s.2.2.registered) ∧
    s.2.2.registered.Perm (s.1.descriptorToHandler.elems ++ s.2.2.ran ++ s.2.2.deregistered) ∧
    (∀ l s', Step out s l s' → Grows s.2.2 s'.2.2) ∧
    ∀ (behaviour : Behaviour O E) (newId originalId : EventActionId) (d : EventActionDescriptor),
      Lawful behaviour d →
      (Returns out behaviour →
        (EventActionRegister.runEventAction (platform out behaviour) newId originalId d s).isSome) ∧
      ∀ s₁ found s',
        runProviders (platform out behaviour) newId originalId d (s.1.providersFrom d.type) s =
          some (false, s₁) →
        EventActionRegister.runEventAction (platform out behaviour) newId originalId d s =
          some (found, s') →
        (found = true ↔ s₁.1.descriptorToHandler.queue d.toString ≠ []) ∧
        s₁.2.2.ran = s.2.2.ran ∧ (found = false → s' = s₁) ∧
        ∀ front rest, s₁.1.descriptorToHandler.queue d.toString = front :: rest →
          ∃ new gone, RanOldest s₁ s' d.toString front rest new gone := by
  have ok := ok_of_reachable hs
  refine ⟨⟨ok.names, ok.namesNodup⟩, ok.nonEmpty, ok.oldestFirst, ok.conserved,
    fun l s' h => (ok.step h).2, ?_⟩
  intro behaviour newId originalId d lawful
  constructor
  · -- the call returns: the loop over the providers does, and so does the handler
    intro returns
    obtain ⟨⟨handled, s₁⟩, hproviders⟩ := returns.runProviders_isSome newId originalId d
      (s.1.providersFrom d.type) s
    obtain ⟨ok₁, -⟩ := ok.runProviders (ok.providersFrom d.type) hproviders
    obtain ⟨result, hresult⟩ := returns.runHandler_isSome newId originalId ok₁ lawful
    simp only [EventActionRegister.runEventAction, hproviders, Option.bind_eq_bind,
      Option.bind_some]
    split
    · rfl
    · rw [hresult]
      rfl
  · -- no provider has accepted
    intro s₁ found s' hproviders h
    obtain ⟨ok₁, -, hran⟩ := ok.runProviders (ok.providersFrom d.type) hproviders
    simp only [EventActionRegister.runEventAction, hproviders, Option.bind_eq_bind,
      Option.bind_some, Bool.false_eq_true, if_false] at h
    cases hqueue : s₁.1.descriptorToHandler.queue d.toString with
    | nil =>
      -- without a handler nothing runs
      rw [ok₁.runHandler_of_nil hqueue, Option.some.injEq, Prod.mk.injEq] at h
      obtain ⟨rfl, rfl⟩ := h
      exact ⟨by simp, hran, fun _ => rfl, fun front rest hcons => by simp at hcons⟩
    | cons front rest =>
      -- the oldest handler runs, and no other one
      obtain ⟨rfl, -, hone⟩ := ok₁.runHandler lawful hqueue h
      refine ⟨by simp, hran, fun hfalse => by simp at hfalse, fun front' rest' hcons => ?_⟩
      obtain ⟨rfl, rfl⟩ := List.cons.inj hcons
      exact hone

/-- Two handlers of one descriptor, the first of which registers itself again while it runs:
    it goes behind the other one. -/
theorem register_one_shot_fifo_of_reentrant :
    let out : Outside Nat Unit := ⟨fun e => (1, e), fun _ _ e => some e, fun _ e => some e,
      fun _ e => e⟩
    let d := EventActionDescriptor.make .other "A".toList []
    ∃ s, (registerRuns out).Reachable s ∧ s.2.2.ran = [(d.toString, .handler 0)] ∧
      s.1.descriptorToHandler.queue d.toString = [.handler 1, .handler 0] ∧
      d.toString ∈ s.1.getWaitingNames := by
  intro out d
  let behaviour : Behaviour Nat Unit := fun _ d _ => some ([.register d 0], true, ())
  let start : RunState Nat Unit := (.empty, (), ⟨[], [], []⟩)
  have lawful : Lawful behaviour d := by
    intro o s ops done env h d' hd'
    simp only [behaviour, Option.some.injEq, Prod.mk.injEq] at h
    simp [← h.1] at hd'
  have hstart : (registerRuns out).Reachable start := .init ⟨rfl, rfl⟩
  -- the handler registers itself again whenever it runs
  have hregistered := (hstart.step (.op _ (.register d 0))).step (.op _ (.register d 1))
  have hobserved : ((EventActionRegister.runEventAction (platform out behaviour) 1 1 d
      ((Op.applyAll [.register d 0, .register d 1] (traced start)).1, (),
        (Op.applyAll [.register d 0, .register d 1] (traced start)).2)).map fun result =>
      (result.2.2.2.ran, result.2.1.descriptorToHandler.queue d.toString)) =
      some ([(d.toString, .handler 0)], [.handler 1, .handler 0]) := by decide +kernel
  obtain ⟨⟨found, s⟩, hrun, hobserved⟩ := Option.map_eq_some_iff.mp hobserved
  obtain ⟨hran, hqueue⟩ := Prod.mk.inj hobserved
  have hs := hregistered.step (.run lawful hrun)
  obtain ⟨⟨hnames, -⟩, -⟩ := register_one_shot_fifo out s hs
  refine ⟨s, hs, hran, hqueue, (hnames _).mpr ?_⟩
  rw [← AList.lookup_isSome, QueueMap.lookup_of_queue_ne_nil]
  · rfl
  · simp only at hqueue
    simp [hqueue]

end R4.RegisterQueues
