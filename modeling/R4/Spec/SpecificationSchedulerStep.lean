import R4.Native.SpecificationScheduler

/-!
# One step of the record scheduler

`executeDelayedEventAction` chooses a queue, runs the descriptor at its front, and then
updates the queues. `executeDelayedEventAction_eq` cuts it into these three parts, whatever
the register does, and the `finish_*` lemmas say what the last part does in each branch.
-/

namespace R4.SpecificationScheduler

variable {W : Type}

/-- The four queues. -/
inductive Branch where
  | active
  | parsing
  | network
  | other
deriving DecidableEq

/-- The queue of a branch. -/
def queueOf (s : SpecificationScheduler) : Branch → List EventActionDescriptor
  | .active => s.activeNetworkQueue
  | .parsing => s.parsingQueue
  | .network => s.networkQueue
  | .other => s.otherQueue

/-- The queue that the next call takes from. -/
def selectedBranch (s : SpecificationScheduler) : Branch :=
  if s.activeNetworkEvents ≠ [] then .active
  else if s.parsingQueue ≠ [] then .parsing
  else if s.networkQueue ≠ [] then .network
  else .other

/-- The descriptor that the next call runs. -/
def selected (s : SpecificationScheduler) : Option EventActionDescriptor :=
  if s.stopped then none else (s.queueOf s.selectedBranch).head?

/-- What a call does after `descriptor` has run: `before` and `after` are the done counter
    around the run. -/
def finish (branch : Branch) (descriptor : EventActionDescriptor) (before after : UInt32)
    (s : SpecificationScheduler) : Option SpecificationScheduler := do
  let queue ← popFront (s.queueOf branch)
  match branch with
  | .parsing => return { s with parsingQueue := queue }
  | .other => return { s with otherQueue := queue }
  | .active =>
    let last ← isLastInSequence descriptor
    if last ∨ after > before then
      let id ← getNetworkSequenceId descriptor
      return { s with
        activeNetworkQueue := queue, activeNetworkEvents := s.activeNetworkEvents.erase id }
    else return { s with activeNetworkQueue := queue }
  | .network =>
    let last ← isLastInSequence descriptor
    if last = false ∧ before = after then
      let id ← getNetworkSequenceId descriptor
      let (own, others) ← splitQueue id queue
      return { s with
        activeNetworkEvents :=
          if id ∈ s.activeNetworkEvents then s.activeNetworkEvents
          else s.activeNetworkEvents ++ [id]
        activeNetworkQueue := s.activeNetworkQueue ++ own
        networkQueue := others }
    else return { s with networkQueue := queue }

/-- Run the chosen descriptor, and finish in the chosen branch if it was found. -/
def runSelected (env : RecordEnv W) (branch : Branch) (descriptor : EventActionDescriptor)
    (s : SpecificationScheduler × W) : Option (Bool × (SpecificationScheduler × W)) := do
  let before := env.doneCounter s.2
  let (found, s, w) ← env.runEventAction descriptor s
  if found then
    (finish branch descriptor before (env.doneCounter w) s).map fun s =>
      (decide (branch ≠ .active), s, w)
  else return (false, s, w)

private theorem executeParsing_eq (env : RecordEnv W) (d : EventActionDescriptor)
    (s : SpecificationScheduler × W) : executeParsing env d s = runSelected env .parsing d s := by
  unfold executeParsing runSelected
  cases env.runEventAction d s with
  | none => rfl
  | some p =>
    obtain ⟨found, s', w⟩ := p
    cases found with
    | false => rfl
    | true =>
      simp only [finish, queueOf, Option.bind_eq_bind, Option.bind_some, if_true]
      cases popFront s'.parsingQueue <;> rfl

private theorem executeOther_eq (env : RecordEnv W) (d : EventActionDescriptor)
    (s : SpecificationScheduler × W) : executeOther env d s = runSelected env .other d s := by
  unfold executeOther runSelected
  cases env.runEventAction d s with
  | none => rfl
  | some p =>
    obtain ⟨found, s', w⟩ := p
    cases found with
    | false => rfl
    | true =>
      simp only [finish, queueOf, Option.bind_eq_bind, Option.bind_some, if_true]
      cases popFront s'.otherQueue <;> rfl

private theorem executeActive_eq (env : RecordEnv W) (d : EventActionDescriptor)
    (s : SpecificationScheduler × W) : executeActive env d s = runSelected env .active d s := by
  unfold executeActive runSelected
  cases env.runEventAction d s with
  | none => rfl
  | some p =>
    obtain ⟨found, s', w⟩ := p
    -- nothing has run, and nothing changes
    cases found with
    | false => rfl
    | true =>
      -- the event leaves the queue, and closes the sequence if it is the last one
      simp only [finish, queueOf, Option.bind_eq_bind, Option.bind_some, if_true]
      cases popFront s'.activeNetworkQueue with
      | none => rfl
      | some queue =>
        cases isLastInSequence d with
        | none => rfl
        | some last =>
          simp only [Option.bind_some]
          split
          · cases getNetworkSequenceId d <;> rfl
          · rfl

private theorem executeNetwork_eq (env : RecordEnv W) (d : EventActionDescriptor)
    (s : SpecificationScheduler × W) : executeNetwork env d s = runSelected env .network d s := by
  unfold executeNetwork runSelected
  cases env.runEventAction d s with
  | none => rfl
  | some p =>
    obtain ⟨found, s', w⟩ := p
    -- nothing has run
    cases found with
    | false => rfl
    | true =>
      -- the event leaves the queue
      simp only [finish, queueOf, Option.bind_eq_bind, Option.bind_some, if_true]
      cases popFront s'.networkQueue with
      | none => rfl
      | some queue =>
        cases isLastInSequence d with
        | none => rfl
        | some last =>
          simp only [Option.bind_some]
          -- unless it is the last one, its sequence is opened and split off
          split
          · cases getNetworkSequenceId d with
            | none => rfl
            | some id =>
              simp only [Option.bind_some]
              cases splitQueue id queue <;> rfl
          · rfl

/-- One call: choose, run, finish. -/
theorem executeDelayedEventAction_eq (env : RecordEnv W) (s : SpecificationScheduler × W) :
    executeDelayedEventAction env s =
      match s.1.selected with
      | none => some (false, s)
      | some d => runSelected env s.1.selectedBranch d s := by
  -- the branches are chosen by which queues are empty
  obtain ⟨⟨active, activeQueue, parsing, network, other, stopped⟩, w⟩ := s
  unfold executeDelayedEventAction selected selectedBranch
  cases stopped with
  | true => rfl
  | false =>
    cases active with
    | cons sid rest =>
      cases activeQueue with
      | nil => rfl
      | cons d ds => exact executeActive_eq env d _
    | nil =>
      cases parsing with
      | cons d ds => exact executeParsing_eq env d _
      | nil =>
        cases network with
        | cons d ds => exact executeNetwork_eq env d _
        | nil =>
          cases other with
          | nil => rfl
          | cons d ds => exact executeOther_eq env d _

/-! ## The split of the network queue -/

/-- Splitting a queue keeps the order of both parts. -/
theorem splitQueue_eq {id : StdString} {queue own others : List EventActionDescriptor}
    (h : splitQueue id queue = some (own, others)) :
    own = queue.filter (fun e => getNetworkSequenceId e = some id) ∧
      others = queue.filter (fun e => getNetworkSequenceId e ≠ some id) := by
  induction queue generalizing own others with
  | nil =>
    -- nothing to split
    simp only [splitQueue, Option.some.injEq, Prod.mk.injEq] at h
    obtain ⟨rfl, rfl⟩ := h
    exact ⟨rfl, rfl⟩
  | cons e es ih =>
    simp only [splitQueue, Option.bind_eq_bind, Option.bind_eq_some_iff] at h
    obtain ⟨eid, he, ⟨own', others'⟩, hrec, h⟩ := h
    obtain ⟨rfl, rfl⟩ := ih hrec
    split at h <;> rename_i hid <;>
      simp only [Option.pure_def, Option.some.injEq, Prod.mk.injEq] at h <;>
      obtain ⟨rfl, rfl⟩ := h
    · -- the event is of the sequence
      simp [he, hid]
    · -- it is of another one
      simp [he, Ne.symm hid]

/-! ## What finishing does -/

/-- A queue that is popped has a first element. -/
theorem popFront_eq_some {α : Type} {l q : List α} : popFront l = some q ↔ ∃ x, l = x :: q := by
  cases l with
  | nil => simp [popFront]
  | cons x xs => simp [popFront, eq_comm]

/-- The active sequence goes on, or is erased. -/
theorem finish_active {d : EventActionDescriptor} {before after : UInt32}
    {s s' : SpecificationScheduler} (h : finish .active d before after s = some s') :
    ∃ x queue, s.activeNetworkQueue = x :: queue ∧
      ((∃ id, (isLastInSequence d = some true ∨ after > before) ∧
          getNetworkSequenceId d = some id ∧
          s' = { s with
            activeNetworkQueue := queue
            activeNetworkEvents := s.activeNetworkEvents.erase id }) ∨
        (¬ (isLastInSequence d = some true ∨ after > before) ∧
          s' = { s with activeNetworkQueue := queue })) := by
  simp only [finish, queueOf, Option.bind_eq_bind, Option.bind_eq_some_iff] at h
  obtain ⟨queue, hq, last, hl, h⟩ := h
  obtain ⟨x, hx⟩ := popFront_eq_some.mp hq
  refine ⟨x, queue, hx, ?_⟩
  simp only [hl, Option.some.injEq]
  split at h
  · -- the sequence has come to its end
    rename_i hc
    obtain ⟨id, hid, h⟩ := Option.bind_eq_some_iff.mp h
    exact Or.inl ⟨id, hc, hid, (Option.some.inj h).symm⟩
  · rename_i hc
    exact Or.inr ⟨hc, (Option.some.inj h).symm⟩

/-- A sequence becomes active, taking its pending events along, or it is done at once. -/
theorem finish_network {d : EventActionDescriptor} {before after : UInt32}
    {s s' : SpecificationScheduler} (h : finish .network d before after s = some s') :
    ∃ x queue, s.networkQueue = x :: queue ∧
      ((∃ id own others, isLastInSequence d = some false ∧ before = after ∧
          getNetworkSequenceId d = some id ∧ splitQueue id queue = some (own, others) ∧
          s' = { s with
            activeNetworkEvents :=
              if id ∈ s.activeNetworkEvents then s.activeNetworkEvents
              else s.activeNetworkEvents ++ [id]
            activeNetworkQueue := s.activeNetworkQueue ++ own
            networkQueue := others }) ∨
        (¬ (isLastInSequence d = some false ∧ before = after) ∧
          s' = { s with networkQueue := queue })) := by
  simp only [finish, queueOf, Option.bind_eq_bind, Option.bind_eq_some_iff] at h
  obtain ⟨queue, hq, last, hl, h⟩ := h
  obtain ⟨x, hx⟩ := popFront_eq_some.mp hq
  refine ⟨x, queue, hx, ?_⟩
  simp only [hl, Option.some.injEq]
  split at h
  · -- more events of the sequence will follow
    rename_i hc
    obtain ⟨id, hid, h⟩ := Option.bind_eq_some_iff.mp h
    obtain ⟨⟨own, others⟩, hsplit, h⟩ := Option.bind_eq_some_iff.mp h
    exact Or.inl ⟨id, own, others, hc.1, hc.2, hid, hsplit, (Option.some.inj h).symm⟩
  · rename_i hc
    exact Or.inr ⟨hc, (Option.some.inj h).symm⟩

/-- The parsing queue loses its first descriptor. -/
theorem finish_parsing {d : EventActionDescriptor} {before after : UInt32}
    {s s' : SpecificationScheduler} (h : finish .parsing d before after s = some s') :
    ∃ x queue, s.parsingQueue = x :: queue ∧ s' = { s with parsingQueue := queue } := by
  simp only [finish, queueOf, Option.bind_eq_bind, Option.bind_eq_some_iff] at h
  obtain ⟨queue, hq, h⟩ := h
  obtain ⟨x, hx⟩ := popFront_eq_some.mp hq
  exact ⟨x, queue, hx, (Option.some.inj h).symm⟩

/-- The other queue loses its first descriptor. -/
theorem finish_other {d : EventActionDescriptor} {before after : UInt32}
    {s s' : SpecificationScheduler} (h : finish .other d before after s = some s') :
    ∃ x queue, s.otherQueue = x :: queue ∧ s' = { s with otherQueue := queue } := by
  simp only [finish, queueOf, Option.bind_eq_bind, Option.bind_eq_some_iff] at h
  obtain ⟨queue, hq, h⟩ := h
  obtain ⟨x, hx⟩ := popFront_eq_some.mp hq
  exact ⟨x, queue, hx, (Option.some.inj h).symm⟩

end R4.SpecificationScheduler
