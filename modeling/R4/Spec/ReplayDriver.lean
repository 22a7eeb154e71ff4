import R4.Spec.ReplayConservation

/-!
# The driver loop of a replay terminates

The loop calls `executeDelayedEventAction` until it returns false. A round that returns true
takes an item out of the schedule or out of the backlog, and a skipped item moves from the one
to the other. An item of the schedule counts twice, so every such round leaves less to do.

## Key results

- `remaining_lt`: a round that returns true leaves less to do
- `driver_loop_terminates`: the loop ends, whatever is scheduled and whatever runs
-/

namespace R4.ReplayScheduler

variable {W : Type}

/-- What is left to do: an item of the schedule may go through the backlog. -/
def remaining (s : ReplayScheduler W) : Nat := 2 * s.schedule.length + s.scheduleBacklog.length

/-- Taking a marker moves no item. -/
theorem marker_items (s : ReplayScheduler W) :
    s.marker.schedule = s.schedule ∧ s.marker.scheduleBacklog = s.scheduleBacklog := by
  unfold marker
  split <;> exact ⟨rfl, rfl⟩

/-- The loop over the backlog takes out one item, or none. -/
theorem tryBacklog_lengths {env : ReplayEnv W} {done todo : List ReplayItem}
    {s s' : ReplayScheduler W} {success : Bool} (hs : s.scheduleBacklog = done ++ todo)
    (h : tryBacklog env done todo s = some (success, s')) :
    s'.schedule = s.schedule ∧
      s'.scheduleBacklog.length + (if success then 1 else 0) = s.scheduleBacklog.length := by
  induction todo generalizing done s with
  | nil =>
    simp only [tryBacklog, Option.some.injEq, Prod.mk.injEq] at h
    obtain ⟨rfl, rfl⟩ := h
    simp
  | cons x rest ih =>
    simp only [tryBacklog, Option.bind_eq_bind, Option.bind_eq_some_iff] at h
    obtain ⟨⟨found, x', s₁⟩, htry, h⟩ := h
    -- a marker succeeds; anything else stays in its place until it does
    have hplaces : s₁.schedule = s.schedule ∧
        (found = false → s₁.scheduleBacklog = done ++ x' :: rest) := by
      rcases tryExecute_cases htry with ⟨-, rfl, rfl, rfl⟩ | ⟨-, -, w, hframe⟩
      · exact ⟨(marker_items _).1, by simp⟩
      · exact ⟨hframe.schedule, fun _ => hframe.scheduleBacklog⟩
    cases found with
    | true =>
      simp only [if_true, Option.pure_def, Option.some.injEq, Prod.mk.injEq] at h
      obtain ⟨rfl, rfl⟩ := h
      refine ⟨hplaces.1, ?_⟩
      simp only [report, hs, List.length_append, List.length_cons, if_true]
      omega
    | false =>
      simp only [Bool.false_eq_true, if_false] at h
      have hbacklog := hplaces.2 rfl
      obtain ⟨hschedule, hlength⟩ := ih
        (s := { s₁ with world := env.actionLogStrictMode true s₁.world }) (by simp [hbacklog]) h
      refine ⟨hschedule.trans hplaces.1, ?_⟩
      rw [hlength, hs]
      simp [hbacklog]

/-- The next item is taken from the schedule, or the loop is to wait for it. -/
theorem tryHead_lengths {env : ReplayEnv W} {x : ReplayItem} {rest : List ReplayItem}
    {s s' : ReplayScheduler W} (h : s.tryHead env x rest = some (true, s')) :
    s'.schedule = rest ∧ s'.scheduleBacklog.length ≤ s.scheduleBacklog.length + 1 := by
  simp only [tryHead, Option.bind_eq_bind, Option.bind_eq_some_iff] at h
  obtain ⟨⟨found, x', s₁⟩, htry, h⟩ := h
  have hbacklog : s₁.scheduleBacklog = s.scheduleBacklog := by
    rcases tryExecute_cases htry with ⟨-, -, -, rfl⟩ | ⟨-, -, w, hframe⟩
    · exact (marker_items s).2
    · exact hframe.scheduleBacklog
  cases found with
  | true =>
    simp only [if_true, Option.pure_def, Option.some.injEq, Prod.mk.injEq, true_and] at h
    subst h
    exact ⟨rfl, by simp [hbacklog]⟩
  | false =>
    simp only [Bool.false_eq_true, if_false] at h
    split at h
    · -- the item is skipped
      simp only [Option.pure_def, Option.some.injEq, Prod.mk.injEq, true_and] at h
      subst h
      exact ⟨rfl, by simp [report, hbacklog]⟩
    · split at h
      · simp at h
      · simp [Option.bind_eq_some_iff] at h

/-- A round that returns true leaves less to do. -/
theorem remaining_lt {env : ReplayEnv W} {s s' : ReplayScheduler W}
    (h : s.executeDelayedEventAction env = some (true, s')) : s'.remaining < s.remaining := by
  unfold executeDelayedEventAction at h
  split at h
  · -- an empty schedule ends the loop
    simp at h
  · rename_i x rest hschedule
    split at h
    · -- so does the mode `STOP`
      simp at h
    · simp only [Option.bind_eq_bind, Option.bind_eq_some_iff] at h
      obtain ⟨⟨success, s₁⟩, hbacklog, h⟩ := h
      obtain ⟨hsame, hlength⟩ := tryBacklog_lengths rfl hbacklog
      cases success with
      | true =>
        -- a hit in the backlog makes the backlog shorter
        simp only [if_true, Option.pure_def, Option.some.injEq, Prod.mk.injEq, true_and] at h
        subst h
        simp only [remaining, hsame, if_true] at hlength ⊢
        omega
      | false =>
        -- otherwise the head leaves the schedule, or the loop ends
        simp only [Bool.false_eq_true, if_false] at h hlength
        obtain ⟨hrest, hle⟩ := tryHead_lengths h
        simp only [remaining, hschedule, hrest, List.length_cons]
        omega

/-- The driver loop terminates. From every state of the scheduler, with any register and any
    handlers that return, it has ended after as many rounds as there is left to do and one
    more, and no infinite sequence of rounds returns true. -/
theorem driver_loop_terminates (env : ReplayEnv W) (s : ReplayScheduler W) :
    (∀ rounds, s.remaining < rounds → ∀ s',
      s.executeDelayedEventActions env rounds ≠ some (true, s')) ∧
    ¬∃ states : Nat → ReplayScheduler W, states 0 = s ∧
      ∀ i, (states i).executeDelayedEventAction env = some (true, states (i + 1)) := by
  constructor
  · intro rounds
    induction rounds generalizing s with
    | zero => intro h; exact absurd h (Nat.not_lt_zero _)
    | succ rounds ih =>
      intro hlt s' h
      simp only [executeDelayedEventActions, Option.bind_eq_bind, Option.bind_eq_some_iff] at h
      obtain ⟨⟨more, s₁⟩, hround, h⟩ := h
      cases more with
      | true =>
        have hless := remaining_lt hround
        simp only [if_true] at h
        exact ih s₁ (by omega) s' h
      | false => simp at h
  · rintro ⟨states, -, hrounds⟩
    -- what is left to do would go down forever
    have hbound : ∀ i, (states i).remaining + i ≤ (states 0).remaining := by
      intro i
      induction i with
      | zero => simp
      | succ i ih =>
        have hless := remaining_lt (hrounds i)
        omega
    have hlast := hbound ((states 0).remaining + 1)
    omega

end R4.ReplayScheduler
