import Mathlib.Data.List.ReduceOption
import R4.Native.CheckHB
import R4.Spec.ReplayHistory

/-!
# The check of the arcs finds what it looks for

`checkhb.py` reads back the two files that a run leaves behind, and prints one complaint for
each logged arc whose ends both stand in the schedule, but not one below the other. What goes
wrong inside of a recording or of a replay would be seen there. Nothing does: the ids of the
history increase, and so do arcs.

## Key results

- `loadSchedule_lines`: the dictionary that is filled from the schedule
- `checkLine_arcLine`: a line of `arcs.log` is read back
- `checkhb_finds_arcs`: what is printed, for any arcs and any schedule
- `runs_pass_checkhb`: nothing is printed for a record run or a replay
-/

namespace R4.CheckHB

open StdString DispatchOrder
open Python (Dict)

/-- Whether the line of an item is taken for a marker. -/
def Skipped (item : EventActionScheduleItem) : Prop :=
  isRelax (EventActionSchedule.serializeItem item ++ ['\n']) = true

instance (item : EventActionScheduleItem) : Decidable (Skipped item) :=
  inferInstanceAs (Decidable (_ = true))

/-- `StandsAt schedule id i`: the last item with this id is number `i`. -/
def StandsAt (schedule : List EventActionScheduleItem) (id : EventActionId) (i : Nat) : Prop :=
  (∃ d, schedule[i]? = some (id, d) ∧ ¬ Skipped (id, d)) ∧
    ∀ j d, i < j → schedule[j]? = some (id, d) → Skipped (id, d)

/-- The line on which an id stands, counted from `linenum`, or what was known of it before. -/
def standing (id : EventActionId) :
    List EventActionScheduleItem → Nat → Option Nat → Option Nat
  | [], _, known => known
  | item :: items, linenum, known =>
    standing id items (linenum + 1)
      (if item.1 = id ∧ ¬ Skipped item then some (linenum + 1) else known)

/-- Every item is on a line of its own. -/
def OnLines (schedule : List EventActionScheduleItem) : Prop :=
  ∀ item ∈ schedule, '\n' ∉ item.2.serialize ∧ '\r' ∉ item.2.serialize

instance (schedule : List EventActionScheduleItem) : Decidable (OnLines schedule) :=
  inferInstanceAs (Decidable (∀ item ∈ schedule, _))

/-! ## Reading the schedule -/

/-- An item whose descriptor is on one line is on one line. -/
theorem serializeItem_onLine {item : EventActionScheduleItem}
    (h : '\n' ∉ item.2.serialize ∧ '\r' ∉ item.2.serialize) :
    '\n' ∉ EventActionSchedule.serializeItem item ∧
      '\r' ∉ EventActionSchedule.serializeItem item := by
  unfold EventActionSchedule.serializeItem
  simp [h.1, h.2, not_mem_decimalInt]

/-- The lines of a schedule are its items. -/
theorem textLines_serialize {schedule : List EventActionScheduleItem} (h : OnLines schedule) :
    Python.textLines (EventActionSchedule.serialize schedule) =
      schedule.map fun item => EventActionSchedule.serializeItem item ++ ['\n'] := by
  have hlines : ∀ line ∈ schedule.map EventActionSchedule.serializeItem,
      '\n' ∉ line ∧ '\r' ∉ line :=
    List.forall_mem_map.mpr fun item hitem => serializeItem_onLine (h item hitem)
  have hread := Python.textLines_flatMap hlines
  rwa [List.flatMap_map, List.map_map] at hread

/-- A line is split into the id and the descriptor. -/
theorem split1_serializeItem (item : EventActionScheduleItem) :
    Python.split1 ';' (EventActionSchedule.serializeItem item ++ ['\n']) =
      [decimalInt item.1, item.2.serialize ++ ['\n']] := by
  have hid : ∀ c ∈ decimalInt item.1, decide (c ≠ ';') = true := by
    intro c hc
    rw [decide_eq_true_eq]
    rintro rfl
    exact not_mem_decimalInt (by decide) (by decide) _ hc
  rw [Python.split1_of_mem (by simp [EventActionSchedule.serializeItem]),
    EventActionSchedule.serializeItem, List.append_assoc, List.cons_append,
    List.takeWhile_append_of_pos hid, List.dropWhile_append_of_pos hid]
  simp

/-- An id is read back. -/
theorem int_decimalInt (id : Int) : Python.int (decimalInt id) = some id := by
  have h := Python.int_decimalInt id (List.forall_mem_nil _) (List.forall_mem_nil _)
  rwa [List.nil_append, List.append_nil] at h

/-- The dictionary that is filled from the schedule. -/
theorem loadSchedule_lines (schedule : List EventActionScheduleItem) (linenum : Nat)
    (idToLine : Dict Int Nat) :
    ∃ filled, loadSchedule
        (schedule.map fun item => EventActionSchedule.serializeItem item ++ ['\n'])
        linenum idToLine = some filled ∧
      ∀ id, filled.get? id = standing id schedule linenum (idToLine.get? id) := by
  induction schedule generalizing linenum idToLine with
  | nil =>
    -- the lines are at their end
    refine ⟨idToLine, ?_, fun id => ?_⟩
    · rw [List.map_nil, loadSchedule]
    · rw [standing]
  | cons item items ih =>
    simp only [List.map_cons, loadSchedule]
    -- an item that was skipped gets no line
    by_cases hskipped : Skipped item
    · obtain ⟨filled, hload, hfilled⟩ := ih (linenum + 1) idToLine
      refine ⟨filled, ?_, fun id => ?_⟩
      · rw [← hload]
        exact if_pos hskipped
      · rw [hfilled, standing, if_neg fun h => h.2 hskipped]
    · -- the item stands on this line, unless its id comes again
      obtain ⟨filled, hload, hfilled⟩ := ih (linenum + 1) (idToLine.set item.1 (linenum + 1))
      refine ⟨filled, ?_, fun id => ?_⟩
      · rw [split1_serializeItem, ← hload]
        dsimp only
        rw [int_decimalInt, Option.bind_some]
        exact if_neg hskipped
      · rw [hfilled, standing, Dict.get?_set]
        simp [hskipped, eq_comm]

/-! ## Where an id stands -/

/-- The last item of an id decides where it stands, unless it was skipped. -/
theorem standing_concat (id : EventActionId) (schedule : List EventActionScheduleItem)
    (item : EventActionScheduleItem) (linenum : Nat) (known : Option Nat) :
    standing id (schedule ++ [item]) linenum known =
      if item.1 = id ∧ ¬ Skipped item then some (linenum + 1 + schedule.length)
      else standing id schedule linenum known := by
  induction schedule generalizing linenum known with
  | nil => rfl
  | cons first items ih =>
    rw [List.cons_append, standing, ih, standing, List.length_cons]
    congr 2
    omega

/-- The last item is the one, or it is of no concern. -/
theorem standsAt_concat {schedule : List EventActionScheduleItem} {item : EventActionScheduleItem}
    {id : EventActionId} {i : Nat} :
    StandsAt (schedule ++ [item]) id i ↔
      if item.1 = id ∧ ¬ Skipped item then i = schedule.length else StandsAt schedule id i := by
  have hlast : (schedule ++ [item])[schedule.length]? = some item := List.getElem?_concat_length ..
  have hinit : ∀ {j}, j < schedule.length → (schedule ++ [item])[j]? = schedule[j]? :=
    fun hj => List.getElem?_append_left hj
  split
  · rename_i hlisted
    obtain ⟨rfl, hkept⟩ := hlisted
    constructor
    · rintro ⟨⟨d, hd, -⟩, hlater⟩
      have hle := (List.getElem?_eq_some_iff.mp hd).1
      rw [List.length_append, List.length_singleton] at hle
      by_contra hne
      exact hkept (hlater schedule.length item.2 (by omega) hlast)
    · rintro rfl
      refine ⟨⟨item.2, hlast, hkept⟩, fun j d hj hd => ?_⟩
      have hle := (List.getElem?_eq_some_iff.mp hd).1
      rw [List.length_append, List.length_singleton] at hle
      omega
  · rename_i hother
    -- the last item has another id, or is skipped
    have hskipped : ∀ {d}, (schedule ++ [item])[schedule.length]? = some (id, d) →
        Skipped (id, d) := by
      intro d hd
      obtain rfl := Option.some.inj (hlast.symm.trans hd)
      by_contra hkept
      exact hother ⟨rfl, hkept⟩
    constructor
    · rintro ⟨⟨d, hd, hkept⟩, hlater⟩
      have hle := (List.getElem?_eq_some_iff.mp hd).1
      rw [List.length_append, List.length_singleton] at hle
      have hlt : i < schedule.length := by
        rcases Nat.lt_or_eq_of_le (Nat.le_of_lt_succ hle) with hlt | rfl
        · exact hlt
        · exact absurd (hskipped hd) hkept
      refine ⟨⟨d, (hinit hlt).symm.trans hd, hkept⟩, fun j d' hj hd' => ?_⟩
      exact hlater j d' hj ((hinit (List.getElem?_eq_some_iff.mp hd').1).trans hd')
    · rintro ⟨⟨d, hd, hkept⟩, hlater⟩
      have hlt := (List.getElem?_eq_some_iff.mp hd).1
      refine ⟨⟨d, (hinit hlt).trans hd, hkept⟩, fun j d' hj hd' => ?_⟩
      have hle := (List.getElem?_eq_some_iff.mp hd').1
      rw [List.length_append, List.length_singleton] at hle
      rcases Nat.lt_or_eq_of_le (Nat.le_of_lt_succ hle) with hlt' | rfl
      · exact hlater j d' hj ((hinit hlt').symm.trans hd')
      · exact hskipped hd'

/-- The dictionary has the last item with an id. -/
theorem standing_eq_some_iff {id : EventActionId} {schedule : List EventActionScheduleItem}
    {linenum line : Nat} :
    standing id schedule linenum none = some line ↔
      ∃ i, StandsAt schedule id i ∧ line = linenum + 1 + i := by
  induction schedule using List.reverseRecOn with
  | nil => simp [standing, StandsAt]
  | append_singleton schedule item ih =>
    rw [standing_concat]
    simp only [standsAt_concat]
    split
    · simp [eq_comm]
    · exact ih

/-! ## Reading the arcs -/

/-- An arc is on one line. -/
theorem arcLine_onLine (arc : Arc) : '\n' ∉ arcLine arc ∧ '\r' ∉ arcLine arc := by
  simp [arcLine, not_mem_decimalInt]

/-- The lines of the arcs are the arcs. -/
theorem textLines_writeArcs (arcs : List Arc) :
    Python.textLines (writeArcs arcs) = arcs.map fun arc => arcLine arc ++ ['\n'] := by
  have hlines : ∀ line ∈ arcs.map arcLine, '\n' ∉ line ∧ '\r' ∉ line :=
    List.forall_mem_map.mpr fun arc _ => arcLine_onLine arc
  have hread := Python.textLines_flatMap hlines
  rwa [List.flatMap_map, List.map_map] at hread

/-- An id is read back from between blanks. -/
theorem strip_decimalInt {front back : StdString} (id : Int)
    (hfront : ∀ c ∈ front, Python.isSpace c = true)
    (hback : ∀ c ∈ back, Python.isSpace c = true) :
    Python.int (Python.strip (front ++ decimalInt id ++ back)) = some id := by
  rw [Python.strip_append hfront hback fun c hc => Python.not_isSpace_of_mem_decimalInt hc,
    int_decimalInt]

/-- The minus signs of the ids do not get into the way of the arrow between them. -/
theorem split_arcLine (arc : Arc) :
    Python.split "->".toList (arcLine arc ++ ['\n']) =
      [decimalInt arc.tail ++ [' '], [' '] ++ decimalInt arc.head ++ ['\n']] := by
  have htail : '>' ∉ decimalInt arc.tail ++ [' '] := by simp [not_mem_decimalInt]
  have hhead : '>' ∉ [' '] ++ decimalInt arc.head ++ ['\n'] := by simp [not_mem_decimalInt]
  have hdash : '>' ∉ ['-'] := by decide
  have hsplit := Python.split_append hdash htail ([' '] ++ decimalInt arc.head ++ ['\n'])
  rw [Python.split_of_not_mem hhead] at hsplit
  rw [← hsplit]
  simp [arcLine]

/-- A line is checked as its arc. -/
theorem checkLine_arcLine (idToLine : Dict Int Nat) (arc : Arc) :
    checkLine idToLine (arcLine arc ++ ['\n']) = some (checkArc idToLine arc.tail arc.head) := by
  have hblank : ∀ c ∈ [' '], Python.isSpace c = true := List.forall_mem_singleton.mpr (by decide)
  have hnewline : ∀ c ∈ ['\n'], Python.isSpace c = true :=
    List.forall_mem_singleton.mpr (by decide)
  have htail := strip_decimalInt arc.tail (List.forall_mem_nil _) hblank
  have hhead := strip_decimalInt arc.head hblank hnewline
  rw [checkLine, split_arcLine]
  rw [List.nil_append] at htail
  simp only [htail, hhead]
  rfl

/-- Checking the lines is checking the arcs. -/
theorem mapM_checkLine (idToLine : Dict Int Nat) (arcs : List Arc) :
    (arcs.map fun arc => arcLine arc ++ ['\n']).mapM (checkLine idToLine) =
      some (arcs.map fun arc => checkArc idToLine arc.tail arc.head) := by
  induction arcs with
  | nil => rfl
  | cons arc arcs ih =>
    rw [List.map_cons, List.mapM_cons, checkLine_arcLine, ih]
    rfl

/-- An arc is complained about if both ends are known and the head does not stand behind the tail.
    -/
theorem checkArc_eq_some_iff {idToLine : Dict Int Nat} {tail head : Int} {text : StdString} :
    checkArc idToLine tail head = some text ↔
      ∃ tailLine headLine, idToLine.get? tail = some tailLine ∧
        idToLine.get? head = some headLine ∧ headLine ≤ tailLine ∧
        text = notOrdered tail head tailLine headLine := by
  unfold checkArc
  constructor
  · intro h
    split at h
    · rename_i tailLine headLine htail hhead
      split at h
      · simp at h
      · rename_i hle
        exact ⟨tailLine, headLine, htail, hhead, Nat.not_lt.mp hle, (Option.some.inj h).symm⟩
    · simp at h
  · rintro ⟨tailLine, headLine, htail, hhead, hle, rfl⟩
    rw [htail, hhead]
    exact if_neg (Nat.not_lt.mpr hle)

/-! ## What is printed -/

/-- What `checkhb.py` prints for the two files of a run, whatever arcs and schedule they hold. It
    can read both, and its complaints are the arcs between two event actions of the schedule of
    which the later does not stand below the earlier, the last line counting where an id stands
    on several. The lines that are named in a complaint are one too high. -/
theorem checkhb_finds_arcs (arcs : List Arc) {schedule : List EventActionScheduleItem}
    (hlines : OnLines schedule) :
    ∃ printed, checkhb (writeArcs arcs) (EventActionSchedule.serialize schedule) = some printed ∧
      ∀ text, text ∈ printed ↔ ∃ arc ∈ arcs, ∃ i j, StandsAt schedule arc.tail i ∧
        StandsAt schedule arc.head j ∧ j ≤ i ∧
        text = notOrdered arc.tail arc.head (i + 2) (j + 2) := by
  obtain ⟨idToLine, hload, hfilled⟩ := loadSchedule_lines schedule 1 Dict.empty
  -- the line that is known is that on which the id stands
  have hget : ∀ id line, idToLine.get? id = some line ↔
      ∃ i, StandsAt schedule id i ∧ line = 2 + i := by
    intro id line
    rw [hfilled]
    exact standing_eq_some_iff
  -- every arc is checked
  have hprinted : checkhb (writeArcs arcs) (EventActionSchedule.serialize schedule) =
      some (arcs.map fun arc => checkArc idToLine arc.tail arc.head).reduceOption := by
    rw [checkhb, textLines_serialize hlines, textLines_writeArcs, hload]
    simp only [Option.bind_eq_bind, Option.bind_some, mapM_checkLine]
    rfl
  refine ⟨_, hprinted, fun text => ?_⟩
  simp only [List.reduceOption_mem_iff, List.mem_map, checkArc_eq_some_iff, hget]
  constructor
  · -- a complaint is about an arc whose head stands in front of its tail
    rintro ⟨arc, harc, _, _, ⟨i, hi, rfl⟩, ⟨j, hj, rfl⟩, hle, rfl⟩
    refine ⟨arc, harc, i, j, hi, hj, by omega, ?_⟩
    rw [Nat.add_comm 2 i, Nat.add_comm 2 j]
  · -- such an arc is complained about
    rintro ⟨arc, harc, i, j, hi, hj, hle, rfl⟩
    refine ⟨arc, harc, 2 + i, 2 + j, ⟨i, hi, rfl⟩, ⟨j, hj, rfl⟩, by omega, ?_⟩
    rw [Nat.add_comm 2 i, Nat.add_comm 2 j]

/-- Two event actions, and an arc that goes upwards. -/
theorem checkhb_finds_arcs_of_upwards :
    ∃ printed, checkhb (writeArcs [⟨2, 1, -1⟩])
        (EventActionSchedule.serialize ReplayHistory.twoEvents) = some printed ∧
      notOrdered 2 1 3 2 ∈ printed := by
  have hlines : OnLines ReplayHistory.twoEvents := by decide +kernel
  obtain ⟨printed, hprinted, htexts⟩ := checkhb_finds_arcs [⟨2, 1, -1⟩] hlines
  -- the second event action stands on the second line
  have htail : StandsAt ReplayHistory.twoEvents 2 1 := by
    refine ⟨⟨_, rfl, by decide +kernel⟩, fun j d hj hd => ?_⟩
    have hlt := (List.getElem?_eq_some_iff.mp hd).1
    simp only [ReplayHistory.twoEvents, List.length_cons, List.length_nil] at hlt
    omega
  -- the first one stands on the first line
  have hhead : StandsAt ReplayHistory.twoEvents 1 0 := by
    refine ⟨⟨_, rfl, by decide +kernel⟩, fun j d hj hd => ?_⟩
    have hlt := (List.getElem?_eq_some_iff.mp hd).1
    obtain rfl : j = 1 := by
      simp only [ReplayHistory.twoEvents, List.length_cons, List.length_nil] at hlt
      omega
    simp [ReplayHistory.twoEvents] at hd
  exact ⟨printed, hprinted, (htexts _).mpr
    ⟨_, List.mem_singleton_self _, 1, 0, htail, hhead, by decide, rfl⟩⟩

/-! ## Runs -/

/-- An id is that of the item where it stands. -/
theorem StandsAt.getElem? {schedule : List EventActionScheduleItem} {id : EventActionId} {i : Nat}
    (h : StandsAt schedule id i) : (schedule.map Prod.fst)[i]? = some id := by
  obtain ⟨⟨d, hd, -⟩, -⟩ := h
  rw [List.getElem?_map, hd]
  rfl

/-- There is no complaint about a program whose history and arcs are in order. -/
theorem checkhb_of_agrees {O X : Type} {w : Program O X} (h : Agrees w)
    (hlines : OnLines w.1.dispatchHistory) :
    checkhb (writeArcs w.2.1.actionLog.arcs) (EventActionSchedule.serialize w.1.dispatchHistory) =
      some [] := by
  obtain ⟨printed, hprinted, htexts⟩ := checkhb_finds_arcs w.2.1.actionLog.arcs hlines
  refine hprinted.trans (congrArg some (List.eq_nil_iff_forall_not_mem.mpr fun text htext => ?_))
  obtain ⟨arc, harc, i, j, htail, hhead, hle, -⟩ := (htexts text).mp htext
  have hlt := h.arcs arc harc i j htail.getElem? hhead.getElem?
  -- the line on which an item starts grows with its number
  rcases Nat.lt_or_eq_of_le hle with hji | rfl
  · have hi := (List.getElem?_eq_some_iff.mp htail.getElem?).1
    rw [List.length_map] at hi
    have := lineOf_lt hji (Nat.le_of_lt hi)
    omega
  · exact Nat.lt_irrefl _ hlt

variable {O X : Type}

/-- No run leaves anything behind to complain about. At any time of a record run, with immediate
    event actions anywhere, and of a replay without them, `checkhb.py` reads the arcs that have
    been logged and the schedule of what has been dispatched, and prints nothing. -/
theorem runs_pass_checkhb (address : O → Int) (p : ProgramEnv O X)
    (acts : ∀ providers, Acts false (p.call providers)) (items : List EventActionScheduleItem) :
    (∀ w, (recordRuns (X := X) address).Reachable w → OnLines w.1.dispatchHistory →
      checkhb (writeArcs w.2.1.actionLog.arcs)
        (EventActionSchedule.serialize w.1.dispatchHistory) = some []) ∧
    ∀ s, (replayRuns p items).Reachable s → OnLines s.world.1.dispatchHistory →
      checkhb (writeArcs s.world.2.1.actionLog.arcs)
        (EventActionSchedule.serialize s.world.1.dispatchHistory) = some [] :=
  ⟨fun _ r => checkhb_of_agrees (ok_of_recordRuns r).agrees,
    fun _ r => checkhb_of_agrees (replayOk_of_replayRuns acts r).ok.agrees⟩

/-- A replay of two event actions of which the second adds an arc from the first. -/
theorem runs_pass_checkhb_of_chain :
    ∃ s, (replayRuns chainedHandlers ReplayHistory.twoEvents).Reachable s ∧
      writeArcs s.world.2.1.actionLog.arcs = "1 -> 2\n".toList ∧
      checkhb (writeArcs s.world.2.1.actionLog.arcs)
        (EventActionSchedule.serialize s.world.1.dispatchHistory) = some [] := by
  have hrun : ((ReplayScheduler.init chainedHandlers.replayEnv ReplayHistory.twoEvents 100
      ReplayHistory.twoRegistered).executeDelayedEventActions chainedHandlers.replayEnv 3).map
        (fun result => (writeArcs result.2.world.2.1.actionLog.arcs,
          decide (OnLines result.2.world.1.dispatchHistory))) =
      some ("1 -> 2\n".toList, true) := by decide +kernel
  obtain ⟨⟨more, s⟩, hs, hobserved⟩ := Option.map_eq_some_iff.mp hrun
  obtain ⟨harcs, hlines⟩ := Prod.mk.inj hobserved
  have hinit := Lts.Reachable.init (T := replayRuns chainedHandlers ReplayHistory.twoEvents)
    ⟨100, _, _, _, rfl, rfl, ReplayHistory.effect_twoRegistered false, rfl⟩
  have r := ReplayHistory.reachable_of_rounds hinit hs
  exact ⟨s, r, harcs, (runs_pass_checkhb chainedHandlers.address chainedHandlers
    acts_chainedHandlers ReplayHistory.twoEvents).2 s r (of_decide_eq_true hlines)⟩

end R4.CheckHB
