import R4.Spec.ReplayTrace
import R4.Spec.ScheduleFile

/-!
# The parents of timers in a replay

The descriptor of a timer names its parent event action by id. A replay runs event actions
under new ids, so the scheduler patches the descriptor of a timer with the new id of its
parent when it is first tried, and keeps the patched one. A parent that is skipped and runs
later has no new id yet at that time, and the timer is tried under the old id for good.

The trace of the calls of `runEventAction` says under which id an event action has been
dispatched. `Inv` ties it to the register's map of ids and to the items that still wait.

## Key results

- `mapped_runEventAction`: what an event action does to the map of ids
- `Trying.tryDescriptor`: an attempt on an item keeps the invariant
- `timer_parent_translated_iff`: when a timer is tried under the new id of its parent
-/

namespace R4.TimerParents

open EventActionRegister ReplayScheduler DispatchOrder ReplayTrace StdString

variable {O X : Type}

/-! ## The map of ids -/

/-- The id under which the register has the event action `id` of the schedule file. -/
def newIdOf (w : Program O X) (id : EventActionId) : Option EventActionId :=
  w.1.originalToNewEventActionIdMap.lookup id

/-- Handlers leave the map alone. -/
theorem effect_newIdOf {w w' : Program O X} (h : Effect false w w') (id : EventActionId) :
    newIdOf w' id = newIdOf w id := by
  induction h with
  | refl => rfl
  | trans _ _ ih ih' => exact ih'.trans ih
  | happensBefore => rfl
  | outside => rfl
  | registerHandler => rfl
  | deregisterHandler => rfl
  | registerProvider => rfl
  | enterImmediate hrecording => exact absurd hrecording (by decide)
  | exitImmediate hrecording => exact absurd hrecording (by decide)
  | dispatch hrecording => exact absurd hrecording (by decide)

/-- The event action `originalId` gets its new id if it has run, and nothing else changes. -/
def Mapped (newId originalId : EventActionId) (found : Bool) (w w' : Program O X) : Prop :=
  ∀ id, newIdOf w' id = if id = originalId ∧ found = true then some newId else newIdOf w id

/-- A provider that declined leaves nothing, so what comes after it is all there is. -/
theorem Mapped.of_missed {newId originalId : EventActionId} {found : Bool} {w w₁ w' : Program O X}
    (h : Mapped newId originalId false w w₁) (h' : Mapped newId originalId found w₁ w') :
    Mapped newId originalId found w w' := by
  intro id
  rw [h' id, h id]
  simp

variable {address : O → Int}
  {call : O → EventActionDescriptor → Program O X → Option (Bool × Program O X)}

/-- Taking a handler out of its queue does not touch the map. -/
theorem popHandler_map {r r' : EventActionRegister O} {key : StdString}
    (h : r.popHandler key = some r') :
    r'.originalToNewEventActionIdMap = r.originalToNewEventActionIdMap := by
  obtain ⟨-, heq⟩ := popHandler_frame h
  rw [heq]

/-- The entry is made before the handler runs, and taken back if it declines. -/
theorem mapped_dispatch {w w₁ w₂ : Program O X} {r : EventActionRegister O} {e : HBState × X}
    {newId originalId : EventActionId} {d : EventActionDescriptor} {triggered : O} {found : Bool}
    (hfree : newIdOf w originalId = none)
    (hstart : enterDispatch (hbPlatform address call) newId originalId d triggered w.1 w.2 =
      some w₁)
    (hcall : Effect false w₁ w₂)
    (hr : r.originalToNewEventActionIdMap = w₂.1.originalToNewEventActionIdMap) :
    Mapped newId originalId found w (r.eventActionDispatchEnd found originalId, e) := by
  obtain ⟨_, -, rfl⟩ := Option.map_eq_some_iff.mp hstart
  have hentered : ∀ id, r.originalToNewEventActionIdMap.lookup id =
      if id = originalId then some newId else newIdOf w id := by
    intro id
    rw [hr]
    refine (effect_newIdOf hcall id).trans ?_
    -- the id has no entry, so one is inserted
    have hlookup : w.1.originalToNewEventActionIdMap.lookup originalId = none := hfree
    simp only [newIdOf, eventActionDispatchStart, hlookup]
    by_cases hid : id = originalId
    · subst hid
      rw [if_pos rfl, AList.lookup_insert]
    · rw [if_neg hid, AList.lookup_insert_ne hid]
  intro id
  cases found with
  | true => simpa [newIdOf, eventActionDispatchEnd] using hentered id
  | false =>
    -- the entry is erased, which is that of this dispatch because there was none before
    simp only [newIdOf, eventActionDispatchEnd, Bool.false_eq_true, if_false, and_false]
    by_cases hid : id = originalId
    · subst hid
      rw [AList.lookup_erase]
      exact hfree.symm
    · rw [AList.lookup_erase_ne hid, hentered id, if_neg hid]
      rfl

/-- The loop over the providers: at most the one that accepts leaves its id in the map. -/
theorem mapped_runProviders {w w' : Program O X} (acts : Acts false call)
    {newId originalId : EventActionId} (hnew : newId ≠ -1) {d : EventActionDescriptor}
    {providers : List (O × O)} {found : Bool} (hfree : newIdOf w originalId = none)
    (h : runProviders (hbPlatform address call) newId originalId d providers w =
      some (found, w')) : Mapped newId originalId found w w' := by
  induction providers generalizing w with
  | nil =>
    obtain ⟨rfl, rfl⟩ := Prod.mk.inj (Option.some.inj h)
    intro id
    simp
  | cons e rest ih =>
    simp only [runProviders, runProvider, eventActionId, if_neg hnew, Option.bind_eq_bind,
      Option.bind_eq_some_iff, Option.pure_def, Option.some.injEq] at h
    obtain ⟨_, ⟨w₁, henter, ⟨done, w₂⟩, hcall, env, -, rfl⟩, h⟩ := h
    have hmapped : Mapped newId originalId done w
        (w₂.1.eventActionDispatchEnd done originalId, env) :=
      mapped_dispatch hfree henter (acts _ _ _ _ _ hcall) rfl
    cases done with
    | true =>
      obtain ⟨rfl, rfl⟩ := Prod.mk.inj (Option.some.inj h)
      exact hmapped
    | false =>
      -- after a provider that declines the id is still free
      have hfree' : newIdOf (w₂.1.eventActionDispatchEnd false originalId, env) originalId =
          none := by
        rw [hmapped originalId]
        simpa using hfree
      exact hmapped.of_missed (ih hfree' h)

/-- The same for a handler that was registered. -/
theorem mapped_runHandler {w w' : Program O X} (acts : Acts false call)
    {newId originalId : EventActionId} (hnew : newId ≠ -1) {d : EventActionDescriptor}
    {found : Bool} (hfree : newIdOf w originalId = none)
    (h : runHandler (hbPlatform address call) newId originalId d w = some (found, w')) :
    Mapped newId originalId found w w' := by
  unfold runHandler at h
  split at h
  · obtain ⟨rfl, rfl⟩ := Prod.mk.inj (Option.some.inj h)
    intro id
    simp
  · simp at h
  · simp only [eventActionId, if_neg hnew, Option.bind_eq_bind, Option.bind_eq_some_iff,
      Option.pure_def, Option.some.injEq, Prod.mk.injEq] at h
    obtain ⟨w₁, henter, ⟨done, w₂⟩, hcall, r, hpop, e, -, rfl, rfl⟩ := h
    exact mapped_dispatch hfree henter (acts _ _ _ _ _ hcall) (popHandler_map hpop)

/-- What running an event action does to the map of ids. -/
theorem mapped_runEventAction {w w' : Program O X} (acts : Acts false call)
    {newId originalId : EventActionId} (hnew : newId ≠ -1) {d : EventActionDescriptor}
    {found : Bool} (hfree : newIdOf w originalId = none)
    (h : runEventAction (hbPlatform address call) newId originalId d w = some (found, w')) :
    Mapped newId originalId found w w' := by
  simp only [runEventAction, Option.bind_eq_bind, Option.bind_eq_some_iff] at h
  obtain ⟨⟨handled, w₁⟩, hproviders, h⟩ := h
  have hmapped := mapped_runProviders acts hnew hfree hproviders
  cases handled with
  | true =>
    obtain ⟨rfl, rfl⟩ := Prod.mk.inj (Option.some.inj h)
    exact hmapped
  | false =>
    have hfree₁ : newIdOf w₁ originalId = none := by
      rw [hmapped originalId]
      simpa using hfree
    exact hmapped.of_missed (mapped_runHandler acts hnew hfree₁ h)

/-! ## What the trace says -/

/-- The id under which the event action `id` of the schedule file has been dispatched. -/
def dispatchedAs (trace : List ReplayTry) (id : EventActionId) : Option EventActionId :=
  (trace.find? fun t => t.found && t.originalId == id).map ReplayTry.newId

/-- That id, or the recorded one if it has not been dispatched yet. -/
def translation (trace : List ReplayTry) (id : EventActionId) : EventActionId :=
  (dispatchedAs trace id).getD id

/-- What was tried before the first attempt on the item `id`. -/
def beforeFirst (trace : List ReplayTry) (id : EventActionId) : List ReplayTry :=
  trace.takeWhile fun t => t.originalId != id

/-- The last try decides if it dispatched the event action, or else the tries before it. -/
theorem dispatchedAs_concat (trace : List ReplayTry) (t : ReplayTry) (id : EventActionId) :
    dispatchedAs (trace ++ [t]) id =
      (dispatchedAs trace id).or
        (if id = t.originalId ∧ t.found = true then some t.newId else none) := by
  unfold dispatchedAs
  rw [List.find?_append, Option.map_or]
  congr 1
  -- the new try is looked at last
  by_cases hfound : id = t.originalId ∧ t.found = true
  · simp [hfound.1, hfound.2]
  · rw [if_neg hfound, List.find?_cons_of_neg]
    · rfl
    · simp only [Bool.and_eq_true, beq_iff_eq]
      exact fun h => hfound ⟨h.2.symm, h.1⟩

/-- An id that no try has dispatched. -/
theorem dispatchedAs_eq_none {trace : List ReplayTry} {id : EventActionId}
    (h : ∀ t ∈ trace, t.originalId = id → t.found = false) : dispatchedAs trace id = none := by
  unfold dispatchedAs
  rw [Option.map_eq_none_iff, List.find?_eq_none]
  intro t ht hfound
  simp only [Bool.and_eq_true, beq_iff_eq] at hfound
  simp [h t ht hfound.2] at hfound

/-- An id that was not tried has everything before its first attempt. -/
theorem beforeFirst_of_untried {trace : List ReplayTry} {id : EventActionId}
    (h : ∀ t ∈ trace, t.originalId ≠ id) : beforeFirst trace id = trace := by
  refine List.takeWhile_eq_self_iff.mpr fun t ht => ?_
  simpa using h t ht

/-- Nothing that is tried after the first attempt counts. -/
theorem beforeFirst_concat {trace : List ReplayTry} {t : ReplayTry} {id : EventActionId}
    (h : ∃ t' ∈ trace ++ [t], t'.originalId = id) :
    beforeFirst (trace ++ [t]) id = beforeFirst trace id := by
  unfold beforeFirst
  induction trace with
  | nil =>
    -- the attempt is the one that is appended
    obtain ⟨t', ht', hid⟩ := h
    obtain rfl := List.mem_singleton.mp ht'
    simp [hid]
  | cons first rest ih =>
    -- the first try is for the item already
    by_cases hfirst : first.originalId = id
    · simp [hfirst]
    · -- it is further on
      have hrest : ∃ t' ∈ rest ++ [t], t'.originalId = id := by
        obtain ⟨t', ht', hid⟩ := h
        rcases List.mem_cons.mp ht' with rfl | ht'
        · exact absurd hid hfirst
        · exact ⟨t', ht', hid⟩
      have hpos : (first.originalId != id) = true := by simpa using hfirst
      rw [List.cons_append, List.takeWhile_cons_of_pos (by exact hpos),
        List.takeWhile_cons_of_pos (by exact hpos), ih hrest]

/-- Parameter 4 of the descriptor that is tried is the new id of the recorded parent, or the
    recorded id if that has not been dispatched yet. -/
def ParentTranslated (before : List ReplayTry) (t : ReplayTry) (param : StdString) : Prop :=
  t.descriptor.getParameter 4 = some (decimalInt (translation before (atoi param)))

/-- The recorded parent has the id that it had when the item was first tried. -/
def ParentKept (before : List ReplayTry) (t : ReplayTry) (param : StdString) : Prop :=
  translation before (atoi param) =
    translation (beforeFirst before t.originalId) (atoi param)

/-- The descriptor that is tried is the item's own, which is patched. A waiting descriptor is
    read back from its name. -/
def OwnDescriptor (t : ReplayTry) : Prop := t.descriptor.isPatched = true

/-- What holds of a try for a timer: under its own descriptor the parent is translated if and
    only if it was not dispatched in the meantime, and a waiting descriptor is tried in its
    place only when that has just failed. -/
structure TimerTry (before : List ReplayTry) (t : ReplayTry) (param : StdString) : Prop where
  own : OwnDescriptor t → (ParentTranslated before t param ↔ ParentKept before t param)
  other : ¬OwnDescriptor t → ∃ earlier t', before = earlier ++ [t'] ∧
    t'.originalId = t.originalId ∧ OwnDescriptor t' ∧ t'.found = false

/-- An event action of the schedule file that is a timer. -/
structure IsTimer (item : EventActionScheduleItem) : Prop where
  isNull : item.2.isNull = false
  type : item.2.type = "DOMTimer".toList

/-- What holds of a try, whichever item of the file it is for. -/
def TryOk (items : List EventActionScheduleItem) (before : List ReplayTry) (t : ReplayTry) : Prop :=
  ∀ item ∈ items, IsTimer item → item.1 = t.originalId →
    ∃ param, item.2.getParameter 4 = some param ∧ TimerTry before t param

/-! ## The items that wait -/

/-- A schedule file as it is read: nothing is patched, and no two event actions have one id. -/
structure FreshSchedule (items : List EventActionScheduleItem) : Prop where
  unpatched : ∀ item ∈ items, item.2.isPatched = false
  distinct : ((items.filter fun item => !item.2.isNull).map Prod.fst).Nodup

/-- An event action of the file is found by its id. -/
theorem FreshSchedule.eq_of_id {items : List EventActionScheduleItem} (fresh : FreshSchedule items)
    {item item' : EventActionScheduleItem} (hitem : item ∈ items) (hitem' : item' ∈ items)
    (hnull : item.2.isNull = false) (hnull' : item'.2.isNull = false) (h : item.1 = item'.1) :
    item = item' := by
  refine List.inj_on_of_nodup_map fresh.distinct ?_ ?_ h
  · exact List.mem_filter.mpr ⟨hitem, by simp [hnull]⟩
  · exact List.mem_filter.mpr ⟨hitem', by simp [hnull']⟩

/-- What has become of the descriptor of an item of the file: it is patched at the first
    attempt, and only if it is a timer. -/
inductive Patching (trace : List ReplayTry) (item : EventActionScheduleItem) :
    EventActionDescriptor → Prop where
  | other (htype : item.2.type ≠ "DOMTimer".toList) : Patching trace item item.2
  | untried (h : ∀ t ∈ trace, t.originalId ≠ item.1) : Patching trace item item.2
  | patched {param : StdString} {d : EventActionDescriptor}
      (htype : item.2.type = "DOMTimer".toList) (hparam : item.2.getParameter 4 = some param)
      (h : item.2.patchParameter 4
        (decimalInt (translation (beforeFirst trace item.1) (atoi param))) = some d)
      (htried : ∃ t ∈ trace, t.originalId = item.1) : Patching trace item d

/-- An event action that waits has not run, and its descriptor comes from the file. -/
structure Waits (items : List EventActionScheduleItem) (trace : List ReplayTry) (x : ReplayItem) :
    Prop where
  unfound : ∀ t ∈ trace, t.originalId = x.id → t.found = false
  source : ∃ item ∈ items, item.2.isNull = false ∧ item.1 = x.id ∧
    Patching trace item x.descriptor

/-- A try for another item leaves the descriptor as it is. -/
theorem Patching.concat {trace : List ReplayTry} {item : EventActionScheduleItem}
    {d : EventActionDescriptor} (h : Patching trace item d) {t : ReplayTry}
    (ht : t.originalId ≠ item.1) : Patching (trace ++ [t]) item d := by
  cases h with
  | other htype => exact .other htype
  | untried h =>
    -- the item was not tried, and neither is it now
    refine .untried fun t' ht' => ?_
    rcases List.mem_append.mp ht' with ht' | ht'
    · exact h t' ht'
    · obtain rfl := List.mem_singleton.mp ht'
      exact ht
  | patched htype hparam h htried =>
    -- what the descriptor was patched with comes from before the first attempt
    obtain ⟨t', ht', hx⟩ := htried
    have htried : ∃ t' ∈ trace ++ [t], t'.originalId = item.1 :=
      ⟨t', List.mem_append_left _ ht', hx⟩
    rw [← beforeFirst_concat htried] at h
    exact .patched htype hparam h htried

/-- An item goes on waiting while others are tried. -/
theorem Waits.concat {items : List EventActionScheduleItem} {trace : List ReplayTry}
    {x : ReplayItem} (waits : Waits items trace x) {t : ReplayTry} (ht : t.originalId ≠ x.id) :
    Waits items (trace ++ [t]) x := by
  obtain ⟨unfound, item, hitem, hnull, hid, hpatching⟩ := waits
  refine ⟨?_, item, hitem, hnull, hid, hpatching.concat (hid ▸ ht)⟩
  intro t' ht' hx
  rcases List.mem_append.mp ht' with ht' | ht'
  · exact unfound t' ht' hx
  · obtain rfl := List.mem_singleton.mp ht'
    exact absurd hx ht

/-- What holds between the calls of `runEventAction`, of the program with its trace, the id of
    the next event action and the items that wait. -/
structure Inv (items : List EventActionScheduleItem) (w : Program O X × List ReplayTry)
    (next : EventActionId) (waiting : List ReplayItem) : Prop where
  positive : 0 < next
  map : ∀ id, newIdOf w.1 id = dispatchedAs w.2 id
  waits : ∀ x ∈ waiting, x.descriptor.isNull = false → Waits items w.2 x
  distinct : ((waiting.filter fun x => !x.descriptor.isNull).map ReplayItem.id).Nodup
  tries : ∀ before t, before ++ [t] <+: w.2 → TryOk items before t

/-- The order of what waits does not matter. -/
theorem Inv.perm {items : List EventActionScheduleItem} {w : Program O X × List ReplayTry}
    {next : EventActionId} {waiting waiting' : List ReplayItem} (inv : Inv items w next waiting)
    (h : waiting.Perm waiting') : Inv items w next waiting' :=
  ⟨inv.positive, inv.map, fun x hx => inv.waits x (h.mem_iff.mpr hx),
    ((h.filter _).map _).nodup_iff.mp inv.distinct, inv.tries⟩

/-- Nor does an item that waits no more. -/
theorem Inv.tail {items : List EventActionScheduleItem} {w : Program O X × List ReplayTry}
    {next : EventActionId} {x : ReplayItem} {rest : List ReplayItem}
    (inv : Inv items w next (x :: rest)) : Inv items w next rest :=
  ⟨inv.positive, inv.map, fun y hy => inv.waits y (List.mem_cons_of_mem _ hy),
    inv.distinct.sublist (((List.sublist_cons_self x rest).filter _).map _), inv.tries⟩

/-- Another world with the same map of ids and the same trace. -/
theorem Inv.world {items : List EventActionScheduleItem} {w w' : Program O X × List ReplayTry}
    {next : EventActionId} {waiting : List ReplayItem} (inv : Inv items w next waiting)
    (hmap : ∀ id, newIdOf w'.1 id = newIdOf w.1 id) (htrace : w'.2 = w.2) :
    Inv items w' next waiting := by
  obtain ⟨positive, map, waits, distinct, tries⟩ := inv
  rw [← htrace] at map waits tries
  exact ⟨positive, fun id => (hmap id).trans (map id), waits, distinct, tries⟩

/-- Between the tries the trace stays. -/
theorem trace_of_quiet {p : ProgramEnv O X} {w w' : Program O X × List ReplayTry}
    (h : Quiet p.replayEnv.traced w w') : w'.2 = w.2 := by
  cases h with
  | strictMode => rfl
  | setCurrentEventAction => rfl
  | report => rfl

/-- What the scheduler does without a try keeps everything. -/
theorem Inv.quiet {p : ProgramEnv O X} {items : List EventActionScheduleItem}
    {w w' : Program O X × List ReplayTry} {next : EventActionId} {waiting : List ReplayItem}
    (inv : Inv items w next waiting) (h : Quiet p.replayEnv.traced w w') :
    Inv items w' next waiting := by
  cases h with
  | strictMode => exact inv.world (fun _ => rfl) rfl
  | setCurrentEventAction => exact inv.world (fun _ => rfl) rfl
  | report => exact inv.world (fun _ => rfl) rfl

/-- The same for any number of such steps. -/
theorem Inv.quiets {p : ProgramEnv O X} {items : List EventActionScheduleItem}
    {w w' : Program O X × List ReplayTry} {next : EventActionId} {waiting : List ReplayItem}
    (inv : Inv items w next waiting)
    (h : Relation.ReflTransGen (Quiet p.replayEnv.traced) w w') : Inv items w' next waiting := by
  induction h with
  | refl => exact inv
  | tail _ h ih => exact ih.quiet h

/-! ## Attempts -/

/-- The descriptor under which an item is tried: a timer is patched with the id that its
    parent had when it was first tried. -/
inductive Patched (trace : List ReplayTry) (item : EventActionScheduleItem) :
    EventActionDescriptor → Prop where
  | other (htype : item.2.type ≠ "DOMTimer".toList) : Patched trace item item.2
  | timer {param : StdString} {d : EventActionDescriptor}
      (htype : item.2.type = "DOMTimer".toList) (hparam : item.2.getParameter 4 = some param)
      (h : item.2.patchParameter 4
        (decimalInt (translation (beforeFirst trace item.1) (atoi param))) = some d) :
      Patched trace item d

/-- A descriptor that was tried stays what it is while its item is tried again. -/
theorem Patched.concat {trace : List ReplayTry} {item : EventActionScheduleItem}
    {d : EventActionDescriptor} (h : Patched trace item d) {t : ReplayTry}
    (ht : t.originalId = item.1) : Patched (trace ++ [t]) item d := by
  cases h with
  | other htype => exact .other htype
  | timer htype hparam h =>
    have htried : ∃ t' ∈ trace ++ [t], t'.originalId = item.1 := ⟨t, by simp, ht⟩
    rw [← beforeFirst_concat htried] at h
    exact .timer htype hparam h

/-- The descriptor of a timer that is tried has the translation of the first attempt. -/
theorem Patched.parameter {trace : List ReplayTry} {item : EventActionScheduleItem}
    {d : EventActionDescriptor} (h : Patched trace item d)
    (htimer : item.2.type = "DOMTimer".toList) :
    d.isPatched = true ∧ ∃ param, item.2.getParameter 4 = some param ∧
      d.getParameter 4 =
        some (decimalInt (translation (beforeFirst trace item.1) (atoi param))) := by
  cases h with
  | other htype => exact absurd htimer htype
  | @timer param _ _ hparam h =>
    have hcomma : ',' ∉ decimalInt (translation (beforeFirst trace item.1) (atoi param)) :=
      not_mem_decimalInt (by decide) (by decide) _
    exact ⟨(EventActionDescriptor.patchParameter_frame h).2.2.2, param, hparam,
      EventActionDescriptor.getParameter_patchParameter hcomma h⟩

/-- A descriptor that has been patched at the first attempt is what became of that of the file. -/
theorem Patched.patching {trace : List ReplayTry} {item : EventActionScheduleItem}
    {d : EventActionDescriptor} (h : Patched trace item d)
    (htried : ∃ t ∈ trace, t.originalId = item.1) : Patching trace item d := by
  cases h with
  | other htype => exact .other htype
  | timer htype hparam h => exact .patched htype hparam h htried

/-- The patch, on an item that waits. -/
theorem Patching.patched_of_patchDescriptor {p : ProgramEnv O X}
    {w : Program O X × List ReplayTry} {item : EventActionScheduleItem}
    {d d' : EventActionDescriptor} (h : Patching w.2 item d) (hfile : item.2.isPatched = false)
    (hmap : ∀ id, newIdOf w.1 id = dispatchedAs w.2 id)
    (hpatch : patchDescriptor p.replayEnv.traced d w = some d') : Patched w.2 item d' := by
  unfold patchDescriptor at hpatch
  cases h with
  | other htype =>
    rw [if_neg fun h => htype h.1] at hpatch
    obtain rfl := Option.some.inj hpatch
    exact .other htype
  | untried huntried =>
    -- only a timer is patched, with what the trace says of its parent now
    by_cases htype : item.2.type = "DOMTimer".toList
    · rw [if_pos ⟨htype, hfile⟩] at hpatch
      obtain ⟨param, hparam, hpatch⟩ := Option.bind_eq_some_iff.mp hpatch
      have hnew : p.replayEnv.traced.translateOldIdToNew w (atoi param) =
          translation (beforeFirst w.2 item.1) (atoi param) := by
        rw [beforeFirst_of_untried huntried]
        exact congrArg (fun id => id.getD (atoi param)) (hmap (atoi param))
      rw [hnew] at hpatch
      exact .timer htype hparam hpatch
    · rw [if_neg fun h => htype h.1] at hpatch
      obtain rfl := Option.some.inj hpatch
      exact .other htype
  | patched htype hparam hpatched htried =>
    -- the descriptor has been patched before and is kept
    have hdone := (EventActionDescriptor.patchParameter_frame hpatched).2.2.2
    rw [if_neg fun h => by simp [hdone] at h] at hpatch
    obtain rfl := Option.some.inj hpatch
    exact .timer htype hparam hpatched

/-- An item is being tried: it is set apart from the items that wait. -/
structure Trying (items : List EventActionScheduleItem) (w : Program O X × List ReplayTry)
    (next : EventActionId) (rest : List ReplayItem) (x : ReplayItem) : Prop where
  inv : Inv items w next rest
  isNull : x.descriptor.isNull = false
  unfound : ∀ t ∈ w.2, t.originalId = x.id → t.found = false
  separate : x.id ∉ (rest.filter fun y => !y.descriptor.isNull).map ReplayItem.id
  source : ∃ item ∈ items, item.2.isNull = false ∧ item.1 = x.id ∧ Patched w.2 item x.descriptor

/-- The patch before a try: the descriptor is the translated one from then on. -/
theorem Inv.trying {p : ProgramEnv O X} {items : List EventActionScheduleItem}
    {w : Program O X × List ReplayTry} {next : EventActionId} {x : ReplayItem}
    {rest : List ReplayItem} {d : EventActionDescriptor} (fresh : FreshSchedule items)
    (inv : Inv items w next (x :: rest)) (hnull : x.descriptor.isNull = false)
    (hpatch : patchDescriptor p.replayEnv.traced x.descriptor w = some d) :
    Trying items w next rest { x with descriptor := d } := by
  obtain ⟨unfound, item, hitem, hnull', hid, hpatching⟩ := inv.waits x List.mem_cons_self hnull
  -- no other item that waits has its id
  have hdistinct := inv.distinct
  rw [List.filter_cons_of_pos (by simp [hnull]), List.map_cons, List.nodup_cons] at hdistinct
  refine ⟨inv.tail, ?_, unfound, hdistinct.1, item, hitem, hnull', hid,
    hpatching.patched_of_patchDescriptor (fresh.unpatched item hitem) inv.map hpatch⟩
  rcases patchDescriptor_cases hpatch with rfl | ⟨-, v, hv⟩
  · exact hnull
  · exact (EventActionDescriptor.patchParameter_frame hv).2.2.1.trans hnull

section
variable {p : ProgramEnv O X} {items : List EventActionScheduleItem}
  {w w' : Program O X × List ReplayTry} {next : EventActionId} {rest : List ReplayItem}
  {x : ReplayItem}

/-- The timer that is tried has the translation of its parent at the first attempt. -/
theorem Trying.parameter (trying : Trying items w next rest x) (fresh : FreshSchedule items)
    {item : EventActionScheduleItem} (hitem : item ∈ items) (timer : IsTimer item)
    (hid : item.1 = x.id) :
    x.descriptor.isPatched = true ∧ ∃ param, item.2.getParameter 4 = some param ∧
      x.descriptor.getParameter 4 =
        some (decimalInt (translation (beforeFirst w.2 x.id) (atoi param))) := by
  obtain ⟨item', hitem', hnull, hid', hpatched⟩ := trying.source
  obtain rfl := fresh.eq_of_id hitem hitem' timer.isNull hnull (hid.trans hid'.symm)
  exact hid ▸ hpatched.parameter timer.type

/-- The try under the item's own descriptor. -/
theorem Trying.ownTry (trying : Trying items w next rest x) (fresh : FreshSchedule items)
    (found : Bool) : TryOk items w.2 ⟨next, x.id, x.descriptor, found⟩ := by
  intro item hitem timer hid
  obtain ⟨hpatched, param, hparam, hnew⟩ := trying.parameter fresh hitem timer hid
  refine ⟨param, hparam, fun _ => ?_, fun hother => absurd hpatched hother⟩
  unfold ParentTranslated ParentKept
  rw [hnew, Option.some.injEq]
  constructor
  · -- printed ids are equal only if the ids are
    intro h
    have hread := congrArg atoi h
    rw [atoi_decimalInt, atoi_decimalInt] at hread
    exact hread.symm
  · intro h
    rw [h]

/-- The try under a waiting descriptor, after the item's own has failed. -/
theorem Trying.otherTry (trying : Trying items w next rest x) (fresh : FreshSchedule items)
    {earlier : List ReplayTry} {id : EventActionId} {best : EventActionDescriptor}
    (htrace : w.2 = earlier ++ [⟨id, x.id, x.descriptor, false⟩]) (hbest : best.isPatched = false)
    (found : Bool) : TryOk items w.2 ⟨next, x.id, best, found⟩ := by
  intro item hitem timer hid
  obtain ⟨hpatched, param, hparam, -⟩ := trying.parameter fresh hitem timer hid
  refine ⟨param, hparam, fun hown => ?_, fun _ => ⟨earlier, _, htrace, rfl, hpatched, rfl⟩⟩
  exact absurd (hown.symm.trans hbest) (by decide)

/-- A try changes the map of ids as it changes the trace. -/
theorem Trying.run (trying : Trying items w next rest x)
    (acts : ∀ providers, Acts false (p.call providers)) {providers : Providers}
    {d : EventActionDescriptor} {found : Bool}
    (hrun : p.replayEnv.traced.runEventAction providers next x.id d w = some (found, w'))
    (htry : TryOk items w.2 ⟨next, x.id, d, found⟩) :
    w'.2 = w.2 ++ [⟨next, x.id, d, found⟩] ∧ Inv items w' next rest := by
  obtain ⟨⟨found', w₁⟩, hcall, hresult⟩ := Option.map_eq_some_iff.mp hrun
  obtain ⟨rfl, rfl⟩ := Prod.mk.inj hresult
  obtain ⟨inv, -, unfound, separate, -⟩ := trying
  have hnone : dispatchedAs w.2 x.id = none := dispatchedAs_eq_none unfound
  -- the id is preallocated, so the register allocates none
  have hnew : next ≠ -1 := by
    have hpositive := inv.positive
    rintro rfl
    exact absurd hpositive (by decide)
  have hmapped : Mapped next x.id found' w.1 w₁ :=
    mapped_runEventAction (acts providers) hnew ((inv.map x.id).trans hnone) hcall
  refine ⟨rfl, inv.positive, fun id => ?_, fun y hy hnull => ?_, inv.distinct, ?_⟩
  · -- the map has the new entry that the trace has
    rw [dispatchedAs_concat, hmapped id, inv.map id]
    by_cases hid : id = x.id ∧ found' = true
    · rw [if_pos hid, if_pos hid, hid.1, hnone, Option.none_or]
    · rw [if_neg hid, if_neg hid, Option.or_none]
  · -- the other items have other ids
    refine (inv.waits y hy hnull).concat fun hid => separate ?_
    exact List.mem_map.mpr ⟨y, List.mem_filter.mpr ⟨hy, by simp [hnull]⟩, hid.symm⟩
  · -- the try is the new one, or an earlier one
    intro before t ht
    rcases List.prefix_concat_iff.mp ht with heq | ht
    · obtain ⟨rfl, hlast⟩ := List.append_inj' heq rfl
      obtain rfl := (List.cons.inj hlast).1
      exact htry
    · exact inv.tries before t ht

/-- After a try that has failed the item is as before. -/
theorem Trying.keep (trying : Trying items w next rest x) (inv : Inv items w' next rest)
    {t : ReplayTry} (htrace : w'.2 = w.2 ++ [t]) (hid : t.originalId = x.id)
    (hfound : t.found = false) : Trying items w' next rest x := by
  obtain ⟨-, isNull, unfound, separate, item, hitem, hnull, hitemId, hpatched⟩ := trying
  refine ⟨inv, isNull, ?_, separate, item, hitem, hnull, hitemId, ?_⟩
  · intro t' ht' hid'
    rw [htrace] at ht'
    rcases List.mem_append.mp ht' with ht' | ht'
    · exact unfound t' ht' hid'
    · obtain rfl := List.mem_singleton.mp ht'
      exact hfound
  · rw [htrace]
    exact hpatched.concat (hid.trans hitemId.symm)

/-- An item that has been tried waits again. -/
theorem Trying.waiting (trying : Trying items w next rest x)
    (htried : ∃ t ∈ w.2, t.originalId = x.id) : Inv items w next (x :: rest) := by
  obtain ⟨inv, isNull, unfound, separate, item, hitem, hnull, hid, hpatched⟩ := trying
  refine ⟨inv.positive, inv.map, ?_, ?_, inv.tries⟩
  · intro y hy hy'
    rcases List.mem_cons.mp hy with rfl | hy
    · exact ⟨unfound, item, hitem, hnull, hid, hpatched.patching (hid ▸ htried)⟩
    · exact inv.waits y hy hy'
  · rw [List.filter_cons_of_pos (by simp [isNull]), List.map_cons, List.nodup_cons]
    exact ⟨separate, inv.distinct⟩

/-- What the scheduler does without a try keeps an attempt going. -/
theorem Trying.quiet (trying : Trying items w next rest x) (h : Quiet p.replayEnv.traced w w') :
    Trying items w' next rest x := by
  have htrace := trace_of_quiet h
  obtain ⟨inv, isNull, unfound, separate, source⟩ := trying
  rw [← htrace] at unfound source
  exact ⟨inv.quiet h, isNull, unfound, separate, source⟩

/-- The next event action gets a new id. -/
theorem Inv.allocate {waiting : List ReplayItem} (inv : Inv items w next waiting) :
    Inv items (p.replayEnv.traced.hbAllocateEventActionId w).2
      (p.replayEnv.traced.hbAllocateEventActionId w).1 waiting :=
  ⟨w.1.2.1.hb.nextPositive, inv.map, inv.waits, inv.distinct, inv.tries⟩

/-- What `runUnder` does for the item that is tried. -/
structure RanUnder (items : List EventActionScheduleItem) (rest : List ReplayItem) (x : ReplayItem)
    (t : ReplayTry) (s s' : ReplayScheduler (Program O X × List ReplayTry)) : Prop where
  trace : s'.world.2 = s.world.2 ++ [t]
  inv : Inv items s'.world s'.nextEventActionId rest
  missed : t.found = false → Trying items s'.world s'.nextEventActionId rest x

/-- A try, with its own descriptor or with that of a fuzzy match. -/
theorem Trying.runUnder {s s' : ReplayScheduler (Program O X × List ReplayTry)}
    (trying : Trying items s.world s.nextEventActionId rest x)
    (acts : ∀ providers, Acts false (p.call providers)) {d : EventActionDescriptor} {found : Bool}
    (h : s.runUnder p.replayEnv.traced x.id d = some (found, s'))
    (htry : TryOk items s.world.2 ⟨s.nextEventActionId, x.id, d, found⟩) :
    RanUnder items rest x ⟨s.nextEventActionId, x.id, d, found⟩ s s' := by
  obtain ⟨hrun, hnext⟩ := runUnder_eq_some h
  obtain ⟨htrace, inv⟩ := trying.run acts hrun htry
  rw [← hnext] at inv
  refine ⟨htrace, inv, fun hfound => ?_⟩
  rw [hnext] at inv ⊢
  exact trying.keep inv htrace rfl hfound

/-- An item that has been tried and missed waits. -/
theorem RanUnder.waiting {t : ReplayTry} {s s' : ReplayScheduler (Program O X × List ReplayTry)}
    (ran : RanUnder items rest x t s s') (hfound : t.found = false) (hid : t.originalId = x.id) :
    Inv items s'.world s'.nextEventActionId (x :: rest) :=
  (ran.missed hfound).waiting ⟨t, by rw [ran.trace]; simp, hid⟩

/-- The exact attempt on an item, and the fuzzy one after it. -/
theorem Trying.tryDescriptor {s s' : ReplayScheduler (Program O X × List ReplayTry)}
    (trying : Trying items s.world s.nextEventActionId rest x) (fresh : FreshSchedule items)
    (acts : ∀ providers, Acts false (p.call providers)) {found : Bool}
    (h : s.tryDescriptor p.replayEnv.traced x.id x.descriptor = some (found, s')) :
    Inv items s'.world s'.nextEventActionId (if found then rest else x :: rest) := by
  simp only [ReplayScheduler.tryDescriptor, Option.bind_eq_bind, Option.bind_eq_some_iff] at h
  obtain ⟨⟨found₁, s₁⟩, h₁, ⟨found₂, s₂⟩, h₂, h⟩ := h
  have hexact := trying.runUnder acts h₁ (trying.ownTry fresh found₁)
  -- what was tried last
  have hlast : Inv items s₂.world s₂.nextEventActionId (if found₂ then rest else x :: rest) := by
    rcases fuzzyStage_split trying.isNull h₂ with ⟨rfl, rfl⟩ | ⟨rfl, w, hw, hruns⟩
    · cases found₂ with
      | true => exact hexact.inv
      | false => exact hexact.waiting rfl rfl
    · have hmissed := hexact.missed rfl
      have trying₁ := hmissed.quiet hw
      have htrace : w.2 = s.world.2 ++ [⟨s.nextEventActionId, x.id, x.descriptor, false⟩] :=
        (trace_of_quiet hw).trans hexact.trace
      have hfuzzy : ∃ t, t.found = found₂ ∧ t.originalId = x.id ∧
          RanUnder items rest x t { s₁ with world := w } s₂ := by
        cases hruns with
        | exact _ _ h => exact ⟨_, rfl, rfl, trying₁.runUnder acts h (trying₁.ownTry fresh found₂)⟩
        | fuzzy _ hbest h =>
          exact ⟨_, rfl, rfl, trying₁.runUnder acts h (trying₁.otherTry fresh htrace hbest found₂)⟩
      obtain ⟨t, rfl, hid, hran⟩ := hfuzzy
      cases hfound : t.found with
      | true => exact hran.inv
      | false => exact hran.waiting hfound hid
  cases found₂ with
  | true =>
    obtain ⟨rfl, rfl⟩ := Prod.mk.inj (Option.some.inj h)
    exact hlast.allocate
  | false =>
    obtain ⟨rfl, rfl⟩ := Prod.mk.inj (Option.some.inj h)
    exact hlast

/-- An attempt on an item, wherever it is stored: afterwards it has run, or it waits. -/
theorem tryExecute_inv
    {inPlace : ReplayItem → ReplayScheduler (Program O X × List ReplayTry) →
      ReplayScheduler (Program O X × List ReplayTry)}
    {x' : ReplayItem} {s s' : ReplayScheduler (Program O X × List ReplayTry)} {found : Bool}
    (h : s.tryExecuteEventActionDescriptor p.replayEnv.traced inPlace x = some (found, x', s'))
    (hplace : ∀ x s, (inPlace x s).world = s.world ∧
      (inPlace x s).nextEventActionId = s.nextEventActionId)
    (hnull : x.descriptor.isNull = false) (fresh : FreshSchedule items)
    (acts : ∀ providers, Acts false (p.call providers))
    (inv : Inv items s.world s.nextEventActionId (x :: rest)) :
    Inv items s'.world s'.nextEventActionId (if found then rest else x' :: rest) := by
  simp only [tryExecuteEventActionDescriptor, hnull, Bool.false_eq_true, if_false,
    Option.bind_eq_bind, Option.bind_eq_some_iff, Option.pure_def, Option.some.injEq,
    Prod.mk.injEq] at h
  obtain ⟨d, hd, ⟨found', s₁⟩, htry, rfl, rfl, rfl⟩ := h
  have hquiet : Quiet p.replayEnv.traced s.world
      (p.replayEnv.traced.warningCollectorSetCurrentEventAction s.nextEventActionId s.world) :=
    .setCurrentEventAction _ _
  have trying := (inv.quiet hquiet).trying fresh hnull hd
  exact Trying.tryDescriptor ((hplace _ _).1.symm ▸ (hplace _ _).2.symm ▸ trying) fresh acts htry

/-- The items that wait, in the backlog and in the schedule. -/
def waitingItems (s : ReplayScheduler (Program O X × List ReplayTry)) : List ReplayItem :=
  s.scheduleBacklog ++ s.schedule

/-- What holds of a traced replay between two calls. -/
def SchedulerInv (items : List EventActionScheduleItem)
    (s : ReplayScheduler (Program O X × List ReplayTry)) : Prop :=
  Inv items s.world s.nextEventActionId (waitingItems s)

/-- The loop over the backlog: the items that missed stay, and the one that hits is consumed. -/
theorem tryBacklog_inv {done todo : List ReplayItem}
    {s s' : ReplayScheduler (Program O X × List ReplayTry)} {success : Bool}
    (inv : SchedulerInv items s) (fresh : FreshSchedule items)
    (acts : ∀ providers, Acts false (p.call providers)) (hs : s.scheduleBacklog = done ++ todo)
    (hnull : ∀ x ∈ todo, x.descriptor.isNull = false)
    (h : tryBacklog p.replayEnv.traced done todo s = some (success, s')) :
    SchedulerInv items s' := by
  induction todo generalizing done s with
  | nil =>
    obtain ⟨-, rfl⟩ := Prod.mk.inj (Option.some.inj h)
    exact inv
  | cons x todo ih =>
    have hx := hnull x List.mem_cons_self
    simp only [tryBacklog, Option.bind_eq_bind, Option.bind_eq_some_iff] at h
    obtain ⟨⟨found, x', s₁⟩, htry, h⟩ := h
    -- the item is set apart from the others
    have hwaiting : (waitingItems s).Perm (x :: (done ++ todo ++ s.schedule)) := by
      rw [waitingItems, hs, List.append_assoc, List.cons_append, List.append_assoc]
      exact List.perm_middle
    have hquiet : Quiet p.replayEnv.traced s.world
        (p.replayEnv.traced.actionLogStrictMode false s.world) := .strictMode _ _
    have inv₁ := tryExecute_inv htry (fun _ _ => ⟨rfl, rfl⟩) hx fresh acts
      ((Inv.quiet inv hquiet).perm hwaiting)
    have hframe : s₁.scheduleBacklog = done ++ x' :: todo ∧ s₁.schedule = s.schedule := by
      obtain ⟨hn, -⟩ | ⟨-, -, w, hf⟩ := tryExecute_cases htry
      · exact absurd (hn.symm.trans hx) (by decide)
      · exact ⟨hf.scheduleBacklog, hf.schedule⟩
    have hquiet' : Quiet p.replayEnv.traced s₁.world
        (p.replayEnv.traced.actionLogStrictMode true s₁.world) := .strictMode _ _
    cases found with
    | true =>
      obtain ⟨-, rfl⟩ := Prod.mk.inj (Option.some.inj h)
      have hreport : Quiet p.replayEnv.traced
          (p.replayEnv.traced.actionLogStrictMode true s₁.world)
          (p.replayEnv.traced.warningCollectorReport "WEBERA_SCHEDULER".toList
            "Event action executed from pending schedule.".toList []
            (p.replayEnv.traced.actionLogStrictMode true s₁.world)) := .report _ _ _ _
      have inv₂ := (inv₁.quiet hquiet').quiet hreport
      show Inv items _ _ (done ++ todo ++ s₁.schedule)
      rw [hframe.2]
      exact inv₂
    | false =>
      refine ih ?_ (by simp [hframe.1]) (fun y hy => hnull y (List.mem_cons_of_mem _ hy)) h
      refine (inv₁.quiet hquiet').perm ?_
      show (x' :: (done ++ todo ++ s.schedule)).Perm (s₁.scheduleBacklog ++ s₁.schedule)
      rw [hframe.1, hframe.2, List.append_assoc, List.append_assoc, List.cons_append]
      exact List.perm_middle.symm

/-- The head of the schedule is consumed, moved to the backlog, or stays. -/
theorem tryHead_inv {x : ReplayItem} {rest : List ReplayItem}
    {s s' : ReplayScheduler (Program O X × List ReplayTry)} {more : Bool}
    (inv : SchedulerInv items s) (fresh : FreshSchedule items)
    (acts : ∀ providers, Acts false (p.call providers)) (hs : s.schedule = x :: rest)
    (h : s.tryHead p.replayEnv.traced x rest = some (more, s')) : SchedulerInv items s' := by
  simp only [tryHead, Option.bind_eq_bind, Option.bind_eq_some_iff] at h
  obtain ⟨⟨found, x', s₁⟩, htry, h⟩ := h
  -- the head is set apart from the others
  have hwaiting : (waitingItems s).Perm (x :: (s.scheduleBacklog ++ rest)) := by
    rw [waitingItems, hs]
    exact List.perm_middle
  have inv₀ := Inv.perm inv hwaiting
  rcases tryExecute_cases htry with ⟨hx, rfl, rfl, rfl⟩ | ⟨hx, hatt, w, hf⟩
  · -- a marker
    obtain ⟨-, rfl⟩ := Prod.mk.inj (Option.some.inj h)
    have hmarker : s.marker.world = s.world ∧ s.marker.nextEventActionId = s.nextEventActionId ∧
        s.marker.scheduleBacklog = s.scheduleBacklog := by
      unfold marker
      split <;> exact ⟨rfl, rfl, rfl⟩
    show Inv items s.marker.world s.marker.nextEventActionId (s.marker.scheduleBacklog ++ rest)
    rw [hmarker.1, hmarker.2.1, hmarker.2.2]
    exact inv₀.tail
  · have inv₁ := tryExecute_inv htry (fun _ _ => ⟨rfl, rfl⟩) hx fresh acts inv₀
    have hschedule : s₁.schedule = x' :: rest := hf.schedule
    have hbacklog : s₁.scheduleBacklog = s.scheduleBacklog := hf.scheduleBacklog
    rw [← hbacklog] at inv₁
    cases found with
    | true =>
      obtain ⟨-, rfl⟩ := Prod.mk.inj (Option.some.inj h)
      exact inv₁
    | false =>
      simp only [Bool.false_eq_true, if_false] at h
      split at h
      · -- the item is skipped
        obtain ⟨-, rfl⟩ := Prod.mk.inj (Option.some.inj h)
        have hreport : Quiet p.replayEnv.traced s₁.world (p.replayEnv.traced.warningCollectorReport
          "WEBERA_SCHEDULER".toList "Event action skipped after timeout.".toList
          ("This is the current queue of events\n".toList ++
            s₁.debugPrintTimers p.replayEnv.traced) s₁.world) := .report _ _ _ _
        refine (inv₁.quiet hreport).perm ?_
        show (x' :: (s₁.scheduleBacklog ++ rest)).Perm (s₁.scheduleBacklog ++ [x'] ++ rest)
        rw [List.append_assoc, List.singleton_append]
        exact List.perm_middle.symm
      · have hwaits : SchedulerInv items s₁ := by
          refine inv₁.perm ?_
          rw [waitingItems, hschedule]
          exact List.perm_middle.symm
        split at h
        · obtain ⟨-, rfl⟩ := Prod.mk.inj (Option.some.inj h)
          exact hwaits
        · simp only [Option.bind_eq_some_iff] at h
          obtain ⟨interval, -, h⟩ := h
          obtain ⟨-, rfl⟩ := Prod.mk.inj (Option.some.inj h)
          exact hwaits

/-- Stopping, and whatever else moves no item. -/
theorem SchedulerInv.quiets {s s' : ReplayScheduler (Program O X × List ReplayTry)}
    (inv : SchedulerInv items s) (hquiets : Quiets p.replayEnv.traced s s') (hidle : Idle s s') :
    SchedulerInv items s' := by
  have hworld : Inv items s'.world s.nextEventActionId (waitingItems s) :=
    Inv.quiets inv hquiets.world
  unfold SchedulerInv waitingItems
  rw [hquiets.nextEventActionId, hidle.schedule, hidle.scheduleBacklog]
  exact hworld

/-- One round of the scheduler. -/
theorem execute_inv {s s' : ReplayScheduler (Program O X × List ReplayTry)} {more : Bool}
    (inv : SchedulerInv items s) (fresh : FreshSchedule items)
    (acts : ∀ providers, Acts false (p.call providers))
    (hnull : ∀ x ∈ s.scheduleBacklog, x.descriptor.isNull = false)
    (h : s.executeDelayedEventAction p.replayEnv.traced = some (more, s')) :
    SchedulerInv items s' := by
  unfold executeDelayedEventAction at h
  split at h
  · -- the schedule is empty
    obtain ⟨-, rfl⟩ := Prod.mk.inj (Option.some.inj h)
    exact inv.quiets (quiets_stopRegister _ _ s) (idle_stopRegister _ _ s)
  · rename_i x rest hs
    split at h
    · -- the mode is `STOP`
      obtain ⟨-, rfl⟩ := Prod.mk.inj (Option.some.inj h)
      exact inv.quiets (quiets_stopRegister _ _ s) (idle_stopRegister _ _ s)
    · -- the backlog first, then the head
      simp only [Option.bind_eq_bind, Option.bind_eq_some_iff] at h
      obtain ⟨⟨success, s₁⟩, hbacklog, h⟩ := h
      have inv₁ := tryBacklog_inv inv fresh acts (List.nil_append _).symm hnull hbacklog
      obtain ⟨s₂, ht, hschedule, hres⟩ := tryBacklog_cases (List.nil_append _).symm hnull hbacklog
      cases success with
      | true =>
        obtain ⟨-, rfl⟩ := Prod.mk.inj (Option.some.inj h)
        exact inv₁
      | false =>
        have hs₁ : s₁.schedule = x :: rest := by
          simp only [Bool.false_eq_true, if_false] at hres
          rw [hres, hschedule, hs]
        exact tryHead_inv inv₁ fresh acts hs₁ h

end

/-! ## Runs -/

/-- A traced replay is a replay of the traced environment. -/
theorem replay_of_tracedReplays {p : ProgramEnv O X} {items : List EventActionScheduleItem}
    {s : ReplayScheduler (Program O X × List ReplayTry)} (r : (tracedReplays p items).Reachable s) :
    (replay p.replayEnv.traced items).Reachable s := by
  induction r with
  | init h =>
    obtain ⟨schedulerTimeout, r, e, w, -, -, -, rfl⟩ := h
    exact .init ⟨schedulerTimeout, (w, []), rfl⟩
  | step _ h ih =>
    cases h with
    | effect => exact ih.step (.environment _ _)
    | scheduler _ h => exact ih.step h

/-- At the start every item waits untried. -/
theorem schedulerInv_init {p : ProgramEnv O X} {items : List EventActionScheduleItem}
    (fresh : FreshSchedule items) {schedulerTimeout : Int32} {r : EventActionRegister O}
    {e : HBState × X} {w : Program O X} (hregister : r = .empty) (heffect : Effect false (r, e) w) :
    SchedulerInv items (init p.replayEnv.traced items schedulerTimeout (w, [])) := by
  -- the items that wait are those of the file
  have hwaiting : waitingItems (init p.replayEnv.traced items schedulerTimeout (w, [])) =
      items.zipIdx.map fun e => ⟨e.2, e.1.1, e.1.2⟩ := rfl
  unfold SchedulerInv
  rw [hwaiting]
  refine ⟨w.2.1.hb.nextPositive, ?_, ?_, ?_, ?_⟩
  · -- the register has none of them yet
    intro id
    refine (effect_newIdOf heffect id).trans ?_
    subst hregister
    exact AList.lookup_empty id
  · -- none of them has been tried
    intro x hx hnull
    obtain ⟨⟨item, i⟩, hitem, rfl⟩ := List.mem_map.mp hx
    have hmem : item ∈ items := List.fst_mem_of_mem_zipIdx hitem
    exact ⟨fun t ht => absurd ht List.not_mem_nil, item, hmem, hnull, rfl,
      .untried fun t ht => absurd ht List.not_mem_nil⟩
  · -- their ids are distinct
    have hdistinct := fresh.distinct
    have hitems : items.zipIdx.map Prod.fst = items := List.zipIdx_map_fst 0 items
    rw [← hitems, List.filter_map, List.map_map] at hdistinct
    rw [List.filter_map, List.map_map]
    exact hdistinct
  · -- nothing has been tried
    intro before t ht
    exact absurd (List.prefix_nil.mp ht) (by simp)

/-- The invariant holds in every reachable state of a traced replay. -/
theorem schedulerInv_of_tracedReplays {p : ProgramEnv O X} {items : List EventActionScheduleItem}
    (acts : ∀ providers, Acts false (p.call providers)) (fresh : FreshSchedule items)
    {s : ReplayScheduler (Program O X × List ReplayTry)} (r : (tracedReplays p items).Reachable s) :
    SchedulerInv items s := by
  refine Lts.Reachable.invariant (P := SchedulerInv items) ?_ ?_ r
  · rintro s ⟨schedulerTimeout, r, e, w, hregister, -, heffect, rfl⟩
    exact schedulerInv_init fresh hregister heffect
  · intro s l s' hs inv h
    cases h with
    | effect h => exact Inv.world inv (effect_newIdOf h) rfl
    | scheduler hl h =>
      -- no marker gets into the backlog
      have conserved := conserved_of_reachable (replay_of_tracedReplays hs)
      cases h with
      | environment => exact absurd rfl hl
      | execute h => exact execute_inv inv fresh acts conserved.backlogEvents h
      | eventTimeout h =>
        exact inv.quiets (quiets_slEventActionTimeout h) (idle_slEventActionTimeout h)
      | globalTimeout => exact inv.quiets (quiets_timeout _ s) (idle_timeout _ s)

/-- A schedule file whose event actions have pairwise distinct ids. -/
theorem freshSchedule_of_deserialize {text : StdString} {items : List EventActionScheduleItem}
    (hfile : EventActionSchedule.deserialize text = some items)
    (hids : ((items.filter fun item => !item.2.isNull).map Prod.fst).Nodup) : FreshSchedule items :=
  ⟨fun _ hitem => EventActionSchedule.deserialize_isPatched hfile hitem, hids⟩

/-- The parents of timers. In every replay of a schedule file whose event actions have pairwise
    distinct ids, whenever `runEventAction` is tried for a `DOMTimer` item under the item's own
    descriptor, parameter 4 is the id under which the recorded parent has been dispatched, or
    the recorded id if it has not been dispatched yet, if and only if that id is the one that
    the parent had when the item was first tried. A waiting descriptor is tried in place of the
    item's own only when that has just failed. -/
theorem timer_parent_translated_iff (p : ProgramEnv O X)
    (acts : ∀ providers, Acts false (p.call providers)) {text : StdString}
    {items : List EventActionScheduleItem}
    (hfile : EventActionSchedule.deserialize text = some items)
    (hids : ((items.filter fun item => !item.2.isNull).map Prod.fst).Nodup)
    {s : ReplayScheduler (Program O X × List ReplayTry)} (r : (tracedReplays p items).Reachable s)
    {before : List ReplayTry} {t : ReplayTry} (ht : before ++ [t] <+: s.world.2)
    {item : EventActionScheduleItem} (hitem : item ∈ items) (timer : IsTimer item)
    (hid : item.1 = t.originalId) :
    ∃ param, item.2.getParameter 4 = some param ∧
      (OwnDescriptor t → (ParentTranslated before t param ↔ ParentKept before t param)) ∧
      (¬OwnDescriptor t → ∃ earlier t', before = earlier ++ [t'] ∧
        t'.originalId = t.originalId ∧ OwnDescriptor t' ∧ t'.found = false) := by
  have inv := schedulerInv_of_tracedReplays acts (freshSchedule_of_deserialize hfile hids) r
  obtain ⟨param, hparam, htry⟩ := inv.tries before t ht item hitem timer hid
  exact ⟨param, hparam, htry.own, htry.other⟩

/-! ## A parent that comes late -/

/-- Every timer that is tried under its own descriptor has its parent translated. -/
def ParentsTranslated (items : List EventActionScheduleItem) (trace : List ReplayTry) : Prop :=
  ∀ before t, before ++ [t] <+: trace → ∀ item ∈ items, IsTimer item → item.1 = t.originalId →
    OwnDescriptor t → ∃ param, item.2.getParameter 4 = some param ∧ ParentTranslated before t param

/-- A program in which the event action `A` starts a timer. -/
def timerStarter : ProgramEnv Nat Unit where
  address _ := 0
  call _ o _ w :=
    if o = 1 then
      let parent := decimalInt w.2.1.hb.currentEventActionId
      let timer := EventActionDescriptor.make .timer "DOMTimer".toList
        ("u,1,50,1,".toList ++ parent ++ ",0".toList)
      some (true, w.1.registerEventActionHandler timer 2, w.2)
    else some (true, w)
  warningCollectorSetCurrentEventAction _ x := x
  warningCollectorReport _ _ _ x := x
  score url other := if url = other then 2 ^ 32 - 1 else 0

/-- The handler of the program does nothing that a handler may not do. -/
theorem acts_timerStarter (providers : Providers) :
    Acts false (timerStarter.call providers) := by
  intro o d w found w' h
  simp only [timerStarter] at h
  split at h
  · obtain ⟨-, rfl⟩ := Prod.mk.inj (Option.some.inj h)
    exact .registerHandler w _ 2
  · obtain ⟨-, rfl⟩ := Prod.mk.inj (Option.some.inj h)
    exact .refl _

/-- In the record run `A` came before its timer. -/
def lateParentFile : StdString :=
  "<change>\n<relax>\n7;0-A()\n8;1-DOMTimer(u,1,50,1,7,0)\n9;0-C()\n10;0-D()\n".toList

/-- The timer of the file, whose parent is the event action 7. -/
def lateParentTimer : EventActionScheduleItem :=
  (8, .make .timer "DOMTimer".toList "u,1,50,1,7,0".toList)

/-- The items of the file. -/
def lateParentItems : List EventActionScheduleItem :=
  [(0, .null), (0, .null), (7, .make .other "A".toList []), lateParentTimer,
    (9, .make .other "C".toList []), (10, .make .other "D".toList [])]

/-- The timer is in the file. -/
theorem lateParentTimer_mem : lateParentTimer ∈ lateParentItems := by simp [lateParentItems]

/-- A step of the run. What happens outside of the scheduler is that `A` becomes available. -/
def lateParentStep (s : ReplayScheduler (Program Nat Unit × List ReplayTry))
    (l : ReplayLabel) : Option (ReplayScheduler (Program Nat Unit × List ReplayTry)) :=
  match l with
  | .environment =>
    let a := EventActionDescriptor.make .other "A".toList []
    some { s with
      world := ((s.world.1.1.registerEventActionHandler a 1, s.world.1.2), s.world.2) }
  | .execute => (s.executeDelayedEventAction timerStarter.replayEnv.traced).map Prod.snd
  | .eventTimeout => s.slEventActionTimeout timerStarter.replayEnv.traced
  | .globalTimeout => none

/-- `A` is not there in time, and the timer is not there without it. `C` runs, then `A` from the
    backlog, and the timer is tried again. -/
def lateParentRun : List ReplayLabel :=
  [.execute, .execute, .execute, .eventTimeout, .execute, .execute, .execute, .environment,
    .execute, .execute]

/-- At the start only `C` is available. -/
def lateParentInit : ReplayScheduler (Program Nat Unit × List ReplayTry) :=
  let c := EventActionDescriptor.make .other "C".toList []
  init timerStarter.replayEnv.traced lateParentItems 100
    ((EventActionRegister.empty.registerEventActionHandler c 3, .init, ()), [])

/-- The steps of the run are steps of the traced replay. -/
theorem lateParentStep_step {s s' : ReplayScheduler (Program Nat Unit × List ReplayTry)}
    {l : ReplayLabel} (h : lateParentStep s l = some s') :
    (tracedReplays timerStarter lateParentItems).step s l s' := by
  cases l with
  | environment =>
    obtain rfl := Option.some.inj h
    exact .effect (.registerHandler _ _ _)
  | execute =>
    obtain ⟨⟨more, _⟩, hcall, rfl⟩ := Option.map_eq_some_iff.mp h
    exact .scheduler (fun hl => by cases hl) (.execute hcall)
  | eventTimeout => exact .scheduler (fun hl => by cases hl) (.eventTimeout h)
  | globalTimeout => simp [lateParentStep] at h

/-- What the run computes is reached. -/
theorem lateParent_reachable {s : ReplayScheduler (Program Nat Unit × List ReplayTry)}
    (h : lateParentRun.foldlM lateParentStep lateParentInit = some s) :
    (tracedReplays timerStarter lateParentItems).Reachable s := by
  refine Lts.Reachable.foldlM (fun _ _ _ => lateParentStep_step) (.init ?_) h
  exact ⟨100, _, _, _, rfl, rfl, .registerHandler _ _ 3, rfl⟩

/-- The attempts of the run: on the first, `A` has not been dispatched, and before the last it
    has been dispatched as 2. -/
theorem exists_lateParent_try (i : Nat) (hi : i = 3 ∨ i = 8) :
    ∃ s t, (tracedReplays timerStarter lateParentItems).Reachable s ∧
      s.world.2.take i ++ [t] <+: s.world.2 ∧ t.originalId = 8 ∧ OwnDescriptor t ∧
      t.descriptor.getParameter 4 = some "7".toList ∧
      translation (s.world.2.take i) 7 = if i = 3 then 7 else 2 := by
  -- the run is evaluated up to both attempts
  have hrun : ∀ i, i = 3 ∨ i = 8 →
      (lateParentRun.foldlM lateParentStep lateParentInit).bind (fun s => s.world.2[i]?.map fun t =>
        (t.originalId, t.descriptor.isPatched, t.descriptor.getParameter 4,
          translation (s.world.2.take i) 7)) =
        some (8, true, some "7".toList, if i = 3 then 7 else 2) := by
    rintro i (rfl | rfl)
    · decide +kernel
    · decide +kernel
  obtain ⟨s, hs, hobserved⟩ := Option.bind_eq_some_iff.mp (hrun i hi)
  obtain ⟨t, ht, hobserved⟩ := Option.map_eq_some_iff.mp hobserved
  simp only [Prod.mk.injEq] at hobserved
  refine ⟨s, t, lateParent_reachable hs, ?_, hobserved⟩
  have htake : s.world.2.take (i + 1) = s.world.2.take i ++ [t] := by
    rw [List.take_add_one, ht]
    rfl
  exact htake ▸ List.take_prefix _ _

/-- The file is read as these items. -/
theorem lateParentFile_items :
    EventActionSchedule.deserialize lateParentFile = some lateParentItems := by decide +kernel

/-- No two of its event actions have one id. -/
theorem lateParentItems_distinct :
    ((lateParentItems.filter fun item => !item.2.isNull).map Prod.fst).Nodup := by decide +kernel

/-- The timer is tried for the first time under the recorded id of its parent, which has not
    been dispatched yet. -/
theorem timer_parent_translated_of_first_attempt :
    ∃ s before t param, (tracedReplays timerStarter lateParentItems).Reachable s ∧
      before ++ [t] <+: s.world.2 ∧ lateParentTimer.1 = t.originalId ∧
      lateParentTimer.2.getParameter 4 = some param ∧
      (ParentTranslated before t param ↔ ParentKept before t param) := by
  obtain ⟨s, t, r, ht, hid, hown, -⟩ := exists_lateParent_try 3 (.inl rfl)
  obtain ⟨param, hparam, hiff, -⟩ := timer_parent_translated_iff timerStarter acts_timerStarter
    lateParentFile_items lateParentItems_distinct r ht lateParentTimer_mem ⟨rfl, rfl⟩ hid.symm
  exact ⟨s, _, t, param, r, ht, hid.symm, hparam, hiff hown⟩

/-- `A` is skipped, then its timer is tried and skipped, then `A` runs from the backlog as 2.
    The timer is tried again under 7, though it waits with 2 as its parent. -/
theorem late_parent_not_translated :
    ¬∀ (p : ProgramEnv Nat Unit), (∀ providers, Acts false (p.call providers)) →
      ∀ text items, EventActionSchedule.deserialize text = some items →
        ((items.filter fun item => !item.2.isNull).map Prod.fst).Nodup →
        ∀ s, (tracedReplays p items).Reachable s → ParentsTranslated items s.world.2 := by
  intro h
  obtain ⟨s, t, r, ht, hid, hown, hparam, hnew⟩ := exists_lateParent_try 8 (.inr rfl)
  obtain ⟨param, hrecorded, htranslated⟩ := h timerStarter acts_timerStarter _ _
    lateParentFile_items lateParentItems_distinct s r _ t ht lateParentTimer
    lateParentTimer_mem ⟨rfl, rfl⟩ hid.symm hown
  have hseven : lateParentTimer.2.getParameter 4 = some "7".toList := by decide +kernel
  obtain rfl := Option.some.inj (hrecorded.symm.trans hseven)
  have hatoi : atoi "7".toList = 7 := by decide +kernel
  unfold ParentTranslated at htranslated
  rw [hparam, hatoi, hnew] at htranslated
  exact absurd htranslated (by decide +kernel)

end R4.TimerParents
