import Mathlib.Data.List.Basic
import R4.ForStd.List
import R4.Native.Schedule

/-!
# Schedule files keep the strings of descriptors

A descriptor that is read back from its string need not be the one that was written: a type
with a bracket in it is cut at the bracket. But it has the same string, and that is what the
register and the logs go by.

## Key results

- `EventActionDescriptor.deserialize_toString`: a descriptor read back has the same string
- `EventActionSchedule.deserialize_serialize`: so have the items of a schedule file
- `EventActionSchedule.deserialize_text`: a file of items without a bracket in their types,
  with markers and blank lines anywhere, is read back as it was written
-/

namespace R4

open StdString

namespace EventActionDescriptor

/-- The position of a character that occurs. -/
theorem exists_findIdx? {s : StdString} {c : Char} (h : c ∈ s) :
    ∃ j, s.findIdx? (· == c) = some j ∧ s = s.take j ++ c :: s.drop (j + 1) := by
  cases hj : s.findIdx? (· == c) with
  | none => exact absurd (List.findIdx?_eq_none_iff.mp hj c h) (by simp)
  | some j =>
    obtain ⟨hlt, hc, -⟩ := List.findIdx?_eq_some_iff_getElem.mp hj
    refine ⟨j, rfl, ?_⟩
    rw [← beq_iff_eq.mp hc, ← List.drop_eq_getElem_cons hlt, List.take_append_drop]

/-- A descriptor that is read is neither null nor patched. -/
theorem deserialize_flags {raw : StdString} {d : EventActionDescriptor}
    (h : deserialize raw = some d) : d.isNull = false ∧ d.isPatched = false := by
  unfold deserialize at h
  split at h
  · split at h
    · obtain ⟨category, -, rfl⟩ := Option.map_eq_some_iff.mp h
      exact ⟨rfl, rfl⟩
    · exact nomatch h
  · exact nomatch h

/-- What is read back from the string of a descriptor prints like it. -/
theorem deserialize_toString (d : EventActionDescriptor) :
    ∃ d', deserialize d.toString = some d' ∧ d'.toString = d.toString := by
  obtain ⟨digit, hdigit, hminus, hbracket, hcategory⟩ : ∃ digit,
      decimal d.category.toNat = [digit] ∧ (digit == '-') = false ∧ (digit == '(') = false ∧
        EventActionCategory.ofInt? (atoi [digit]) = some d.category := by
    cases d.category <;> exact ⟨_, rfl, by decide, by decide, by decide⟩
  obtain ⟨rest, hrest⟩ : ∃ rest, rest = d.type ++ '(' :: (d.params ++ [')']) := ⟨_, rfl⟩
  have htext : d.toString = digit :: '-' :: rest := by
    rw [toString_eq, descriptorText, hdigit, hrest]
    rfl
  obtain ⟨j, hj, hsplit⟩ := exists_findIdx? (s := rest) (c := '(') (by simp [hrest])
  -- the bracket that is found is not the last character
  have hclosed : rest.getLast? = some ')' := by
    rw [hrest, ← List.cons_append, ← List.append_assoc, List.getLast?_concat]
  obtain ⟨params, last, htail⟩ : ∃ params last, rest.drop (j + 1) = params ++ [last] := by
    rcases List.eq_nil_or_concat' (rest.drop (j + 1)) with hnil | hlast
    · rw [hsplit, hnil] at hclosed
      simp at hclosed
    · exact hlast
  obtain rfl : last = ')' := by
    rw [hsplit, htail, ← List.cons_append, ← List.append_assoc, List.getLast?_concat] at hclosed
    exact Option.some.inj hclosed
  have hlength : rest.length = j + params.length + 2 := by
    have hj' := (List.findIdx?_eq_some_iff_getElem.mp hj).1
    have := congrArg List.length htail
    simp only [List.length_drop, List.length_append, List.length_singleton] at this
    omega
  refine ⟨make d.category (rest.take j) params, ?_, ?_⟩
  · have htype : (digit :: '-' :: rest).findIdx? (· == '-') = some 1 := by
      simp [List.findIdx?_cons, hminus]
    have hparams : (digit :: '-' :: rest).findIdx? (· == '(') = some (j + 2) := by
      simp [List.findIdx?_cons, hbracket, hj]
    have htake : (rest.drop (j + 1)).take params.length = params := by
      rw [htail, List.take_left' rfl]
    simp only [deserialize, htext, htype, hparams]
    rw [if_pos (by omega), show List.take 1 (digit :: '-' :: rest) = [digit] from rfl, hcategory]
    have hcount : (digit :: '-' :: rest).length - (j + 2) - 2 = params.length := by
      simp only [List.length_cons, hlength]
      omega
    rw [hcount]
    simp [htake]
  · rw [make_toString, htext, descriptorText, hdigit, ← htail, ← hsplit]
    rfl

/-- A descriptor whose type has no bracket is read back from its string, without its caches. -/
theorem deserialize_toString_of_not_mem {d : EventActionDescriptor} (h : '(' ∉ d.type) :
    deserialize d.toString = some (make d.category d.type d.params) := by
  obtain ⟨digit, hdigit, hminus, hbracket, hcategory⟩ : ∃ digit,
      decimal d.category.toNat = [digit] ∧ (digit == '-') = false ∧ (digit == '(') = false ∧
        EventActionCategory.ofInt? (atoi [digit]) = some d.category := by
    cases d.category <;> exact ⟨_, rfl, by decide, by decide, by decide⟩
  have htext : d.toString = digit :: '-' :: (d.type ++ '(' :: (d.params ++ [')'])) := by
    rw [toString_eq, descriptorText, hdigit]
    rfl
  have hstart : (digit :: '-' :: (d.type ++ '(' :: (d.params ++ [')']))).findIdx? (· == '-') =
      some 1 := by
    simp [List.findIdx?_cons, hminus]
  -- the first bracket is the one behind the type, whatever the parameters hold
  have htype : d.type.findIdx? (· == '(') = none := by
    rw [List.findIdx?_eq_none_iff]
    intro c hc
    rw [beq_eq_false_iff_ne]
    rintro rfl
    exact h hc
  have hend : (digit :: '-' :: (d.type ++ '(' :: (d.params ++ [')']))).findIdx? (· == '(') =
      some (d.type.length + 2) := by
    simp [List.findIdx?_cons, List.findIdx?_append, hbracket, htype]
  simp only [deserialize, htext, hstart, hend]
  rw [if_pos (by omega), show List.take 1 (digit :: '-' :: (d.type ++ '(' :: (d.params ++ [')']))) =
    [digit] from rfl, hcategory]
  have hlength : (digit :: '-' :: (d.type ++ '(' :: (d.params ++ [')']))).length -
      (d.type.length + 2) - 2 = d.params.length := by
    simp only [List.length_cons, List.length_append, List.length_nil]
    omega
  have hparams : (d.type ++ '(' :: (d.params ++ [')'])).drop (d.type.length + 1) =
      d.params ++ [')'] := by
    rw [show d.type ++ '(' :: (d.params ++ [')']) =
      (d.type ++ ['(']) ++ (d.params ++ [')']) by simp]
    exact List.drop_left' (by simp)
  rw [hlength]
  simp [hparams]

end EventActionDescriptor

namespace EventActionSchedule

/-- The lines of a file of which the last may lack its newline. -/
theorem lines_flatMap_append {texts : List StdString} {last : StdString}
    (h : ∀ t ∈ texts, '\n' ∉ t) (hlast : '\n' ∉ last) :
    lines ((texts.flatMap fun t => t ++ ['\n']) ++ last) = texts ++ [last] := by
  induction texts with
  | nil => exact List.splitOn_eq_singleton hlast
  | cons t texts ih =>
    rw [List.flatMap_cons, List.append_assoc, List.append_assoc, List.singleton_append, lines,
      List.splitOn_append_cons_self_of_not_mem (h t List.mem_cons_self)]
    exact congrArg _ (ih fun t ht => h t (List.mem_cons_of_mem _ ht))

/-- The lines of a file that ends every line. -/
theorem lines_flatMap {texts : List StdString} (h : ∀ t ∈ texts, '\n' ∉ t) :
    lines (texts.flatMap fun t => t ++ ['\n']) = texts ++ [[]] := by
  have hlines := lines_flatMap_append h (show '\n' ∉ ([] : StdString) from List.not_mem_nil)
  rwa [List.append_nil] at hlines

/-- An item that is read is not patched. -/
theorem deserializeLine_isPatched {line : StdString} {item : EventActionScheduleItem}
    (h : deserializeLine line = some item) : item.2.isPatched = false := by
  unfold deserializeLine at h
  split at h
  · obtain rfl := Option.some.inj h
    rfl
  · obtain ⟨d, hd, rfl⟩ := Option.map_eq_some_iff.mp h
    exact (EventActionDescriptor.deserialize_flags hd).2

/-- The line of an item is not that of a marker, and the id ends where it was ended. -/
theorem deserializeLine_serializeItem_eq (item : EventActionScheduleItem) :
    deserializeLine (serializeItem item) =
      (EventActionDescriptor.deserialize item.2.toString).map fun d => (item.1, d) := by
  -- the id has no semicolon, so the first one ends it
  have hsemi : ∀ c ∈ decimalInt item.1, (c != ';') = true := by
    intro c hc
    rw [bne_iff_ne]
    rintro rfl
    exact not_mem_decimalInt (by decide) (by decide) _ hc
  -- a line that starts with a digit or a sign is no marker
  have hmarker : ∀ marker : StdString, marker.head? = some '<' → serializeItem item ≠ marker := by
    intro marker hhead heq
    obtain ⟨c, cs, hcs⟩ := List.exists_cons_of_ne_nil (decimalInt_ne_nil item.1)
    rw [← heq, serializeItem, hcs, List.cons_append, List.head?_cons, Option.some.injEq] at hhead
    refine not_mem_decimalInt (c := '<') (by decide) (by decide) item.1 ?_
    rw [hcs, hhead]
    exact List.mem_cons_self
  unfold deserializeLine
  rw [if_neg (not_or.mpr ⟨hmarker _ rfl, hmarker _ rfl⟩)]
  simp only [serializeItem, EventActionDescriptor.serialize]
  rw [List.takeWhile_append_of_pos hsemi, List.dropWhile_append_of_pos hsemi]
  simp [atoi_decimalInt]

/-- The line of an item is read back with the id and the string of the item. -/
theorem deserializeLine_serializeItem (item : EventActionScheduleItem) :
    ∃ d, deserializeLine (serializeItem item) = some (item.1, d) ∧
      d.toString = item.2.toString ∧ d.isNull = false := by
  obtain ⟨d, hd, htext⟩ := EventActionDescriptor.deserialize_toString item.2
  exact ⟨d, by rw [deserializeLine_serializeItem_eq, hd]; rfl, htext,
    (EventActionDescriptor.deserialize_flags hd).1⟩

/-- A schedule file that has a line for every item is read back with the same strings. -/
theorem deserialize_serialize (schedule : List EventActionScheduleItem)
    (h : ∀ item ∈ schedule, '\n' ∉ item.2.toString) :
    ∃ items, deserialize (serialize schedule) = some items ∧
      items.map (fun item => item.2.toString) = schedule.map (fun item => item.2.toString) ∧
      ∀ item ∈ items, item.2.isNull = false := by
  -- every item is on one line
  have hline : ∀ t ∈ schedule.map serializeItem, '\n' ∉ t := by
    intro t ht
    obtain ⟨item, hitem, rfl⟩ := List.mem_map.mp ht
    simp only [serializeItem, EventActionDescriptor.serialize, List.mem_append, List.mem_cons,
      not_or]
    exact ⟨not_mem_decimalInt (by decide) (by decide) _, by decide, h item hitem⟩
  -- the lines of the file are the items, without the empty one at its end
  have hlines : (lines (serialize schedule)).filter (· ≠ []) = schedule.map serializeItem := by
    rw [serialize, ← List.flatMap_map serializeItem (fun t => t ++ ['\n']), lines_flatMap hline,
      List.filter_append]
    have hne : ∀ t ∈ schedule.map serializeItem, t ≠ [] := by
      intro t ht
      obtain ⟨item, -, rfl⟩ := List.mem_map.mp ht
      simp [serializeItem]
    rw [List.filter_eq_self.mpr fun t ht => decide_eq_true (hne t ht)]
    simp
  rw [deserialize, hlines]
  clear hline hlines h
  -- each line is read as its item
  induction schedule with
  | nil => exact ⟨[], rfl, rfl, (fun _ h => nomatch h)⟩
  | cons item schedule ih =>
    obtain ⟨d, hd, htext, hnull⟩ := deserializeLine_serializeItem item
    obtain ⟨items, hitems, htexts, hnulls⟩ := ih
    refine ⟨(item.1, d) :: items, ?_, ?_, ?_⟩
    · simp only [List.map_cons, List.mapM_cons, hd, hitems]
      rfl
    · rw [List.map_cons, List.map_cons, htexts, htext]
    · intro x hx
      rcases List.mem_cons.mp hx with rfl | hx
      · exact hnull
      · exact hnulls x hx

/-- The items of a schedule file are not patched. -/
theorem deserialize_isPatched {text : StdString} {items : List EventActionScheduleItem}
    (h : deserialize text = some items) {item : EventActionScheduleItem} (hitem : item ∈ items) :
    item.2.isPatched = false := by
  unfold deserialize at h
  obtain ⟨line, -, hline⟩ := List.exists_of_mem_mapM h hitem
  exact deserializeLine_isPatched hline

/-! ## Files with markers -/

/-- A line of a schedule file. -/
inductive ScheduleLine where
  | item (item : EventActionScheduleItem)
  | relax
  | change
  | blank

namespace ScheduleLine

/-- The line in the file. -/
def text : ScheduleLine → StdString
  | item entry => serializeItem entry
  | relax => "<relax>".toList
  | change => "<change>".toList
  | blank => []

@[simp] theorem text_item (entry : EventActionScheduleItem) :
    (item entry).text = serializeItem entry := rfl

@[simp] theorem text_relax : relax.text = "<relax>".toList := rfl

@[simp] theorem text_change : change.text = "<change>".toList := rfl

@[simp] theorem text_blank : blank.text = [] := rfl

/-- The item that the line stands for. -/
def readBack : ScheduleLine → Option EventActionScheduleItem
  | item (id, d) => some (id, .make d.category d.type d.params)
  | relax => some (0, .null)
  | change => some (0, .null)
  | blank => none

/-- The item that was written to the line. -/
def written : ScheduleLine → Option EventActionScheduleItem
  | item entry => some entry
  | relax => none
  | change => none
  | blank => none

end ScheduleLine

/-- A file of the given lines. The last one may lack its newline. -/
def text (before : List ScheduleLine) (last : ScheduleLine) : StdString :=
  (before.flatMap fun line => line.text ++ ['\n']) ++ last.text

/-- An item that has a line of its own, on which its type ends at the first bracket. -/
structure Writable (item : EventActionScheduleItem) : Prop where
  notNull : item.2.isNull = false
  typeBracket : '(' ∉ item.2.type
  typeNewline : '\n' ∉ item.2.type
  paramsNewline : '\n' ∉ item.2.params

/-- A writable item has no newline in its line. -/
theorem Writable.newline {item : EventActionScheduleItem} (h : Writable item) :
    '\n' ∉ serializeItem item := by
  simp only [serializeItem, EventActionDescriptor.serialize, EventActionDescriptor.toString_eq,
    descriptorText, List.mem_append, List.mem_cons, not_or]
  exact ⟨not_mem_decimalInt (by decide) (by decide) _, by decide,
    not_mem_decimal (by decide) _, by decide, h.typeNewline, by decide, h.paramsNewline,
    by decide, by simp⟩

/-- What `deserialize` makes of the lines it was given. -/
theorem mapM_deserializeLine {ls : List ScheduleLine}
    (h : ∀ item, ScheduleLine.item item ∈ ls → Writable item) :
    ((ls.map ScheduleLine.text).filter (· ≠ [])).mapM deserializeLine =
      some (ls.filterMap ScheduleLine.readBack) := by
  induction ls with
  | nil => rfl
  | cons line ls ih =>
    have hrest := ih fun item hitem => h item (List.mem_cons_of_mem _ hitem)
    -- a marker and an item give an item, a blank line is filtered out
    have hcons : ∀ {t : StdString} {item : EventActionScheduleItem}, t ≠ [] →
        deserializeLine t = some item → line.text = t → line.readBack = some item →
        (((line :: ls).map ScheduleLine.text).filter (· ≠ [])).mapM deserializeLine =
          some ((line :: ls).filterMap ScheduleLine.readBack) := by
      intro t item hne hline htext hread
      rw [List.map_cons, htext, List.filter_cons_of_pos (by simpa using hne), List.mapM_cons, hline,
        hrest, List.filterMap_cons_some hread]
      rfl
    cases line with
    | item item =>
      have hline : deserializeLine (serializeItem item) =
          some (item.1, .make item.2.category item.2.type item.2.params) := by
        rw [deserializeLine_serializeItem_eq, EventActionDescriptor.deserialize_toString_of_not_mem
          (h item List.mem_cons_self).typeBracket]
        rfl
      exact hcons (by simp [serializeItem]) hline rfl rfl
    | relax => exact hcons (by simp) (if_pos (Or.inl rfl)) rfl rfl
    | change => exact hcons (by simp) (if_pos (Or.inr rfl)) rfl rfl
    | blank =>
      rw [List.map_cons, List.filter_cons_of_neg (by simp), hrest,
        List.filterMap_cons_none rfl]

/-- A file is read back line by line. -/
theorem deserialize_text {before : List ScheduleLine} {last : ScheduleLine}
    (h : ∀ item ∈ (before ++ [last]).filterMap ScheduleLine.written, Writable item) :
    deserialize (text before last) =
      some ((before ++ [last]).filterMap ScheduleLine.readBack) := by
  -- the items of the lines can be written
  have hitem : ∀ item, ScheduleLine.item item ∈ before ++ [last] → Writable item := by
    intro item hmem
    exact h item (List.mem_filterMap.mpr ⟨_, hmem, rfl⟩)
  -- no line has a newline in it
  have hnewline : ∀ line ∈ before ++ [last], '\n' ∉ line.text := by
    intro line hline
    cases line with
    | item item => exact (hitem item hline).newline
    | relax => simp
    | change => simp
    | blank => simp
  have hbefore : ∀ t ∈ before.map ScheduleLine.text, '\n' ∉ t := by
    intro t ht
    obtain ⟨line, hline, rfl⟩ := List.mem_map.mp ht
    exact hnewline line (List.mem_append_left _ hline)
  -- the lines of the text are the lines it was made of
  have hlines : lines (text before last) = (before ++ [last]).map ScheduleLine.text := by
    rw [text, ← List.flatMap_map ScheduleLine.text (fun t => t ++ ['\n']),
      lines_flatMap_append hbefore (hnewline last (by simp)), List.map_append]
    rfl
  rw [deserialize, hlines]
  exact mapM_deserializeLine hitem

/-- The file that `serialize` writes. -/
theorem serialize_eq_text (schedule : List EventActionScheduleItem) :
    serialize schedule = text (schedule.map .item) .blank := by
  simp only [serialize, text, List.flatMap_map, ScheduleLine.text_item, ScheduleLine.text_blank,
    List.append_nil]

/-- The round trip of schedule files. What `serialize` wrote is read back with the same ids,
    categories, types and parameters, and where markers and blank lines have been inserted
    into the file, with one null item for each marker at its place. -/
theorem schedule_file_round_trip (schedule : List EventActionScheduleItem)
    (h : ∀ item ∈ schedule, Writable item) :
    deserialize (serialize schedule) = some (schedule.map fun item =>
        (item.1, .make item.2.category item.2.type item.2.params)) ∧
      ∀ before last, (before ++ [last]).filterMap ScheduleLine.written = schedule →
        deserialize (text before last) =
          some ((before ++ [last]).filterMap ScheduleLine.readBack) := by
  constructor
  · have hwritten : (schedule.map ScheduleLine.item ++ [ScheduleLine.blank]).filterMap
        ScheduleLine.written = schedule := by
      rw [List.filterMap_append, List.filterMap_map]
      simp [Function.comp_def, ScheduleLine.written]
    rw [serialize_eq_text, deserialize_text (hwritten.symm ▸ h), List.filterMap_append,
      List.filterMap_map]
    simp [Function.comp_def, ScheduleLine.readBack]
  · intro before last hwritten
    exact deserialize_text (hwritten.symm ▸ h)

/-- Two items with delimiters in their parameters, and markers before, between and after. -/
theorem schedule_file_round_trip_of_markers :
    let schedule : List EventActionScheduleItem :=
      [(-1, .make .network "A".toList "(;-,)".toList), (7, .make .timer [] [])]
    let before : List ScheduleLine :=
      [.relax, .item schedule[0], .blank, .change, .item schedule[1], .relax]
    deserialize (text before .blank) =
      some ((before ++ [ScheduleLine.blank]).filterMap ScheduleLine.readBack) :=
  (schedule_file_round_trip
    [(-1, .make .network "A".toList "(;-,)".toList), (7, .make .timer [] [])] (by
      intro item hitem
      simp only [List.mem_cons, List.not_mem_nil, or_false] at hitem
      rcases hitem with rfl | rfl
      · exact ⟨rfl, by decide, by decide, by decide⟩
      · exact ⟨rfl, by decide, by decide, by decide⟩)).2 _ _ rfl

end EventActionSchedule

end R4
