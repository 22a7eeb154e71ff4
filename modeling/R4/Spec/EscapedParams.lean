import R4.Spec.DescriptorFields
import R4.Spec.ScheduleFile

/-!
# Escaped parameters in a schedule file

`escapeParam` takes the commas out of a parameter, which is what `getParameter` needs. A schedule
file has a line for every item, and a newline in a parameter is not escaped: such a descriptor is
read back as two items or more, or not at all.

## Key results

- `fields_escapedParams`: the fields of joined escaped parameters
- `length_lt_of_newline`: a newline in a parameter makes a line of its own
- `survives_iff`: the parameters that a schedule file keeps
-/

namespace R4

open StdString

namespace EventActionDescriptor

/-- The parameters as `m_params` has them: escaped, with a comma between two of them. -/
def escapedParams (params : List StdString) : StdString :=
  [','].intercalate (params.map escapeParam)

/-- The fields are the escaped parameters. -/
theorem fields_escapedParams {params : List StdString} (h : params ≠ []) :
    (escapedParams params).splitOn ',' = params.map escapeParam := by
  refine List.splitOn_intercalate ',' (fun field hfield => ?_) (by simpa using h)
  obtain ⟨param, -, rfl⟩ := List.mem_map.mp hfield
  exact comma_not_mem_escapeParam param

/-- A newline is not escaped. -/
theorem newline_mem_escapeParam {param : StdString} : '\n' ∈ escapeParam param ↔ '\n' ∈ param := by
  unfold escapeParam
  rw [List.mem_map]
  constructor
  · rintro ⟨c, hc, hescaped⟩
    split at hescaped
    · exact absurd hescaped (by decide)
    · exact hescaped ▸ hc
  · exact fun h => ⟨'\n', h, if_neg (by decide)⟩

/-- A newline is not escaped. -/
theorem newline_mem_escapedParams {params : List StdString} :
    '\n' ∈ escapedParams params ↔ ∃ param ∈ params, '\n' ∈ param := by
  rw [escapedParams, List.mem_intercalate (by decide)]
  simp [newline_mem_escapeParam]

end EventActionDescriptor

namespace EventActionSchedule

open EventActionDescriptor

/-! ## Lines that are not blank -/

/-- The lines of an item that `deserialize` does not ignore. -/
def itemLines (item : EventActionScheduleItem) : List StdString :=
  (lines (serializeItem item)).filter (· ≠ [])

/-- A text that is not made of newlines has a line that is not blank. -/
theorem one_le_length_lines {c : Char} (hc : c ≠ '\n') {text : StdString} (h : c ∈ text) :
    1 ≤ ((lines text).filter (· ≠ [])).length := by
  obtain ⟨line, hline, hmem⟩ := List.exists_mem_splitOn hc h
  have hne : line ≠ [] := List.ne_nil_of_mem hmem
  exact List.length_pos_of_mem (List.mem_filter.mpr ⟨hline, by simpa using hne⟩)

/-- Every item has a line. -/
theorem one_le_length_itemLines (item : EventActionScheduleItem) : 1 ≤ (itemLines item).length :=
  one_le_length_lines (c := ';') (by decide) (by simp [serializeItem])

/-- An item with a newline in its parameters has two: the bracket before the parameters stands on
    another line than the one behind them. -/
theorem two_le_length_itemLines {item : EventActionScheduleItem} (h : '\n' ∈ item.2.params) :
    2 ≤ (itemLines item).length := by
  obtain ⟨front, back, hparams⟩ := List.append_of_mem h
  obtain ⟨head, hhead⟩ : ∃ head, head = decimalInt item.1 ++ ';' ::
    (decimal item.2.category.toNat ++ '-' :: (item.2.type ++ '(' :: front)) := ⟨_, rfl⟩
  have htext : serializeItem item = head ++ '\n' :: (back ++ [')']) := by
    simp [hhead, serializeItem, EventActionDescriptor.serialize, toString_eq, descriptorText,
      hparams]
  have hlines : lines (serializeItem item) = lines head ++ lines (back ++ [')']) := by
    rw [htext, lines, List.splitOn_append_cons_self]
    rfl
  rw [itemLines, hlines, List.filter_append, List.length_append]
  exact Nat.add_le_add (one_le_length_lines (c := '(') (by decide) (by simp [hhead]))
    (one_le_length_lines (c := ')') (by decide) (by simp))

/-- The lines of a schedule file are those of its items. -/
theorem lines_serialize (schedule : List EventActionScheduleItem) :
    (lines (serialize schedule)).filter (· ≠ []) = schedule.flatMap itemLines := by
  induction schedule with
  | nil => rfl
  | cons item schedule ih =>
    have htext : serialize (item :: schedule) =
        serializeItem item ++ '\n' :: serialize schedule := by
      simp [serialize]
    have hlines : lines (serialize (item :: schedule)) =
        lines (serializeItem item) ++ lines (serialize schedule) := by
      rw [htext, lines, List.splitOn_append_cons_self]
      rfl
    rw [hlines, List.filter_append, ih, List.flatMap_cons, itemLines]

/-- Every item takes a line at least. -/
theorem length_le_length_itemLines (schedule : List EventActionScheduleItem) :
    schedule.length ≤ (schedule.flatMap itemLines).length := by
  induction schedule with
  | nil => exact Nat.le_refl 0
  | cons item schedule ih =>
    have hitem := one_le_length_itemLines item
    rw [List.flatMap_cons, List.length_append, List.length_cons]
    omega

/-- What is read back from a file with a newline in the parameters of an item is longer. -/
theorem length_lt_of_newline {before after : List EventActionScheduleItem}
    (item : EventActionScheduleItem) (h : '\n' ∈ item.2.params)
    {items : List EventActionScheduleItem}
    (hread : deserialize (serialize (before ++ item :: after)) = some items) :
    (before ++ item :: after).length < items.length := by
  have hlength := List.length_of_mapM hread
  rw [lines_serialize, List.flatMap_append, List.flatMap_cons, List.length_append,
    List.length_append] at hlength
  have hbefore := length_le_length_itemLines before
  have hitem := two_le_length_itemLines h
  have hafter := length_le_length_itemLines after
  rw [List.length_append, List.length_cons]
  omega

/-! ## Parameters -/

/-- The parameters survive: the file is read back with as many items as were written to it, and
    the descriptor at the place of the one with the parameters has them, escaped. -/
def Survives (before after : List EventActionScheduleItem) (id : EventActionId)
    (category : EventActionCategory) (type : StdString) (params : List StdString) : Prop :=
  ∃ items d,
    deserialize (serialize (before ++ (id, .make category type (escapedParams params)) :: after)) =
      some items ∧
    items.length = before.length + 1 + after.length ∧
    items[before.length]? = some (id, d) ∧
    d.category = category ∧ d.type = type ∧
    ∀ i param, params[i]? = some param → d.getParameterAt i = some (escapeParam param)

/-- Escaped parameters survive the schedule file if none of them has a newline in it, and only
    then. -/
theorem survives_iff {before after : List EventActionScheduleItem}
    (hbefore : ∀ item ∈ before, Writable item) (hafter : ∀ item ∈ after, Writable item)
    (id : EventActionId) (category : EventActionCategory) {type : StdString}
    (hbracket : '(' ∉ type) (hnewline : '\n' ∉ type) (params : List StdString) :
    Survives before after id category type params ↔ ∀ param ∈ params, '\n' ∉ param := by
  constructor
  · -- with a newline the file has one line more than items
    rintro ⟨items, d, hread, hlength, -⟩ param hparam hmem
    have hlt := length_lt_of_newline (id, .make category type (escapedParams params))
      (newline_mem_escapedParams.mpr ⟨param, hparam, hmem⟩) hread
    rw [List.length_append, List.length_cons] at hlt
    omega
  · -- without newlines the item can be written, and so can the whole file
    intro hparams
    have hitem : Writable (id, .make category type (escapedParams params)) :=
      ⟨rfl, hbracket, hnewline, fun hmem => by
        obtain ⟨param, hparam, hmem⟩ := newline_mem_escapedParams.mp hmem
        exact hparams param hparam hmem⟩
    have hwritable : ∀ item ∈ before ++ (id, .make category type (escapedParams params)) :: after,
        Writable item := by
      intro item h
      rcases List.mem_append.mp h with h | h
      · exact hbefore item h
      · rcases List.mem_cons.mp h with rfl | h
        · exact hitem
        · exact hafter item h
    refine ⟨_, .make category type (escapedParams params),
      (schedule_file_round_trip _ hwritable).1, ?_, ?_, rfl, rfl, fun i param hi => ?_⟩
    · simp only [List.length_map, List.length_append, List.length_cons]
      omega
    · rw [List.getElem?_map, List.getElem?_append_cons rfl]
      rfl
    · -- the parameters are the fields between the commas
      have hne : params ≠ [] := fun hnil => by simp [hnil] at hi
      rw [getParameterAt_eq, getParameter, field_eq_getElem]
      show ((escapedParams params).splitOn ',')[i]? = some (escapeParam param)
      rw [fields_escapedParams hne, List.getElem?_map, hi, Option.map_some]

/-- A URL with an encoded newline in it, decoded: the rest of the descriptor stands on a line of
    its own, which is no descriptor. -/
theorem newline_in_url_lost :
    ¬ Survives [] [] 1 .network "Network".toList ["http://a/\nb".toList, "0".toList] := by
  have hread : deserialize (serialize [(1, .make .network "Network".toList
      (escapedParams ["http://a/\nb".toList, "0".toList]))]) = none := by decide +kernel
  rintro ⟨items, d, hitems, -⟩
  exact nomatch hread.symm.trans hitems

/-- Delimiters of all kinds, between two other items. -/
theorem survives_of_delimiters :
    Survives [(3, .make .timer "DOMTimer".toList "(0)".toList)]
      [(5, .make .other "A".toList [])] 4 .network "Network".toList
      ["http://a/?b,c;d(e)-<relax>".toList, [], ",".toList] := by
  have hwritable : ∀ item : EventActionScheduleItem,
      item = (3, .make .timer "DOMTimer".toList "(0)".toList) ∨
        item = (5, .make .other "A".toList []) → Writable item := by
    rintro item (rfl | rfl)
    · exact ⟨rfl, by decide, by decide, by decide⟩
    · exact ⟨rfl, by decide, by decide, by decide⟩
  refine (survives_iff ?_ ?_ 4 .network (by decide) (by decide) _).mpr (by decide)
  · intro item hitem
    exact hwritable item (Or.inl (List.mem_singleton.mp hitem))
  · intro item hitem
    exact hwritable item (Or.inr (List.mem_singleton.mp hitem))

end EventActionSchedule

end R4
