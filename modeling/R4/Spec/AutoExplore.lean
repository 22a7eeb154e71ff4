import Mathlib.Data.List.Nodup
import Mathlib.Data.List.TakeWhile
import R4.Native.AutoExplore
import R4.Spec.DescriptorFields
import R4.Spec.ScheduleFile

/-!
# Replaying automatic exploration

An event action of the automatic exploration is recorded with the replay identifier of its node,
which goes through `String::ascii` and is one of the comma-separated parameters of the descriptor,
without the escape that other event actions use. In a replay of the same page the event goes to
the same node exactly if the identifier has printable ASCII characters only, and no comma.

## Key results

- `walk_paths_nodup`: no two nodes of a document have the same path
- `findElement_inj`: what is found under two identifiers is not the same element
- `auto_event_is_replayed_iff`: when the event of a recorded descriptor is triggered again
-/

namespace R4.AutoExplore

open EventActionDescriptor

/-! ## Paths -/

/-- By induction on the forest: the paths of its nodes start at the index of its first node. -/
theorem walk_path {parent : StdString} {path : List Nat} {index : Nat} {f : DomForest}
    {n : DomNode} (h : n ∈ f.walk parent path index) :
    ∃ j rest, index ≤ j ∧ n.path = path ++ j :: rest := by
  induction f generalizing parent path index with
  | nil => exact absurd h List.not_mem_nil
  | cons node children siblings ihChildren ihSiblings =>
    rw [DomForest.walk, List.mem_cons, List.mem_append] at h
    rcases h with rfl | h | h
    · exact ⟨index, [], Nat.le_refl _, rfl⟩
    · obtain ⟨j, rest, -, hpath⟩ := ihChildren h
      exact ⟨index, j :: rest, Nat.le_refl _, by rw [hpath, List.append_assoc]; rfl⟩
    · obtain ⟨j, rest, hj, hpath⟩ := ihSiblings h
      exact ⟨j, rest, Nat.le_of_succ_le hj, hpath⟩

/-- No two nodes have the same path. -/
theorem walk_paths_nodup (parent : StdString) (path : List Nat) (index : Nat) (f : DomForest) :
    ((f.walk parent path index).map DomNode.path).Nodup := by
  induction f generalizing parent path index with
  | nil => exact List.nodup_nil
  | cons node children siblings ihChildren ihSiblings =>
    rw [DomForest.walk, List.map_cons, List.map_append, List.nodup_cons, List.nodup_append]
    refine ⟨?_, ihChildren _ _ _, ihSiblings _ _ _, ?_⟩
    · rw [List.mem_append, List.mem_map, List.mem_map]
      rintro (⟨n, hn, hpath⟩ | ⟨n, hn, hpath⟩)
      · -- a child is one level below
        obtain ⟨j, rest, -, hn⟩ := walk_path hn
        have hlength := congrArg List.length (hn.symm.trans hpath)
        simp at hlength
      · obtain ⟨j, rest, hj, hn⟩ := walk_path hn
        obtain ⟨rfl, -⟩ := List.cons.inj (List.append_cancel_left (hn.symm.trans hpath))
        exact absurd hj (Nat.not_succ_le_self _)
    · intro p hp q hq hpq
      obtain ⟨n, hn, rfl⟩ := List.mem_map.mp hp
      obtain ⟨m, hm, rfl⟩ := List.mem_map.mp hq
      obtain ⟨j, rest, -, hn⟩ := walk_path hn
      obtain ⟨j', rest', hj, hm⟩ := walk_path hm
      rw [hn, hm, List.append_assoc] at hpq
      obtain ⟨rfl, -⟩ := List.cons.inj (List.append_cancel_left hpq)
      exact absurd hj (Nat.not_succ_le_self _)

/-! ## What is found -/

/-- Every element is below the document element. -/
theorem findAllElements_path {page : Page} {n : DomNode} (h : n ∈ page.findAllElements) :
    ∃ element, page.documentElement = some element ∧ ∃ j rest, n.path = element.1 :: j :: rest := by
  unfold Page.findAllElements at h
  cases helement : page.documentElement with
  | none =>
    rw [helement] at h
    exact absurd h List.not_mem_nil
  | some element =>
    rw [helement] at h
    obtain ⟨j, rest, -, hpath⟩ := walk_path (List.mem_filter.mp h).1
    exact ⟨element, rfl, j, rest, hpath⟩

/-- No two elements are at one place. -/
theorem findAllElements_paths_nodup (page : Page) :
    (page.findAllElements.map DomNode.path).Nodup := by
  unfold Page.findAllElements
  split
  · exact List.nodup_nil
  · exact (walk_paths_nodup _ _ _ _).sublist (List.filter_sublist.map _)

/-- What is found has the identifier: it is an element below the document element, or the document
    element in place of the document node. -/
theorem findElement_eq_some {page : Page} {identifier : StdString} {target : List Nat}
    (h : page.findElement identifier = some (some target)) :
    (∃ n ∈ page.findAllElements, n.identifier = identifier ∧ n.path = target) ∨
      page.identifier = identifier ∧
        ∃ element, page.documentElement = some element ∧ target = [element.1] := by
  unfold Page.findElement at h
  cases hfind : page.findAllElements.find? fun n => n.identifier = identifier with
  | some n =>
    -- an element has the identifier
    rw [hfind] at h
    have hidentifier := List.find?_some hfind
    rw [decide_eq_true_eq] at hidentifier
    exact .inl ⟨n, List.mem_of_find?_eq_some hfind, hidentifier,
      Option.some.inj (Option.some.inj h)⟩
  | none =>
    -- no element has it, but the document may
    rw [hfind] at h
    obtain ⟨element, helement, htarget⟩ := Option.map_eq_some_iff.mp h
    split at htarget
    · next hidentifier =>
      exact .inr ⟨hidentifier, element, helement, (Option.some.inj htarget).symm⟩
    · exact absurd htarget (Option.some_ne_none _).symm

/-- Two identifiers under which the same node is found are the same. -/
theorem findElement_inj {page : Page} {s s' : StdString} {target : List Nat}
    (h : page.findElement s = some (some target))
    (h' : page.findElement s' = some (some target)) : s = s' := by
  rcases findElement_eq_some h with ⟨n, hn, rfl, hpath⟩ | ⟨rfl, element, helement, htarget⟩ <;>
    rcases findElement_eq_some h' with ⟨n', hn', rfl, hpath'⟩ | ⟨rfl, element', helement', htarget'⟩
  · exact congrArg DomNode.identifier (List.inj_on_of_nodup_map
      (findAllElements_paths_nodup page) hn hn' (hpath.trans hpath'.symm))
  · -- an element below the document element is not the document element
    obtain ⟨element, -, j, rest, hn⟩ := findAllElements_path hn
    rw [hpath, htarget'] at hn
    exact absurd (List.cons.inj hn).2 (List.cons_ne_nil _ _).symm
  · obtain ⟨element', -, j, rest, hn'⟩ := findAllElements_path hn'
    rw [hpath', htarget] at hn'
    exact absurd (List.cons.inj hn').2 (List.cons_ne_nil _ _).symm
  · rfl

/-! ## The parameters of the descriptor -/

/-- The character is printed as it is, and separates no parameters. -/
def isPlainChar (c : Char) : Bool := decide (0x20 ≤ c.toNat ∧ c.toNat ≤ 0x7f ∧ c ≠ ',')

/-- What a replay reads as the identifier. -/
def readIdentifier (identifier : StdString) : StdString :=
  cString ((asciiText identifier).takeWhile (· != ','))

/-- A character is kept if it is printable ASCII, and the text ends at a zero. -/
theorem asciiData_cons (ch : UInt16) (message : List UInt16) :
    asciiData (ch :: message) =
      if ch = 0 then []
      else (if ch < 0x20 ∨ ch > 0x7f then '?' else Char.ofNat ch.toNat) :: asciiData message := by
  rw [asciiData, List.takeWhile_cons]
  split
  · next h => rw [if_neg (of_decide_eq_true h), List.map_cons, asciiData]
  · next h => rw [if_pos (by simpa using h), List.map_nil]

/-- A printable character comes through. -/
theorem asciiText_cons_of_printable {c : Char} (hlow : 0x20 ≤ c.toNat) (hhigh : c.toNat ≤ 0x7f)
    (s : StdString) : asciiText (c :: s) = c :: asciiText s := by
  have hch : (UInt16.ofNat c.toNat).toNat = c.toNat :=
    UInt16.toNat_ofNat_of_lt' (Nat.lt_of_le_of_lt hhigh (by decide))
  have hzero : UInt16.ofNat c.toNat ≠ 0 := by
    rw [ne_eq, ← UInt16.toNat_inj, hch]
    exact Nat.ne_of_gt (Nat.lt_of_lt_of_le (by decide) hlow)
  have hrange : ¬ (UInt16.ofNat c.toNat < 0x20 ∨ UInt16.ofNat c.toNat > 0x7f) := by
    rw [gt_iff_lt, UInt16.lt_iff_toNat_lt, UInt16.lt_iff_toNat_lt, hch, not_or]
    exact ⟨Nat.not_lt.mpr hlow, Nat.not_lt.mpr hhigh⟩
  rw [asciiText, List.flatMap_cons, utf16, if_pos (Nat.lt_of_le_of_lt hhigh (by decide)),
    List.singleton_append, asciiData_cons, if_neg hzero, if_neg hrange, hch, Char.ofNat_toNat]
  rfl

/-- Another one ends the string or becomes a question mark. -/
theorem asciiText_cons_of_not_printable {c : Char} (h : ¬ (0x20 ≤ c.toNat ∧ c.toNat ≤ 0x7f))
    (s : StdString) : asciiText (c :: s) = [] ∨ ∃ rest, asciiText (c :: s) = '?' :: rest := by
  obtain ⟨ch, rest, hunits, hch⟩ : ∃ ch rest, utf16 c = ch :: rest ∧
      (ch.toNat < 0x20 ∨ 0x7f < ch.toNat) := by
    unfold utf16
    split
    · next hbmp =>
      refine ⟨_, _, rfl, ?_⟩
      rw [UInt16.toNat_ofNat_of_lt' hbmp]
      omega
    · next hbmp =>
      -- the first unit of a pair is a surrogate
      have hlast : c.toNat < 0x110000 :=
        c.valid.elim (fun h => Nat.lt_trans h (by decide)) And.right
      refine ⟨_, _, rfl, .inr ?_⟩
      rw [UInt16.toNat_ofNat_of_lt' (show _ < 0x10000 by omega)]
      omega
  rw [asciiText, List.flatMap_cons, hunits, List.cons_append, asciiData_cons]
  split
  · exact .inl rfl
  · rw [if_pos (hch.imp UInt16.lt_iff_toNat_lt.mpr UInt16.lt_iff_toNat_lt.mpr)]
    exact .inr ⟨_, rfl⟩

/-- What is read starts with the character exactly if it is plain. -/
theorem readIdentifier_cons_eq_iff (c : Char) (s : StdString) :
    readIdentifier (c :: s) = c :: s ↔ isPlainChar c = true ∧ readIdentifier s = s := by
  rw [isPlainChar, decide_eq_true_eq]
  -- the character is printable
  by_cases hprintable : 0x20 ≤ c.toNat ∧ c.toNat ≤ 0x7f
  · rw [readIdentifier, asciiText_cons_of_printable hprintable.1 hprintable.2, List.takeWhile_cons]
    have hnull : (c != '\x00') = true := by
      rw [bne_iff_ne]
      rintro rfl
      exact absurd hprintable.1 (by decide)
    split
    -- it is kept, unless it ends the identifier
    · next hcomma =>
      rw [cString, List.takeWhile_cons, if_pos hnull, List.cons.injEq, and_iff_right rfl,
        and_iff_right ⟨hprintable.1, hprintable.2, bne_iff_ne.mp hcomma⟩]
      rfl
    -- a comma ends it
    · next hcomma =>
      rw [bne_iff_ne, not_not] at hcomma
      exact iff_of_false (List.cons_ne_nil _ _).symm fun h => h.1.2.2 hcomma
  · -- another character is replaced by a question mark or ends the text
    refine iff_of_false (fun hread => ?_) fun h => hprintable ⟨h.1.1, h.1.2.1⟩
    rw [readIdentifier] at hread
    rcases asciiText_cons_of_not_printable hprintable s with htext | ⟨rest, htext⟩
    · rw [htext] at hread
      exact absurd hread (List.cons_ne_nil _ _).symm
    · rw [htext, List.takeWhile_cons_of_pos (by decide), cString,
        List.takeWhile_cons_of_pos (by decide)] at hread
      obtain ⟨rfl, -⟩ := List.cons.inj hread
      exact hprintable (by decide)

/-- It is what was recorded exactly if every character is plain. -/
theorem readIdentifier_eq_iff (identifier : StdString) :
    readIdentifier identifier = identifier ↔ ∀ c ∈ identifier, isPlainChar c = true := by
  induction identifier with
  | nil => exact iff_of_true rfl (List.forall_mem_nil _)
  | cons c s ih => rw [readIdentifier_cons_eq_iff, List.forall_mem_cons, ih]

/-! ## The recorded event -/

/-- The name of a type has no comma, and is a C string. -/
theorem name_plain (type : EventAttachType) :
    type.name.all (· != ',') = true ∧ cString type.name = type.name := by
  cases type <;> exact ⟨by decide, by decide⟩

/-- The parameters of the recorded descriptor, as a replay reads them. -/
theorem getParameter_autoDescriptor {type : EventAttachType} {identifier : StdString}
    {d : EventActionDescriptor} (h : d.params = type.name ++ ',' :: asciiText identifier) :
    d.getParameter 0 = some type.name ∧
      d.getParameter 1 = some ((asciiText identifier).takeWhile (· != ',')) := by
  have hname := List.all_eq_true.mp (name_plain type).1
  constructor
  · rw [getParameter, h, field, List.takeWhile_append_of_pos hname,
      List.takeWhile_cons_of_neg (by decide), List.append_nil]
  · rw [getParameter, h, field, List.dropWhile_append_of_pos hname,
      List.dropWhile_cons_of_neg (by decide)]
    rfl

/-- What a replay of the same page triggers. -/
theorem autoEventProvider_recorded (page : Page) {type : EventAttachType} {identifier : StdString}
    {d : EventActionDescriptor} (h : d.params = type.name ++ ',' :: asciiText identifier) :
    page.autoEventProvider d = (page.findElement (readIdentifier identifier)).map fun target =>
      target.map fun target => ⟨some type, target⟩ := by
  obtain ⟨htype, hidentifier⟩ := getParameter_autoDescriptor h
  rw [Page.autoEventProvider, htype, hidentifier, Option.bind_some, Option.bind_some,
    (name_plain type).2, EventAttachType.ofName?_name]
  rfl

/-- The event of a recorded descriptor is triggered again, on the same node, exactly if the
    identifier of the node comes through the descriptor as it is. -/
theorem auto_event_is_replayed_iff {page : Page} {type : EventAttachType} {identifier : StdString}
    {d : EventActionDescriptor} {trigger : AutoTrigger}
    (h : page.runAutomaticExploration type identifier = some (some (d, trigger))) :
    ∃ d', deserialize d.toString = some d' ∧
      (page.autoEventProvider d' = some (some trigger) ↔
        ∀ c ∈ identifier, isPlainChar c = true) := by
  obtain ⟨found, hfind, hfound⟩ := Option.map_eq_some_iff.mp h
  obtain ⟨target, rfl, htarget⟩ := Option.map_eq_some_iff.mp hfound
  obtain ⟨rfl, rfl⟩ := Prod.mk.inj htarget
  refine ⟨_, deserialize_toString_of_not_mem (show '(' ∉ "AUTO".toList by decide), ?_⟩
  rw [autoEventProvider_recorded page rfl, ← readIdentifier_eq_iff]
  constructor
  · -- the same element is found, and so the identifier was read back
    intro hreplay
    obtain ⟨found', hfind', hfound'⟩ := Option.map_eq_some_iff.mp hreplay
    obtain ⟨target', rfl, htarget'⟩ := Option.map_eq_some_iff.mp hfound'
    obtain rfl := congrArg AutoTrigger.target htarget'
    exact findElement_inj hfind' hfind
  · -- the identifier is read back, and so the same element is found
    intro hread
    rw [hread, hfind]
    rfl

/-- A page with an element whose identifier has a comma. -/
def commaPage : Page where
  document := ⟨false, false, none, some "#document".toList, some "file:///p".toList⟩
  children :=
    .cons ⟨true, false, none, some "HTML".toList, some "file:///p".toList⟩
      (.cons ⟨true, true, some "a,b".toList, some "BODY".toList, some "file:///p".toList⟩ .nil .nil)
      .nil

/-- A page with an identifier whose comma gets lost. -/
theorem auto_event_is_replayed_iff_of_comma :
    ∃ d', deserialize (Page.autoDescriptor .mouseover "file:///p @ ID=a,b".toList).toString =
        some d' ∧
      (commaPage.autoEventProvider d' = some (some ⟨some .mouseover, [0, 0]⟩) ↔
        ∀ c ∈ "file:///p @ ID=a,b".toList, isPlainChar c = true) := by
  have hrun : commaPage.runAutomaticExploration .mouseover "file:///p @ ID=a,b".toList =
      some (some (Page.autoDescriptor .mouseover "file:///p @ ID=a,b".toList,
        ⟨some .mouseover, [0, 0]⟩)) := rfl
  exact auto_event_is_replayed_iff hrun

end R4.AutoExplore
