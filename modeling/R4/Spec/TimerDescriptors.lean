import R4.Native.DOMTimer

/-!
# The descriptors of timers

Calls with the same URL, line and event action are numbered. The key of the table is a text in
which nothing stands between the line and the id, so line 1 in event action 23 shares its
numbers with line 12 in event action 3. Descriptors are unique all the same: their fields are
separated, and calls with the same fields have the same key.

## Key results

- `ident_eq_iff`: the calls that share their numbers
- `sequence_numbers_count_own_calls_iff`: when a number counts the calls with its own triple
- `timer_descriptors_unique`: no descriptor is given to two timers
-/

namespace R4.DOMTimer

open StdString

/-- The arguments of `getNextSameUrlSequenceNumber`. -/
structure CallSite where
  url : StdString
  line : UInt32
  eventActionId : EventActionId
deriving DecidableEq

/-- The key of the call. -/
def CallSite.ident (site : CallSite) : StdString :=
  DOMTimer.ident site.url site.line site.eventActionId

/-! ## Keys -/

/-- Digits have no sign. -/
theorem not_mem_digits (line : UInt32) {id : Int} (h : 0 ≤ id) :
    '-' ∉ decimal line.toNat ++ decimalInt id := by
  obtain ⟨n, rfl⟩ := Int.eq_ofNat_of_zero_le h
  rw [List.mem_append]
  rintro (hmem | hmem)
  · exact not_mem_decimal (by decide) _ hmem
  · exact not_mem_decimal (by decide) n hmem

/-- The key of a call outside of event actions ends in the id -1. -/
theorem ident_neg_one (url : StdString) (line : UInt32) :
    ident url line (-1) = (url ++ '-' :: decimal line.toNat) ++ '-' :: ['1'] := by
  rw [List.append_assoc, List.cons_append]
  rfl

/-- Calls share their numbers if they have the same URL, line and event action, or the same URL
    and digits that read alike when the id is put behind the line. -/
theorem ident_eq_iff {url url' : StdString} {line line' : UInt32} {id id' : Int}
    (hid : -1 ≤ id) (hid' : -1 ≤ id') :
    ident url line id = ident url' line' id' ↔ url = url' ∧ (line = line' ∧ id = id' ∨
      0 ≤ id ∧ 0 ≤ id' ∧
        decimal line.toNat ++ decimalInt id = decimal line'.toNat ++ decimalInt id') := by
  -- the digits of a line and an id are at least two
  have hdigits : ∀ (line : UInt32) (id : Int), decimal line.toNat ++ decimalInt id ≠ ['1'] := by
    intro line id h
    have hline := List.length_pos_of_ne_nil (decimal_ne_nil line.toNat)
    have hint := List.length_pos_of_ne_nil (decimalInt_ne_nil id)
    have hlength := congrArg List.length h
    rw [List.length_append, List.length_singleton] at hlength
    omega
  constructor
  · intro h
    by_cases hneg : id = -1
    · subst hneg
      by_cases hneg' : id' = -1
      · subst hneg'
        rw [ident_neg_one, ident_neg_one] at h
        obtain ⟨hurl, hline⟩ := cons_append_inj (not_mem_decimal (by decide) _)
          (not_mem_decimal (by decide) _) (List.append_cancel_right h)
        exact ⟨hurl, Or.inl ⟨UInt32.toNat_inj.mp (decimal_injective hline), rfl⟩⟩
      · rw [ident_neg_one] at h
        obtain ⟨-, hone⟩ := cons_append_inj (by decide) (not_mem_digits line' (by omega)) h
        exact absurd hone.symm (hdigits line' id')
    · by_cases hneg' : id' = -1
      · subst hneg'
        rw [ident_neg_one] at h
        obtain ⟨-, hone⟩ := cons_append_inj (not_mem_digits line (by omega)) (by decide) h
        exact absurd hone (hdigits line id)
      · obtain ⟨hurl, hsame⟩ := cons_append_inj (not_mem_digits line (by omega))
          (not_mem_digits line' (by omega)) h
        exact ⟨hurl, Or.inr ⟨by omega, by omega, hsame⟩⟩
  · rintro ⟨rfl, ⟨rfl, rfl⟩ | ⟨-, -, hsame⟩⟩
    · rfl
    · rw [ident, ident, hsame]

/-! ## Numbers -/

/-- The numbers that are returned, one call after the other. -/
def sequenceNumbers (table : KeyNumbering StdString) : List CallSite → List UInt32
  | [] => []
  | site :: sites =>
    let (number, table) := getNextSameUrlSequenceNumber table site.url site.line site.eventActionId
    number :: sequenceNumbers table sites

/-- The numbers of call sites are those of their keys. -/
theorem sequenceNumbers_eq (table : KeyNumbering StdString) (sites : List CallSite) :
    sequenceNumbers table sites = table.numbers (sites.map CallSite.ident) := by
  induction sites generalizing table with
  | nil => rfl
  | cons site sites ih =>
    rw [sequenceNumbers, getNextSameUrlSequenceNumber_eq]
    exact congrArg _ (ih _)

/-- Every number is the number of earlier calls with the same triple. -/
def CountsOwnCalls (sites : List CallSite) : Prop :=
  ∀ (i : Nat) (site : CallSite), sites[i]? = some site →
    ∃ n, (sequenceNumbers ∅ sites)[i]? = some n ∧ n.toNat = (sites.take i).count site

/-- A number counts the calls with its key. -/
theorem sequenceNumbers_getElem? {sites : List CallSite} {i : Nat} {site : CallSite}
    (h : sites[i]? = some site) : ∃ n, (sequenceNumbers ∅ sites)[i]? = some n ∧
      n.toNat = ((sites.take i).count site +
        (sites.take i).countP fun other => other ≠ site ∧ other.ident = site.ident) % 2 ^ 32 := by
  have hkey : (sites.map CallSite.ident)[i]? = some site.ident := by
    rw [List.getElem?_map, h, Option.map_some]
  obtain ⟨n, hn, hcount⟩ := KeyNumbering.toNat_numbers hkey
  refine ⟨n, (sequenceNumbers_eq ∅ sites).symm ▸ hn, ?_⟩
  -- the calls with the same key are those of the site and those of other sites with that key
  have hsplit : ∀ earlier : List CallSite, (earlier.map CallSite.ident).countP (· = site.ident) =
      earlier.count site +
        earlier.countP fun other => other ≠ site ∧ other.ident = site.ident := by
    intro earlier
    induction earlier with
    | nil => rfl
    | cons other earlier ih =>
      rw [List.map_cons, List.countP_cons, List.count_cons, List.countP_cons, ih]
      -- it is the site itself
      by_cases hsame : other = site
      · simp [hsame]
        omega
      · -- it is another one with the same key
        by_cases hident : other.ident = site.ident
        · simp [hsame, hident]
          omega
        · -- it is one with another key
          simp [hsame, hident]
  rw [hcount, ← List.map_take, hsplit]

/-- The numbers count the calls with their own triple exactly if, before every call, fewer than
    `2 ^ 32` calls had its triple, and the number of calls with another triple but the same key
    is a multiple of `2 ^ 32`. -/
theorem sequence_numbers_count_own_calls_iff (sites : List CallSite) :
    CountsOwnCalls sites ↔ ∀ (i : Nat) (site : CallSite), sites[i]? = some site →
      (sites.take i).count site < 2 ^ 32 ∧
        2 ^ 32 ∣ (sites.take i).countP fun other => other ≠ site ∧ other.ident = site.ident := by
  constructor
  · intro h i site hsite
    obtain ⟨n, hn, hown⟩ := h i site hsite
    obtain ⟨n', hn', hcount⟩ := sequenceNumbers_getElem? hsite
    obtain rfl := Option.some.inj (hn.symm.trans hn')
    have hlt := n.toNat_lt
    omega
  · intro h i site hsite
    obtain ⟨n, hn, hcount⟩ := sequenceNumbers_getElem? hsite
    have hcond := h i site hsite
    exact ⟨n, hn, by omega⟩

/-- Line 1 in event action 23 and line 12 in event action 3 share their numbers. -/
theorem number_of_other_line : ¬∀ sites, CountsOwnCalls sites := by
  intro h
  obtain ⟨n, hn, hcount⟩ :=
    h [⟨"u".toList, 1, 23⟩, ⟨"u".toList, 12, 3⟩] 1 ⟨"u".toList, 12, 3⟩ rfl
  have hone : n = 1 := Option.some.inj (hn.symm.trans (by decide))
  exact absurd hcount (by rw [hone]; decide)

/-! ## Descriptors -/

/-- A call of `install`, with the happens-before state it is made in. -/
structure Install where
  hb : HBState
  action : ScheduledAction
  timeout : Int
  singleShot : Bool

namespace Install

/-- The place and the event action of the call, as they are written. -/
def site (x : Install) : CallSite where
  url := if x.action.calledUrl = [] then "-".toList
    else EventActionDescriptor.escapeParam x.action.calledUrl
  line := x.action.calledLine
  eventActionId := x.hb.currentEventAction.getD (-1)

/-- The descriptor with the number that was returned. -/
def descriptor (x : Install) (number : UInt32) : EventActionDescriptor :=
  .make .timer "DOMTimer".toList
    (x.site.url ++ ',' :: (decimal x.site.line.toNat ++ ',' :: (decimalInt x.timeout ++ ',' ::
      ((if x.singleShot then "true".toList else "false".toList) ++ ',' ::
        (decimalInt x.site.eventActionId ++ ',' :: decimal number.toNat)))))

end Install

/-- The descriptors of the timers that are installed one after the other. -/
def installAll (table : KeyNumbering StdString) : List Install → List EventActionDescriptor
  | [] => []
  | x :: xs =>
    let (descriptor, table) := install table x.hb x.action x.timeout x.singleShot
    descriptor :: installAll table xs

/-- The timers are numbered in the order in which they are installed. -/
theorem installAll_eq (table : KeyNumbering StdString) (installs : List Install) :
    installAll table installs = List.zipWith Install.descriptor installs
      (table.numbers (installs.map fun x => x.site.ident)) := by
  induction installs generalizing table with
  | nil => rfl
  | cons x xs ih =>
    have hinstall : install table x.hb x.action x.timeout x.singleShot =
        (x.descriptor (table.next x.site.ident).1, (table.next x.site.ident).2) := by
      unfold install
      simp only [getNextSameUrlSequenceNumber_eq]
      rfl
    rw [installAll, hinstall]
    exact congrArg _ (ih _)

/-- The place, the event action and the number can be read off a descriptor. -/
theorem descriptor_inj {x y : Install} {m n : UInt32}
    (h : (x.descriptor m).toString = (y.descriptor n).toString) : x.site = y.site ∧ m = n := by
  have hurl : ∀ x : Install, ',' ∉ x.site.url := by
    intro x
    unfold Install.site
    dsimp only
    split
    · decide
    · exact EventActionDescriptor.comma_not_mem_escapeParam _
  have hshot : ∀ x : Install,
      ',' ∉ (if x.singleShot then "true".toList else "false".toList) := by
    intro x
    split <;> decide
  have hint : ∀ n : Int, ',' ∉ decimalInt n := fun n =>
    not_mem_decimalInt (by decide) (by decide) n
  have hnat : ∀ n : Nat, ',' ∉ decimal n := fun n => not_mem_decimal (by decide) n
  have htype : '(' ∉ "DOMTimer".toList := by decide
  obtain ⟨-, -, h⟩ := EventActionDescriptor.descriptorText_injective htype htype h
  -- no field has a comma, so the text can be cut at the commas
  obtain ⟨hsiteUrl, h⟩ := append_cons_inj (hurl x) (hurl y) h
  obtain ⟨hline, h⟩ := append_cons_inj (hnat _) (hnat _) h
  obtain ⟨-, h⟩ := append_cons_inj (hint _) (hint _) h
  obtain ⟨-, h⟩ := append_cons_inj (hshot x) (hshot y) h
  obtain ⟨hid, hnumber⟩ := append_cons_inj (hint _) (hint _) h
  refine ⟨?_, UInt32.toNat_inj.mp (decimal_injective hnumber)⟩
  rw [CallSite.mk.injEq]
  exact ⟨hsiteUrl, UInt32.toNat_inj.mp (decimal_injective hline), decimalInt_injective hid⟩

/-- No descriptor is given to two timers, as long as fewer than `2 ^ 32` timers are installed. -/
theorem timer_descriptors_unique (installs : List Install) (hlength : installs.length < 2 ^ 32) :
    ((installAll ∅ installs).map EventActionDescriptor.toString).Nodup := by
  rw [installAll_eq, List.nodup_iff_getElem?_ne_getElem?]
  intro i j hlt hj heq
  -- timers with one key are numbered one after the other
  have hkeys : ∀ {k : Nat} {x : Install}, installs[k]? = some x →
      (installs.map fun x => x.site.ident)[k]? = some x.site.ident := by
    intro k x hx
    rw [List.getElem?_map, hx, Option.map_some]
  -- each descriptor is that of its timer and number
  have hget : ∀ {k : Nat}, k ≤ j → ∃ x n, installs[k]? = some x ∧
      (KeyNumbering.numbers ∅ (installs.map fun x => x.site.ident))[k]? = some n ∧
      ((List.zipWith Install.descriptor installs (KeyNumbering.numbers ∅
        (installs.map fun x => x.site.ident))).map EventActionDescriptor.toString)[k]? =
          some (x.descriptor n).toString := by
    intro k hk
    rw [List.length_map, List.length_zipWith] at hj
    have hx := List.getElem?_eq_getElem (show k < installs.length by omega)
    obtain ⟨n, hn, -⟩ := KeyNumbering.toNat_numbers (hkeys hx)
    refine ⟨_, n, hx, hn, ?_⟩
    rw [List.getElem?_map, List.getElem?_zipWith, hx, hn]
    rfl
  obtain ⟨x, m, hx, hm, hxd⟩ := hget (Nat.le_of_lt hlt)
  obtain ⟨y, n, hy, hn, hyd⟩ := hget (Nat.le_refl j)
  -- the same text means the same site and number
  obtain ⟨hsite, rfl⟩ := descriptor_inj (Option.some.inj (hxd.symm.trans (heq.trans hyd)))
  have hykey := hkeys hy
  rw [← hsite] at hykey
  -- but two timers of one site have different numbers
  exact KeyNumbering.numbers_ne (by rw [List.length_map]; omega) hlt (hkeys hx) hykey
    (hm.trans hn.symm)

/-- The same call twice. -/
theorem timer_descriptors_unique_of_same :
    let x : Install := ⟨.init, ⟨"http://a/s.js".toList, 3⟩, 0, true⟩
    ((installAll ∅ [x, x]).map EventActionDescriptor.toString).Nodup :=
  timer_descriptors_unique _ (by decide)

end R4.DOMTimer
