import R4.Spec.NetworkFile

/-!
# Which network files are loaded

Behind the end of the device every integer is 0, which is the signal `INITIAL` and not the
sentinel. A loop that has come there never leaves it, so a file is loaded only if every record
has its sentinel at the start of an entry, inside the device.

## Key results

- `loadSnapshots_fuel_independent`: more rounds do not change what is read
- `loading_returns_iff`: when `deserialize` and the loop over the file return
- `deserialize_dropLast`: a snapshot whose sentinel is cut off is never read
-/

namespace R4

open StdString

variable {V : Type}

namespace QDataStream

/-- Behind the end of the device there is the integer 0, nothing is put back, and an integer uses
    up what is there. -/
structure Device (io : QDataStream V) : Prop where
  int_nil : io.int.read [] = (0, [])
  int_lt : ∀ s, s ≠ [] → (io.int.read s).2.length < s.length
  headers : io.headers.Consumes
  uint : io.uint.Consumes
  url : io.url.Consumes
  bytes : io.bytes.Consumes
  variant : io.variant.Consumes
  string : io.string.Consumes
  variants : io.variants.Consumes
  longlong : io.longlong.Consumes

/-- The integer at the start of entry `i`. -/
def signalAt (io : QDataStream V) (s : Bytes) (i : Nat) : Int :=
  (io.int.read (Nat.iterate io.afterEntry i s)).1

/-- The first sentinel at the start of an entry is that of entry `i`. -/
def ClosedAt (io : QDataStream V) (s : Bytes) (i : Nat) : Prop :=
  io.signalAt s i = NetworkSignal.endInt ∧ ∀ j < i, io.signalAt s j ≠ NetworkSignal.endInt

/-- What the entries and the sentinel leave, where the sentinel is that of entry `i`. -/
def afterEntries (io : QDataStream V) (s : Bytes) (i : Nat) : Bytes :=
  io.afterSignal (Nat.iterate io.afterEntry i s)

/-- The device is a sequence of records, each with a sentinel inside the device. -/
inductive Records (io : QDataStream V) : Bytes → Prop
  | nil : Records io []
  | cons {s : Bytes} {i : Nat} (hs : s ≠ []) (hinside : i < (io.afterInitial s).length)
      (hclosed : io.ClosedAt (io.afterInitial s) i)
      (hrest : Records io (io.afterEntries (io.afterInitial s) i)) : Records io s

variable {io : QDataStream V}

/-! ## The end of the device -/

/-- An `int` does not put bytes back. -/
theorem Device.int (h : io.Device) : io.int.Consumes := by
  intro s
  by_cases hs : s = []
  · rw [hs, h.int_nil]
  · exact Nat.le_of_lt (h.int_lt s hs)

/-- An entry uses up no less than its signal. -/
theorem Device.afterEntry_le (h : io.Device) (s : Bytes) :
    (io.afterEntry s).length ≤ (io.afterSignal s).length := by
  rw [afterEntry, readSnapshot_eq]
  exact (h.longlong _).trans ((h.variants _).trans ((h.string _).trans (h.int _)))

/-- Nothing is left behind an entry at the end of the device. -/
theorem Device.afterEntry_nil (h : io.Device) : io.afterEntry [] = [] := by
  have hlength := h.afterEntry_le []
  rw [afterSignal, h.int_nil] at hlength
  exact List.length_eq_zero_iff.mp (Nat.le_zero.mp hlength)

/-- The sentinel is inside the device, as the integer behind it is another one. -/
theorem Device.lt_of_sentinel (h : io.Device) {s : Bytes} {i : Nat}
    (hend : io.signalAt s i = NetworkSignal.endInt) : i < s.length := by
  refine @iterate_lt_of_stop _ io.afterEntry
    (fun s => (io.int.read s).1 = NetworkSignal.endInt) List.length ?_ ?_ s i hend
  · intro s hs
    rw [List.length_eq_zero_iff] at hs
    rw [hs, h.afterEntry_nil, h.int_nil]
    exact ⟨rfl, by decide⟩
  · intro s hs
    exact Nat.lt_of_le_of_lt (h.afterEntry_le s)
      (h.int_lt s (List.length_pos_iff.mp hs))

/-! ## The loop over the entries -/

/-- A stream is closed at once if the sentinel comes first. -/
theorem closedAt_zero {s : Bytes} :
    io.ClosedAt s 0 ↔ (io.int.read s).1 = NetworkSignal.endInt :=
  ⟨And.left, fun h => ⟨h, fun _ hj => absurd hj (Nat.not_lt_zero _)⟩⟩

/-- A stream is closed later if an entry comes first. -/
theorem closedAt_succ {s : Bytes} {i : Nat} :
    io.ClosedAt s (i + 1) ↔
      (io.int.read s).1 ≠ NetworkSignal.endInt ∧ io.ClosedAt (io.afterEntry s) i := by
  refine ⟨fun ⟨hend, hfirst⟩ => ⟨hfirst 0 (Nat.succ_pos _), hend, fun j hj =>
    hfirst (j + 1) (Nat.succ_lt_succ hj)⟩, fun ⟨hne, hend, hfirst⟩ => ⟨hend, fun j hj => ?_⟩⟩
  cases j with
  | zero => exact hne
  | succ j => exact hfirst j (Nat.lt_of_succ_lt_succ hj)

/-- Where there is a sentinel, there is a first one. -/
theorem exists_closedAt {s : Bytes} {i : Nat} (h : io.signalAt s i = NetworkSignal.endInt) :
    ∃ j ≤ i, io.ClosedAt s j := by
  induction i generalizing s with
  | zero => exact ⟨0, Nat.le_refl _, closedAt_zero.mpr h⟩
  | succ i ih =>
    by_cases hzero : (io.int.read s).1 = NetworkSignal.endInt
    · exact ⟨0, Nat.zero_le _, closedAt_zero.mpr hzero⟩
    · obtain ⟨j, hj, hclosed⟩ := ih (s := io.afterEntry s) h
      exact ⟨j + 1, Nat.succ_le_succ hj, closedAt_succ.mpr ⟨hzero, hclosed⟩⟩

/-- The loop returns at the first sentinel, with what is behind it, if it may go so far. -/
theorem deserializeEntries_eq_some_iff {fuel : Nat} {s rest : Bytes} :
    (∃ entries, io.deserializeEntries fuel s = some (entries, rest)) ↔
      ∃ i < fuel, io.ClosedAt s i ∧ rest = io.afterEntries s i := by
  induction fuel generalizing s with
  -- without rounds nothing is read
  | zero => exact ⟨fun ⟨_, h⟩ => absurd h (by simp [deserializeEntries]),
      fun ⟨_, h, _⟩ => absurd h (Nat.not_lt_zero _)⟩
  | succ fuel ih =>
    rw [deserializeEntries_succ]
    by_cases hzero : (io.int.read s).1 = NetworkSignal.endInt
    · -- the sentinel comes first: no entries
      rw [if_pos hzero]
      constructor
      · rintro ⟨entries, h⟩
        exact ⟨0, Nat.succ_pos _, closedAt_zero.mpr hzero,
          (Prod.mk.inj (Option.some.inj h)).2.symm⟩
      · rintro ⟨i, _, hclosed, rfl⟩
        cases i with
        | zero => exact ⟨[], rfl⟩
        | succ i => exact absurd hzero (closedAt_succ.mp hclosed).1
    · -- one entry comes first, then the rest in one round less
      rw [if_neg hzero]
      constructor
      · rintro ⟨entries, h⟩
        obtain ⟨⟨entries', rest'⟩, hloop, heq⟩ := Option.map_eq_some_iff.mp h
        obtain rfl : rest' = rest := (Prod.mk.inj heq).2
        obtain ⟨i, hi, hclosed, hrest⟩ := ih.mp ⟨entries', hloop⟩
        exact ⟨i + 1, Nat.succ_lt_succ hi, closedAt_succ.mpr ⟨hzero, hclosed⟩, hrest⟩
      · rintro ⟨i, hi, hclosed, hrest⟩
        cases i with
        -- the sentinel does not come first
        | zero => exact absurd (closedAt_zero.mp hclosed) hzero
        | succ i =>
          obtain ⟨entries, hloop⟩ := ih.mpr
            ⟨i, Nat.lt_of_succ_lt_succ hi, (closedAt_succ.mp hclosed).2, hrest⟩
          exact ⟨_, Option.map_eq_some_iff.mpr ⟨_, hloop, rfl⟩⟩

/-- More rounds do not change what is read. -/
theorem deserializeEntries_fuel_independent {fuel : Nat} {s : Bytes}
    {result : List (Int × QNetworkReplySnapshot V) × Bytes}
    (h : io.deserializeEntries fuel s = some result) (k : Nat) :
    io.deserializeEntries (fuel + k) s = some result := by
  induction fuel generalizing s result with
  | zero => exact absurd h (by simp [deserializeEntries])
  | succ fuel ih =>
    rw [show fuel + 1 + k = (fuel + k) + 1 by omega]
    rw [deserializeEntries_succ] at h ⊢
    split at h
    · rename_i hzero
      rw [if_pos hzero]
      exact h
    · rename_i hzero
      obtain ⟨rest, hloop, heq⟩ := Option.map_eq_some_iff.mp h
      rw [if_neg hzero, ih hloop]
      exact congrArg some heq

/-- More rounds change nothing once a snapshot has been read. -/
theorem deserialize_fuel_independent {fuel : Nat} {s : Bytes} {loaded : LoadedSnapshot V × Bytes}
    (h : io.deserialize fuel s = some loaded) (k : Nat) :
    io.deserialize (fuel + k) s = some loaded := by
  rw [deserialize_eq] at h ⊢
  obtain ⟨rest, hloop, heq⟩ := Option.map_eq_some_iff.mp h
  exact Option.map_eq_some_iff.mpr ⟨rest, deserializeEntries_fuel_independent hloop k, heq⟩

/-- A snapshot is read iff there is a sentinel, and then what is behind the first one is left. -/
theorem deserialize_eq_some_iff {fuel : Nat} {s rest : Bytes} :
    (∃ snapshot, io.deserialize fuel s = some (snapshot, rest)) ↔
      ∃ i < fuel, io.ClosedAt (io.afterInitial s) i ∧
        rest = io.afterEntries (io.afterInitial s) i := by
  rw [← deserializeEntries_eq_some_iff]
  constructor
  · rintro ⟨snapshot, h⟩
    rw [deserialize_eq] at h
    obtain ⟨⟨entries, rest'⟩, hloop, heq⟩ := Option.map_eq_some_iff.mp h
    exact ⟨entries, by rw [hloop, ← (Prod.mk.inj heq).2]⟩
  · rintro ⟨entries, hloop⟩
    exact ⟨_, Option.map_eq_some_iff.mpr ⟨_, hloop, rfl⟩⟩

/-! ## The loop over the file -/

/-- Without rounds nothing is loaded from a stream that is not at its end. -/
theorem loadSnapshots_zero {s : Bytes} (hs : s ≠ []) (m : QueueMap QString (LoadedSnapshot V)) :
    io.loadSnapshots 0 s m = none := by
  unfold loadSnapshots
  exact if_neg hs

/-- More rounds change nothing once the file has been loaded. -/
theorem loadSnapshots_fuel_independent {fuel : Nat} {s : Bytes}
    {m m' : QueueMap QString (LoadedSnapshot V)} (h : io.loadSnapshots fuel s m = some m')
    (k : Nat) : io.loadSnapshots (fuel + k) s m = some m' := by
  induction fuel generalizing s m with
  | zero =>
    -- at its end the file has been loaded
    by_cases hs : s = []
    · rw [hs, loadSnapshots_nil] at h ⊢
      exact h
    · rw [loadSnapshots_zero hs] at h
      cases h
  | succ fuel ih =>
    by_cases hs : s = []
    · rw [hs, loadSnapshots_nil] at h ⊢
      exact h
    · -- one snapshot is read, then the rest
      rw [show fuel + 1 + k = (fuel + k) + 1 by omega, loadSnapshots_succ io _ hs]
      rw [loadSnapshots_succ io _ hs] at h
      obtain ⟨loaded, hread, hload⟩ := Option.bind_eq_some_iff.mp h
      rw [deserialize_fuel_independent hread, Option.bind_some]
      exact ih hload

/-- The loop over the file returns iff the file is a sequence of records. -/
theorem loadSnapshots_returns_iff (hio : io.Device) {s : Bytes}
    (m : QueueMap QString (LoadedSnapshot V)) :
    (∃ fuel m', io.loadSnapshots fuel s m = some m') ↔ io.Records s := by
  constructor
  · rintro ⟨fuel, m', h⟩
    induction fuel generalizing s m with
    | zero =>
      by_cases hs : s = []
      · exact hs ▸ Records.nil
      · rw [loadSnapshots_zero hs] at h
        cases h
    | succ fuel ih =>
      by_cases hs : s = []
      · exact hs ▸ Records.nil
      · rw [loadSnapshots_succ io fuel hs] at h
        obtain ⟨⟨snapshot, rest⟩, hread, hload⟩ := Option.bind_eq_some_iff.mp h
        obtain ⟨i, _, hclosed, hrest⟩ := deserialize_eq_some_iff.mp ⟨snapshot, hread⟩
        exact Records.cons hs (hio.lt_of_sentinel hclosed.1) hclosed (hrest ▸ ih _ hload)
  · intro h
    -- the rounds that are enough do not depend on the map
    have hall : ∃ enough, ∀ fuel ≥ enough, ∀ m, ∃ m', io.loadSnapshots fuel s m = some m' := by
      clear m
      induction h with
      | nil => exact ⟨0, fun fuel _ m => ⟨m, loadSnapshots_nil io fuel m⟩⟩
      | @cons s i hs _ hclosed _ ih =>
        obtain ⟨enough, hload⟩ := ih
        refine ⟨max (i + 1) enough + 1, fun fuel hfuel m => ?_⟩
        obtain ⟨fuel, rfl⟩ : ∃ k, fuel = k + 1 := ⟨fuel - 1, by omega⟩
        obtain ⟨snapshot, hread⟩ :=
          deserialize_eq_some_iff.mpr ⟨i, show i < fuel by omega, hclosed, rfl⟩
        obtain ⟨m', hm'⟩ := hload fuel (by omega) (m.push snapshot.url.string snapshot)
        exact ⟨m', by rw [loadSnapshots_succ io fuel hs, hread]; exact hm'⟩
    obtain ⟨enough, hload⟩ := hall
    exact ⟨enough, hload enough (Nat.le_refl _) m⟩

/-- `deserialize` returns iff the sentinel is at the start of an entry inside the device, and the
    loop over the file returns iff each of its records has such a sentinel. -/
theorem loading_returns_iff (io : QDataStream V) (hio : io.Device) (s : Bytes) :
    ((∃ fuel loaded, io.deserialize fuel s = some loaded) ↔
      ∃ i < (io.afterInitial s).length,
        io.signalAt (io.afterInitial s) i = NetworkSignal.endInt) ∧
    ((∃ fuel snapshots, io.loadSnapshots fuel s ∅ = some snapshots) ↔ io.Records s) := by
  refine ⟨⟨?_, ?_⟩, loadSnapshots_returns_iff hio ∅⟩
  · rintro ⟨fuel, ⟨snapshot, rest⟩, hread⟩
    obtain ⟨i, _, hclosed, _⟩ := deserialize_eq_some_iff.mp ⟨snapshot, hread⟩
    exact ⟨i, hio.lt_of_sentinel hclosed.1, hclosed.1⟩
  · rintro ⟨i, _, hend⟩
    obtain ⟨j, _, hclosed⟩ := exists_closedAt hend
    obtain ⟨snapshot, hread⟩ :=
      deserialize_eq_some_iff.mpr ⟨j, Nat.lt_succ_self j, hclosed, rfl⟩
    exact ⟨_, _, hread⟩

/-! ## A file that is cut off -/

/-- Behind the end of the device the loop goes on for ever. -/
theorem deserializeEntries_nil (hio : io.Device) (fuel : Nat) :
    io.deserializeEntries fuel [] = none := by
  induction fuel with
  | zero => rfl
  | succ fuel ih =>
    have hne : (io.int.read []).1 ≠ NetworkSignal.endInt := by
      rw [hio.int_nil]
      decide
    rw [deserializeEntries_succ, if_neg hne, hio.afterEntry_nil, ih]
    rfl

/-- Entries without a whole sentinel behind them are read for ever. -/
theorem deserializeEntries_cut (hio : io.Device) (hint : io.ReadsInts)
    {entries : List (QNetworkReplySnapshotEntry V)}
    (hfields : ∀ entry ∈ entries, io.int.Reads entry.2.error ∧
      io.string.Reads entry.2.errorString ∧ io.variants.Reads entry.2.attributes ∧
      io.longlong.Reads entry.2.streamSize) {cut : Bytes} (hcut : io.int.read cut = (0, []))
    (fuel : Nat) :
    io.deserializeEntries fuel (entries.flatMap io.serializeEntry ++ cut) = none := by
  induction fuel generalizing entries with
  | zero => rfl
  | succ fuel ih =>
    cases entries with
    | nil =>
      -- what is left of the sentinel is not read as one
      have hne : (io.int.read cut).1 ≠ NetworkSignal.endInt := by
        rw [hcut]
        decide
      -- nothing is left behind it
      have hafter : io.afterEntry cut = [] := by
        have hlength := hio.afterEntry_le cut
        rw [afterSignal, hcut] at hlength
        exact List.length_eq_zero_iff.mp (Nat.le_zero.mp hlength)
      rw [List.flatMap_nil, List.nil_append, deserializeEntries_succ, if_neg hne, hafter,
        deserializeEntries_nil hio]
      rfl
    | cons entry entries =>
      -- the entries that are left are read as they were written
      obtain ⟨signal, snapshot⟩ := entry
      obtain ⟨herror, herrorString, hattributes, hstreamSize⟩ :=
        hfields (signal, snapshot) List.mem_cons_self
      -- an entry is its signal and its snapshot
      simp only [List.flatMap_cons, serializeEntry, List.append_assoc]
      rw [deserializeEntries_succ, afterEntry, afterSignal, hint.signal,
        if_neg signal.toInt_ne_endInt,
        readSnapshot_serializeEntry herror herrorString hattributes hstreamSize]
      rw [ih fun entry hentry => hfields entry (List.mem_cons_of_mem _ hentry)]
      rfl

/-- A snapshot whose sentinel lacks its last byte is never read. -/
theorem deserialize_dropLast (hio : io.Device) (hint : io.ReadsInts)
    {s : QNetworkReplyInitialSnapshot V} (hfields : io.ReadsFields s)
    (hcut : io.int.read (io.int.write NetworkSignal.endInt).dropLast = (0, [])) (fuel : Nat) :
    io.deserialize fuel (io.serialize s).dropLast = none := by
  have hsentinel : io.int.write NetworkSignal.endInt ≠ [] :=
    Codec.write_ne_nil_of_reads hint.sentinel (hint 0 (by decide)) (by decide)
  have hentries := deserializeEntries_cut hio hint (fun entry hentry =>
    ⟨hfields.error entry hentry, hfields.errorString entry hentry,
      hfields.attributes entry hentry, hfields.streamSize entry hentry⟩) hcut fuel
  rw [serialize, List.dropLast_append_of_ne_nil hsentinel]
  simp only [List.append_assoc]
  rw [deserialize_eq, afterInitial, readInitial_serialize hfields, hentries]
  rfl

/-! ## The format of Qt -/

/-- The streams of Qt are devices. -/
theorem device_qtStream : qtStream.Device where
  int_nil := rfl
  int_lt := fun _ hs => QtStream.int_read_lt hs
  headers := QtStream.consumes_list (QtStream.consumes_pair QtStream.consumes_bytes
    QtStream.consumes_bytes)
  uint := QtStream.consumes_uint
  url := QtStream.consumes_bytes
  bytes := QtStream.consumes_bytes
  variant := QtStream.consumes_variant
  string := QtStream.consumes_string
  variants := QtStream.consumes_list QtStream.consumes_variant
  longlong := QtStream.consumes_longlong

/-- The file of a reply that failed has a sentinel and is a sequence of records; without its last
    byte there is no sentinel in it. -/
theorem loading_returns_iff_of_failed :
    (∃ i < (qtStream.afterInitial (qtStream.serialize failedReply)).length,
      qtStream.signalAt (qtStream.afterInitial (qtStream.serialize failedReply)) i =
        NetworkSignal.endInt) ∧
    qtStream.Records (qtStream.writeNetworkFile [failedReply]) ∧
    ¬∃ i < (qtStream.afterInitial (qtStream.serialize failedReply).dropLast).length,
      qtStream.signalAt (qtStream.afterInitial (qtStream.serialize failedReply).dropLast) i =
        NetworkSignal.endInt := by
  have hint : qtStream.ReadsInts := fun n hn => QtStream.reads_int hn
  refine ⟨?_, ?_, ?_⟩
  · -- the whole file: a snapshot is read in as many rounds as it has entries
    refine (loading_returns_iff qtStream device_qtStream _).1.mp ⟨4, ?_⟩
    have hread := deserialize_serialize hint readsFields_failedReply [] (show 3 < 4 by decide)
    rw [List.append_nil] at hread
    exact ⟨_, hread⟩
  · -- loading the whole file returns
    refine (loading_returns_iff qtStream device_qtStream _).2.mp ?_
    obtain ⟨enough, hload⟩ := loadSnapshots_writeNetworkFile hint
      (List.forall_mem_singleton.mpr readsFields_failedReply)
    obtain ⟨snapshots, hsnapshots, -⟩ := hload enough (Nat.le_refl _) ∅
    exact ⟨enough, snapshots, hsnapshots⟩
  · -- without its last byte the snapshot is not read
    intro h
    obtain ⟨fuel, loaded, hread⟩ := (loading_returns_iff qtStream device_qtStream _).1.mpr h
    rw [deserialize_dropLast device_qtStream hint readsFields_failedReply (by decide)] at hread
    exact nomatch hread

/-- The file of one reply, with its last byte cut off, is loaded for ever. -/
theorem truncated_log_never_loaded :
    qtStream.Device ∧
      (∀ fuel, qtStream.deserialize fuel (qtStream.serialize failedReply).dropLast = none) ∧
      ∀ fuel, qtStream.loadSnapshots fuel
        (qtStream.writeNetworkFile [failedReply]).dropLast ∅ = none := by
  -- the sentinel is cut short, so that reading goes on for ever
  have hread : ∀ fuel, qtStream.deserialize fuel (qtStream.serialize failedReply).dropLast =
      none :=
    deserialize_dropLast device_qtStream (fun n hn => QtStream.reads_int hn)
      readsFields_failedReply (by decide)
  refine ⟨device_qtStream, hread, fun fuel => ?_⟩
  have hfile : qtStream.writeNetworkFile [failedReply] = qtStream.serialize failedReply :=
    List.append_nil _
  -- something is left of the file
  have hne : (qtStream.serialize failedReply).dropLast ≠ [] := by
    intro h
    have hlength := congrArg List.length h
    rw [List.length_dropLast, serialize] at hlength
    simp only [List.length_append] at hlength
    -- its number alone has four bytes
    have huint : (qtStream.uint.write failedReply.sameUrlSequenceNumber).length = 4 := rfl
    rw [huint] at hlength
    simp only [List.length_nil] at hlength
    omega
  rw [hfile]
  cases fuel with
  | zero => exact loadSnapshots_zero hne ∅
  | succ fuel => rw [loadSnapshots_succ qtStream fuel hne, hread, Option.bind_none]

end QDataStream

end R4
