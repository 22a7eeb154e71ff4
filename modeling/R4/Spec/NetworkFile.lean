import R4.ForStd.QtStream
import R4.Native.NetworkFile

/-!
# The network file is read back

The file has no count of its snapshots, and a snapshot has no count of its entries: a sentinel
closes the entries, and the end of the file closes the snapshots. Both are enough, as the
sentinel is the signal of no entry and every snapshot takes up bytes.

## Key results

- `deserialize_serialize`: a snapshot is read back, whatever follows it
- `network_file_round_trip`: the snapshots of a file, by URL and in the order of the history
-/

namespace R4

open StdString

variable {V : Type}

/-- What is read back of a snapshot: nothing of the stream has been read yet. -/
def LoadedSnapshot.ofSnapshot (s : QNetworkReplyInitialSnapshot V) : LoadedSnapshot V where
  headers := s.headers
  cookies := s.cookies
  sameUrlSequenceNumber := s.sameUrlSequenceNumber
  url := s.url
  streamPosition := 0
  stream := s.stream
  snapshots := s.snapshots.map fun entry => (entry.1.toInt, entry.2)

namespace QDataStream

/-- Every field of the snapshot is read back. -/
structure ReadsFields (io : QDataStream V) (s : QNetworkReplyInitialSnapshot V) : Prop where
  headers : io.headers.Reads s.headers
  sameUrlSequenceNumber : io.uint.Reads s.sameUrlSequenceNumber
  url : io.url.Reads s.url
  stream : io.bytes.Reads s.stream
  cookies : io.variant.Reads s.cookies
  error : ∀ entry ∈ s.snapshots, io.int.Reads entry.2.error
  errorString : ∀ entry ∈ s.snapshots, io.string.Reads entry.2.errorString
  attributes : ∀ entry ∈ s.snapshots, io.variants.Reads entry.2.attributes
  streamSize : ∀ entry ∈ s.snapshots, io.longlong.Reads entry.2.streamSize

/-- Integers are read back. -/
def ReadsInts (io : QDataStream V) : Prop := ∀ n, BinaryFile.IsInt n → io.int.Reads n

variable {io : QDataStream V}

/-- A signal is read back. -/
theorem ReadsInts.signal (h : io.ReadsInts) (signal : NetworkSignal) :
    io.int.Reads signal.toInt := by
  cases signal <;> exact h _ (by decide)

/-- The sentinel is read back. -/
theorem ReadsInts.sentinel (h : io.ReadsInts) : io.int.Reads NetworkSignal.endInt :=
  h _ (by decide)

/-- The values behind the signal are read back. -/
theorem readSnapshot_serializeEntry {snapshot : QNetworkReplySnapshot V}
    (herror : io.int.Reads snapshot.error) (herrorString : io.string.Reads snapshot.errorString)
    (hattributes : io.variants.Reads snapshot.attributes)
    (hstreamSize : io.longlong.Reads snapshot.streamSize) (rest : Bytes) :
    io.readSnapshot (io.int.write snapshot.error ++ (io.string.write snapshot.errorString ++
      (io.variants.write snapshot.attributes ++ (io.longlong.write snapshot.streamSize ++ rest)))) =
        (snapshot, rest) := by
  rw [readSnapshot_eq, herror, herrorString, hattributes, hstreamSize]

/-- The values at the front of a snapshot are read back. -/
theorem readInitial_serialize {s : QNetworkReplyInitialSnapshot V} (hfields : io.ReadsFields s)
    (rest : Bytes) :
    io.readInitial (io.headers.write s.headers ++ (io.uint.write s.sameUrlSequenceNumber ++
      (io.url.write s.url ++ (io.bytes.write s.stream ++
        (io.variant.write s.cookies ++ rest))))) =
          ({ LoadedSnapshot.ofSnapshot s with snapshots := [] }, rest) := by
  rw [readInitial_eq, hfields.headers, hfields.sameUrlSequenceNumber, hfields.url, hfields.stream,
    hfields.cookies]
  rfl

/-- The loop over the entries ends at the sentinel and not before. -/
theorem deserializeEntries_serialize (hint : io.ReadsInts)
    {entries : List (QNetworkReplySnapshotEntry V)}
    (hfields : ∀ entry ∈ entries, io.int.Reads entry.2.error ∧
      io.string.Reads entry.2.errorString ∧ io.variants.Reads entry.2.attributes ∧
      io.longlong.Reads entry.2.streamSize) (rest : Bytes) {fuel : Nat}
    (hfuel : entries.length < fuel) :
    io.deserializeEntries fuel
      (entries.flatMap io.serializeEntry ++ (io.int.write NetworkSignal.endInt ++ rest)) =
        some (entries.map fun entry => (entry.1.toInt, entry.2), rest) := by
  induction entries generalizing fuel with
  | nil =>
    -- without entries the sentinel is read
    cases fuel with
    | zero => exact absurd hfuel (Nat.not_lt_zero _)
    | succ fuel =>
      rw [List.flatMap_nil, List.nil_append, deserializeEntries_succ, afterSignal, hint.sentinel]
      exact if_pos rfl
  | cons entry entries ih =>
    -- the first entry is read, then the rest in one round less
    cases fuel with
    | zero => exact absurd hfuel (Nat.not_lt_zero _)
    | succ fuel =>
      obtain ⟨signal, snapshot⟩ := entry
      obtain ⟨herror, herrorString, hattributes, hstreamSize⟩ :=
        hfields (signal, snapshot) List.mem_cons_self
      -- the rest has as many rounds as it needs
      have hrest := ih (fun entry hentry => hfields entry (List.mem_cons_of_mem _ hentry))
        (Nat.lt_of_succ_lt_succ hfuel)
      simp only [List.flatMap_cons, serializeEntry, List.append_assoc]
      -- the signal is not the sentinel
      rw [deserializeEntries_succ, afterEntry, afterSignal, hint.signal,
        if_neg signal.toInt_ne_endInt,
        readSnapshot_serializeEntry herror herrorString hattributes hstreamSize]
      rw [hrest]
      rfl

/-- A snapshot is read back, whatever follows it. -/
theorem deserialize_serialize (hint : io.ReadsInts) {s : QNetworkReplyInitialSnapshot V}
    (hfields : io.ReadsFields s) (rest : Bytes) {fuel : Nat} (hfuel : s.snapshots.length < fuel) :
    io.deserialize fuel (io.serialize s ++ rest) = some (.ofSnapshot s, rest) := by
  have hentries := deserializeEntries_serialize hint (fun entry hentry =>
    ⟨hfields.error entry hentry, hfields.errorString entry hentry,
      hfields.attributes entry hentry, hfields.streamSize entry hentry⟩) rest hfuel
  rw [serialize]
  simp only [List.append_assoc]
  rw [deserialize_eq, afterInitial, readInitial_serialize hfields, hentries]
  rfl

/-- Every snapshot takes up bytes: the sentinel is told apart from other integers. -/
theorem serialize_ne_nil (hint : io.ReadsInts) (s : QNetworkReplyInitialSnapshot V) :
    io.serialize s ≠ [] := by
  have hsentinel := Codec.write_ne_nil_of_reads hint.sentinel (hint 0 (by decide)) (by decide)
  intro h
  rw [serialize, List.append_eq_nil_iff] at h
  exact hsentinel h.2

/-- The loop over the file ends at its end. -/
theorem loadSnapshots_writeNetworkFile (hint : io.ReadsInts)
    {history : List (QNetworkReplyInitialSnapshot V)}
    (hfields : ∀ s ∈ history, io.ReadsFields s) :
    ∃ enough, ∀ fuel ≥ enough, ∀ m : QueueMap QString (LoadedSnapshot V), ∃ m',
      io.loadSnapshots fuel (io.writeNetworkFile history) m = some m' ∧
        ∀ url, m'.queue url = m.queue url ++
          (history.filter fun s => s.url.string = url).map LoadedSnapshot.ofSnapshot := by
  induction history with
  | nil =>
    -- an empty file is loaded at once
    refine ⟨0, fun fuel _ m => ⟨m, ?_, fun url => (List.append_nil _).symm⟩⟩
    rw [writeNetworkFile, List.flatMap_nil, loadSnapshots_nil]
  | cons s history ih =>
    -- one snapshot is read, and the rest of the file behind it
    obtain ⟨enough, hrest⟩ := ih fun s hs => hfields s (List.mem_cons_of_mem _ hs)
    refine ⟨max (s.snapshots.length + 1) enough + 1, fun fuel hfuel m => ?_⟩
    obtain ⟨fuel, rfl⟩ : ∃ k, fuel = k + 1 := ⟨fuel - 1, by omega⟩
    -- there are enough rounds for its entries
    have hread := deserialize_serialize hint (hfields s List.mem_cons_self)
      (io.writeNetworkFile history) (show s.snapshots.length < fuel by omega)
    obtain ⟨m', hload, hqueue⟩ := hrest fuel (by omega)
      (m.push s.url.string (LoadedSnapshot.ofSnapshot s))
    -- the file is not at its end
    have hne : io.writeNetworkFile (s :: history) ≠ [] := by
      intro h
      rw [writeNetworkFile_cons, List.append_eq_nil_iff] at h
      exact serialize_ne_nil hint s h.1
    refine ⟨m', ?_, fun url => ?_⟩
    · rw [loadSnapshots_succ io fuel hne, writeNetworkFile_cons, hread, Option.bind_some]
      exact hload
    · -- the snapshot is at the end of the queue of its URL
      rw [hqueue, QueueMap.queue_push, List.filter_cons]
      by_cases hurl : url = s.url.string
      · simp [hurl]
      · rw [if_neg hurl, if_neg (by simpa using Ne.symm hurl)]

/-- Loading the file that was written for a history ends, which is at the end of the file, and
    gives for every URL the snapshots with this URL in the order of the history. -/
theorem network_file_round_trip (io : QDataStream V) (hint : io.ReadsInts)
    (history : List (QNetworkReplyInitialSnapshot V))
    (hfields : ∀ s ∈ history, io.ReadsFields s) :
    ∃ enough, ∀ fuel ≥ enough, ∃ snapshots,
      io.loadSnapshots fuel (io.writeNetworkFile history) ∅ = some snapshots ∧
        ∀ url, snapshots.queue url =
          (history.filter fun s => s.url.string = url).map LoadedSnapshot.ofSnapshot := by
  obtain ⟨enough, hload⟩ := loadSnapshots_writeNetworkFile hint hfields
  refine ⟨enough, fun fuel hfuel => ?_⟩
  obtain ⟨m, hm, hqueue⟩ := hload fuel hfuel ∅
  exact ⟨m, hm, fun url => by rw [hqueue, QueueMap.queue_empty, List.nil_append]⟩

/-! ## The format of Qt -/

/-- `QDataStream`, for URLs in ASCII and variants that are integers or nothing. -/
def qtStream : QDataStream Int where
  headers := QtStream.list (QtStream.pair QtStream.bytes QtStream.bytes)
  uint := QtStream.uint
  url :=
    { write := fun url => QtStream.bytes.write (url.string.map fun c => UInt8.ofNat c.toNat)
      read := fun s =>
        let (text, s) := QtStream.bytes.read s
        (⟨text.map fun b => Char.ofNat b.toNat⟩, s) }
  bytes := QtStream.bytes
  variant := QtStream.variant
  int := QtStream.int
  string := QtStream.string
  variants :=
    { write := fun xs => (QtStream.list QtStream.variant).write (xs.map some)
      read := fun s =>
        let (xs, s) := (QtStream.list QtStream.variant).read s
        (xs.map fun x => x.getD 0, s) }
  longlong := QtStream.longlong

/-- A URL is read as its bytes. -/
theorem qtStream_url_read (s : Bytes) : qtStream.url.read s =
    (⟨(QtStream.bytes.read s).1.map fun b => Char.ofNat b.toNat⟩, (QtStream.bytes.read s).2) :=
  rfl

/-- Variants are read as numbers. -/
theorem qtStream_variants_read (s : Bytes) : qtStream.variants.read s =
    (((QtStream.list QtStream.variant).read s).1.map fun x => x.getD 0,
      ((QtStream.list QtStream.variant).read s).2) := rfl

/-- A reply that arrived in two parts, and failed. -/
def failedReply : QNetworkReplyInitialSnapshot Int where
  headers := [([65], [66, 67])]
  cookies := some 7
  sameUrlSequenceNumber := 1
  url := ⟨"http://a/".toList⟩
  streamPosition := 2
  stream := [1, 2, 3]
  snapshots := [(.initial, ⟨0, [], [200], 1⟩), (.readyRead, ⟨0, [], [200], 3⟩),
    (.finished, ⟨99, "lost".toList, [], 3⟩)]

/-- The fields of the example are read back. -/
theorem readsFields_failedReply : qtStream.ReadsFields failedReply where
  -- one header
  headers := by
    refine QtStream.reads_list ?_ ?_ (by decide)
    · intro x hx
      obtain rfl := List.mem_singleton.mp hx
      exact QtStream.reads_pair (QtStream.reads_bytes (by decide))
        (QtStream.reads_bytes (by decide))
    · intro x hx
      obtain rfl := List.mem_singleton.mp hx
      decide
  sameUrlSequenceNumber := QtStream.reads_uint _
  -- the URL is written as its bytes
  url := by
    intro rest
    have hread := QtStream.reads_bytes
      (b := failedReply.url.string.map fun c => UInt8.ofNat c.toNat) (by decide) rest
    rw [qtStream_url_read, show qtStream.url.write failedReply.url =
      QtStream.bytes.write (failedReply.url.string.map fun c => UInt8.ofNat c.toNat) from rfl,
      hread]
    rfl
  stream := QtStream.reads_bytes (by decide)
  cookies := QtStream.reads_variant (by decide)
  -- an entry for each of three signals
  error := by
    intro entry hentry
    simp only [failedReply, List.mem_cons, List.not_mem_nil, or_false] at hentry
    rcases hentry with rfl | rfl | rfl <;> exact QtStream.reads_int (by decide)
  errorString := by
    intro entry hentry
    simp only [failedReply, List.mem_cons, List.not_mem_nil, or_false] at hentry
    rcases hentry with rfl | rfl | rfl <;> exact QtStream.reads_string (by simp) (by simp)
  attributes := by
    intro entry hentry rest
    -- the attributes are a status, or nothing
    have hread : ∀ xs : List Int, xs = [200] ∨ xs = [] → ∀ rest,
        (QtStream.list QtStream.variant).read
          ((QtStream.list QtStream.variant).write (xs.map some) ++ rest) =
            (xs.map some, rest) := by
      rintro xs (rfl | rfl)
      · refine QtStream.reads_list ?_ ?_ (by decide)
        · intro x hx
          obtain rfl := List.mem_singleton.mp hx
          exact QtStream.reads_variant (by decide)
        · intro x hx
          obtain rfl := List.mem_singleton.mp hx
          decide
      · exact QtStream.reads_list (by simp) (by simp) (by decide)
    have hcase : entry.2.attributes = [200] ∨ entry.2.attributes = [] := by
      simp only [failedReply, List.mem_cons, List.not_mem_nil, or_false] at hentry
      rcases hentry with rfl | rfl | rfl <;> decide
    rw [qtStream_variants_read, show qtStream.variants.write entry.2.attributes =
      (QtStream.list QtStream.variant).write (entry.2.attributes.map some) from rfl,
      hread _ hcase rest]
    rcases hcase with hcase | hcase <;> rw [hcase] <;> rfl
  streamSize := by
    intro entry hentry
    simp only [failedReply, List.mem_cons, List.not_mem_nil, or_false] at hentry
    rcases hentry with rfl | rfl | rfl <;> exact QtStream.reads_longlong (by decide) (by decide)

/-- The reply, recorded twice, is loaded twice. -/
theorem network_file_round_trip_of_failed :
    ∃ enough, ∀ fuel ≥ enough, ∃ snapshots,
      qtStream.loadSnapshots fuel (qtStream.writeNetworkFile [failedReply, failedReply]) ∅ =
          some snapshots ∧
        ∀ url, snapshots.queue url =
          ([failedReply, failedReply].filter fun s => s.url.string = url).map
            LoadedSnapshot.ofSnapshot := by
  refine network_file_round_trip qtStream (fun n hn => QtStream.reads_int hn) _ ?_
  intro s hs
  have hsame : s = failedReply := by simpa using hs
  rw [hsame]
  exact readsFields_failedReply

end QDataStream

end R4
