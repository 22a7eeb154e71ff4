import R4.ForStd.Codec
import R4.ForStd.QueueMap
import R4.Native.NetworkFactory

/-!
# The bytes of the network file

`QNetworkReplyInitialSnapshot::serialize` and `deserialize`, `writeNetworkFile` and the loop in
which `QNetworkReplyControllableFactoryReplay` loads the file, on the bytes of the device
(`QNetworkReplyHandler.cpp`, `R4/clients/Replay/network.cpp`).

How a value of each type is written and read is up to `QDataStream`, which is a parameter. None
of the loops looks at the status of the stream, so nothing ends them but what they read: `fuel`
bounds the rounds, and `none` is a loop that has not ended by then.
-/

namespace R4

open StdString

/-- `QDataStream`, for the types of the values in a network file. -/
structure QDataStream (V : Type) where
  headers : Codec (List (Bytes × Bytes))
  uint : Codec UInt32
  url : Codec QUrl
  bytes : Codec Bytes
  variant : Codec (Option V)
  int : Codec Int
  string : Codec QString
  variants : Codec (List V)
  longlong : Codec Int

/-- A `QNetworkReplyInitialSnapshot` that was read. The signals are the integers in the file,
    which need not be those of the enumeration. -/
structure LoadedSnapshot (V : Type) where
  headers : List (Bytes × Bytes)
  cookies : Option V
  sameUrlSequenceNumber : UInt32
  url : QUrl
  streamPosition : Nat
  stream : Bytes
  snapshots : List (Int × QNetworkReplySnapshot V)
deriving DecidableEq

namespace QDataStream

variable {V : Type} (io : QDataStream V)

/-! ## Writing -/

/-- One round of the loop of `serialize`. -/
def serializeEntry (entry : QNetworkReplySnapshotEntry V) : Bytes :=
  io.int.write entry.1.toInt ++ io.int.write entry.2.error ++
    io.string.write entry.2.errorString ++ io.variants.write entry.2.attributes ++
    io.longlong.write entry.2.streamSize

/-- `serialize`. -/
def serialize (s : QNetworkReplyInitialSnapshot V) : Bytes :=
  io.headers.write s.headers ++ io.uint.write s.sameUrlSequenceNumber ++ io.url.write s.url ++
    io.bytes.write s.stream ++ io.variant.write s.cookies ++
    s.snapshots.flatMap io.serializeEntry ++ io.int.write NetworkSignal.endInt

/-- `writeNetworkFile`, on the snapshots of `m_networkHistory`. -/
def writeNetworkFile (networkHistory : List (QNetworkReplyInitialSnapshot V)) : Bytes :=
  networkHistory.flatMap io.serialize

/-! ## Reading -/

/-- The four values behind the signal of an entry. -/
def readSnapshot (s : Bytes) : QNetworkReplySnapshot V × Bytes :=
  let (error, s) := io.int.read s
  let (errorString, s) := io.string.read s
  let (attributes, s) := io.variants.read s
  let (streamSize, s) := io.longlong.read s
  (⟨error, errorString, attributes, streamSize⟩, s)

/-- The loop of `deserialize`: only the sentinel ends it. -/
def deserializeEntries : Nat → Bytes → Option (List (Int × QNetworkReplySnapshot V) × Bytes)
  | 0, _ => none
  | fuel + 1, s =>
    let (signal, s) := io.int.read s
    if signal = NetworkSignal.endInt then some ([], s)
    else
      let (snapshot, s) := io.readSnapshot s
      (deserializeEntries fuel s).map fun (entries, s) => ((signal, snapshot) :: entries, s)

/-- The five values at the front of a snapshot, with no entries yet. -/
def readInitial (s : Bytes) : LoadedSnapshot V × Bytes :=
  let (headers, s) := io.headers.read s
  let (sameUrlSequenceNumber, s) := io.uint.read s
  let (url, s) := io.url.read s
  let (stream, s) := io.bytes.read s
  let (cookies, s) := io.variant.read s
  (⟨headers, cookies, sameUrlSequenceNumber, url, 0, stream, []⟩, s)

/-- `deserialize`. -/
def deserialize (fuel : Nat) (s : Bytes) : Option (LoadedSnapshot V × Bytes) :=
  let (initial, s) := io.readInitial s
  (io.deserializeEntries fuel s).map fun (entries, s) => ({ initial with snapshots := entries }, s)

/-- The loop of `QNetworkReplyControllableFactoryReplay(logNetworkPath)`. -/
def loadSnapshots : Nat → Bytes → QueueMap QString (LoadedSnapshot V) →
    Option (QueueMap QString (LoadedSnapshot V))
  | fuel, s, m =>
    -- `fp.atEnd()`
    if s = [] then some m
    else
      match fuel with
      | 0 => none
      | fuel + 1 =>
        (io.deserialize fuel s).bind fun (snapshot, s) =>
          loadSnapshots fuel s (m.push snapshot.url.string snapshot)

/-! The same on the values that were read and what they leave of the device. -/

/-- What the signal of an entry leaves. -/
def afterSignal (s : Bytes) : Bytes := (io.int.read s).2

/-- What an entry leaves. -/
def afterEntry (s : Bytes) : Bytes := (io.readSnapshot (io.afterSignal s)).2

/-- What the values at the front of a snapshot leave. -/
def afterInitial (s : Bytes) : Bytes := (io.readInitial s).2

/-- The fields of a snapshot in their order. -/
theorem readSnapshot_eq (s : Bytes) : io.readSnapshot s =
    (⟨(io.int.read s).1, (io.string.read (io.int.read s).2).1,
      (io.variants.read (io.string.read (io.int.read s).2).2).1,
      (io.longlong.read (io.variants.read (io.string.read (io.int.read s).2).2).2).1⟩,
      (io.longlong.read (io.variants.read (io.string.read (io.int.read s).2).2).2).2) := rfl

/-- The fields of the initial snapshot in their order. -/
theorem readInitial_eq (s : Bytes) : io.readInitial s =
    (⟨(io.headers.read s).1,
      (io.variant.read
        (io.bytes.read (io.url.read (io.uint.read (io.headers.read s).2).2).2).2).1,
      (io.uint.read (io.headers.read s).2).1,
      (io.url.read (io.uint.read (io.headers.read s).2).2).1, 0,
      (io.bytes.read (io.url.read (io.uint.read (io.headers.read s).2).2).2).1, []⟩,
      (io.variant.read
        (io.bytes.read (io.url.read (io.uint.read (io.headers.read s).2).2).2).2).2) := rfl

/-- One more entry, or the sentinel. -/
theorem deserializeEntries_succ (fuel : Nat) (s : Bytes) : io.deserializeEntries (fuel + 1) s =
    if (io.int.read s).1 = NetworkSignal.endInt then some ([], io.afterSignal s)
    else (io.deserializeEntries fuel (io.afterEntry s)).map fun rest =>
      (((io.int.read s).1, (io.readSnapshot (io.afterSignal s)).1) :: rest.1, rest.2) := rfl

/-- A snapshot is its initial part and its entries. -/
theorem deserialize_eq (fuel : Nat) (s : Bytes) : io.deserialize fuel s =
    (io.deserializeEntries fuel (io.afterInitial s)).map fun rest =>
      ({ (io.readInitial s).1 with snapshots := rest.1 }, rest.2) := rfl

theorem writeNetworkFile_cons (s : QNetworkReplyInitialSnapshot V)
    (history : List (QNetworkReplyInitialSnapshot V)) :
    io.writeNetworkFile (s :: history) = io.serialize s ++ io.writeNetworkFile history := rfl

/-- At the end of the file the loading ends. -/
theorem loadSnapshots_nil (fuel : Nat) (m : QueueMap QString (LoadedSnapshot V)) :
    io.loadSnapshots fuel [] m = some m := by
  unfold loadSnapshots
  exact if_pos rfl

/-- One more snapshot is put into the queue of its URL. -/
theorem loadSnapshots_succ (fuel : Nat) {s : Bytes} (hs : s ≠ [])
    (m : QueueMap QString (LoadedSnapshot V)) : io.loadSnapshots (fuel + 1) s m =
      (io.deserialize fuel s).bind fun loaded =>
        io.loadSnapshots fuel loaded.2 (m.push loaded.1.url.string loaded.1) := by
  conv_lhs => unfold loadSnapshots
  exact if_neg hs

/-! ## The file as a sequence of values -/

/-- The bytes of one value. -/
def writeItem : QDataItem V → Bytes
  | .headers value => io.headers.write value
  | .uint value => io.uint.write value
  | .url value => io.url.write value
  | .bytes value => io.bytes.write value
  | .variant value => io.variant.write value
  | .int value => io.int.write value
  | .string value => io.string.write value
  | .variants value => io.variants.write value
  | .longlong value => io.longlong.write value

/-- The bytes of a snapshot are those of its values. -/
theorem serialize_eq_items (s : QNetworkReplyInitialSnapshot V) :
    io.serialize s = s.serialize.flatMap io.writeItem := by
  have hentry : ∀ entry : QNetworkReplySnapshotEntry V,
      io.serializeEntry entry =
        (QNetworkReplyInitialSnapshot.serializeEntry entry).flatMap io.writeItem := by
    intro entry
    simp [serializeEntry, QNetworkReplyInitialSnapshot.serializeEntry, writeItem]
  simp only [serialize, QNetworkReplyInitialSnapshot.serialize, List.flatMap_append,
    List.flatMap_assoc, ← hentry]
  simp [writeItem]

/-- The file of a factory is the bytes of the values that it writes. -/
theorem writeNetworkFile_eq_items (f : QNetworkReplyControllableFactory V) :
    io.writeNetworkFile (f.networkHistory.filterMap fun address => f.objects[address]?) =
      f.writeNetworkFile.flatMap io.writeItem := by
  rw [writeNetworkFile, QNetworkReplyControllableFactory.writeNetworkFile, List.flatMap_assoc]
  exact List.flatMap_congr fun s _ => io.serialize_eq_items s

end QDataStream

end R4
