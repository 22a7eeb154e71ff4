import R4.Native.Descriptor

/-!
# Network snapshots

`WebCore::QNetworkReplyInitialSnapshot` and `WebCore::QNetworkReplySnapshot`
(`QNetworkReplyHandler.h`, `QNetworkReplyHandler.cpp`): everything that a network reply
delivered, with one entry for each signal it emitted, and the file format in which replies
are recorded.

A `QDataStream` is the list of the values that were written to it: reading a value of the
type that was written gives the value back. `V` is `QVariant`.
-/

namespace R4

open StdString

/-- A `QByteArray`. -/
abbrev Bytes := List UInt8

/-- A `QString`, as its characters. -/
abbrev QString := List Char

/-- A `QUrl`. The text that `toString()` gives is all that the code below reads of it. -/
structure QUrl where
  string : QString
deriving DecidableEq, Repr

/-- `NetworkSignal`. `END` is the sentinel of the file format and not the signal of an entry. -/
inductive NetworkSignal where
  | initial
  | finished
  | readyRead
deriving DecidableEq, Repr

/-- What Qt's reply says at the moment it is asked. `cookies` is the cookie header, if it is
    valid, and `attributes` are the three that are stored. -/
structure QNetworkReply (V : Type) where
  url : QUrl
  rawHeaderPairs : List (Bytes × Bytes)
  cookies : Option V
  readAll : Bytes
  error : Int
  errorString : QString
  attributes : List V
deriving DecidableEq

/-- `QNetworkReplySnapshot`, without the pointer to its base. -/
structure QNetworkReplySnapshot (V : Type) where
  error : Int
  errorString : QString
  attributes : List V
  streamSize : Int
deriving DecidableEq

/-- `QNetworkReplySnapshotEntry`. -/
abbrev QNetworkReplySnapshotEntry (V : Type) := NetworkSignal × QNetworkReplySnapshot V

/-- `QNetworkReplyInitialSnapshot`. -/
structure QNetworkReplyInitialSnapshot (V : Type) where
  headers : List (Bytes × Bytes)
  cookies : Option V
  sameUrlSequenceNumber : UInt32
  url : QUrl
  streamPosition : Nat
  stream : Bytes
  snapshots : List (QNetworkReplySnapshotEntry V)
deriving DecidableEq

variable {V : Type}

namespace QNetworkReplyInitialSnapshot

/-- `takeSnapshot`: the bytes that have arrived go to the shared stream, and an entry
    remembers how long the stream is now. -/
def takeSnapshot (s : QNetworkReplyInitialSnapshot V) (signal : NetworkSignal)
    (reply : QNetworkReply V) : QNetworkReplyInitialSnapshot V :=
  -- the reply is read to its end, so every byte is in the stream once
  let stream := s.stream ++ reply.readAll
  { s with
    stream := stream
    snapshots := s.snapshots ++
      [(signal, ⟨reply.error, reply.errorString, reply.attributes, stream.length⟩)] }

/-- `QNetworkReplyInitialSnapshot(reply)`, with the sequence number it was given. The reply
    has been read to its end when the initial entry is taken. -/
def ofReply (sameUrlSequenceNumber : UInt32) (reply : QNetworkReply V) :
    QNetworkReplyInitialSnapshot V :=
  { headers := reply.rawHeaderPairs
    cookies := reply.cookies
    sameUrlSequenceNumber := sameUrlSequenceNumber
    url := reply.url
    streamPosition := 0
    stream := reply.readAll
    snapshots := [] : QNetworkReplyInitialSnapshot V }.takeSnapshot .initial
      { reply with readAll := [] }

/-- `peek`. A `QByteArray` of a negative size is empty. -/
def peek (s : QNetworkReplyInitialSnapshot V) (maxlen : Int) : Bytes :=
  let chunkSize := min maxlen (s.stream.length - s.streamPosition)
  (s.stream.drop s.streamPosition).take chunkSize.toNat

/-- `read`. -/
def read (s : QNetworkReplyInitialSnapshot V) (maxlen : Int) :
    Bytes × QNetworkReplyInitialSnapshot V :=
  let chunk := s.peek maxlen
  (chunk, { s with streamPosition := s.streamPosition + chunk.length })

end QNetworkReplyInitialSnapshot

namespace QNetworkReplySnapshot

variable (s : QNetworkReplySnapshot V) (base : QNetworkReplyInitialSnapshot V)

/-- `bytesAvailable`. -/
def bytesAvailable : Int := s.streamSize - base.streamPosition

/-- `read`. -/
def read (maxlen : Int) : Bytes × QNetworkReplyInitialSnapshot V :=
  base.read (min (s.bytesAvailable base) maxlen)

/-- `peek`. -/
def peek (maxlen : Int) : Bytes := base.peek (min (s.bytesAvailable base) maxlen)

end QNetworkReplySnapshot

/-! ## The file format -/

/-- A value in a `QDataStream`. -/
inductive QDataItem (V : Type) where
  | headers (value : List (Bytes × Bytes))
  | uint (value : UInt32)
  | url (value : QUrl)
  | bytes (value : Bytes)
  | variant (value : Option V)
  | int (value : Int)
  | string (value : QString)
  | variants (value : List V)
  | longlong (value : Int)
deriving DecidableEq

namespace NetworkSignal

/-- The value of the enumerator. -/
def toInt : NetworkSignal → Int
  | initial => 0
  | finished => 1
  | readyRead => 2

/-- The value of the sentinel `END`. -/
def endInt : Int := 3

/-- The cast from an integer that is not `END`; other values are undefined. -/
def ofInt? (n : Int) : Option NetworkSignal :=
  if n = 0 then some initial else if n = 1 then some finished
  else if n = 2 then some readyRead else none

/-- A signal is read back from its number. -/
@[simp] theorem ofInt?_toInt (s : NetworkSignal) : ofInt? s.toInt = some s := by
  cases s <;> rfl

/-- No signal has the number of the sentinel. -/
theorem toInt_ne_endInt (s : NetworkSignal) : s.toInt ≠ endInt := by
  cases s <;> decide

end NetworkSignal

namespace QNetworkReplyInitialSnapshot

/-- The five values of one entry. -/
def serializeEntry (entry : QNetworkReplySnapshotEntry V) : List (QDataItem V) :=
  [.int entry.1.toInt, .int entry.2.error, .string entry.2.errorString,
    .variants entry.2.attributes, .longlong entry.2.streamSize]

/-- `serialize`: the stream position is not written. -/
def serialize (s : QNetworkReplyInitialSnapshot V) : List (QDataItem V) :=
  [.headers s.headers, .uint s.sameUrlSequenceNumber, .url s.url, .bytes s.stream,
    .variant s.cookies] ++ s.snapshots.flatMap serializeEntry ++ [.int NetworkSignal.endInt]

/-- The loop over the entries, up to the sentinel. -/
def deserializeEntries : List (QDataItem V) →
    Option (List (QNetworkReplySnapshotEntry V) × List (QDataItem V))
  | .int signal :: rest =>
    -- the sentinel stands where the next signal would
    if signal = NetworkSignal.endInt then some ([], rest)
    else
      match rest with
      | .int error :: .string errorString :: .variants attributes :: .longlong streamSize :: rest =>
        match NetworkSignal.ofInt? signal, deserializeEntries rest with
        | some signal, some (entries, rest) =>
          some ((signal, ⟨error, errorString, attributes, streamSize⟩) :: entries, rest)
        | _, _ => none
      | _ => none
  | _ => none
termination_by structural items => items

/-- `deserialize`. -/
def deserialize : List (QDataItem V) →
    Option (QNetworkReplyInitialSnapshot V × List (QDataItem V))
  | .headers headers :: .uint sameUrlSequenceNumber :: .url url :: .bytes stream ::
      .variant cookies :: rest =>
    (deserializeEntries rest).map fun (snapshots, rest) =>
      (⟨headers, cookies, sameUrlSequenceNumber, url, 0, stream, snapshots⟩, rest)
  | _ => none

/-- The snapshot as it is read back: nothing of it has been read yet. -/
def rewound (s : QNetworkReplyInitialSnapshot V) : QNetworkReplyInitialSnapshot V :=
  { s with streamPosition := 0 }

/-- Entries are read back up to the sentinel. -/
theorem deserializeEntries_serialize (entries : List (QNetworkReplySnapshotEntry V))
    (rest : List (QDataItem V)) :
    deserializeEntries (entries.flatMap serializeEntry ++ .int NetworkSignal.endInt :: rest) =
      some (entries, rest) := by
  induction entries with
  | nil =>
    unfold deserializeEntries
    rfl
  | cons entry entries ih =>
    obtain ⟨signal, snapshot⟩ := entry
    simp only [List.flatMap_cons, serializeEntry, List.cons_append, List.nil_append]
    unfold deserializeEntries
    rw [if_neg signal.toInt_ne_endInt]
    simp only [NetworkSignal.ofInt?_toInt]
    rw [ih]

/-- What was written is read back, and the rest of the file is left. -/
theorem deserialize_serialize (s : QNetworkReplyInitialSnapshot V) (rest : List (QDataItem V)) :
    deserialize (s.serialize ++ rest) = some (s.rewound, rest) := by
  simp only [serialize, List.append_assoc, List.cons_append, List.nil_append, deserialize,
    deserializeEntries_serialize, Option.map_some, rewound]

end QNetworkReplyInitialSnapshot

end R4
