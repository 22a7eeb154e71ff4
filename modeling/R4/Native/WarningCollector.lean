import R4.ForStd.Utf8
import R4.Native.Descriptor

/-!
# The warning collector

`WTF::WarningCollector` (`wtf/warningcollector.h`, `warningcollector.cpp`,
`warningcollectorreport.cpp`): the warnings of a run, which are written to a file at its
end, and those who report them. A `std::string` is the text whose UTF-8 bytes it holds.
-/

namespace R4

/-- `WarningCollector::Warning`. -/
structure Warning where
  eventActionId : EventActionId
  module : StdString
  shortDescription : StdString
  details : StdString
deriving DecidableEq

/-- The collector of a thread, with the event action to which the next warnings belong. -/
structure WarningCollector where
  warnings : List Warning
  currentEventAction : EventActionId

namespace WarningCollector

/-- `WarningCollector()`. -/
def init : WarningCollector := ⟨[], 0⟩

/-- `collect`. -/
def collect (c : WarningCollector) (eventActionId : EventActionId)
    (module shortDescription details : StdString) : WarningCollector :=
  { c with warnings := c.warnings ++ [⟨eventActionId, module, shortDescription, details⟩] }

/-- `WarningCollectorSetCurrentEventAction`. -/
def setCurrentEventAction (c : WarningCollector) (eventActionId : EventActionId) :
    WarningCollector :=
  { c with currentEventAction := eventActionId }

/-- `WarningCollectorReport`. -/
def report (c : WarningCollector) (module shortDescription details : StdString) :
    WarningCollector :=
  c.collect c.currentEventAction module shortDescription details

end WarningCollector

/-! ## The file -/

namespace Warning

/-- `details.length()`, which counts bytes. -/
def detailsLength (w : Warning) : Nat := (Utf8.encode w.details).length

/-- The line in front of the details. It says how many bytes they take, with the newline. -/
def header (w : Warning) : StdString :=
  StdString.decimalInt w.eventActionId ++ ';' :: (w.module ++ ';' :: (w.shortDescription ++ ';' ::
    StdString.decimal (if w.detailsLength = 0 then 0 else w.detailsLength + 1)))

/-- What `writeLogFile` writes of one warning. -/
def text (w : Warning) : StdString :=
  w.header ++ '\n' :: if w.detailsLength ≠ 0 then w.details ++ ['\n'] else []

end Warning

/-- `writeLogFile`: the bytes of the file. -/
def WarningCollector.writeLogFile (c : WarningCollector) : List UInt8 :=
  c.warnings.flatMap fun w => Utf8.encode w.text

/-! ## Who reports warnings -/

/-- `enum MessageSource`. -/
inductive MessageSource where
  | html
  | xml
  | js
  | network
  | consoleAPI
  | other
deriving DecidableEq, Repr

/-- `enum MessageLevel`. -/
inductive MessageLevel where
  | tip
  | log
  | warning
  | error
  | debug
deriving DecidableEq, Repr

/-- `sourceString`. -/
def MessageSource.name : MessageSource → StdString
  | .html => "HTML".toList
  | .xml => "XML".toList
  | .js => "JS".toList
  | .network => "NETWORK".toList
  | .consoleAPI => "CONSOLEAPI".toList
  | .other => "OTHER".toList

/-- `levelString`. -/
def MessageLevel.name : MessageLevel → StdString
  | .tip => "TIP".toList
  | .log => "LOG".toList
  | .warning => "WARN".toList
  | .error => "ERROR".toList
  | .debug => "DEBUG".toList

/-- `message.ascii().data()`: characters that cannot be printed are replaced, and the C string
    ends at the first null character. -/
def asciiData (message : List UInt16) : StdString :=
  (message.takeWhile fun ch => ch ≠ 0).map fun ch =>
    if ch < 0x20 ∨ ch > 0x7f then '?' else Char.ofNat ch.toNat

/-- `Console::addMessage` with a message source. -/
def consoleMessage (source : MessageSource) (level : MessageLevel) (message : List UInt16)
    (c : WarningCollector) : WarningCollector :=
  c.report "console.log".toList (source.name ++ " (".toList ++ level.name ++ ")".toList)
    (asciiData message)

/-- `Console::addMessage` with the arguments of a call of the console. -/
def consoleCall (level : MessageLevel) (message : List UInt16) (c : WarningCollector) :
    WarningCollector :=
  c.report "console.log".toList ("CONSOLE (".toList ++ level.name ++ ")".toList)
    (asciiData message)

end R4
