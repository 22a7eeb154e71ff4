import R4.ForStd.Admission
import R4.ForStd.BinaryFile
import R4.ForStd.CString
import R4.ForStd.Chain
import R4.ForStd.Codec
import R4.ForStd.Counting
import R4.ForStd.Fields
import R4.ForStd.Heap
import R4.ForStd.Interning
import R4.ForStd.LinearProbing
import R4.ForStd.List
import R4.ForStd.Lts
import R4.ForStd.Nesting
import R4.ForStd.Numbering
import R4.ForStd.PythonDict
import R4.ForStd.PythonFile
import R4.ForStd.QtStream
import R4.ForStd.QueueMap
import R4.ForStd.SequenceMatcher
import R4.ForStd.Utf8
import R4.Native.ActionLog
import R4.Native.ActionLogFile
import R4.Native.AutoExplore
import R4.Native.CheckHB
import R4.Native.DOMTimer
import R4.Native.DataLog
import R4.Native.DeferredQEvent
import R4.Native.Descriptor
import R4.Native.DescriptorParams
import R4.Native.Dispatch
import R4.Native.DocumentEventQueue
import R4.Native.EventAttachLog
import R4.Native.EventListenerMap
import R4.Native.EventTarget
import R4.Native.FuzzyUrl
import R4.Native.HTMLDocumentParser
import R4.Native.HappensBefore
import R4.Native.NetworkFactory
import R4.Native.NetworkFile
import R4.Native.NetworkReply
import R4.Native.NetworkSnapshot
import R4.Native.OneShotTimer
import R4.Native.QWebPage
import R4.Native.Register
import R4.Native.ReplayScheduler
import R4.Native.ReportCompare
import R4.Native.ReportMemory
import R4.Native.ReportProcess
import R4.Native.ReportRace
import R4.Native.ReportReader
import R4.Native.ReportSchedule
import R4.Native.ReportZip
import R4.Native.ResourceLoadScheduler
import R4.Native.Schedule
import R4.Native.ScriptRunner
import R4.Native.SpecificationScheduler
import R4.Native.StringSet
import R4.Native.Timer
import R4.Native.WarningCollector
import R4.Native.WarningLog
import R4.Spec.ActionLogFile
import R4.Spec.ArcEndpoints
import R4.Spec.ArcRun
import R4.Spec.AttachedEvents
import R4.Spec.AutoExplore
import R4.Spec.CheckHB
import R4.Spec.DataAgreement
import R4.Spec.DataRecord
import R4.Spec.DataReplay
import R4.Spec.DeferredEvents
import R4.Spec.DeferredQEvent
import R4.Spec.DescriptorFields
import R4.Spec.DispatchOrder
import R4.Spec.DocumentEvents
import R4.Spec.DueEvents
import R4.Spec.EscapedParams
import R4.Spec.EventDispatch
import R4.Spec.EventTargetLog
import R4.Spec.FuzzyChoice
import R4.Spec.LoadOrder
import R4.Spec.LoadScheduling
import R4.Spec.MemoryValues
import R4.Spec.NetworkClosure
import R4.Spec.NetworkDescriptors
import R4.Spec.NetworkFile
import R4.Spec.NetworkLoading
import R4.Spec.NetworkRun
import R4.Spec.NetworkSequence
import R4.Spec.NetworkServing
import R4.Spec.OneShotTimer
import R4.Spec.ParsingOrder
import R4.Spec.ProviderTypes
import R4.Spec.RecordAgreement
import R4.Spec.RegisterQueues
import R4.Spec.RejectedAttempt
import R4.Spec.ReplayConservation
import R4.Spec.ReplayDriver
import R4.Spec.ReplayHistory
import R4.Spec.ReplayModes
import R4.Spec.ReplaySchedulerStep
import R4.Spec.ReplayTrace
import R4.Spec.ReplyAgreement
import R4.Spec.ReplyRun
import R4.Spec.ReportCompare
import R4.Spec.ReportMemory
import R4.Spec.ReportProcess
import R4.Spec.ReportRace
import R4.Spec.ReportSchedule
import R4.Spec.ReportSummary
import R4.Spec.ReportZip
import R4.Spec.ScheduleFile
import R4.Spec.ScopeCompression
import R4.Spec.ScriptOrder
import R4.Spec.SkippedEvents
import R4.Spec.SnapshotTimer
import R4.Spec.SpecificationSchedulerStep
import R4.Spec.StringInterning
import R4.Spec.StringSetInvariant
import R4.Spec.StringSetLoading
import R4.Spec.StringSetTable
import R4.Spec.TimerDescriptors
import R4.Spec.TimerHeap
import R4.Spec.TimerParents
import R4.Spec.TimerPending
import R4.Spec.TimerRun
import R4.Spec.TimerStop
import R4.Spec.TriggerArcs
import R4.Spec.UrlKeys
import R4.Spec.UrlScore
import R4.Spec.WarningFile
import R4.Spec.WarningLog
