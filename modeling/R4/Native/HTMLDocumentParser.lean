import R4.Native.HappensBefore

/-!
# The HTML document parser

`WebCore::HTMLDocumentParser` (`html/parser/HTMLDocumentParser.h`, `HTMLDocumentParser.cpp`) with
its scheduler (`HTMLParserScheduler.h`, `HTMLParserScheduler.cpp`), as far as they decide when the
tokenizer is pumped and which happens-before arcs are logged. What the input is, and which tokens
it has, is left open: whether there is a next token is a choice of the run, and so are the scripts
that a token or a loaded resource runs. They may call the parser again.

The routines of the source that run scripts are a relation, `Runs`, and the others are functions.
`none` is a `CRASH()` of the happens-before component.
-/

namespace R4

/-- `enum ParserState`. -/
inductive ParserState where
  | parsing
  | stopping
  | stopped
  | detached
deriving DecidableEq, Repr

/-- `enum SynchronousMode`. -/
inductive SynchronousMode where
  | allowYield
  | forceSynchronous
deriving DecidableEq, Repr

/-- The parser. `continueNextChunkTimer` is the timer of its scheduler: the event action that
    started it, as long as it is active. -/
structure HTMLDocumentParser where
  state : ParserState
  hasInsertionPoint : Bool
  haveSeenEndOfFile : Bool
  isPaused : Bool
  hasScriptRunner : Bool
  hasParserScheduler : Bool
  continueNextChunkTimer : Option EventActionId
  endWasDelayed : Bool
  pumpSessionNestingLevel : Nat
  modifiedInputJoin : MultiJoinHappensBefore
  lastParseEventAction : EventActionId
  lastNonInsertedParseEventAction : EventActionId

/-- The two constructors: the parser of a document has a script runner and a scheduler, that of a
    fragment has neither. -/
def HTMLDocumentParser.init (isDocument : Bool) : HTMLDocumentParser where
  state := .parsing
  hasInsertionPoint := false
  haveSeenEndOfFile := false
  isPaused := false
  hasScriptRunner := isDocument
  hasParserScheduler := isDocument
  continueNextChunkTimer := none
  endWasDelayed := false
  pumpSessionNestingLevel := 0
  modifiedInputJoin := .init
  lastParseEventAction := 0
  lastNonInsertedParseEventAction := 0

/-- The parser and the happens-before component. The last four fields are not stored by the source:
    the arcs that the parser asks for, those of its timer, from the event action that started it
    to the one in which it fires, the event actions in which the tokenizer was pumped, and those
    in which the input was changed. -/
structure Parsing where
  parser : HTMLDocumentParser
  hb : HBState
  requested : List (EventActionId × EventActionId)
  timerArcs : List (EventActionId × EventActionId)
  pumped : List EventActionId
  changed : List EventActionId

namespace Parsing

/-! ## What the parser asks -/

/-- `isStopped`. -/
def isStopped (s : Parsing) : Bool := s.parser.state = .stopped ∨ s.parser.state = .detached

/-- `inPumpSession`. -/
def inPumpSession (s : Parsing) : Bool := s.parser.pumpSessionNestingLevel > 0

/-- `isScheduledForResume`. -/
def isScheduledForResume (s : Parsing) : Bool := s.parser.continueNextChunkTimer.isSome

/-- `shouldDelayEnd`. Whether a script is executing is known to the script runner. -/
def shouldDelayEnd (isExecutingScript : Bool) (s : Parsing) : Bool :=
  s.inPumpSession || s.parser.isPaused || s.isScheduledForResume || isExecutingScript

/-! ## What the parser sets -/

/-- `m_treeBuilder->setPaused(paused)`. -/
def setPaused (paused : Bool) (s : Parsing) : Parsing :=
  { s with parser := { s.parser with isPaused := paused } }

/-- `m_endWasDelayed = delayed`. -/
def setEndWasDelayed (delayed : Bool) (s : Parsing) : Parsing :=
  { s with parser := { s.parser with endWasDelayed := delayed } }

/-- `DocumentParser::prepareToStopParsing`. -/
def startStopping (s : Parsing) : Parsing :=
  { s with parser := { s.parser with state := .stopping } }

/-- `stopParsing` and `detach`: deleting the scheduler clears its timer. -/
def leave (state : ParserState) (s : Parsing) : Parsing :=
  { s with parser := { s.parser with
      state := state
      hasParserScheduler := false
      continueNextChunkTimer := none } }

/-- The input is changed in the current event action. -/
def changeInput (s : Parsing) : Parsing :=
  { s with changed := s.changed ++ [s.hb.hb.currentEventActionId] }

/-- `markEndOfFile`, where the end of the input has not been seen. -/
def markEndOfFile (s : Parsing) : Parsing :=
  if s.parser.haveSeenEndOfFile then s
  else { s.changeInput with parser := { s.parser with haveSeenEndOfFile := true } }

/-! ## Happens-before -/

/-- `HBAddExplicitArc`. -/
def hbAddExplicitArc (earlier later : EventActionId) (s : Parsing) : Option Parsing :=
  (s.hb.hbAddExplicitArc earlier later).map fun hb =>
    { s with hb := hb, requested := s.requested ++ [(earlier, later)] }

/-- `m_modifiedInputJoin.threadEndAction()`. -/
def threadEndAction (s : Parsing) : Option Parsing :=
  (s.parser.modifiedInputJoin.threadEndAction s.hb).map fun join =>
    { s with parser := { s.parser with modifiedInputJoin := join } }

/-- With this every entry point begins: the event action takes part in the next pump, and comes
    behind the last one. -/
def enter (s : Parsing) : Option Parsing := do
  let s ← s.threadEndAction
  if s.parser.lastParseEventAction ≠ 0 then
    let current ← s.hb.hbCurrentEventAction
    s.hbAddExplicitArc s.parser.lastParseEventAction current
  else return s

/-- An arc from `last` to the current event action, unless they are the same. -/
def chain (last currentEventAction : EventActionId) (s : Parsing) : Option Parsing :=
  if last ≠ 0 ∧ last ≠ currentEventAction then s.hbAddExplicitArc last currentEventAction
  else some s

/-- The arcs to a pump. Where a script has written to the input, the event action need not be in the
    order of those that parse what is not inserted. -/
def chainPump (currentEventAction : EventActionId) (s : Parsing) : Option Parsing :=
  if s.parser.hasInsertionPoint = false then
    (s.chain s.parser.lastNonInsertedParseEventAction currentEventAction).map fun s =>
      { s with parser := { s.parser with lastNonInsertedParseEventAction := currentEventAction } }
  else s.chain s.parser.lastParseEventAction currentEventAction

/-- `m_modifiedInputJoin.joinAction()` and `clear()`. -/
def joinModifiedInput (currentEventAction : EventActionId) (s : Parsing) : Option Parsing :=
  (s.parser.modifiedInputJoin.joinAction s.hb).map fun result =>
    { s with
      hb := result.2
      requested := s.requested ++
        (s.parser.modifiedInputJoin.endThreads.filter (· ≠ currentEventAction)).map
          fun id => (id, currentEventAction)
      parser := { s.parser with modifiedInputJoin := result.1.clear } }

/-- The beginning of `pumpTokenizer`, up to its loop. -/
def beginPump (s : Parsing) : Option Parsing := do
  let s := { s with parser := { s.parser with
    pumpSessionNestingLevel := s.parser.pumpSessionNestingLevel + 1 } }
  let currentEventAction ← s.hb.hbCurrentEventAction
  let s ← s.chainPump currentEventAction
  let s := { s with parser := { s.parser with lastParseEventAction := currentEventAction } }
  let s ← s.joinModifiedInput currentEventAction
  return { s with pumped := s.pumped ++ [currentEventAction] }

/-- The end of the pump session. -/
def endPump (s : Parsing) : Parsing :=
  { s with parser := { s.parser with
      pumpSessionNestingLevel := s.parser.pumpSessionNestingLevel - 1 } }

/-- `m_parserScheduler->scheduleForResume()`, which starts the timer. -/
def scheduleForResume (s : Parsing) : Option Parsing :=
  if s.parser.hasParserScheduler then
    some { s with parser := { s.parser with
      continueNextChunkTimer := some s.hb.hb.currentEventActionId } }
  else none

/-- `continueNextChunkTimerFired`, up to the call of the parser. The timer is not active any more,
    and it fires in an event action behind the one that started it. -/
def continueNextChunkTimerFired (s : Parsing) : Option Parsing :=
  s.parser.continueNextChunkTimer.map fun source =>
    { s with
      timerArcs := s.timerArcs ++ [(source, s.hb.hb.currentEventActionId)]
      parser := { s.parser with continueNextChunkTimer := none } }

end Parsing

/-! ## The routines -/

/-- The routines, with what they return. `activity` is anything that runs scripts, `unpause` the
    part of `canTakeNextToken` that does, and `pumpLoop` the loop of `pumpTokenizer`. The two flags
    are `session.needsYield` before and after. -/
inductive Routine where
  | activity
  | runScriptsForPausedTreeBuilder (shouldContinueParsing : Bool)
  | unpause (goOn : Bool)
  | canTakeNextToken (mode : SynchronousMode) (needsYield needsYield' taken : Bool)
  | pumpLoop (mode : SynchronousMode) (needsYield needsYield' : Bool)
  | pumpTokenizer (mode : SynchronousMode)
  | pumpTokenizerIfPossible (mode : SynchronousMode)
  | attemptToRunDeferredScriptsAndEnd
  | prepareToStopParsing
  | attemptToEnd
  | endIfDelayed
  | insert
  | append
  | finish
  | resumeParsingAfterScriptExecution
  | notifyFinished
  | executeScriptsWaitingForStylesheets
  | resumeParsingAfterYield

/-- The routines that the rest of the program calls. -/
def Routine.isEntryPoint : Routine → Bool
  | .insert | .append | .finish | .resumeParsingAfterScriptExecution | .notifyFinished
  | .executeScriptsWaitingForStylesheets | .resumeParsingAfterYield => true
  | _ => false

/-- What the rest of the program does to the parser and to the happens-before component, other than
    calling an entry point. Scripts open and close insertion points, and a script element pauses
    the tree builder. -/
inductive Outside (other : HBState → HBState → Prop) (s : Parsing) : Parsing → Prop where
  | happensBefore {hb : HBState} (h : other s.hb hb) : Outside other s { s with hb := hb }
  | insertionPoint (hasInsertionPoint : Bool) :
      Outside other s { s with parser := { s.parser with hasInsertionPoint := hasInsertionPoint } }
  | paused (isPaused : Bool) : Outside other s (s.setPaused isPaused)
  | stopParsing : Outside other s (s.leave .stopped)
  | detach : Outside other s (s.leave .detached)

/-- A call of a routine. -/
inductive Runs (other : HBState → HBState → Prop) : Routine → Parsing → Parsing → Prop where
  -- scripts
  | idle (s : Parsing) : Runs other .activity s s
  | outside {s s' s'' : Parsing} (h : Outside other s s') (rest : Runs other .activity s' s'') :
      Runs other .activity s s''
  | nested {r : Routine} {s s' s'' : Parsing} (hr : r.isEntryPoint = true) (h : Runs other r s s')
      (rest : Runs other .activity s' s'') : Runs other .activity s s''
  -- `runScriptsForPausedTreeBuilder`: without a script runner nothing is run
  | noScriptRunner {s : Parsing} (h : s.parser.hasScriptRunner = false) :
      Runs other (.runScriptsForPausedTreeBuilder true) s s
  | scriptRunner {s s' : Parsing} (shouldContinueParsing : Bool)
      (h : s.parser.hasScriptRunner = true) (execute : Runs other .activity s s') :
      Runs other (.runScriptsForPausedTreeBuilder shouldContinueParsing) s s'
  -- `canTakeNextToken`
  | notPaused {s : Parsing} (h : s.parser.isPaused = false) : Runs other (.unpause true) s s
  | paused {s s' : Parsing} {shouldContinueParsing : Bool} (h : s.parser.isPaused = true)
      (scripts : Runs other (.runScriptsForPausedTreeBuilder shouldContinueParsing) s s') :
      Runs other (.unpause (shouldContinueParsing && !s'.isStopped)) s
        (s'.setPaused !shouldContinueParsing)
  | stopped {s : Parsing} (mode : SynchronousMode) (needsYield : Bool)
      (h : s.isStopped = true) : Runs other (.canTakeNextToken mode needsYield needsYield false) s s
  | waiting {s s' : Parsing} (mode : SynchronousMode) (needsYield : Bool)
      (h : s.isStopped = false) (unpause : Runs other (.unpause false) s s') :
      Runs other (.canTakeNextToken mode needsYield needsYield false) s s'
  -- a change of the location is pending
  | leaving {s s' : Parsing} (mode : SynchronousMode) (needsYield : Bool)
      (h : s.isStopped = false) (unpause : Runs other (.unpause true) s s') :
      Runs other (.canTakeNextToken mode needsYield needsYield false) s s'
  -- `checkForYieldBeforeToken` looks at the time
  | taken {s s' : Parsing} {mode : SynchronousMode} {needsYield needsYield' : Bool}
      (h : s.isStopped = false) (unpause : Runs other (.unpause true) s s')
      (hyield : needsYield' = needsYield ∨ mode = .allowYield ∧ needsYield' = true) :
      Runs other (.canTakeNextToken mode needsYield needsYield' true) s s'
  -- the loop
  | loopEnd {s s' : Parsing} {mode : SynchronousMode} {needsYield needsYield' taken : Bool}
      (next : Runs other (.canTakeNextToken mode needsYield needsYield' taken) s s')
      (h : taken = false ∨ needsYield' = true) :
      Runs other (.pumpLoop mode needsYield needsYield') s s'
  | noToken {s s' : Parsing} {mode : SynchronousMode} {needsYield : Bool}
      (next : Runs other (.canTakeNextToken mode needsYield false true) s s') :
      Runs other (.pumpLoop mode needsYield false) s s'
  -- every token is parsed in an event action of its own
  | tokenYield {s s' s'' : Parsing} {needsYield : Bool}
      (next : Runs other (.canTakeNextToken .allowYield needsYield false true) s s')
      (constructTree : Runs other .activity s' s'') :
      Runs other (.pumpLoop .allowYield needsYield true) s s''
  | token {s s₁ s₂ s' : Parsing} {needsYield needsYield' : Bool}
      (next : Runs other (.canTakeNextToken .forceSynchronous needsYield false true) s s₁)
      (constructTree : Runs other .activity s₁ s₂)
      (loop : Runs other (.pumpLoop .forceSynchronous false needsYield') s₂ s') :
      Runs other (.pumpLoop .forceSynchronous needsYield needsYield') s s'
  -- `pumpTokenizer`
  | pumpStopped {s s₁ s₂ : Parsing} {mode : SynchronousMode} {needsYield : Bool}
      (begins : s.beginPump = some s₁) (loop : Runs other (.pumpLoop mode false needsYield) s₁ s₂)
      (h : s₂.isStopped = true) : Runs other (.pumpTokenizer mode) s s₂.endPump
  | pump {s s₁ s₂ : Parsing} {mode : SynchronousMode}
      (begins : s.beginPump = some s₁) (loop : Runs other (.pumpLoop mode false false) s₁ s₂)
      (h : s₂.isStopped = false) : Runs other (.pumpTokenizer mode) s s₂.endPump
  | pumpYield {s s₁ s₂ s₃ : Parsing} {mode : SynchronousMode}
      (begins : s.beginPump = some s₁) (loop : Runs other (.pumpLoop mode false true) s₁ s₂)
      (h : s₂.isStopped = false) (schedule : s₂.scheduleForResume = some s₃) :
      Runs other (.pumpTokenizer mode) s s₃.endPump
  -- `pumpTokenizerIfPossible`
  | notPossible {s : Parsing} (mode : SynchronousMode)
      (h : s.isStopped = true ∨ s.parser.isPaused = true ∨ s.isScheduledForResume = true) :
      Runs other (.pumpTokenizerIfPossible mode) s s
  | possible {s s' : Parsing} {mode : SynchronousMode} (hstopped : s.isStopped = false)
      (hpaused : s.parser.isPaused = false) (hscheduled : s.isScheduledForResume = false)
      (pump : Runs other (.pumpTokenizer mode) s s') :
      Runs other (.pumpTokenizerIfPossible mode) s s'
  -- the deferred scripts, and `finished` of the tree builder, which runs handlers
  | runDeferredScriptsAndEnd {s s' : Parsing} (scripts : Runs other .activity s s') :
      Runs other .attemptToRunDeferredScriptsAndEnd s s'
  -- `prepareToStopParsing`
  | prepareStopped {s s' : Parsing}
      (pump : Runs other (.pumpTokenizerIfPossible .forceSynchronous) s s')
      (h : s'.isStopped = true) : Runs other .prepareToStopParsing s s'
  -- the change of the ready state runs handlers
  | prepare {s s₁ s₂ s' : Parsing}
      (pump : Runs other (.pumpTokenizerIfPossible .forceSynchronous) s s₁)
      (h : s₁.isStopped = false)
      (setReadyState : Runs other .activity s₁.startStopping s₂)
      (ends : Runs other .attemptToRunDeferredScriptsAndEnd s₂ s') :
      Runs other .prepareToStopParsing s s'
  -- `attemptToEnd`
  | delayEnd {s : Parsing} (isExecutingScript : Bool)
      (h : s.shouldDelayEnd isExecutingScript = true) :
      Runs other .attemptToEnd s (s.setEndWasDelayed true)
  | attempt {s s' : Parsing} (isExecutingScript : Bool)
      (h : s.shouldDelayEnd isExecutingScript = false)
      (prepares : Runs other .prepareToStopParsing s s') : Runs other .attemptToEnd s s'
  -- `endIfDelayed`
  | notDelayed {s : Parsing} (isExecutingScript : Bool)
      (h : s.parser.state = .detached ∨ s.parser.endWasDelayed = false ∨
        s.shouldDelayEnd isExecutingScript = true) : Runs other .endIfDelayed s s
  | delayed {s s' : Parsing} (isExecutingScript : Bool) (hstate : s.parser.state ≠ .detached)
      (hdelayed : s.parser.endWasDelayed = true)
      (h : s.shouldDelayEnd isExecutingScript = false)
      (prepares : Runs other .prepareToStopParsing (s.setEndWasDelayed false) s') :
      Runs other .endIfDelayed s s'
  -- `insert`
  | insertStopped {s s' : Parsing} (enters : s.enter = some s') (h : s'.isStopped = true) :
      Runs other .insert s s'
  | insert {s s₁ s₂ s' : Parsing} (enters : s.enter = some s₁) (h : s₁.isStopped = false)
      (pump : Runs other (.pumpTokenizerIfPossible .forceSynchronous) s₁.changeInput s₂)
      (ends : Runs other .endIfDelayed s₂ s') : Runs other .insert s s'
  -- `append`: data that comes during a pump is left to it
  | appendStopped {s s' : Parsing} (enters : s.enter = some s') (h : s'.isStopped = true) :
      Runs other .append s s'
  | appendInSession {s s' : Parsing} (enters : s.enter = some s') (h : s'.isStopped = false)
      (hsession : s'.inPumpSession = true) : Runs other .append s s'.changeInput
  | append {s s₁ s₂ s' : Parsing} (enters : s.enter = some s₁) (h : s₁.isStopped = false)
      (hsession : s₁.inPumpSession = false)
      (pump : Runs other (.pumpTokenizerIfPossible .allowYield) s₁.changeInput s₂)
      (ends : Runs other .endIfDelayed s₂ s') : Runs other .append s s'
  -- `finish`
  | finish {s s₁ s' : Parsing} (enters : s.enter = some s₁)
      (attempt : Runs other .attemptToEnd s₁.markEndOfFile s') : Runs other .finish s s'
  -- `resumeParsingAfterScriptExecution`
  | resumeAfterScript {s s₁ s₂ s' : Parsing} (enters : s.enter = some s₁)
      (pump : Runs other (.pumpTokenizerIfPossible .allowYield) s₁ s₂)
      (ends : Runs other .endIfDelayed s₂ s') :
      Runs other .resumeParsingAfterScriptExecution s s'
  -- `notifyFinished`
  | notifyStopping {s s₁ s' : Parsing} (enters : s.enter = some s₁)
      (h : s₁.parser.state = .stopping)
      (ends : Runs other .attemptToRunDeferredScriptsAndEnd s₁ s') :
      Runs other .notifyFinished s s'
  | notifyWait {s s₁ s' : Parsing} (enters : s.enter = some s₁)
      (h : s₁.parser.state ≠ .stopping)
      (scripts : Runs other .activity (s₁.setPaused false) s') :
      Runs other .notifyFinished s (s'.setPaused true)
  | notifyResume {s s₁ s₂ s' : Parsing} (enters : s.enter = some s₁)
      (h : s₁.parser.state ≠ .stopping)
      (scripts : Runs other .activity (s₁.setPaused false) s₂)
      (resume : Runs other .resumeParsingAfterScriptExecution (s₂.setPaused false) s') :
      Runs other .notifyFinished s s'
  -- `executeScriptsWaitingForStylesheets`
  | noScriptsWaiting (s : Parsing) : Runs other .executeScriptsWaitingForStylesheets s s
  | stylesheetsWait {s s₁ s' : Parsing} (ends : s.threadEndAction = some s₁)
      (scripts : Runs other .activity (s₁.setPaused false) s') :
      Runs other .executeScriptsWaitingForStylesheets s (s'.setPaused true)
  | stylesheetsResume {s s₁ s₂ s' : Parsing} (ends : s.threadEndAction = some s₁)
      (scripts : Runs other .activity (s₁.setPaused false) s₂)
      (resume : Runs other .resumeParsingAfterScriptExecution (s₂.setPaused false) s') :
      Runs other .executeScriptsWaitingForStylesheets s s'
  -- `resumeParsingAfterYield`, which only the timer calls
  | resumeAfterYield {s s₁ s₂ s' : Parsing} (fired : s.continueNextChunkTimerFired = some s₁)
      (pump : Runs other (.pumpTokenizer .allowYield) s₁ s₂)
      (ends : Runs other .endIfDelayed s₂ s') : Runs other .resumeParsingAfterYield s s'

end R4
