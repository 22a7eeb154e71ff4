import Mathlib.Data.Finset.Insert
import Mathlib.Data.Finset.Card
import Mathlib.Data.List.AList
import Mathlib.Logic.Function.Basic
import R4.ForStd.CString
import R4.ForStd.Lts

/-!
# The scheduler of resource loads

`ResourceLoadScheduler` (`loader/ResourceLoadScheduler.h`, `ResourceLoadScheduler.cpp`): how many
requests of a host are in flight at a time, and which one is sent next. Requests are served as
soon as one is scheduled or removed; the timer of the class is never started.

`L` is the type of loaders. Of a loader the scheduler reads its URL, whether its document holds
requests back, and whether an archive has its resource; `start` does not call back into the
scheduler. Of a URL it reads whether it is in the HTTP family, and its host.

The hash map of hosts is iterated in an order that comes with each step.
-/

namespace R4

/-- `enum ResourceLoadPriority`, less the unresolved one, which is not passed to the scheduler. -/
inductive ResourceLoadPriority where
  | veryLow
  | low
  | medium
  | high
deriving DecidableEq, Repr

namespace ResourceLoadPriority

/-- The value of the enumerator. -/
def toNat : ResourceLoadPriority → Nat
  | veryLow => 0
  | low => 1
  | medium => 2
  | high => 3

instance : LT ResourceLoadPriority := ⟨fun p q => p.toNat < q.toNat⟩

/-- The priorities from the highest one down to `minimumPriority`. -/
def downTo (minimumPriority : ResourceLoadPriority) : List ResourceLoadPriority :=
  [high, medium, low, veryLow].filter fun p => minimumPriority.toNat ≤ p.toNat

end ResourceLoadPriority

/-- A `KURL`. -/
structure KURL where
  protocolIsInHTTPFamily : Bool
  host : StdString
deriving DecidableEq

/-- The name of a `HostInformation`; it is null for the one of all other protocols. -/
abbrev HostName := Option StdString

/-- `HostInformation`. -/
structure HostInformation (L : Type) where
  requestsPending : ResourceLoadPriority → List L
  requestsLoading : Finset L
  name : HostName
  maxRequestsInFlight : Nat

namespace HostInformation

variable {L : Type}

/-- `HostInformation(name, maxRequestsInFlight)`. -/
def make (name : HostName) (maxRequestsInFlight : Nat) : HostInformation L where
  requestsPending _ := []
  requestsLoading := ∅
  name := name
  maxRequestsInFlight := maxRequestsInFlight

/-- An assignment to the queue of a priority. -/
def setPending (host : HostInformation L) (priority : ResourceLoadPriority) (pending : List L) :
    HostInformation L :=
  { host with requestsPending := Function.update host.requestsPending priority pending }

/-- `schedule(resourceLoader, priority)`. -/
def schedule (host : HostInformation L) (resourceLoader : L) (priority : ResourceLoadPriority) :
    HostInformation L :=
  host.setPending priority (host.requestsPending priority ++ [resourceLoader])

/-- `limitRequests(priority)`. -/
def limitRequests (host : HostInformation L) (isSerialLoadingEnabled : Bool)
    (priority : ResourceLoadPriority) : Bool :=
  if priority = .veryLow ∧ host.requestsLoading.card ≠ 0 then true
  else
    decide ((if isSerialLoadingEnabled then 1 else host.maxRequestsInFlight) ≤
      host.requestsLoading.card)

/-- `hasRequests()`. -/
def hasRequests (host : HostInformation L) : Bool :=
  decide (host.requestsLoading.card ≠ 0) ||
    (ResourceLoadPriority.downTo .veryLow).any fun p => !(host.requestsPending p).isEmpty

variable [DecidableEq L]

/-- `addLoadInProgress(resourceLoader)`. -/
def addLoadInProgress (host : HostInformation L) (resourceLoader : L) : HostInformation L :=
  { host with requestsLoading := insert resourceLoader host.requestsLoading }

/-- `remove(resourceLoader)`. -/
def remove (host : HostInformation L) (resourceLoader : L) : HostInformation L :=
  if resourceLoader ∈ host.requestsLoading then
    { host with requestsLoading := host.requestsLoading.erase resourceLoader }
  else
    match (ResourceLoadPriority.downTo .veryLow).find? fun p =>
      resourceLoader ∈ host.requestsPending p with
    | none => host
    | some p => host.setPending p ((host.requestsPending p).erase resourceLoader)

end HostInformation

/-- `maxRequestsInFlightForNonHTTPProtocols`. -/
def maxRequestsInFlightForNonHTTPProtocols : Nat := 20

/-- `maxRequestsInFlightPerHost`, as `initializeMaximumHTTPConnectionCountPerHost` of Qt sets it. -/
def maxRequestsInFlightPerHost : Nat := 6 * (1 + 3 + 2)

/-- A call of `start` for a load that takes a place: the host and the priority it waited at. -/
structure StartedLoad (L : Type) where
  host : HostName
  priority : ResourceLoadPriority
  resourceLoader : L
deriving DecidableEq

/-- `ResourceLoadScheduler`, with `s_attachDepth` of `ContainerNode.cpp`, what it reads of the
    loaders, and the loads it has started. A host is stored under its name. -/
structure ResourceLoadScheduler (L : Type) where
  hosts : AList fun _ : StdString => HostInformation L
  nonHTTPProtocolHost : HostInformation L
  suspendPendingRequestsCount : Nat
  isSerialLoadingEnabled : Bool
  attachDepth : Nat
  /-- `ResourceLoader::url()`. -/
  url : L → KURL
  /-- The document of the loader is being parsed, or has style sheets to come. -/
  documentHolds : L → Bool
  started : List (StartedLoad L)
  named : ∀ name host, hosts.lookup name = some host → host.name = some name
  nonHTTPProtocolNamed : nonHTTPProtocolHost.name = none

inductive CreateHostPolicy where
  | createIfNotFound
  | findOnly
deriving DecidableEq

namespace ResourceLoadScheduler

variable {L : Type}

/-- `ResourceLoadScheduler()`. -/
def make (url : L → KURL) (documentHolds : L → Bool) : ResourceLoadScheduler L where
  hosts := ∅
  nonHTTPProtocolHost := .make none maxRequestsInFlightForNonHTTPProtocols
  suspendPendingRequestsCount := 0
  isSerialLoadingEnabled := false
  attachDepth := 0
  url := url
  documentHolds := documentHolds
  started := []
  named _ _ h := by simp at h
  nonHTTPProtocolNamed := rfl

/-- The host of a name, if there is one. -/
def hostNamed (s : ResourceLoadScheduler L) : HostName → Option (HostInformation L)
  | none => some s.nonHTTPProtocolHost
  | some name => s.hosts.lookup name

/-- The state after the object `host` has changed, or has been added to the map. -/
def setHost (s : ResourceLoadScheduler L) (host : HostInformation L) : ResourceLoadScheduler L :=
  match hname : host.name with
  | none => { s with nonHTTPProtocolHost := host, nonHTTPProtocolNamed := hname }
  | some name =>
    { s with
      hosts := s.hosts.insert name host
      named := by
        intro name' host' h
        by_cases hne : name' = name
        · subst hne
          rw [AList.lookup_insert] at h
          exact Option.some.inj h ▸ hname
        · rw [AList.lookup_insert_ne hne] at h
          exact s.named name' host' h }

/-- `delete m_hosts.take(name)`. -/
def deleteHost (s : ResourceLoadScheduler L) (name : StdString) : ResourceLoadScheduler L :=
  { s with
    hosts := s.hosts.erase name
    named := by
      intro name' host' h
      by_cases hne : name' = name
      · subst hne
        rw [AList.lookup_erase] at h
        exact absurd h (Option.some_ne_none _).symm
      · rw [AList.lookup_erase_ne hne] at h
        exact s.named name' host' h }

/-- `hostForURL(url, createHostPolicy)`; the pointer is null when there is no host. -/
def hostForURL (s : ResourceLoadScheduler L) (url : KURL) (createHostPolicy : CreateHostPolicy) :
    ResourceLoadScheduler L × Option (HostInformation L) :=
  if url.protocolIsInHTTPFamily then
    match s.hosts.lookup url.host, createHostPolicy with
    | none, .createIfNotFound =>
      let host := .make (some url.host) maxRequestsInFlightPerHost
      (s.setHost host, some host)
    | host, _ => (s, host)
  else (s, some s.nonHTTPProtocolHost)

/-- `shouldLimitRequests`: connections to named hosts are always limited, those of other
    protocols while the document is being loaded. -/
def shouldLimitRequests (s : ResourceLoadScheduler L) (host : HostInformation L)
    (resourceLoader : L) : Bool :=
  host.name.isSome || s.documentHolds resourceLoader

variable [DecidableEq L]

/-- The loop over the queue of a priority: the host, the loads that start, and whether it returns
    at a limit. -/
def servePriority (s : ResourceLoadScheduler L) (priority : ResourceLoadPriority) :
    List L → HostInformation L → HostInformation L × List (StartedLoad L) × Bool
  | [], host => (host, [], false)
  | resourceLoader :: pending, host =>
    if s.shouldLimitRequests host resourceLoader &&
        host.limitRequests s.isSerialLoadingEnabled priority then
      (host, [], true)
    else
      let (host', started, limited) := s.servePriority priority pending
        ((host.setPending priority pending).addLoadInProgress resourceLoader)
      (host', ⟨host.name, priority, resourceLoader⟩ :: started, limited)

/-- The loop over the priorities. -/
def servePriorities (s : ResourceLoadScheduler L) :
    List ResourceLoadPriority → HostInformation L → HostInformation L × List (StartedLoad L)
  | [], host => (host, [])
  | priority :: priorities, host =>
    let (host, started, limited) :=
      s.servePriority priority (host.requestsPending priority) host
    if limited then (host, started)
    else
      let (host, more) := s.servePriorities priorities host
      (host, started ++ more)

/-- `servePendingRequests(host, minimumPriority)`. -/
def serveHost (s : ResourceLoadScheduler L) (host : HostInformation L)
    (minimumPriority : ResourceLoadPriority) : ResourceLoadScheduler L :=
  let (host, started) := s.servePriorities minimumPriority.downTo host
  let s := s.setHost host
  { s with started := s.started ++ started }

/-- What `servePendingRequests` does with a named host: one without requests is deleted. -/
def serveNamed (minimumPriority : ResourceLoadPriority) (s : ResourceLoadScheduler L)
    (name : StdString) : ResourceLoadScheduler L :=
  match s.hosts.lookup name with
  | none => s
  | some host => if host.hasRequests then s.serveHost host minimumPriority else s.deleteHost name

/-- `servePendingRequests(minimumPriority)`. It stops at an `order` that is no order of the hosts
    of the map. -/
def servePendingRequests (s : ResourceLoadScheduler L) (order : List StdString)
    (minimumPriority : ResourceLoadPriority) : Option (ResourceLoadScheduler L) :=
  if s.suspendPendingRequestsCount = 0 then
    let s := s.serveHost s.nonHTTPProtocolHost minimumPriority
    if order.Perm s.hosts.keys then some (order.foldl (serveNamed minimumPriority) s) else none
  else some s

/-- `addMainResourceLoad(resourceLoader)`. -/
def addMainResourceLoad (s : ResourceLoadScheduler L) (resourceLoader : L) :
    Option (ResourceLoadScheduler L) :=
  let (s, host) := s.hostForURL (s.url resourceLoader) .createIfNotFound
  host.map fun host => s.setHost (host.addLoadInProgress resourceLoader)

/-- `scheduleLoad(resourceLoader, priority)`, where `archived` says that the archive of the
    document has the resource: such a load starts without a place. -/
def scheduleLoad (s : ResourceLoadScheduler L) (resourceLoader : L)
    (priority : ResourceLoadPriority) (archived : Bool) (order : List StdString) :
    Option (ResourceLoadScheduler L) :=
  if archived then some s
  else
    let (s, host) := s.hostForURL (s.url resourceLoader) .createIfNotFound
    host.bind fun host =>
      (s.setHost (host.schedule resourceLoader priority)).servePendingRequests order .veryLow

/-- `remove(resourceLoader)`. -/
def remove (s : ResourceLoadScheduler L) (resourceLoader : L) (order : List StdString) :
    Option (ResourceLoadScheduler L) :=
  let (s, host) := s.hostForURL (s.url resourceLoader) .findOnly
  let s := (host.map fun host => s.setHost (host.remove resourceLoader)).getD s
  s.servePendingRequests order .veryLow

/-- `crossOriginRedirectReceived(resourceLoader, redirectURL)`; the assertion is that the old host
    exists. -/
def crossOriginRedirectReceived (s : ResourceLoadScheduler L) (resourceLoader : L)
    (redirectURL : KURL) : Option (ResourceLoadScheduler L) :=
  let (s, oldHost) := s.hostForURL (s.url resourceLoader) .findOnly
  let (s, newHost) := s.hostForURL redirectURL .createIfNotFound
  oldHost.bind fun oldHost => newHost.map fun newHost =>
    if oldHost.name = newHost.name then s
    else (s.setHost (newHost.addLoadInProgress resourceLoader)).setHost
      (oldHost.remove resourceLoader)

/-- `suspendPendingRequests()`. -/
def suspendPendingRequests (s : ResourceLoadScheduler L) : ResourceLoadScheduler L :=
  { s with suspendPendingRequestsCount := s.suspendPendingRequestsCount + 1 }

/-- `resumePendingRequests()`, which asserts that the count is not zero. -/
def resumePendingRequests (s : ResourceLoadScheduler L) (order : List StdString) :
    Option (ResourceLoadScheduler L) :=
  if s.suspendPendingRequestsCount = 0 then none
  else
    let s := { s with suspendPendingRequestsCount := s.suspendPendingRequestsCount - 1 }
    if s.suspendPendingRequestsCount ≠ 0 then some s
    else if s.hosts.keys ≠ [] ∨ s.nonHTTPProtocolHost.hasRequests then
      s.servePendingRequests order .veryLow
    else some s

/-! ## Its clients -/

/-- `ContainerNode::suspendPostAttachCallbacks()`. -/
def suspendPostAttachCallbacks (s : ResourceLoadScheduler L) : ResourceLoadScheduler L :=
  let s := if s.attachDepth = 0 then s.suspendPendingRequests else s
  { s with attachDepth := s.attachDepth + 1 }

/-- `ContainerNode::resumePostAttachCallbacks()`, once the callbacks have been dispatched. Every
    call has its call of `suspendPostAttachCallbacks`. -/
def resumePostAttachCallbacks (s : ResourceLoadScheduler L) (order : List StdString) :
    Option (ResourceLoadScheduler L) :=
  if s.attachDepth = 0 then none
  else
    (if s.attachDepth = 1 then s.resumePendingRequests order else some s).map fun s =>
      { s with attachDepth := s.attachDepth - 1 }

/-- What happens to the scheduler. The URL of a loader is the one of its request. -/
inductive Label (L : Type) where
  /-- `scheduleSubresourceLoad` and `schedulePluginStreamLoad`. -/
  | scheduleLoad (resourceLoader : L) (url : KURL) (priority : ResourceLoadPriority)
      (archived : Bool) (order : List StdString)
  /-- `MainResourceLoader::loadNow`. -/
  | addMainResourceLoad (resourceLoader : L) (url : KURL)
  /-- `ResourceLoader::releaseResources`. -/
  | remove (resourceLoader : L) (order : List StdString)
  /-- `ResourceLoader::willSendRequest` with the response of a redirect. -/
  | redirect (resourceLoader : L) (url : KURL)
  | suspendPostAttachCallbacks
  | resumePostAttachCallbacks (order : List StdString)
  /-- `CachedResourceLoader::performPostLoadActions`. -/
  | servePendingRequests (order : List StdString)
  | setSerialLoadingEnabled (isSerialLoadingEnabled : Bool)
  /-- The documents of the loaders are parsed, and their style sheets loaded. -/
  | documents (documentHolds : L → Bool)

/-- `m_request` of a loader is set. -/
def setURL (s : ResourceLoadScheduler L) (resourceLoader : L) (url : KURL) :
    ResourceLoadScheduler L :=
  { s with url := Function.update s.url resourceLoader url }

/-- One step; it stops at a failed assertion. -/
def step (s : ResourceLoadScheduler L) : Label L → Option (ResourceLoadScheduler L)
  | .scheduleLoad resourceLoader url priority archived order =>
    (s.setURL resourceLoader url).scheduleLoad resourceLoader priority archived order
  | .addMainResourceLoad resourceLoader url =>
    (s.setURL resourceLoader url).addMainResourceLoad resourceLoader
  | .remove resourceLoader order => s.remove resourceLoader order
  | .redirect resourceLoader url =>
    (s.crossOriginRedirectReceived resourceLoader url).map (·.setURL resourceLoader url)
  | .suspendPostAttachCallbacks => some s.suspendPostAttachCallbacks
  | .resumePostAttachCallbacks order => s.resumePostAttachCallbacks order
  | .servePendingRequests order => s.servePendingRequests order .veryLow
  | .setSerialLoadingEnabled b => some { s with isSerialLoadingEnabled := b }
  | .documents documentHolds => some { s with documentHolds := documentHolds }

/-- The runs of the scheduler. -/
def system (url : L → KURL) (documentHolds : L → Bool) :
    Lts (ResourceLoadScheduler L) (Label L) where
  init s := s = make url documentHolds
  step s label s' := s.step label = some s'

/-! ## What its clients promise -/

/-- The loader has a place: it waits at a host, or is in progress there. -/
def holds (s : ResourceLoadScheduler L) (resourceLoader : L) : Bool :=
  (s.nonHTTPProtocolHost :: s.hosts.entries.map Sigma.snd).any fun host =>
    resourceLoader ∈ host.requestsLoading ||
      (ResourceLoadPriority.downTo .veryLow).any fun p => resourceLoader ∈ host.requestsPending p

/-- The loader is in progress. -/
def isLoading (s : ResourceLoadScheduler L) (resourceLoader : L) : Bool :=
  (s.nonHTTPProtocolHost :: s.hosts.entries.map Sigma.snd).any fun host =>
    resourceLoader ∈ host.requestsLoading

/-- A loader is given to the scheduler when it is new, and a redirect comes from its handle, which
    it gets when it starts and gives up when it is removed. -/
def Promised (s : ResourceLoadScheduler L) : Label L → Prop
  | .scheduleLoad resourceLoader _ _ _ _ => s.holds resourceLoader = false
  | .addMainResourceLoad resourceLoader _ => s.holds resourceLoader = false
  | .redirect resourceLoader _ => s.isLoading resourceLoader = true
  | _ => True

instance (s : ResourceLoadScheduler L) (label : Label L) : Decidable (s.Promised label) := by
  unfold Promised
  split <;> infer_instance

end ResourceLoadScheduler

end R4
