import R4.Native.EventAttachLog
import R4.Native.WarningCollector

/-!
# Automatic exploration

`QWebFrame::runAutomaticExploration` (`WebKit/qt/Api/qwebframe.cpp`) triggers an event on a node
that has a handler for it, and records an event action that names the node by its replay
identifier (`Node::getNodeReplayIdentifier`, `dom/Node.cpp`). In a replay `autoEventProvider` looks
for the node with that identifier.

A node is known by its path in the document: the index of the child at each level. A failed
assertion and the use of a null pointer end the process: the functions that can run into one return
an `Option`. A string of WebKit is its characters, where a null string is `none`; surrogates that
stand alone, and a byte order mark at the front of a formatted string, which Qt drops, are left out.
-/

namespace R4

open StdString

/-- What the functions below read of a `Node`. -/
structure NodeData where
  isElementNode : Bool
  hasID : Bool
  idAttribute : Option StdString
  nodeName : Option StdString
  baseURI : Option StdString
deriving DecidableEq

/-- The children of a node: the first one, with its own children, and its siblings. -/
inductive DomForest where
  | nil
  | cons (node : NodeData) (children siblings : DomForest)

/-- A C string in a buffer: what stands before the first null character. -/
def cString (s : StdString) : StdString := s.takeWhile (· != '\x00')

/-- An argument `s.utf8().data()` of `String::format`, for `%s`. The bytes become characters of the
    result. -/
def formatArg (s : StdString) : StdString := Utf8.byteString (cString s)

/-- The UTF-16 units of a character. -/
def utf16 (c : Char) : List UInt16 :=
  if c.toNat < 0x10000 then [UInt16.ofNat c.toNat]
  else
    [UInt16.ofNat (0xd800 + (c.toNat - 0x10000) / 0x400),
      UInt16.ofNat (0xdc00 + (c.toNat - 0x10000) % 0x400)]

/-- `s.ascii().data()`. -/
def asciiText (s : StdString) : StdString := asciiData (s.flatMap utf16)

namespace NodeData

/-- `getNodeReplayIdentifier()`, with the identifier of the parent if there is one, and
    `nodeIndex()`. -/
def getNodeReplayIdentifier (node : NodeData) (parent : Option StdString) (nodeIndex : Nat) :
    StdString :=
  let uri := (node.baseURI.map formatArg).getD "-empty-".toList
  let name := (node.nodeName.map formatArg).getD []
  if node.isElementNode && node.hasID then
    uri ++ " @ ID=".toList ++ (node.idAttribute.map formatArg).getD []
  else
    match parent with
    | some parent => formatArg parent ++ '/' :: name ++ '[' :: decimal nodeIndex ++ [']']
    | none => uri ++ " @ ".toList ++ name ++ '[' :: decimal nodeIndex ++ [']']

end NodeData

/-- A node of the document, with its path and its replay identifier. -/
structure DomNode where
  path : List Nat
  node : NodeData
  identifier : StdString
deriving DecidableEq

/-- The nodes of a forest in document order, from the identifier and the path of the parent and the
    index of the first one. -/
def DomForest.walk (parent : StdString) (path : List Nat) :
    Nat → DomForest → List DomNode
  | _, nil => []
  | index, cons node children siblings =>
    let identifier := node.getNodeReplayIdentifier (some parent) index
    ⟨path ++ [index], node, identifier⟩ ::
      (children.walk identifier (path ++ [index]) 0 ++ siblings.walk parent path (index + 1))

/-- The first element of the forest: its index, the element and its children. -/
def DomForest.firstElement : Nat → DomForest → Option (Nat × NodeData × DomForest)
  | _, nil => none
  | index, cons node children siblings =>
    if node.isElementNode then some (index, node, children)
    else siblings.firstElement (index + 1)

/-- A document: the document node, and its children. -/
structure Page where
  document : NodeData
  children : DomForest

/-- A trigger of `triggerEventOnNode`: the type of the event, which is `none` for `EV_NUM_EVENTS`,
    and the target. -/
structure AutoTrigger where
  type : Option EventAttachType
  target : List Nat
deriving DecidableEq

namespace Page

/-- The replay identifier of the document node. -/
def identifier (page : Page) : StdString := page.document.getNodeReplayIdentifier none 0

/-- `documentElement()`. -/
def documentElement (page : Page) : Option (Nat × NodeData × DomForest) :=
  page.children.firstElement 0

/-- `findAllElements("*")`: the elements below the document element. -/
def findAllElements (page : Page) : List DomNode :=
  match page.documentElement with
  | none => []
  | some (index, node, children) =>
    (children.walk (node.getNodeReplayIdentifier (some page.identifier) index) [index] 0).filter
      fun n => n.node.isElementNode

/-- `findElement(nodeIdentifier)`. The document node is not an element; the document element stands
    for it. Without a document element a null pointer is used. -/
def findElement (page : Page) (nodeIdentifier : StdString) : Option (Option (List Nat)) :=
  match page.findAllElements.find? fun n => n.identifier = nodeIdentifier with
  | some n => some (some n.path)
  | none =>
    page.documentElement.map fun element =>
      if page.identifier = nodeIdentifier then some [element.1] else none

/-- The descriptor that is recorded. -/
def autoDescriptor (type : EventAttachType) (nodeIdentifier : StdString) : EventActionDescriptor :=
  .make .userInterface "AUTO".toList (type.name ++ ',' :: asciiText nodeIdentifier)

/-- `runAutomaticExploration()`, once a type and a node have been pulled: what is recorded, and
    what is triggered; nothing if the node is not found. -/
def runAutomaticExploration (page : Page) (type : EventAttachType) (nodeIdentifier : StdString) :
    Option (Option (EventActionDescriptor × AutoTrigger)) :=
  (page.findElement nodeIdentifier).map fun target =>
    target.map fun target => (autoDescriptor type nodeIdentifier, ⟨some type, target⟩)

/-- `autoEventProvider(object, descriptor)`: what is triggered. -/
def autoEventProvider (page : Page) (descriptor : EventActionDescriptor) :
    Option (Option AutoTrigger) :=
  (descriptor.getParameter 0).bind fun type =>
    (descriptor.getParameter 1).bind fun nodeIdentifier =>
      (page.findElement (cString nodeIdentifier)).map fun target =>
        target.map fun target => ⟨EventAttachType.ofName? (cString type), target⟩

end Page

end R4
