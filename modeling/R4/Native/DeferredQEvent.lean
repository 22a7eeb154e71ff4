import Mathlib.Algebra.Group.Int.Defs
import R4.ForStd.CString

/-!
# User events as text

`DeferredQEvent` (`qwebpage.cpp`): the mouse, context menu, wheel, key, focus and leave events
that a page defers, and the text in which such an event is the parameters of an event action.

An event of Qt is the values that its constructor takes. Its methods return these, except for
`QKeyEvent::modifiers()`, which Qt computes from the key and the modifiers of the event and which is
a parameter, `keyModifiers`. Enumerations and flags that are only cast to `int` and back are their
integers. The text of a key event is that of `toStdString`.
-/

namespace R4

open StdString

/-- `QPoint`. -/
structure QPoint where
  x : Int32
  y : Int32
deriving DecidableEq

/-- The types of a `QMouseEvent`. -/
inductive QMouseEventType where
  | mouseButtonPress
  | mouseButtonRelease
  | mouseButtonDblClick
  | mouseMove
deriving DecidableEq

/-- The types of a `QKeyEvent`. -/
inductive QKeyEventType where
  | keyPress
  | keyRelease
deriving DecidableEq

/-- The types of a `QFocusEvent`. -/
inductive QFocusEventType where
  | focusIn
  | focusOut
deriving DecidableEq

/-- `QEvent::Type`, as far as such events are deferred. -/
inductive QEventType where
  | mouse (type : QMouseEventType)
  | contextMenu
  | wheel
  | key (type : QKeyEventType)
  | focus (type : QFocusEventType)
  | leave
deriving DecidableEq

namespace QEventType

def toInt : QEventType → Int
  | mouse .mouseButtonPress => 2
  | mouse .mouseButtonRelease => 3
  | mouse .mouseButtonDblClick => 4
  | mouse .mouseMove => 5
  | key .keyPress => 6
  | key .keyRelease => 7
  | focus .focusIn => 8
  | focus .focusOut => 9
  | leave => 11
  | wheel => 31
  | contextMenu => 82

def ofInt? : Int → Option QEventType
  | 2 => some (mouse .mouseButtonPress)
  | 3 => some (mouse .mouseButtonRelease)
  | 4 => some (mouse .mouseButtonDblClick)
  | 5 => some (mouse .mouseMove)
  | 6 => some (key .keyPress)
  | 7 => some (key .keyRelease)
  | 8 => some (focus .focusIn)
  | 9 => some (focus .focusOut)
  | 11 => some leave
  | 31 => some wheel
  | 82 => some contextMenu
  | _ => none

/-- A type is read back from its number. -/
@[simp] theorem ofInt?_toInt (t : QEventType) : ofInt? t.toInt = some t := by
  rcases t with t | _ | _ | t | t | _ <;> try cases t
  all_goals rfl

end QEventType

/-- The event in a `DeferredQEvent`. -/
inductive DeferredQEvent where
  | mouse (type : QMouseEventType) (pos globalPos : QPoint) (button buttons modifiers : Int32)
  | contextMenu (reason : Int32) (pos globalPos : QPoint) (modifiers : Int32)
  | wheel (pos globalPos : QPoint) (delta buttons modifiers orientation : Int32)
  | key (type : QKeyEventType) (code modifiers : Int32) (text : StdString) (isAutoRepeat : Bool)
      (count : UInt16)
  | focus (type : QFocusEventType) (reason : Int32)
  | leave
deriving DecidableEq

namespace DeferredQEvent

def type : DeferredQEvent → QEventType
  | mouse type .. => .mouse type
  | contextMenu .. => .contextMenu
  | wheel .. => .wheel
  | key type .. => .key type
  | focus type _ => .focus type
  | leave => .leave

/-- `QKeyEvent::modifiers()` of Qt 4, where the key of a modifier toggles its flag. -/
def toggleOwnModifier (code modifiers : Int32) : Int32 :=
  if code = 0x01000020 then modifiers ^^^ 0x02000000      -- Key_Shift
  else if code = 0x01000021 then modifiers ^^^ 0x04000000 -- Key_Control
  else if code = 0x01000023 then modifiers ^^^ 0x08000000 -- Key_Alt
  else if code = 0x01000022 then modifiers ^^^ 0x10000000 -- Key_Meta
  else modifiers

variable (keyModifiers : Int32 → Int32 → Int32)

/-- `DeferredQEvent(const QEvent*)`: a new event is made of what the methods return. -/
def copy : DeferredQEvent → DeferredQEvent
  | key type code modifiers text isAutoRepeat count =>
    key type code (keyModifiers code modifiers) text isAutoRepeat count
  | e => e

/-- `out << n`. -/
def print (n : Int32) : StdString := decimalInt n.toInt

/-- `atoi(raw.c_str())` as an `int`. -/
def parse (raw : StdString) : Int32 := Int32.ofInt (atoi raw)

/-- The part of `serialize` that depends on the type. -/
def serializeFields : DeferredQEvent → StdString
  | mouse _ pos globalPos button buttons modifiers =>
    print pos.x ++ ',' :: (print pos.y ++ ',' ::
      (print globalPos.x ++ ',' :: (print globalPos.y ++ ',' ::
        (print button ++ ',' :: (print buttons ++ ',' :: print modifiers)))))
  | contextMenu reason pos globalPos modifiers =>
    print reason ++ ',' :: (print pos.x ++ ',' :: (print pos.y ++ ',' ::
      (print globalPos.x ++ ',' :: (print globalPos.y ++ ',' :: print modifiers))))
  | wheel pos globalPos delta buttons modifiers orientation =>
    print pos.x ++ ',' :: (print pos.y ++ ',' ::
      (print globalPos.x ++ ',' :: (print globalPos.y ++ ',' ::
        (print delta ++ ',' :: (print buttons ++ ',' ::
          (print modifiers ++ ',' :: print orientation))))))
  | key _ code modifiers text isAutoRepeat count =>
    -- a comma in the text is not escaped
    print code ++ ',' :: (print (keyModifiers code modifiers) ++ ',' :: (text ++ ',' ::
      (decimal isAutoRepeat.toNat ++ ',' :: decimal count.toNat)))
  | focus _ reason => print reason
  | leave => []

/-- `serialize`. -/
def serialize (e : DeferredQEvent) : StdString :=
  decimalInt e.type.toInt ++ ',' :: e.serializeFields keyModifiers

/-- `deserialize`; `none` is the crash at an unknown type. -/
def deserialize (raw : StdString) : Option DeferredQEvent :=
  let (eventTypeRaw, s) := getline ',' raw
  match QEventType.ofInt? (atoi eventTypeRaw) with
  | some (.mouse type) =>
    let (positionX, s) := getline ',' s
    let (positionY, s) := getline ',' s
    let (gPositionX, s) := getline ',' s
    let (gPositionY, s) := getline ',' s
    let (button, s) := getline ',' s
    let (buttons, s) := getline ',' s
    let (modifiers, _) := getline '\n' s
    some (.mouse type ⟨parse positionX, parse positionY⟩ ⟨parse gPositionX, parse gPositionY⟩
      (parse button) (parse buttons) (parse modifiers))
  | some .contextMenu =>
    let (reason, s) := getline ',' s
    let (positionX, s) := getline ',' s
    let (positionY, s) := getline ',' s
    let (gPositionX, s) := getline ',' s
    let (gPositionY, s) := getline ',' s
    let (modifiers, _) := getline '\n' s
    some (.contextMenu (parse reason) ⟨parse positionX, parse positionY⟩
      ⟨parse gPositionX, parse gPositionY⟩ (parse modifiers))
  | some .wheel =>
    let (positionX, s) := getline ',' s
    let (positionY, s) := getline ',' s
    let (gPositionX, s) := getline ',' s
    let (gPositionY, s) := getline ',' s
    let (delta, s) := getline ',' s
    let (buttons, s) := getline ',' s
    let (modifiers, s) := getline ',' s
    let (orientation, _) := getline '\n' s
    some (.wheel ⟨parse positionX, parse positionY⟩ ⟨parse gPositionX, parse gPositionY⟩
      (parse delta) (parse buttons) (parse modifiers) (parse orientation))
  | some (.key type) =>
    let (code, s) := getline ',' s
    let (modifiers, s) := getline ',' s
    let (text, s) := getline ',' s
    let (isAutoRepeat, s) := getline ',' s
    let (count, _) := getline '\n' s
    -- the constructor takes the count as a `ushort`
    some (.key type (parse code) (parse modifiers) text (atoi isAutoRepeat ≠ 0)
      (UInt16.ofNat (atoi count % 2 ^ 16).toNat))
  | some (.focus type) =>
    let (reason, _) := getline '\n' s
    some (.focus type (parse reason))
  | some .leave => some .leave
  | none => none

end DeferredQEvent

end R4
