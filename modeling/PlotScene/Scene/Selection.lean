import PlotScene.Fault
import PlotScene.Value.Shape

/-!
# Selection

Clicks on an interactive legend select colors.  The document keeps the selection in a data source
that triggers change; here are these triggers, and the selection itself as a value that events
change.
-/

namespace PlotScene

/-! ## 1. Events -/

/-- A click beside everything, or a click on an entry of the legend. -/
inductive SelectionEvent where
  | clear
  | click (value : Value) (shift : Bool)

/-- Reads an event from the name of its kind. -/
def SelectionEvent.read (kind value : Value) (shift : Bool) : Except Fault SelectionEvent :=
  if kind.same (.str "clear") then .ok .clear
  else if kind.same (.str "click") then .ok (.click value shift)
  else .error (.unknownEvent kind.text)

/-- The selected values, in the order in which they were added. -/
structure Selection where
  selected : List Value := []

namespace Selection

def contains (s : Selection) (v : Value) : Bool :=
  s.selected.any (Value.same v)

/-- A plain click selects one value alone; a click with shift adds a value or takes it away. -/
def apply (s : Selection) : SelectionEvent → Selection
  | .clear => {}
  | .click v false => ⟨[v]⟩
  | .click v true =>
      if s.contains v then ⟨s.selected.filter fun w => !w.same v⟩ else ⟨s.selected ++ [v]⟩

/-- The selection after a run of events. -/
def run (s : Selection) (events : List SelectionEvent) : Selection :=
  events.foldl apply s

/-- Without a selection everything stands out. -/
def highlights (s : Selection) (v : Value) : Bool :=
  s.selected.isEmpty || s.contains v

end Selection

/-- The opacity of what stands out, and of everything else. -/
def activeOpacity : Float := 0.7

def inactiveOpacity : Float := 0.15

def Selection.opacity (s : Selection) (v : Value) : Float :=
  if s.highlights v then activeOpacity else inactiveOpacity

/-! ## 2. Triggers -/

/-- When a trigger acts: on a click beside everything, on any click without shift, and on a click on
an entry of the legend without and with shift. -/
inductive TriggerTest where
  | clear
  | plain
  | plainClick
  | shiftClick
deriving DecidableEq, Repr

def TriggerTest.text : TriggerTest → String
  | .clear => "clear"
  | .plain => "!shift"
  | .plainClick => "!shift && clicked"
  | .shiftClick => "shift && clicked"

/-- What a trigger does: empty the source, add the clicked value, or take it away where it is there
and add it where it is not. -/
inductive TriggerAction where
  | removeAll
  | insertClicked
  | toggleClicked
deriving DecidableEq, Repr

def TriggerAction.field : TriggerAction → String × Value
  | .removeAll => ("remove", .bool true)
  | .insertClicked => ("insert", .str "clicked")
  | .toggleClicked => ("toggle", .str "clicked")

structure Trigger where
  test : TriggerTest
  action : TriggerAction
deriving DecidableEq, Repr

def Trigger.toValue (t : Trigger) : Value :=
  .obj [("trigger", .str t.test.text), t.action.field]

/-- The triggers of the selection, in the order in which they act. -/
def selectionTriggers : List Trigger :=
  [⟨.clear, .removeAll⟩, ⟨.plain, .removeAll⟩, ⟨.plainClick, .insertClicked⟩,
   ⟨.shiftClick, .toggleClicked⟩]

def selectedName : String := "selected"

/-- The data source that holds the selection. -/
def selectionSource : Value :=
  .obj [("name", .str selectedName), ("on", .list (selectionTriggers.map Trigger.toValue))]

end PlotScene
