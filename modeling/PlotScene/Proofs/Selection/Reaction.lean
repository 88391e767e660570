import PlotScene.Proofs.Scene.Highlight
import PlotScene.Proofs.Selection.Expression
import PlotScene.Scene.Legend

/-!
# What the triggers of the selection do

A renderer keeps the values of the signals and the rows of the selection.  An event sets the signals
whose stream it reaches, then the triggers that mention one of these act on the rows in their order,
as far as their conditions hold.  Run over any events, the rows are those of the selection as a
value, and the rules of the marks show it.
-/

namespace PlotScene

open Reference

/-! ## 1. Events, signals and triggers in a renderer -/

def Value.textOf? : Value → Option String
  | .scalar (.str s) => some s
  | _ => none

/-- The expression that stands as a text under a key. -/
def Expression.under? (v : Value) (key : String) : Option Expression :=
  (v.getD key).textOf?.bind Expression.read

namespace SelectionEvent

/-- The stream that an event belongs to. -/
def stream : SelectionEvent → String
  | .clear => "pointerup[!event.item]"
  | .click _ _ => "@legendSymbol:click, @legendLabel:click"

/-- The event itself and the entry of the legend that was clicked. -/
def subject : SelectionEvent → String → Value
  | .click _ shift, "event" => .obj [("shiftKey", .bool shift)]
  | .click value _, "datum" => .obj [("value", value)]
  | _, _ => .null

end SelectionEvent

namespace Reaction

/-- The signals of a document and the rows of its selection. -/
structure State where
  signal : String → Value
  rows : List Value

/-- What an expression sees: the data of the source are its rows. -/
def State.scope (r : State) (source : Value) (subject : String → Value) : Expression.Scope where
  signal := r.signal
  subject := subject
  rows name := if (source.getD "name").same (.str name) then r.rows else []

/-- What an entry of a signal that listens to the stream sets it to.  A value that the signal has is
no change, unless it is forced. -/
def change? (scope : Expression.Scope) (name : String) (on : Value) :
    Option (List (String × Value)) := do
  let value := (← Expression.under? on "update").eval scope
  let forced := (on.getD "force").same (.bool true)
  return if forced || !value.same (scope.signal name) then [(name, value)] else []

/-- What a signal changes to when something happens in a stream. -/
def signalChanges (scope : Expression.Scope) (stream : String) (signal : Value) :
    Option (List (String × Value)) := do
  let name ← (signal.getD "name").textOf?
  let listening := (parts signal "on").filter fun on => (on.getD "events").same (.str stream)
  return (← listening.mapM (change? scope name)).flatten

/-- The signals that change when something happens in a stream, with their new values. -/
def changes (scope : Expression.Scope) (stream : String) (signals : List Value) :
    Option (List (String × Value)) :=
  (signals.mapM (signalChanges scope stream)).map List.flatten

/-- Takes the rows away that are the same as this one, or adds it where there is none. -/
def toggled (row : Value) (rows : List Value) : List Value :=
  if rows.any row.same then rows.filter fun r => !r.same row else rows ++ [row]

/-- What a trigger does to the rows: empty them, add a row, take a row away or add it. -/
def act (scope : Expression.Scope) (trigger : Value) (rows : List Value) : Option (List Value) := do
  let rows := if (trigger.getD "remove").same (.bool true) then [] else rows
  let rows ← match trigger.get? "insert" with
    | some _ => do pure (rows ++ [(← Expression.under? trigger "insert").eval scope])
    | none => pure rows
  match trigger.get? "toggle" with
  | some _ => do pure (toggled ((← Expression.under? trigger "toggle").eval scope) rows)
  | none => pure rows

/-- The triggers that mention a changed signal act on the rows one after the other, as far as their
conditions hold. -/
def react (scope : Expression.Scope) (changed : List String) :
    List Value → List Value → Option (List Value)
  | [], rows => some rows
  | trigger :: rest, rows => do
      let condition ← Expression.under? trigger "trigger"
      if condition.mentions changed && Expression.holds (condition.eval scope) then
        react scope changed rest (← act scope trigger rows)
      else react scope changed rest rows

/-- The reaction to an event. -/
def step (signals : List Value) (source : Value) (r : State) (e : SelectionEvent) :
    Option State := do
  let changed ← changes (r.scope source e.subject) e.stream signals
  let after : State := { r with signal := fun name => (changed.lookup name).getD (r.signal name) }
  let rows ← react (after.scope source e.subject) (changed.map Prod.fst) (parts source "on") r.rows
  return { after with rows := rows }

/-- The reactions to a run of events. -/
def run (signals : List Value) (source : Value) (r : State) (es : List SelectionEvent) :
    Option State :=
  es.foldlM (step signals source) r

/-- The state in which a document begins. -/
def initial (signals : List Value) (source : Value) : State where
  signal name :=
    ((signals.find? fun signal => (signal.getD "name").same (.str name)).bind
      (·.get? "value")).getD .null
  rows := parts source "values"

end Reaction

/-! ## 2. The texts of the legend -/

def TriggerTest.condition : TriggerTest → Expression
  | .clear => .signal "clear"
  | .plain => .not (.signal "shift")
  | .plainClick => .and (.not (.signal "shift")) (.signal "clicked")
  | .shiftClick => .and (.signal "shift") (.signal "clicked")

theorem TriggerTest.read_text (t : TriggerTest) : Expression.read t.text = some t.condition := by
  cases t <;> decide +kernel

theorem read_clicked : Expression.read "clicked" = some (.signal "clicked") := by decide +kernel

theorem read_true : Expression.read "true" = some (.literal true) := by decide +kernel

theorem read_shiftKey : Expression.read "event.shiftKey" = some (.field "event" "shiftKey") := by
  decide +kernel

theorem read_record : Expression.read "\x7bvalue: datum.value\x7d" =
    some (.record "value" (.field "datum" "value")) := by decide +kernel

/-- The test whether nothing is selected, or the color of the row is. -/
def colorSelected : Expression :=
  .or (.not (.length (.data "selected"))) (.indata "selected" "value" (.field "datum" "color"))

theorem read_markTest : Expression.read Highlight.markTest = some colorSelected := by
  decide +kernel

/-! ## 3. One event -/

/-- The row of a selected value. -/
def selectedRow (v : Value) : Value := .obj [("value", v)]

theorem same_selectedRow (v w : Value) : (selectedRow v).same (selectedRow w) = v.same w := by
  simp [selectedRow, Value.obj, Value.same, Value.sameEntries, Entries.lookup?]

/-- What an event does to the signals of an interactive legend. -/
def SelectionEvent.effect : SelectionEvent → List (String × Value)
  | .clear => [("clear", .bool true)]
  | .click v shift => [("shift", .bool shift), ("clicked", selectedRow v)]

/-- What the action of a trigger does with the clicked row. -/
def TriggerAction.act (clicked : Value) (rows : List Value) : TriggerAction → List Value
  | .removeAll => []
  | .insertClicked => rows ++ [clicked]
  | .toggleClicked => Reaction.toggled clicked rows

namespace Reaction

theorem toggled_map (v : Value) (vs : List Value) : toggled (selectedRow v) (vs.map selectedRow) =
    (if vs.any v.same then vs.filter fun w => !w.same v else vs ++ [v]).map selectedRow := by
  have hany : (vs.map selectedRow).any (selectedRow v).same = vs.any v.same := by
    rw [List.any_map]
    exact congrArg vs.any (funext fun w => same_selectedRow v w)
  have hfilter : (vs.map selectedRow).filter (fun r => !r.same (selectedRow v)) =
      (vs.filter fun w => !w.same v).map selectedRow := by
    rw [List.filter_map]
    congr 2
    exact funext fun w => congrArg Bool.not (same_selectedRow w v)
  rw [toggled, hany, hfilter]
  split
  · rfl
  · rw [List.map_append, List.map_singleton]

theorem act_toValue (scope : Expression.Scope) (t : Trigger) (rows : List Value) :
    act scope t.toValue rows = some (t.action.act (scope.signal "clicked") rows) := by
  obtain ⟨test, action⟩ := t
  cases action with
  | removeAll => rfl
  | insertClicked =>
    have hinsert : Expression.under? (Trigger.toValue ⟨test, .insertClicked⟩) "insert" =
        some (.signal "clicked") := read_clicked
    have hgiven : (Trigger.toValue ⟨test, .insertClicked⟩).get? "insert" =
        some (.str "clicked") := rfl
    rw [act, hgiven, hinsert]
    rfl
  | toggleClicked =>
    have htoggle : Expression.under? (Trigger.toValue ⟨test, .toggleClicked⟩) "toggle" =
        some (.signal "clicked") := read_clicked
    have hgiven : (Trigger.toValue ⟨test, .toggleClicked⟩).get? "toggle" =
        some (.str "clicked") := rfl
    rw [act, hgiven, htoggle]
    rfl

/-- The triggers act one after the other, each where its condition mentions a changed signal and
holds. -/
theorem react_triggers (scope : Expression.Scope) (changed : List String) (ts : List Trigger)
    (rows : List Value) : react scope changed (ts.map Trigger.toValue) rows =
      some (ts.foldl (fun rows t =>
        if t.test.condition.mentions changed && Expression.holds (t.test.condition.eval scope)
        then t.action.act (scope.signal "clicked") rows else rows) rows) := by
  induction ts generalizing rows with
  | nil => rfl
  | cons t ts ih =>
    have hread : Expression.under? t.toValue "trigger" = some t.test.condition := t.test.read_text
    rw [List.map_cons, react, hread, List.foldl_cons]
    show (if _ then _ else _) = _
    split
    · rw [act_toValue]
      exact ih _
    · exact ih _

-- A forced signal changes whenever something happens in its stream.
theorem change?_forced {scope : Expression.Scope} {name events update : String} {e : Expression}
    (h : Expression.read update = some e) :
    change? scope name (.obj [("events", .str events), ("update", .str update),
      ("force", .bool true)]) = some [(name, e.eval scope)] := by
  have hread : Expression.under? (.obj [("events", .str events), ("update", .str update),
      ("force", .bool true)]) "update" = some e := h
  rw [change?, hread]
  rfl

theorem signalChanges_signal {scope : Expression.Scope} {stream name events update : String}
    {value : Value} {e : Expression} (h : Expression.read update = some e) :
    signalChanges scope stream (Legend.signal name value events update) =
      some (if events = stream then [(name, e.eval scope)] else []) := by
  have hname : ((Legend.signal name value events update).getD "name").textOf? = some name := rfl
  have hon : parts (Legend.signal name value events update) "on" =
      [.obj [("events", .str events), ("update", .str update), ("force", .bool true)]] := rfl
  have hevents : ((Value.obj [("events", .str events), ("update", .str update),
      ("force", .bool true)]).getD "events").same (.str stream) = (events == stream) := rfl
  rw [signalChanges, hname, hon]
  by_cases heq : events = stream
  · rw [List.filter_cons_of_pos (by rw [hevents, beq_iff_eq]; exact heq), if_pos heq]
    show (do pure (← [_].mapM (change? scope name)).flatten) = _
    rw [List.mapM_cons, change?_forced h]
    rfl
  · rw [List.filter_cons_of_neg (by rw [hevents, beq_iff_eq]; exact heq), if_neg heq]
    rfl

theorem changes_signals (scope : Expression.Scope) (e : SelectionEvent)
    (h : scope.subject = e.subject) : changes scope e.stream Legend.signals = some e.effect := by
  rw [changes, Legend.signals, List.mapM_cons, List.mapM_cons, List.mapM_cons, List.mapM_nil,
    signalChanges_signal read_true, signalChanges_signal read_shiftKey,
    signalChanges_signal read_record]
  cases e with
  | clear => rfl
  | click v shift =>
    have hshift : (Expression.field "event" "shiftKey").eval scope = .bool shift := by
      rw [Expression.eval, h]
      rfl
    have hclicked : (Expression.record "value" (.field "datum" "value")).eval scope =
        selectedRow v := by
      rw [Expression.eval, Expression.eval, h]
      rfl
    rw [hshift, hclicked]
    rfl

/-- The rows of a state are those of a selection, in its order. -/
def Shows (r : State) (sel : Selection) : Prop :=
  r.rows = sel.selected.map selectedRow

/-- Every event does to the rows what it does to the selection. -/
theorem step_shows {r : State} {sel : Selection} (h : Shows r sel) (e : SelectionEvent) :
    ∃ r', step Legend.signals selectionSource r e = some r' ∧ Shows r' (sel.apply e) := by
  rw [step, changes_signals _ e rfl]
  show ∃ r', (do
    let rows ← react _ _ (selectionTriggers.map Trigger.toValue) r.rows
    return { signal := _, rows := rows : State }) = some r' ∧ _
  rw [react_triggers]
  refine ⟨_, rfl, ?_⟩
  -- Which triggers act is known for each kind of event: the first, the two after it, or the last.
  cases e with
  | clear => rfl
  | click v shift =>
    cases shift with
    | false => rfl
    | true =>
      show toggled (selectedRow v) r.rows = _
      rw [h, toggled_map, Selection.apply, Selection.contains]
      split <;> rfl

/-- Over any run of events the rows are those of the selection. -/
theorem run_shows {r : State} {sel : Selection} (h : Shows r sel) (es : List SelectionEvent) :
    ∃ r', run Legend.signals selectionSource r es = some r' ∧ Shows r' (sel.run es) := by
  induction es generalizing r sel with
  | nil => exact ⟨r, rfl, h⟩
  | cons e es ih =>
    obtain ⟨next, hnext, hshows⟩ := step_shows h e
    obtain ⟨r', hr', hrest⟩ := ih hshows
    refine ⟨r', ?_, hrest⟩
    rw [run, List.foldlM_cons, hnext]
    exact hr'

/-! ## 4. Marks -/

/-- The first entry of a rule whose test holds; an entry without a test always applies. -/
def applied? (scope : Expression.Scope) : List Value → Option Value
  | [] => none
  | entry :: rest =>
      match entry.get? "test" with
      | none => some entry
      | some test => do
          let e ← test.textOf?.bind Expression.read
          if Expression.holds (e.eval scope) then return entry else applied? scope rest

theorem applied?_cons {scope : Expression.Scope} {entry : Value} {rest : List Value}
    {test : String} {e : Expression} (htest : entry.get? "test" = some (.str test))
    (hread : Expression.read test = some e) : applied? scope (entry :: rest) =
      if Expression.holds (e.eval scope) then some entry else applied? scope rest := by
  have hbind : (Value.str test).textOf?.bind Expression.read = some e := hread
  rw [applied?, htest]
  simp only [hbind]
  rfl

/-- A mark sees the row that it draws. -/
def rowSubject (datum : Value) : String → Value
  | "datum" => datum
  | _ => .null

/-- The test of the marks holds where the selection lets the color of the row stand out. -/
theorem holds_colorSelected {r : State} {sel : Selection} (h : Shows r sel) (datum : Value) :
    Expression.holds (colorSelected.eval (r.scope selectionSource (rowSubject datum))) =
      sel.highlights (datum.getD "color") := by
  generalize hscope : r.scope selectionSource (rowSubject datum) = scope
  have hrows : scope.rows "selected" = sel.selected.map selectedRow := by
    rw [← hscope]
    exact h
  have hcolor : (Expression.field "datum" "color").eval scope = datum.getD "color" := by
    rw [← hscope]
    rfl
  have hempty : (Expression.not (.length (.data "selected"))).eval scope =
      .bool sel.selected.isEmpty := by
    rw [Expression.eval, Expression.eval, Expression.eval, hrows]
    cases sel.selected with
    | nil => rfl
    | cons v vs =>
      have hne : (((v :: vs).map selectedRow).length : Int) ≠ 0 := by
        rw [List.map_cons, List.length_cons]
        omega
      simpa [Expression.holds] using hne
  have hindata : (Expression.indata "selected" "value" (.field "datum" "color")).eval scope =
      .bool (sel.contains (datum.getD "color")) := by
    rw [Expression.eval, hrows, hcolor, List.any_map]
    rfl
  rw [colorSelected, Expression.eval, hempty, hindata, Selection.highlights]
  cases sel.selected.isEmpty <;> rfl

theorem applied?_opacityRule {r : State} {sel : Selection} (h : Shows r sel) (datum : Value) :
    ∃ entry, applied? (r.scope selectionSource (rowSubject datum)) Highlight.opacityRule.items =
      some entry ∧ entry.get? "value" = some (.float (sel.opacity (datum.getD "color"))) := by
  have hholds := holds_colorSelected h datum
  generalize r.scope selectionSource (rowSubject datum) = scope at hholds
  rw [Highlight.opacityRule, Highlight.rule, Value.items, applied?_cons rfl read_markTest, hholds,
    Selection.opacity]
  split
  · exact ⟨_, rfl, rfl⟩
  · exact ⟨_, rfl, rfl⟩

end Reaction

/-- A renderer that reads the signals and the source of the selection keeps, after any clicks, the
rows of the values that the selection holds, in the same order; and every mark that shows the color
scale has a rule for its opacity, which gives a row the opacity that the selection has for its
color. -/
theorem selection_refines (es : List SelectionEvent) :
    ∃ r, Reaction.run Legend.signals selectionSource
        (Reaction.initial Legend.signals selectionSource) es = some r ∧
      r.rows.map (·.getD "value") = (Selection.run {} es).selected ∧
      ∀ neutral marks marks', Highlight.marks neutral marks = .ok marks' →
        ∀ as m, MarkAt marks' as m →
          Highlight.coloredChannels ((m.getD "encode").getD "enter") ≠ [] →
          ∃ rule, ((m.getD "encode").getD "update").get? "opacity" = some (.list rule) ∧
            ∀ datum, ∃ entry,
              Reaction.applied? (r.scope selectionSource (Reaction.rowSubject datum)) rule =
                some entry ∧
              entry.get? "value" =
                some (.float ((Selection.run {} es).opacity (datum.getD "color"))) := by
  have hinitial : Reaction.Shows (Reaction.initial Legend.signals selectionSource) {} := rfl
  obtain ⟨r, hr, hshows⟩ := Reaction.run_shows hinitial es
  refine ⟨r, hr, ?_, fun neutral marks marks' hmarks as m hm hne => ?_⟩
  · rw [hshows, List.map_map]
    exact List.map_id _
  · obtain ⟨v, hv⟩ := Highlight.exists_mark_of_markAt hmarks hm
    exact ⟨_, Highlight.get?_opacity hv hne, Reaction.applied?_opacityRule hshows⟩

/-- Points that are filled through the color scale. -/
def coloredPoints : Value :=
  .obj [("name", .str "points"), ("encode", .obj [("enter", .obj [
    ("fill", .obj [("scale", .str "color"), ("field", .str "color")])])])]

-- A click on one entry and a click with shift on another one let a third one fade.
theorem selection_refines_twoClicks : ∃ r marks' m rule entry,
    Reaction.run Legend.signals selectionSource
      (Reaction.initial Legend.signals selectionSource)
      [.click (.str "a") false, .click (.str "b") true] = some r ∧
    r.rows.map (·.getD "value") = [.str "a", .str "b"] ∧
    Highlight.marks "#ccc" [coloredPoints] = .ok marks' ∧ m ∈ marks' ∧
    ((m.getD "encode").getD "update").get? "opacity" = some (.list rule) ∧
    Reaction.applied? (r.scope selectionSource
      (Reaction.rowSubject (.obj [("color", .str "c")]))) rule = some entry ∧
    entry.get? "value" = some (.float inactiveOpacity) := by
  obtain ⟨r, hr, hrows, hmarks⟩ :=
    selection_refines [.click (.str "a") false, .click (.str "b") true]
  obtain ⟨rule, hrule, happlied⟩ := hmarks "#ccc" [coloredPoints] _ rfl [] _
    (MarkAt.top List.mem_cons_self) (by decide)
  obtain ⟨entry, hentry, hvalue⟩ := happlied (.obj [("color", .str "c")])
  exact ⟨r, _, _, rule, entry, hr, hrows, rfl, List.mem_cons_self, hrule, hentry, hvalue⟩

end PlotScene
