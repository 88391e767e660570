import PlotScene.Proofs.Plot.Strict
import PlotScene.Proofs.Plot.Table

/-!
# The table holds the valid observations

The columns of a plot are read across: an observation is what they say at one place.  The rows of
the table are the observations that can be drawn, in their order, and each row is written from its
observation alone.
-/

namespace PlotScene

/-! ## 1. Observations -/

/-- What the columns of a plot say of one observation; a column that does not count says nothing. -/
structure Observation where
  x : Value
  y : Option Value := none
  color : Option Value := none
  ymin : Option Value := none
  ymax : Option Value := none

namespace Value

/-- Whether an entry has a place on an axis: a finite number on a numeric one, and any entry that is
not missing on one of categories. -/
def isDrawable (numeric : Bool) (v : Value) : Bool :=
  if numeric then
    match v with
    | .int _ => true
    | .float x => x.isFinite
    | _ => false
  else !v.isMissing

/-- An entry of an axis in a row: a number as it is, a category as its label. -/
def onAxis (numeric : Bool) (v : Value) : Value :=
  if numeric then v else .str v.label

/-- A bound of an interval in a row: null where the number is not finite. -/
def finiteOrNull : Value → Value
  | .float x => if x.isFinite then .float x else null
  | v => v

end Value

namespace Plot

/-- The entry of a column at an observation.  A column counts if it has an entry for each one. -/
def entry? (p : Plot) (column : List Value) (i : Nat) : Option Value :=
  if column.length = p.aesthetics.x.length then column[i]? else none

/-- The observation with this number, which has the entry `x` along x. -/
def observation (p : Plot) (i : Nat) (x : Value) : Observation where
  x := x
  y := p.entry? p.aesthetics.y i
  color := if p.grouped then p.aesthetics.color.bind (p.entry? · i) else none
  ymin := p.aesthetics.ymin.bind (p.entry? · i)
  ymax := p.aesthetics.ymax.bind (p.entry? · i)

def observations (p : Plot) : List Observation :=
  p.aesthetics.x.mapIdx p.observation

/-- An observation is valid if it has a place on both axes and its color is not missing. -/
def isValid (p : Plot) (o : Observation) : Bool :=
  o.x.isDrawable p.xNumeric && o.y.all (Value.isDrawable p.yNumeric) &&
    o.color.all fun v => !v.isMissing

/-- The row of an observation. -/
def row (p : Plot) (o : Observation) : Value :=
  .obj (("x", o.x.onAxis p.xNumeric) ::
    ((o.y.map fun v => ("y", v.onAxis p.yNumeric)).toList ++
      (o.color.map fun v => ("color", .str v.label)).toList ++
      (o.ymin.map fun v => ("ymin", v.finiteOrNull)).toList ++
      (o.ymax.map fun v => ("ymax", v.finiteOrNull)).toList))

/-- Whether a column counts. -/
def hasColumn (p : Plot) (column : Option (List Value)) : Bool :=
  column.any fun vs => vs.length == p.aesthetics.x.length

/-- The keys of every row. -/
def tableKeys (p : Plot) : List String :=
  "x" :: ((if p.hasColumn (some p.aesthetics.y) then ["y"] else []) ++
    (if p.grouped && p.hasColumn p.aesthetics.color then ["color"] else []) ++
    (if p.hasColumn p.aesthetics.ymin then ["ymin"] else []) ++
    (if p.hasColumn p.aesthetics.ymax then ["ymax"] else []))

end Plot

namespace Table

/-! ## 2. Cells -/

/-- The cell of an entry that is kept where `ok` holds of it. -/
def cellOf (ok : Value → Bool) (write : Value → Value) (v : Value) : Option Value :=
  if ok v then some (write v) else none

/-- The cell of an axis, which is there where the entry has a place on it. -/
def axisCell (numeric : Bool) (v : Value) : Option Value :=
  cellOf (Value.isDrawable numeric) (Value.onAxis numeric) v

-- Only an integer needs to be within the range; whatever is no number has no cell.
theorem numberCell_eq {v : Value} (h : v.InRange) : numberCell v = .ok (axisCell true v) := by
  match v with
  | .int n =>
    obtain ⟨x, hx⟩ := Option.isSome_iff_exists.mp (Value.inRange_scalar.mp h)
    rw [numberCell, hx]
    rfl
  | .null | .bool _ | .float _ | .str _ => rfl
  | .list _ | .map _ | .array _ _ | .column _ => rfl

theorem labelCell_eq (v : Value) : labelCell v = axisCell false v := by
  cases h : v.isMissing <;> simp [labelCell, axisCell, cellOf, Value.isDrawable, Value.onAxis, h]

theorem axisCells_eq {vs : List Value} (h : ∀ v ∈ vs, v.InRange) :
    axisCells vs = .ok (vs.map (axisCell (Value.allNumeric vs))) := by
  rw [axisCells]
  split
  next hnumeric =>
    rw [hnumeric]
    exact mapM_eq_ok_map fun v hv => numberCell_eq (h v hv)
  next hnumeric =>
    rw [Bool.not_eq_true] at hnumeric
    rw [Value.requireLabels_eq_ok.mpr (Value.haveLabels_of_inRange h), ok_bind, hnumeric,
      List.map_congr_left fun v _ => labelCell_eq v]
    rfl

/-! ## 3. Columns -/

/-- The column of this name, if there is an entry for each observation. -/
def columnOf (p : Plot) (name : String) (column : Option (List Value)) (ok : Value → Bool)
    (write : Value → Value) : List Column :=
  ((fitting p.aesthetics.x.length column).map fun vs => ⟨name, vs.map (cellOf ok write)⟩).toList

theorem plainCells_eq {vs : List Value} (h : AllScalars vs) :
    plainCells vs = vs.map (cellOf (fun _ => true) Value.finiteOrNull) := by
  apply List.map_congr_left
  intro v hv
  obtain ⟨s, rfl⟩ := h v hv
  cases s with
  | float x =>
    rw [cellOf, if_pos rfl, Value.finiteOrNull, Value.plain, Scalar.plain]
    split <;> rfl
  | _ => rfl

theorem bounds_eq {p : Plot} {column : Option (List Value)} {name : String}
    (h : ∀ vs, column = some vs → AllScalars vs) :
    ((fitting p.aesthetics.x.length column).map fun vs =>
        (⟨name, plainCells vs⟩ : Column)).toList =
      columnOf p name column (fun _ => true) Value.finiteOrNull := by
  cases hfit : fitting p.aesthetics.x.length column with
  | none => rw [columnOf, hfit]; rfl
  | some vs =>
    rw [columnOf, hfit, Option.map_some, plainCells_eq (h vs (Option.filter_eq_some_iff.mp hfit).1)]
    rfl

-- A color counts only where the observations are grouped.
theorem filter_fitting (p : Plot) :
    (fitting p.aesthetics.x.length p.aesthetics.color).filter (fun _ => p.grouped) =
      fitting p.aesthetics.x.length (if p.grouped then p.aesthetics.color else none) := by
  cases p.grouped with
  | true =>
    rw [if_pos rfl]
    cases fitting p.aesthetics.x.length p.aesthetics.color <;> rfl
  | false =>
    rw [if_neg Bool.false_ne_true]
    cases fitting p.aesthetics.x.length p.aesthetics.color <;> rfl

/-- The columns of a plot, each with a cell for every entry that it keeps. -/
def keptColumns (p : Plot) : List Column :=
  columnOf p "x" (some p.aesthetics.x) (Value.isDrawable p.xNumeric) (Value.onAxis p.xNumeric) ++
    (columnOf p "y" (some p.aesthetics.y) (Value.isDrawable p.yNumeric)
        (Value.onAxis p.yNumeric) ++
      columnOf p "color" (if p.grouped then p.aesthetics.color else none)
        (fun v => !v.isMissing) (fun v => .str v.label) ++
      columnOf p "ymin" p.aesthetics.ymin (fun _ => true) Value.finiteOrNull ++
      columnOf p "ymax" p.aesthetics.ymax (fun _ => true) Value.finiteOrNull)

theorem columns_eq {p : Plot} (hx : ∀ v ∈ p.aesthetics.x, v.InRange)
    (hy : ∀ v ∈ p.aesthetics.y, v.InRange)
    (hmin : ∀ vs, p.aesthetics.ymin = some vs → AllScalars vs)
    (hmax : ∀ vs, p.aesthetics.ymax = some vs → AllScalars vs) :
    columns p = .ok (keptColumns p) := by
  have hycells : (fitting p.aesthetics.x.length (some p.aesthetics.y)).mapM axisCells =
      .ok ((fitting p.aesthetics.x.length (some p.aesthetics.y)).map fun vs =>
        vs.map (axisCell p.yNumeric)) := by
    rw [fitting, Option.filter_some]
    split
    · rw [Option.mapM_some, axisCells_eq hy]
      rfl
    · rfl
  have hlabels : labelCell = cellOf (fun v => !v.isMissing) (fun v => .str v.label) :=
    funext labelCell_eq
  have hxcolumn : columnOf p "x" (some p.aesthetics.x) (Value.isDrawable p.xNumeric)
      (Value.onAxis p.xNumeric) = [⟨"x", p.aesthetics.x.map (axisCell p.xNumeric)⟩] := by
    rw [columnOf, fitting_some rfl]
    rfl
  rw [columns, axisCells_eq hx, ok_bind, hycells, ok_bind, filter_fitting, hlabels,
    bounds_eq hmin, bounds_eq hmax, Option.map_map, keptColumns, hxcolumn]
  rfl

/-! ## 4. Rows -/

theorem cell?_of_getElem? {vs : List Value} {v : Value} {i : Nat} (h : vs[i]? = some v)
    (name : String) (ok : Value → Bool) (write : Value → Value) :
    Column.cell? ⟨name, vs.map (cellOf ok write)⟩ i =
      if ok v then some (name, write v) else none := by
  rw [Column.cell?, List.getElem?_map, h, Option.map_some, Option.join_some, cellOf]
  cases ok v <;> rfl

theorem mapM_cell?_columnOf {p : Plot} {column : Option (List Value)} {name : String}
    {ok : Value → Bool} {write : Value → Value} {i : Nat} (hi : i < p.aesthetics.x.length) :
    ((columnOf p name column ok write).mapM fun c => Column.cell? c i) =
      if (column.bind (p.entry? · i)).all ok then
        some ((column.bind (p.entry? · i)).map fun v => (name, write v)).toList
      else none := by
  cases column with
  | none => rfl
  | some vs =>
    by_cases hlen : vs.length = p.aesthetics.x.length
    · have hv : vs[i]? = some vs[i] := List.getElem?_eq_getElem (hlen ▸ hi)
      rw [columnOf, fitting_some hlen, Option.bind_some, Plot.entry?, if_pos hlen, hv,
        Option.map_some, Option.toList_some, List.mapM_cons, List.mapM_nil, cell?_of_getElem? hv,
        Option.all_some]
      cases ok vs[i] <;> rfl
    · have hno : fitting p.aesthetics.x.length (some vs) = none := by
        rw [fitting, Option.filter_some, if_neg (by simpa using hlen)]
      rw [columnOf, hno, Option.bind_some, Plot.entry?, if_neg hlen]
      rfl

theorem all_true (o : Option Value) : (o.all fun _ => true) = true := by
  cases o <;> rfl

-- What an observation has as its color is what the column of colors has, where it counts.
theorem color_observation (p : Plot) (i : Nat) (x : Value) :
    (p.observation i x).color =
      (if p.grouped then p.aesthetics.color else none).bind (p.entry? · i) := by
  cases hg : p.grouped <;> simp [Plot.observation, hg]

-- An observation has a row where none of its cells is missing.
theorem row?_keptColumns {p : Plot} {i : Nat} {x : Value} (hx : p.aesthetics.x[i]? = some x) :
    row? (keptColumns p) i =
      if p.isValid (p.observation i x) then some (p.row (p.observation i x)) else none := by
  have hi : i < p.aesthetics.x.length := (List.getElem?_eq_some_iff.mp hx).1
  have hentry : (some p.aesthetics.x).bind (p.entry? · i) = some x := by
    rw [Option.bind_some, Plot.entry?, if_pos rfl, hx]
  simp only [row?, keptColumns, List.mapM_append, mapM_cell?_columnOf hi, hentry,
    ← color_observation p i x, all_true, Option.all_some, Option.map_some, Option.toList_some, if_true]
  have hy : (p.observation i x).y = (some p.aesthetics.y).bind (p.entry? · i) := rfl
  rw [Plot.isValid, hy]
  cases hdrawable : x.isDrawable p.xNumeric <;>
    cases ((some p.aesthetics.y).bind (p.entry? · i)).all (Value.isDrawable p.yNumeric) <;>
    cases (p.observation i x).color.all (fun v => !v.isMissing) <;>
    simp [Plot.observation, hdrawable, Plot.row]

theorem filterMap_row? (p : Plot) :
    (List.range p.aesthetics.x.length).filterMap (row? (keptColumns p)) =
      (p.observations.filter p.isValid).map p.row := by
  have hrange : List.range p.aesthetics.x.length = p.aesthetics.x.zipIdx.map Prod.snd := by
    rw [List.zipIdx_map_snd, List.range_eq_range']
  rw [hrange, Plot.observations, List.mapIdx_eq_zipIdx_map, List.filterMap_map,
    ← List.filterMap_eq_map, List.filterMap_filter, List.filterMap_map]
  apply List.filterMap_congr
  rintro ⟨x, i⟩ hx
  have hget : p.aesthetics.x[i]? = some x := List.mem_zipIdx_iff_getElem?.mp hx
  exact row?_keptColumns hget

/-! ## 5. The table -/

theorem exists_of_mem_observations {p : Plot} {o : Observation} (h : o ∈ p.observations) :
    ∃ i x, p.aesthetics.x[i]? = some x ∧ o = p.observation i x := by
  obtain ⟨i, hi, rfl⟩ := List.mem_mapIdx.mp h
  exact ⟨i, _, List.getElem?_eq_getElem hi, rfl⟩

-- A column that counts has an entry at every observation.
theorem isSome_entry? {p : Plot} {i : Nat} (hi : i < p.aesthetics.x.length)
    (column : Option (List Value)) :
    (column.bind (p.entry? · i)).isSome = p.hasColumn column := by
  cases column with
  | none => rfl
  | some vs =>
    rw [Option.bind_some, Plot.entry?, Plot.hasColumn, Option.any_some]
    split
    next hlen => simp [hlen, hi]
    next hlen => simp [hlen]

theorem keys_toList {o : Option Value} {name : String} {write : Value → Value} :
    (o.map fun v => (name, write v)).toList.map Prod.fst = if o.isSome then [name] else [] := by
  cases o <;> rfl

theorem keys_obj (fields : List (String × Value)) :
    (Value.obj fields).entries.map Prod.fst = (fields.map Prod.fst).map .str := by
  rw [Value.obj, Value.entries, List.map_map, List.map_map]
  rfl

theorem keys_row {p : Plot} {o : Observation} (h : o ∈ p.observations) :
    (p.row o).entries.map Prod.fst = p.tableKeys.map .str := by
  obtain ⟨i, x, hx, rfl⟩ := exists_of_mem_observations h
  have hi : i < p.aesthetics.x.length := (List.getElem?_eq_some_iff.mp hx).1
  have hy : (p.observation i x).y.isSome = p.hasColumn (some p.aesthetics.y) :=
    isSome_entry? hi (some p.aesthetics.y)
  have hcolor : (p.observation i x).color.isSome =
      (p.grouped && p.hasColumn p.aesthetics.color) := by
    cases hg : p.grouped with
    | true => simpa [Plot.observation, hg] using isSome_entry? hi p.aesthetics.color
    | false => simp [Plot.observation, hg]
  have hmin : (p.observation i x).ymin.isSome = p.hasColumn p.aesthetics.ymin :=
    isSome_entry? hi p.aesthetics.ymin
  have hmax : (p.observation i x).ymax.isSome = p.hasColumn p.aesthetics.ymax :=
    isSome_entry? hi p.aesthetics.ymax
  rw [Plot.row, keys_obj, Plot.tableKeys]
  simp only [List.map_cons, List.map_append, keys_toList, hy, hcolor, hmin, hmax]

theorem get?_color_row (p : Plot) (o : Observation) :
    (p.row o).get? "color" = o.color.map fun v => .str v.label := by
  obtain ⟨x, y, color, ymin, ymax⟩ := o
  cases y <;> cases color <;> cases ymin <;> cases ymax <;> simp [Plot.row]

theorem mem_of_color {p : Plot} {i : Nat} {x c : Value}
    (h : (p.observation i x).color = some c) : c ∈ p.aesthetics.color.getD [] := by
  rw [Plot.observation] at h
  split at h
  next =>
    obtain ⟨vs, hvs, hc⟩ := Option.bind_eq_some_iff.mp h
    rw [Plot.entry?] at hc
    split at hc
    next =>
      rw [hvs, Option.getD_some]
      exact List.mem_of_getElem? hc
    next => cases hc
  next => cases h

/-- The table of a plot as its observations say it should be. -/
structure IsOf (p : Plot) (t : Table) : Prop where
  rows : t.rows = (p.observations.filter p.isValid).map p.row
  removed : t.removed + t.rows.length = p.aesthetics.x.length
  keys : ∀ row ∈ t.rows, row.entries.map Prod.fst = p.tableKeys.map .str
  category : p.xNumeric = false → ∀ row ∈ t.rows, ∃ l ∈ p.xLabels, row.get? "x" = some (.str l)
  color : ∀ row ∈ t.rows, ∀ v, row.get? "color" = some v → ∃ l ∈ p.grouping.labels, v = .str l

theorem isOf_of_rows {p : Plot} (hg : p.grouping = Grouping.ofColors p.aesthetics.color)
    {t : Table} (hrows : t.rows = (p.observations.filter p.isValid).map p.row)
    (hremoved : t.removed + t.rows.length = p.aesthetics.x.length) : IsOf p t := by
  have hrow : ∀ row ∈ t.rows, ∃ o ∈ p.observations, p.isValid o = true ∧ row = p.row o := by
    intro row hr
    rw [hrows] at hr
    obtain ⟨o, ho, rfl⟩ := List.mem_map.mp hr
    obtain ⟨ho, hv⟩ := List.mem_filter.mp ho
    exact ⟨o, ho, hv, rfl⟩
  refine ⟨hrows, hremoved, fun row hr => ?_, fun hx row hr => ?_, fun row hr v hv => ?_⟩
  · obtain ⟨o, ho, -, rfl⟩ := hrow row hr
    exact keys_row ho
  · obtain ⟨o, ho, hvalid, rfl⟩ := hrow row hr
    obtain ⟨i, x, hget, rfl⟩ := exists_of_mem_observations ho
    rw [Plot.isValid, Bool.and_eq_true, Bool.and_eq_true] at hvalid
    have hdrawable : x.isDrawable p.xNumeric = true := hvalid.1.1
    have hpresent : (!x.isMissing) = true := by simpa [Value.isDrawable, hx] using hdrawable
    refine ⟨x.label, ?_, by simp [Plot.row, Value.onAxis, hx, Plot.observation]⟩
    rw [Plot.xLabels, Value.distinctLabels, mem_firsts]
    exact List.mem_map_of_mem (List.mem_filter.mpr ⟨List.mem_of_getElem? hget, hpresent⟩)
  · obtain ⟨o, ho, hvalid, rfl⟩ := hrow row hr
    obtain ⟨i, x, hget, rfl⟩ := exists_of_mem_observations ho
    rw [Plot.isValid, Bool.and_eq_true] at hvalid
    rw [get?_color_row] at hv
    obtain ⟨c, hc, rfl⟩ := Option.map_eq_some_iff.mp hv
    have hpresent : (!c.isMissing) = true := by simpa [hc] using hvalid.2
    refine ⟨c.label, ?_, rfl⟩
    rw [hg, Grouping.ofColors, Value.distinctLabels, mem_firsts]
    exact List.mem_map_of_mem (List.mem_filter.mpr ⟨mem_of_color hc, hpresent⟩)

/-- The table of a plot is that of its valid observations, where the entries along the axes are
within the range of doubles and the bounds are scalars. -/
theorem ofPlot_observations {p : Plot} (hg : p.grouping = Grouping.ofColors p.aesthetics.color)
    (hne : p.aesthetics.x ≠ []) (hx : ∀ v ∈ p.aesthetics.x, v.InRange)
    (hy : ∀ v ∈ p.aesthetics.y, v.InRange)
    (hmin : ∀ vs, p.aesthetics.ymin = some vs → AllScalars vs)
    (hmax : ∀ vs, p.aesthetics.ymax = some vs → AllScalars vs) :
    ∃ t, ofPlot p = .ok t ∧ IsOf p t := by
  refine ⟨ofColumns p.aesthetics.x.length (keptColumns p), ?_, ?_⟩
  · rw [ofPlot, if_neg (by simpa using hne), columns_eq hx hy hmin hmax]
    rfl
  · exact isOf_of_rows hg (filterMap_row? p) (removed_add_length _ _)

/-- Five observations, of which the second has no number along x, the third no color, and the last
no category along y. -/
def mixedPlot : Plot := .ofAesthetics {
  x := [.int 1, .float Double.nan, .int 2, .float 2.5, .int 3]
  y := [.str "a", .str "b", .bool true, .int 4, .null]
  color := some [.str "u", .str "v", .null, .str "v", .str "u"]
  ymin := some [.float Double.infinity, .int 0, .int 0, .str "low", .int 0]
  ymax := some [.int 1] }

theorem ofPlot_observations_mixedPlot :
    ∃ t, ofPlot mixedPlot = .ok t ∧ IsOf mixedPlot t ∧ t.removed = 3 ∧
      mixedPlot.tableKeys = ["x", "y", "color", "ymin"] := by
  have hnumbers : ∀ n ∈ [(1 : Int), 2, 3, 4], (Double.ofInt? n).isSome = true := by
    decide +kernel
  simp only [List.forall_mem_cons] at hnumbers
  obtain ⟨t, ht, hof⟩ := ofPlot_observations (p := mixedPlot) rfl (List.cons_ne_nil _ _)
    (by simp [mixedPlot, Plot.ofAesthetics, hnumbers, Scalar.inRange])
    (by simp [mixedPlot, Plot.ofAesthetics, hnumbers, Scalar.inRange])
    (fun vs hvs => by
      obtain rfl := Option.some.inj hvs
      simp [AllScalars])
    (fun vs hvs => by
      obtain rfl := Option.some.inj hvs
      simp [AllScalars])
  refine ⟨t, ht, hof, ?_, by decide +kernel⟩
  have hremoved : (ofPlot mixedPlot).toOption.map (·.removed) = some 3 := by decide +kernel
  rw [ht] at hremoved
  exact Option.some.inj hremoved

end Table

end PlotScene
