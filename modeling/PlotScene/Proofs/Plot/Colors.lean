import PlotScene.Proofs.Plot.Description
import PlotScene.Proofs.Plot.Observations

/-!
# The colors that the table shows

A grouping counts the labels of all colors, and the table holds only the observations that can be
drawn.  A label is shown where one of its observations can be, so the table shows all labels exactly
when each of them has such an observation.
-/

namespace PlotScene

/-- Some observation of this color can be drawn. -/
def Plot.HasDrawn (p : Plot) (label : String) : Prop :=
  ∃ o ∈ p.observations, p.isValid o = true ∧ o.color.map Value.label = some label

instance (p : Plot) (label : String) : Decidable (p.HasDrawn label) :=
  inferInstanceAs (Decidable (∃ o ∈ p.observations, _))

namespace Table

/-- Some row has this color. -/
def Shows (t : Table) (label : String) : Prop :=
  ∃ row ∈ t.rows, row.get? "color" = some (.str label)

/-! ## 1. Cells of axes -/

theorem numberCell_eq_ok {v : Value} {cell : Option Value} (h : numberCell v = .ok cell) :
    cell = axisCell true v := by
  match v with
  | .int n =>
    rw [numberCell] at h
    split at h
    · exact (Except.ok.inj h).symm
    · cases h
  | .null | .bool _ | .float _ | .str _ => exact (Except.ok.inj h).symm
  | .list _ | .map _ | .array _ _ | .column _ => exact (Except.ok.inj h).symm

theorem axisCells_eq_ok {vs : List Value} {cells : List (Option Value)}
    (h : axisCells vs = .ok cells) : cells = vs.map (axisCell (Value.allNumeric vs)) := by
  rw [axisCells] at h
  split at h
  next hnumeric =>
    rw [hnumeric]
    exact eq_map_of_mapM (fun v cell => numberCell_eq_ok) h
  next hnumeric =>
    obtain ⟨⟨⟩, -, h⟩ := bind_eq_ok.mp h
    rw [Bool.not_eq_true] at hnumeric
    rw [hnumeric, ← Except.ok.inj h]
    exact List.map_congr_left fun v _ => labelCell_eq v

/-! ## 2. Rows -/

/-- The cell of an observation in the first column of this name. -/
def cellUnder? (cs : List Column) (name : String) (i : Nat) : Option Value :=
  (cs.find? fun c => c.name == name).bind fun c => c.cells[i]?.join

-- An observation has a row where every column has a cell for it.
theorem isSome_row? (cs : List Column) (i : Nat) :
    (row? cs i).isSome = cs.all fun c => c.cells[i]?.join.isSome := by
  rw [row?, Option.isSome_map]
  induction cs with
  | nil => rfl
  | cons c cs ih =>
    rw [List.mapM_cons, List.all_cons, ← ih, Column.cell?]
    cases c.cells[i]?.join with
    | none => rfl
    | some v => cases cs.mapM fun c => Column.cell? c i <;> rfl

theorem get?_row? {cs : List Column} {i : Nat} {row : Value} (h : row? cs i = some row)
    (name : String) : row.get? name = cellUnder? cs name i := by
  obtain ⟨cells, hcells, rfl⟩ := Option.map_eq_some_iff.mp h
  clear h
  induction cs generalizing cells with
  | nil =>
    cases hcells
    rfl
  | cons c cs ih =>
    rw [List.mapM_cons] at hcells
    obtain ⟨cell, hcell, hcells⟩ := Option.bind_eq_some_iff.mp hcells
    obtain ⟨rest, hrest, hcells⟩ := Option.bind_eq_some_iff.mp hcells
    obtain rfl := Option.some.inj hcells
    obtain ⟨v, hv, rfl⟩ := Option.map_eq_some_iff.mp hcell
    rw [Value.get?_obj_cons, cellUnder?, List.find?_cons]
    by_cases hname : c.name = name
    · rw [if_pos hname, beq_iff_eq.mpr hname]
      exact hv.symm
    · rw [if_neg hname, beq_false_of_ne hname]
      exact ih rest hrest

/-! ## 3. Observations -/

theorem columns_eq_ok {p : Plot} {cs : List Column} (h : columns p = .ok cs) :
    cs = columnOf p "x" (some p.aesthetics.x) (Value.isDrawable p.xNumeric)
        (Value.onAxis p.xNumeric) ++
      (columnOf p "y" (some p.aesthetics.y) (Value.isDrawable p.yNumeric)
          (Value.onAxis p.yNumeric) ++
        columnOf p "color" (if p.grouped then p.aesthetics.color else none)
          (fun v => !v.isMissing) (fun v => .str v.label) ++
        columnOf p "ymin" p.aesthetics.ymin (fun _ => true) Value.plain ++
        columnOf p "ymax" p.aesthetics.ymax (fun _ => true) Value.plain) := by
  obtain ⟨x, hx, h⟩ := bind_eq_ok.mp h
  obtain ⟨y, hy, h⟩ := bind_eq_ok.mp h
  have hxcolumn : columnOf p "x" (some p.aesthetics.x) (Value.isDrawable p.xNumeric)
      (Value.onAxis p.xNumeric) = [⟨"x", x⟩] := by
    rw [columnOf, fitting_some rfl, axisCells_eq_ok hx]
    rfl
  have hycells : y = (fitting p.aesthetics.x.length (some p.aesthetics.y)).map
      (List.map (axisCell p.yNumeric)) := by
    rw [fitting, Option.filter_some] at hy ⊢
    split at hy
    next hlen =>
      obtain ⟨cells, hcells, hy⟩ := bind_eq_ok.mp hy
      rw [if_pos hlen, ← Except.ok.inj hy, axisCells_eq_ok hcells]
      rfl
    next hlen =>
      rw [if_neg hlen]
      exact (Except.ok.inj hy).symm
  have hlabels : labelCell = cellOf (fun v => !v.isMissing) (fun v => .str v.label) :=
    funext labelCell_eq
  rw [← Except.ok.inj h, hycells, hxcolumn, filter_fitting, hlabels, Option.map_map]
  rfl

theorem all_columnOf {p : Plot} {i : Nat} (hi : i < p.aesthetics.x.length) (name : String)
    (column : Option (List Value)) (ok : Value → Bool) (write : Value → Value) :
    ((columnOf p name column ok write).all fun c => c.cells[i]?.join.isSome) =
      (column.bind (p.entry? · i)).all ok := by
  rw [← isSome_row?, row?, mapM_cell?_columnOf hi, Option.isSome_map]
  split <;> simp_all

theorem cellUnder?_columnOf {p : Plot} (i : Nat) (name : String) (column : Option (List Value))
    (ok : Value → Bool) (write : Value → Value) :
    cellUnder? (columnOf p name column ok write) name i =
      (column.bind (p.entry? · i)).bind (cellOf ok write) := by
  cases column with
  | none => rfl
  | some vs =>
    by_cases hlen : vs.length = p.aesthetics.x.length
    · rw [columnOf, fitting_some hlen, Option.bind_some, Plot.entry?, if_pos hlen, cellUnder?]
      simp only [Option.map_some, Option.toList_some, List.find?_cons, beq_self_eq_true,
        Option.bind_some, List.getElem?_map]
      cases vs[i]? <;> rfl
    · have hno : fitting p.aesthetics.x.length (some vs) = none := by
        rw [fitting, Option.filter_some, if_neg (by simpa using hlen)]
      rw [columnOf, hno, Option.bind_some, Plot.entry?, if_neg hlen]
      rfl

theorem find?_columnOf_of_ne {p : Plot} {name key : String} (hname : name ≠ key)
    (column : Option (List Value)) (ok : Value → Bool) (write : Value → Value) :
    (columnOf p name column ok write).find? (fun c => c.name == key) = none := by
  rw [columnOf]
  cases fitting p.aesthetics.x.length column <;> simp [hname]

section

variable {p : Plot} {cs : List Column} (h : columns p = .ok cs) {i : Nat} {x : Value}
  (hx : p.aesthetics.x[i]? = some x)
include h hx

theorem isSome_row?_columns : (row? cs i).isSome = p.isValid (p.observation i x) := by
  have hi : i < p.aesthetics.x.length := (List.getElem?_eq_some_iff.mp hx).1
  have hentry : (some p.aesthetics.x).bind (p.entry? · i) = some x := by
    rw [Option.bind_some, Plot.entry?, if_pos rfl, hx]
  rw [isSome_row?, columns_eq_ok h]
  simp only [List.all_append, all_columnOf hi, hentry, ← color_observation p i x, all_true,
    Option.all_some, Bool.and_true]
  rw [Plot.isValid, ← Bool.and_assoc]
  rfl

omit hx in
theorem cellUnder?_color :
    cellUnder? cs "color" i = (p.observation i x).color.bind
      (cellOf (fun v => !v.isMissing) fun v => .str v.label) := by
  rw [color_observation, ← cellUnder?_columnOf i "color", columns_eq_ok h, cellUnder?, cellUnder?]
  simp only [List.find?_append, find?_columnOf_of_ne, ne_eq, String.reduceEq, not_false_eq_true,
    Option.none_or, Option.or_none]

theorem get?_color_of_row? {row : Value} (hrow : row? cs i = some row) :
    row.get? "color" = (p.observation i x).color.map fun v => .str v.label := by
  have hvalid : p.isValid (p.observation i x) = true := by
    rw [← isSome_row?_columns h hx, hrow]
    rfl
  rw [Plot.isValid, Bool.and_eq_true] at hvalid
  rw [get?_row? hrow, cellUnder?_color h]
  cases hc : (p.observation i x).color with
  | none => rfl
  | some c =>
    rw [hc] at hvalid
    exact if_pos hvalid.2

end

/-! ## 4. Tables -/

section

variable {p : Plot} {t : Table} (ht : ofPlot p = .ok t)
include ht

-- The rows of a table are those of the observations that can be drawn.
theorem exists_observation_of_row {row : Value} (hrow : row ∈ t.rows) :
    ∃ o ∈ p.observations, p.isValid o = true ∧
      row.get? "color" = o.color.map fun v => .str v.label := by
  rw [ofPlot] at ht
  split at ht
  · obtain rfl := Except.ok.inj ht
    cases hrow
  obtain ⟨cs, hcs, rfl⟩ := map_eq_ok.mp ht
  obtain ⟨i, hi, hrow⟩ := List.mem_filterMap.mp hrow
  have hx := List.getElem?_eq_getElem (List.mem_range.mp hi)
  refine ⟨_, List.mem_mapIdx.mpr ⟨i, List.mem_range.mp hi, rfl⟩, ?_,
    get?_color_of_row? hcs hx hrow⟩
  rw [← isSome_row?_columns hcs hx, hrow]
  rfl

/-- The color of a row is the label of a color of a grouped plot. -/
theorem exists_color_of_row {row v : Value} (hrow : row ∈ t.rows)
    (hv : row.get? "color" = some v) : p.grouped = true ∧ ∃ vs, p.aesthetics.color = some vs ∧
      ∃ w ∈ vs, w.isMissing = false ∧ v = .str w.label := by
  obtain ⟨o, ho, hvalid, hcolor⟩ := exists_observation_of_row ht hrow
  obtain ⟨w, hw, rfl⟩ := Option.map_eq_some_iff.mp (hcolor.symm.trans hv)
  rw [Plot.isValid, hw, Bool.and_eq_true, Option.all_some, Bool.not_eq_true'] at hvalid
  obtain ⟨i, x, -, rfl⟩ := exists_of_mem_observations ho
  rw [color_observation] at hw
  split at hw
  next hg =>
    obtain ⟨vs, hvs, hentry⟩ := Option.bind_eq_some_iff.mp hw
    rw [Plot.entry?] at hentry
    split at hentry
    · exact ⟨hg, vs, hvs, w, List.mem_of_getElem? hentry, hvalid.2, rfl⟩
    · cases hentry
  next => cases hw

theorem exists_label_of_color (hg : p.grouping = Grouping.ofColors p.aesthetics.color)
    {row v : Value} (hrow : row ∈ t.rows) (hv : row.get? "color" = some v) :
    ∃ label ∈ p.grouping.labels, v = .str label := by
  obtain ⟨-, vs, hvs, w, hw, hmissing, rfl⟩ := exists_color_of_row ht hrow hv
  refine ⟨w.label, ?_, rfl⟩
  rw [hg, Grouping.ofColors, hvs, Option.getD_some, Value.distinctLabels, mem_firsts]
  exact List.mem_map_of_mem (List.mem_filter.mpr ⟨hw, by rw [hmissing]; rfl⟩)

theorem label_of_color : ∀ row ∈ t.rows, ∀ v, row.get? "color" = some v →
    ∃ label, v = .str label := by
  intro row hrow v hv
  obtain ⟨-, vs, -, w, -, -, rfl⟩ := exists_color_of_row ht hrow hv
  exact ⟨w.label, rfl⟩

theorem exists_row_of_observation {o : Observation} (ho : o ∈ p.observations)
    (hvalid : p.isValid o = true) :
    ∃ row ∈ t.rows, row.get? "color" = o.color.map fun v => .str v.label := by
  obtain ⟨i, x, hx, rfl⟩ := exists_of_mem_observations ho
  have hi : i < p.aesthetics.x.length := (List.getElem?_eq_some_iff.mp hx).1
  have hne : p.aesthetics.x ≠ [] := List.ne_nil_of_length_pos (Nat.zero_lt_of_lt hi)
  rw [ofPlot, if_neg (by simpa using hne)] at ht
  obtain ⟨cs, hcs, rfl⟩ := map_eq_ok.mp ht
  rw [← isSome_row?_columns hcs hx] at hvalid
  obtain ⟨row, hrow⟩ := Option.isSome_iff_exists.mp hvalid
  exact ⟨row, List.mem_filterMap.mpr ⟨i, List.mem_range.mpr hi, hrow⟩,
    get?_color_of_row? hcs hx hrow⟩

theorem shows_iff (label : String) : t.Shows label ↔ p.HasDrawn label := by
  constructor
  · rintro ⟨row, hrow, hlabel⟩
    obtain ⟨o, ho, hvalid, hcolor⟩ := exists_observation_of_row ht hrow
    obtain ⟨c, hc, hstr⟩ := Option.map_eq_some_iff.mp (hcolor.symm.trans hlabel)
    refine ⟨o, ho, hvalid, ?_⟩
    rw [hc, Option.map_some, Scalar.str.inj (Value.scalar.inj hstr)]
  · rintro ⟨o, ho, hvalid, hlabel⟩
    obtain ⟨row, hrow, hcolor⟩ := exists_row_of_observation ht ho hvalid
    obtain ⟨c, hc, rfl⟩ := Option.map_eq_some_iff.mp hlabel
    exact ⟨row, hrow, by rw [hcolor, hc, Option.map_some]⟩

end

end Table

section

variable {description : Value} {p : Plot} (h : Plot.ofDescription description = .ok p)
  (hg : p.grouped = true)
include h hg

-- Colors group only where there is a column of them, which is as long as the column of x.
theorem Plot.exists_colors : ∃ vs, p.aesthetics.color = some vs ∧
    vs.length = p.aesthetics.x.length ∧ p.grouping.labels = Value.distinctLabels vs := by
  have hp := Plot.fromDescription h
  obtain ⟨raw, -, ha⟩ := hp.aesthetics
  have hactive := hg
  rw [Plot.grouped, hp.grouping, Grouping.active_iff] at hactive
  cases hc : p.aesthetics.color with
  | none =>
    rw [hc] at hactive
    exact absurd hactive (by decide)
  | some vs =>
    refine ⟨vs, rfl, ha.color vs hc, ?_⟩
    rw [hp.grouping, hc]
    rfl

-- So every observation has an entry in that column.
theorem Plot.exists_color {o : Observation} (ho : o ∈ p.observations) :
    ∃ c, o.color = some c := by
  obtain ⟨vs, hvs, hlen, -⟩ := Plot.exists_colors h hg
  obtain ⟨i, x, hx, rfl⟩ := Table.exists_of_mem_observations ho
  have hi : i < vs.length := hlen ▸ (List.getElem?_eq_some_iff.mp hx).1
  refine ⟨vs[i], ?_⟩
  rw [Table.color_observation, if_pos hg, hvs, Option.bind_some, Plot.entry?, if_pos hlen,
    List.getElem?_eq_getElem hi]

/-- The labels of a grouping are those of all observations that have a color. -/
theorem Plot.mem_labels_iff (label : String) : label ∈ p.grouping.labels ↔
    ∃ o ∈ p.observations, ∃ c, o.color = some c ∧ c.isMissing = false ∧ c.label = label := by
  obtain ⟨vs, hvs, hlen, hlabels⟩ := Plot.exists_colors h hg
  have hcolor (i : Nat) (x : Value) : (p.observation i x).color = vs[i]? := by
    rw [Table.color_observation, if_pos hg, hvs, Option.bind_some, Plot.entry?, if_pos hlen]
  rw [hlabels, Value.distinctLabels, mem_firsts]
  simp only [List.mem_map, List.mem_filter, Bool.not_eq_true']
  constructor
  · rintro ⟨c, ⟨hc, hpresent⟩, hlabel⟩
    obtain ⟨i, hi, rfl⟩ := List.getElem_of_mem hc
    refine ⟨_, List.mem_mapIdx.mpr ⟨i, hlen ▸ hi, rfl⟩, vs[i], ?_, hpresent, hlabel⟩
    rw [hcolor, List.getElem?_eq_getElem hi]
  · rintro ⟨o, ho, c, hc, hpresent, hlabel⟩
    obtain ⟨i, x, -, rfl⟩ := Table.exists_of_mem_observations ho
    rw [hcolor] at hc
    exact ⟨c, ⟨List.mem_of_getElem? hc, hpresent⟩, hlabel⟩

-- So every row of the table has a color, which is one of the labels.
theorem Table.exists_label_of_row {t : Table} (ht : ofPlot p = .ok t) {row : Value}
    (hrow : row ∈ t.rows) :
    ∃ label ∈ p.grouping.labels, row.get? "color" = some (.str label) := by
  obtain ⟨o, ho, -, hcolor⟩ := exists_observation_of_row ht hrow
  obtain ⟨c, hc⟩ := Plot.exists_color h hg ho
  rw [hc, Option.map_some] at hcolor
  obtain ⟨label, hlabel, heq⟩ :=
    exists_label_of_color ht (Plot.fromDescription h).grouping hrow hcolor
  exact ⟨label, hlabel, by rw [hcolor, heq]⟩

/-- A description whose colors group has a table, unless an integer along an axis of numbers is
beyond the range of doubles or an entry along an axis of categories has no label.  Every row of the
table has one of the labels, which are those of all observations that have a color; a label is shown
exactly where one of its observations can be drawn.  So the table shows all labels exactly where
each of them has an observation that can be drawn. -/
theorem Table.shows_ofDescription :
    ((∃ t, ofPlot p = .ok t) ↔ Value.Comparable p.aesthetics.x ∧
      (p.aesthetics.y.length = p.aesthetics.x.length → Value.Comparable p.aesthetics.y)) ∧
    (∀ label, label ∈ p.grouping.labels ↔
      ∃ o ∈ p.observations, ∃ c, o.color = some c ∧ c.isMissing = false ∧ c.label = label) ∧
    ∀ t, ofPlot p = .ok t →
      (∀ row ∈ t.rows, ∃ label ∈ p.grouping.labels, row.get? "color" = some (.str label)) ∧
      (∀ label, t.Shows label ↔ p.HasDrawn label) ∧
      ((∀ label, t.Shows label ↔ label ∈ p.grouping.labels) ↔
        ∀ label ∈ p.grouping.labels, p.HasDrawn label) := by
  have hne : p.aesthetics.x ≠ [] := by
    intro hnil
    obtain ⟨vs, -, hlen, hlabels⟩ := Plot.exists_colors h hg
    have hactive := hg
    rw [hnil, List.length_nil, List.length_eq_zero_iff] at hlen
    rw [Plot.grouped, (Plot.fromDescription h).grouping, Grouping.active_iff,
      ← (Plot.fromDescription h).grouping, hlabels, hlen] at hactive
    exact absurd hactive (by decide)
  refine ⟨ofPlot_answers_iff hne, Plot.mem_labels_iff h hg, fun t ht => ?_⟩
  refine ⟨fun row => exists_label_of_row h hg ht, shows_iff ht, fun hall label hlabel => ?_,
    fun hall label => ⟨?_, fun hlabel => (shows_iff ht label).mpr (hall label hlabel)⟩⟩
  · exact (shows_iff ht label).mp ((hall label).mpr hlabel)
  · rintro ⟨row, hrow, hcolor⟩
    obtain ⟨label', hlabel, hcolor'⟩ := exists_label_of_row h hg ht hrow
    obtain rfl := Scalar.str.inj (Value.scalar.inj (Option.some.inj (hcolor.symm.trans hcolor')))
    exact hlabel

end

/-- Observations of two colors along x, of which one of each color can be drawn. -/
def pairedColors : Value :=
  .obj [("aes", .obj [("x", .list [.int 1, .null, .int 2, .float Double.nan]),
    ("y", .list [.int 5, .int 6, .int 7, .int 8]), ("color", .strings ["a", "b", "b", "a"])])]

theorem Table.shows_ofDescription_pairedColors : ∃ p t,
    Plot.ofDescription pairedColors = .ok p ∧ p.grouped = true ∧ ofPlot p = .ok t ∧
      t.removed = 2 ∧ ∀ label, t.Shows label ↔ label ∈ p.grouping.labels := by
  have hfacts : (Plot.ofDescription pairedColors).toOption.any (fun p =>
      p.grouped && (ofPlot p).toOption.any (fun t => t.removed == 2) &&
        decide (∀ label ∈ p.grouping.labels, p.HasDrawn label)) = true := by decide +kernel
  obtain ⟨p, hp, hfacts⟩ := exists_of_any hfacts
  simp only [Bool.and_eq_true] at hfacts
  obtain ⟨⟨hg, htable⟩, hdrawn⟩ := hfacts
  obtain ⟨t, ht, hremoved⟩ := exists_of_any htable
  exact ⟨p, t, hp, hg, ht, beq_iff_eq.mp hremoved,
    ((shows_ofDescription hp hg).2.2 t ht).2.2.mpr (of_decide_eq_true hdrawn)⟩

/-- Observations of three colors, of which the last has no place along x. -/
def hiddenColor : Value :=
  .obj [("aes", .obj [("x", .list [.int 1, .int 2, .null]),
    ("y", .list [.int 1, .int 2, .int 3]), ("color", .strings ["a", "b", "c"])])]

/-- The third group has a color that the table does not show. -/
theorem Table.not_shows_hiddenColor : ∃ p t,
    Plot.ofDescription hiddenColor = .ok p ∧ p.grouped = true ∧ ofPlot p = .ok t ∧
      p.groupColor? 3 = some "c" ∧ ¬ ∀ label, t.Shows label ↔ label ∈ p.grouping.labels := by
  have hfacts : (Plot.ofDescription hiddenColor).toOption.any (fun p =>
      p.grouped && (ofPlot p).toOption.isSome && p.groupColor? 3 == some "c" &&
        p.grouping.labels.contains "c" && !decide (p.HasDrawn "c")) = true := by decide +kernel
  obtain ⟨p, hp, hfacts⟩ := exists_of_any hfacts
  simp only [Bool.and_eq_true, Bool.not_eq_true', decide_eq_false_iff_not, beq_iff_eq,
    List.contains_iff_mem] at hfacts
  obtain ⟨⟨⟨⟨hg, htable⟩, hgroup⟩, hlabel⟩, hdrawn⟩ := hfacts
  obtain ⟨t, ht⟩ := exists_of_isSome htable
  exact ⟨p, t, hp, hg, ht, hgroup, fun hall =>
    hdrawn ((shows_iff ht "c").mp ((hall "c").mpr hlabel))⟩

end PlotScene
