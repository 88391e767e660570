import Mathlib.Data.List.Perm.Subperm
import PlotScene.Proofs.Compile.Collisions
import PlotScene.Proofs.Plot.Colors

/-!
# Palettes that are too short

An ordinal scale overflows when the field of its domain has more values than its range has colors.
An overflow of the color scale of the observations is always told, since their labels are counted
when the plot is compiled.  The scales that statistics have for their own groups and categories are
over the same colors and are not counted.
-/

namespace PlotScene

open Reference

variable {p : Plot} {o : Presentation} {s : Style}

/-! ## 1. Ordinal scales of a document -/

/-- The rows of the data source with this name. -/
def rowsOf (spec : Value) (source : Scalar) : List Value :=
  (((parts spec "data").find? fun v => nameOf v == source).map fun v =>
    (v.getD "values").items).getD []

/-- The values of a field in rows that have it, each once. -/
def distinctUnder (rows : List Value) (field : String) : List Scalar :=
  firsts (rows.filterMap fun row => (row.get? field).map scalarOf)

def isOrdinal (scale : Value) : Bool :=
  scalarOf (scale.getD "type") == .str "ordinal"

/-- Whether a scale of a document is ordinal and has fewer colors than there are values in the field
of its domain. -/
def overflows (spec scale : Value) : Bool :=
  let domain := scale.getD "domain"
  match domain.getD "field" with
  | .str field => isOrdinal scale &&
      (scale.getD "range").items.length <
        (distinctUnder (rowsOf spec (scalarOf (domain.getD "data"))) field).length
  | _ => false

/-! ## 2. The ordinal scales of layers -/

/-- An ordinal scale of a layer is the color scale of the observations or one of its own. -/
def OrdinalAmong (s : Style) (own : List String) (c : Value) : Prop :=
  isOrdinal c = true → c = colorScale s ∨ ∃ n ∈ own, Names n c

namespace OrdinalAmong

variable {ns : List String} {c : Value}

theorem other (h : isOrdinal c = false) : OrdinalAmong s ns c := by
  intro hc
  rw [h] at hc
  cases hc

theorem shared (h : c = colorScale s) : OrdinalAmong s ns c :=
  fun _ => Or.inl h

theorem own {n : String} (hn : n ∈ ns) (hc : Names n c) : OrdinalAmong s ns c :=
  fun _ => Or.inr ⟨n, hn, hc⟩

theorem x (banded : Bool) (padding : Float) : OrdinalAmong s ns (xScaleAs banded padding) := by
  cases banded <;> exact other rfl

theorem y (p : Plot) (domain : Option Value) (zero : Bool) :
    OrdinalAmong s ns (yScale p domain zero) := by
  apply other
  cases domain with
  | some d => rfl
  | none =>
    rw [yScale]
    cases p.yNumeric <;> rfl

end OrdinalAmong

theorem ordinalAmong_colorScales {own : List String} :
    ∀ c ∈ colorScales p s, OrdinalAmong s own c := by
  intro c hc
  rw [colorScales] at hc
  split at hc
  · exact .shared (List.mem_singleton.mp hc)
  · cases hc

theorem ordinalAmong_coloring {own : List String} {coloring : Coloring} {source : String}
    (hown : groupColorName source ∈ own) :
    ∀ c ∈ coloring.scales s source, OrdinalAmong s own c := by
  intro c hc
  cases coloring with
  | shared => exact .shared (List.mem_singleton.mp hc)
  | byGroup =>
    obtain rfl := List.mem_singleton.mp hc
    exact .own hown rfl
  | single => cases hc

theorem GeometryKind.ordinalAmong_fragment (g : GeometryKind) {own : List String} :
    ∀ c ∈ (g.fragment p o s).scales, OrdinalAmong s own c := by
  have hboth (banded : Bool) : ∀ c ∈ positionScales p s banded, OrdinalAmong s own c :=
    List.forall_mem_cons.mpr ⟨.x _ _, List.forall_mem_cons.mpr ⟨.y p _ _, ordinalAmong_colorScales⟩⟩
  cases g with
  | bar =>
    refine List.forall_mem_cons.mpr ⟨.x _ _, List.forall_mem_cons.mpr
      ⟨.other ?_, ordinalAmong_colorScales⟩⟩
    rw [yScale]
    cases p.yNumeric <;> rfl
  | raster => exact List.forall_mem_cons.mpr ⟨.x _ _, ordinalAmong_colorScales⟩
  | interval =>
    exact List.forall_mem_cons.mpr ⟨.x _ _, List.forall_mem_cons.mpr
      ⟨.y p _ _, ordinalAmong_colorScales⟩⟩
  | _ => exact hboth _

theorem Curve.ordinalAmong_regressionFragment (n : Curve.Names) (curves : List RegressionCurve) :
    ∀ c ∈ (Curve.regressionFragment n curves p o s).scales,
      OrdinalAmong s [groupColorName n.curve] c := by
  refine List.forall_mem_cons.mpr ⟨.x _ _, List.forall_mem_cons.mpr ⟨.y p _ _,
    List.forall_mem_append.mpr ⟨ordinalAmong_coloring List.mem_cons_self, fun c hc => ?_⟩⟩⟩
  split at hc
  · exact .shared (List.mem_singleton.mp hc)
  · cases hc

theorem LayerKind.ordinalAmong_fragment {kind : LayerKind} {f : Fragment}
    (hf : kind.fragment p o s = .ok f) : ∀ c ∈ f.scales, OrdinalAmong s kind.scaleNames c := by
  cases kind with
  | geometry g =>
    obtain rfl := Except.ok.inj hf
    exact g.ordinalAmong_fragment
  | statistic k =>
    cases k with
    | bin2d =>
      obtain ⟨heat, hheat, hf⟩ := bind_eq_ok.mp hf
      obtain rfl := Except.ok.inj hf
      refine List.forall_mem_cons.mpr ⟨.other rfl, List.forall_mem_cons.mpr ⟨.other rfl,
        List.forall_mem_singleton.mpr (.own List.mem_cons_self ?_)⟩⟩
      exact (Cell.heatScale_reads (V := .everything) hheat trivial trivial).1
    | glm =>
      obtain rfl := Except.ok.inj hf
      exact Curve.ordinalAmong_regressionFragment _ _
    | smooth =>
      obtain rfl := Except.ok.inj hf
      exact Curve.ordinalAmong_regressionFragment _ _
    | summary =>
      obtain rfl := Except.ok.inj hf
      exact List.forall_mem_cons.mpr ⟨.x _ _, List.forall_mem_cons.mpr
        ⟨.y p _ _, ordinalAmong_coloring List.mem_cons_self⟩⟩
    | boxplot =>
      obtain rfl := Except.ok.inj hf
      exact List.forall_mem_cons.mpr ⟨.other rfl, List.forall_mem_cons.mpr
        ⟨.y p _ _, List.forall_mem_singleton.mpr (.own List.mem_cons_self rfl)⟩⟩
    | violin =>
      obtain rfl := Except.ok.inj hf
      exact List.forall_mem_cons.mpr ⟨.other rfl, List.forall_mem_cons.mpr ⟨.y p _ _,
        List.forall_mem_cons.mpr ⟨.other rfl,
          ordinalAmong_coloring (List.mem_cons_of_mem _ List.mem_cons_self)⟩⟩⟩
    | _ =>
      obtain rfl := Except.ok.inj hf
      exact List.forall_mem_cons.mpr ⟨.other rfl, List.forall_mem_cons.mpr
        ⟨.other rfl, ordinalAmong_coloring List.mem_cons_self⟩⟩

/-! ## 3. The color scale -/

theorem rowsOf_table {f : Fragment} {rows : List Value} {spec : Value}
    (h : Assembled f rows spec) : rowsOf spec (.str "table") = rows := by
  obtain ⟨extra, -, hdata⟩ := h.data
  rw [rowsOf, hdata]
  rfl

-- Items that are all images of some others are the images of a list of them.
theorem exists_map_eq {α β : Type} {f : α → β} {xs : List β} {ys : List α}
    (h : ∀ x ∈ xs, ∃ y ∈ ys, x = f y) : ∃ zs ⊆ ys, xs = zs.map f := by
  induction xs with
  | nil => exact ⟨[], List.nil_subset ys, rfl⟩
  | cons x xs ih =>
    obtain ⟨⟨y, hy, rfl⟩, hxs⟩ := List.forall_mem_cons.mp h
    obtain ⟨zs, hzs, rfl⟩ := ih hxs
    exact ⟨y :: zs, List.cons_subset.mpr ⟨hy, hzs⟩, rfl⟩

-- No more colors stand in the table than the plot has labels.
theorem length_distinctUnder_color {table : Table}
    (hg : p.grouping = Grouping.ofColors p.aesthetics.color) (ht : Table.ofPlot p = .ok table) :
    (distinctUnder table.rows "color").length ≤ p.grouping.labels.length := by
  have hcolors : ∀ k ∈ table.rows.filterMap fun row => (row.get? "color").map scalarOf,
      ∃ l ∈ p.grouping.labels, k = .str l := by
    intro k hk
    obtain ⟨row, hrow, hk⟩ := List.mem_filterMap.mp hk
    obtain ⟨v, hv, rfl⟩ := Option.map_eq_some_iff.mp hk
    obtain ⟨label, hlabel, rfl⟩ := Table.exists_label_of_color ht hg hrow hv
    exact ⟨label, hlabel, rfl⟩
  obtain ⟨labels, hsub, heq⟩ := exists_map_eq hcolors
  rw [distinctUnder, heq, firsts_map (f := Scalar.str) fun a b => Scalar.same_str a b,
    List.length_map]
  exact (List.Nodup.subperm (nodup_firsts labels) fun l hl => hsub (mem_firsts.mp hl)).length_le

theorem Plot.overflowNotices_ne_nil_iff : p.overflowNotices s ≠ [] ↔
    p.grouped = true ∧ s.categoricalColors.length < p.grouping.labels.length := by
  rw [Plot.overflowNotices, Style.overflowNotice?]
  cases p.grouped with
  | false => simp
  | true =>
    rw [if_pos rfl]
    split
    next h => simpa using h
    next h => simpa using h

-- An overflow of the color scale is one of the labels of the plot.
theorem overflow_colorScale {f : Fragment} {table : Table} {spec : Value}
    (hg : p.grouping = Grouping.ofColors p.aesthetics.color) (ht : Table.ofPlot p = .ok table)
    (ha : Assembled f table.rows spec) (h : overflows spec (colorScale s) = true) :
    p.grouped = true ∧ s.categoricalColors.length < p.grouping.labels.length := by
  have hmany : s.categoricalColors.length < (distinctUnder table.rows "color").length := by
    have hrows := rowsOf_table ha
    change (isOrdinal (colorScale s) && decide ((s.categoricalColors.map Value.str).length <
      (distinctUnder (rowsOf spec (.str "table")) "color").length)) = true at h
    rw [hrows, List.length_map, Bool.and_eq_true, decide_eq_true_eq] at h
    exact h.2
  refine ⟨?_, Nat.lt_of_lt_of_le hmany (length_distinctUnder_color hg ht)⟩
  -- There is a value under the field, so a row has a color.
  have hne : (table.rows.filterMap fun row => (row.get? "color").map scalarOf) ≠ [] := by
    intro hnil
    rw [distinctUnder, hnil] at hmany
    cases hmany
  obtain ⟨k, hk⟩ := List.exists_mem_of_ne_nil _ hne
  obtain ⟨row, hrow, hk⟩ := List.mem_filterMap.mp hk
  obtain ⟨v, hv, -⟩ := Option.map_eq_some_iff.mp hk
  exact (Table.exists_color_of_row ht hrow hv).1

/-! ## 4. What is told -/

/-- Notices come from the labels of the plot alone: a compiled description tells of an overflow
exactly where it groups by more color labels than there are colors.  Every overflow of the color
scale is told so; any other scale that overflows is one that a layer has for itself. -/
theorem compileDescription_overflow (settings : Settings) (description options : Value) (s : Style)
    (c : Compiled) (h : compileDescription settings description options s = .ok c) :
    ∃ p, Plot.ofDescription description = .ok p ∧
      ((∃ m ∈ c.notices, m.code = .paletteOverflow) ↔
        p.grouped = true ∧ s.categoricalColors.length < p.grouping.labels.length) ∧
      ∀ scale ∈ parts c.spec "scales", overflows c.spec scale = true →
        (Names "color" scale ∧ ∃ m ∈ c.notices, m.code = .paletteOverflow) ∨
        ∃ kind ∈ c.layers, ∃ n ∈ kind.scaleNames, Names n scale := by
  obtain ⟨named, hnamed, h⟩ := bind_eq_ok.mp h
  obtain ⟨p, hp, h⟩ := bind_eq_ok.mp h
  obtain ⟨o, -, h⟩ := bind_eq_ok.mp h
  have hasks := Plot.asksFor hp
  have hg : p.grouping = Grouping.ofColors p.aesthetics.color := (Plot.fromDescription hp).grouping
  obtain ⟨table, layers, told, ps, htable, hbuild, hassembled, -, hkinds, hnotices⟩ :=
    stages_of_compile h
  obtain ⟨hplan, hfragments⟩ := layers_of_build hbuild
  have htold : (∃ m ∈ c.notices, m.code = .paletteOverflow) ↔
      p.grouped = true ∧ s.categoricalColors.length < p.grouping.labels.length := by
    rw [hnotices, told_of_build hbuild, exists_code_iff hasks rfl,
      ← Plot.overflowNotices_ne_nil_iff]
    simp
  refine ⟨p, hp, htold, fun scale hscale hover => ?_⟩
  obtain ⟨f, hf, hscale⟩ := exists_layer_of_scale hassembled hscale
  obtain ⟨kind, hkind, hfragment⟩ := forall₂_mem_right hfragments hf
  have hordinal : isOrdinal scale = true := by
    rw [overflows] at hover
    split at hover
    next => exact (Bool.and_eq_true_iff.mp hover).1
    next => cases hover
  rcases LayerKind.ordinalAmong_fragment hfragment scale hscale hordinal with rfl | hown
  · exact Or.inl ⟨rfl, htold.mpr (overflow_colorScale hg htable hassembled hover)⟩
  · rw [hkinds, hplan]
    exact Or.inr ⟨kind, hkind, hown⟩

/-- Observations of nine colors. -/
def nineColors : Value :=
  let nine : List Value := (List.range 9).map fun n => .int n
  .obj [("aes", .obj [("x", .list nine), ("y", .list nine), ("color", .list nine)])]

theorem compileDescription_overflow_nineColors :
    ∃ c, compileDescription {} nineColors (.obj []) (Style.ofSettings {} none) = .ok c ∧
      (parts c.spec "scales").any (overflows c.spec) = true ∧
      ∃ m ∈ c.notices, m.code = .paletteOverflow := by
  have hsome : (compileDescription {} nineColors (.obj []) (Style.ofSettings {} none)).toOption.any
      (fun c => (parts c.spec "scales").any (overflows c.spec)) = true := by decide +kernel
  have hgrouped : (Plot.ofDescription nineColors).toOption.any (fun p =>
      p.grouped && decide ((Style.ofSettings {} none).categoricalColors.length <
        p.grouping.labels.length)) = true := by decide +kernel
  obtain ⟨c, hc, hover⟩ := exists_of_any hsome
  obtain ⟨p, hp, htold, -⟩ := compileDescription_overflow {} nineColors (.obj []) _ c hc
  rw [hp] at hgrouped
  obtain ⟨hg, hmany⟩ := Bool.and_eq_true_iff.mp hgrouped
  exact ⟨c, hc, hover, htold.mpr ⟨hg, of_decide_eq_true hmany⟩⟩

/-- Nine boxes, one for each of the categories along x, and no colors. -/
def nineBoxes : Value :=
  .obj [("aes", .obj [("x", .strings ["a", "b", "c", "d", "e", "f", "g", "h", "i"])]),
    ("results", .obj [("stat_boxplot", .obj [("boxplot_data",
      .list (List.replicate 9 (.list [.int 1, .int 2, .int 3, .int 4, .int 5])))])])]

/-- The scale of the boxes overflows and nothing is told. -/
theorem compileDescription_nineBoxes_untold :
    ∃ c, compileDescription {} nineBoxes (.obj []) (Style.ofSettings {} none) = .ok c ∧
      (parts c.spec "scales").any (overflows c.spec) = true ∧ c.notices = [] := by
  have hsome : (compileDescription {} nineBoxes (.obj []) (Style.ofSettings {} none)).toOption.any
      (fun c => (parts c.spec "scales").any (overflows c.spec) && decide (c.notices = [])) =
        true := by
    decide +kernel
  obtain ⟨c, hc, hboth⟩ := exists_of_any hsome
  obtain ⟨hover, hnotices⟩ := Bool.and_eq_true_iff.mp hboth
  exact ⟨c, hc, hover, of_decide_eq_true hnotices⟩

end PlotScene
