import PlotScene.Plot.Description
import PlotScene.Proofs.Layer.Drawing
import PlotScene.Proofs.Layer.Heat
import PlotScene.Proofs.Scene.Strict

/-!
# Domains of binned counts

The scales of histograms and heat maps have their domains written out.  The domains span the finite
edges and sides, and no more: each end of a domain is one of them.
-/

namespace PlotScene

open Reference

/-! ## 1. Extents -/

/-- Numbers span a domain: its ends are two of the numbers, and all of them lie between.  Without
any number it is the unit interval. -/
def Spans (P : Float → Prop) (domain : Value) : Prop :=
  (∃ a b, P a ∧ P b ∧ domain = .list [.float a, .float b] ∧ ∀ x, P x → a ≤ x ∧ x ≤ b) ∨
    (∀ x, ¬ P x) ∧ domain = .list unitInterval

/-- A domain goes from zero to the greatest of the numbers, or to one without any number. -/
def GoesUpTo (P : Float → Prop) (domain : Value) : Prop :=
  (∃ m, P m ∧ domain = .list [.int 0, .float m] ∧ ∀ x, P x → x ≤ m) ∨
    (∀ x, ¬ P x) ∧ domain = .list [.int 0, .int 1]

open Sequence in
theorem extent?_eq_some {xs : List Float} {low high : Float} (h : extent? xs = some (low, high)) :
    low ∈ finite xs ∧ high ∈ finite xs ∧ ∀ x ∈ finite xs, low ≤ x ∧ x ≤ high := by
  obtain ⟨hlow, hhigh⟩ := isFinite_of_extent? h
  obtain ⟨hleast, hgreatest⟩ := extremes_of_extent? h
  refine ⟨mem_of_least? hleast, mem_of_greatest? hgreatest, fun x hx => ⟨?_, ?_⟩⟩
  · exact least_le hleast (Double.isNaN_of_isFinite hlow) x hx
  · exact le_greatest hgreatest (Double.isNaN_of_isFinite hhigh) x hx

theorem extent?_eq_none {xs : List Float} (h : extent? xs = none) : Sequence.finite xs = [] := by
  rw [extent?] at h
  cases hxs : Sequence.finite xs with
  | nil => rfl
  | cons x rest =>
    rw [hxs] at h
    cases h

theorem spans_extent {P : Float → Prop} {xs : List Float}
    (hP : ∀ x, x ∈ Sequence.finite xs ↔ P x) : Spans P (.list (extent xs unitInterval)) := by
  rw [extent]
  split
  next low high hextent =>
    obtain ⟨hlow, hhigh, hbetween⟩ := extent?_eq_some hextent
    exact Or.inl ⟨low, high, (hP low).mp hlow, (hP high).mp hhigh, rfl,
      fun x hx => hbetween x ((hP x).mpr hx)⟩
  next hextent =>
    rw [extent?_eq_none hextent] at hP
    exact Or.inr ⟨fun x hx => List.not_mem_nil ((hP x).mpr hx), rfl⟩

theorem goesUpTo_extent {P : Float → Prop} {xs : List Float}
    (hP : ∀ x, x ∈ Sequence.finite xs ↔ P x) :
    GoesUpTo P (.list [.int 0, (extent xs unitInterval)[1]?.getD (.int 1)]) := by
  rw [extent]
  split
  next low high hextent =>
    obtain ⟨-, hhigh, hbetween⟩ := extent?_eq_some hextent
    exact Or.inl ⟨high, (hP high).mp hhigh, rfl, fun x hx => (hbetween x ((hP x).mpr hx)).2⟩
  next hextent =>
    rw [extent?_eq_none hextent] at hP
    exact Or.inr ⟨fun x hx => List.not_mem_nil ((hP x).mpr hx), rfl⟩

/-! ## 2. Histograms -/

/-- The domain of a scale with this name. -/
def ScaleDomain (scales : List Value) (name : String) (domain : Value) : Prop :=
  ∃ scale ∈ scales, Names name scale ∧ scale.get? "domain" = some domain

/-- A number that a row has in one of these fields. -/
def Plots (rows : List Value) (fields : List String) (x : Float) : Prop :=
  ∃ row ∈ rows, ∃ field ∈ fields, row.get? field = some (.float x)

theorem shown_eq_float {x y : Float} : shown y = .float x ↔ y = x ∧ y.isFinite = true := by
  show Value.scalar (if y.isFinite then .float y else .null) = .scalar (.float x) ↔ _
  split <;> simp_all

namespace Bin

/-- A finite edge of a group. -/
def Edge (bins : List BinGroup) (x : Float) : Prop :=
  x.isFinite = true ∧ ∃ b ∈ bins, x ∈ b.edges

/-- A finite count of a group. -/
def Count (bins : List BinGroup) (x : Float) : Prop :=
  x.isFinite = true ∧ ∃ b ∈ bins, x ∈ b.counts

/-- The x scale spans the edges and the y scale goes up to the greatest count, and the bars stand
between edges and are as high as counts. -/
structure Covered (bins : List BinGroup) (f : Fragment) : Prop where
  x : ∃ domain, ScaleDomain f.scales "xscale" domain ∧ Spans (Edge bins) domain
  y : ∃ domain, ScaleDomain f.scales "yscale" domain ∧ GoesUpTo (Count bins) domain
  bars : ∃ rows, f.data = [Fragment.source "bins" rows] ∧
    (∀ x, Plots rows ["x_left", "x_right"] x → Edge bins x) ∧
    ∀ x, Plots rows ["count"] x → Count bins x

theorem mem_finite_edges {bins : List BinGroup} {x : Float} :
    x ∈ Sequence.finite (bins.flatMap (·.edges)) ↔ Edge bins x := by
  rw [Sequence.mem_finite, List.mem_flatMap, and_comm, Edge]

theorem mem_finite_counts {bins : List BinGroup} {x : Float} :
    x ∈ Sequence.finite (bins.flatMap (·.counts)) ↔ Count bins x := by
  rw [Sequence.mem_finite, List.mem_flatMap, and_comm, Count]

-- A bar has two of the edges of its group and one of the counts.
theorem get?_of_mem_rows {c : Coloring} {p : Plot} {b : BinGroup} {row : Value}
    (h : row ∈ rows p c b) : ∃ left ∈ b.edges, ∃ right ∈ b.edges, ∃ count ∈ b.counts,
      row.get? "x_left" = some (shown left) ∧ row.get? "x_right" = some (shown right) ∧
      row.get? "count" = some (shown count) := by
  obtain ⟨⟨⟨center, count⟩, left, right⟩, hbin, rfl⟩ := List.mem_map.mp h
  obtain ⟨hbar, hsides⟩ := List.of_mem_zip hbin
  obtain ⟨hleft, hright⟩ := List.of_mem_zip hsides
  refine ⟨left, hleft, right, List.mem_of_mem_tail hright, count, (List.of_mem_zip hbar).2, ?_⟩
  exact ⟨get?_row rfl, get?_row rfl, get?_row rfl⟩

theorem covered_fragment (bins : List BinGroup) (p : Plot) (o : Presentation) (s : Style) :
    Covered bins (fragment bins p o s) where
  x := by
    refine ⟨_, ⟨_, List.mem_append_left _ List.mem_cons_self, rfl, rfl⟩, ?_⟩
    exact spans_extent fun x => mem_finite_edges
  y := by
    refine ⟨_, ⟨_, List.mem_append_left _ (List.mem_cons_of_mem _ List.mem_cons_self), rfl, rfl⟩,
      ?_⟩
    exact goesUpTo_extent fun x => mem_finite_counts
  bars := by
    refine ⟨_, rfl, fun x hx => ?_, fun x hx => ?_⟩
    · obtain ⟨row, hrow, field, hfield, hget⟩ := hx
      obtain ⟨b, hb, hrow⟩ := List.mem_flatMap.mp hrow
      obtain ⟨left, hleft, right, hright, -, -, hl, hr, -⟩ := get?_of_mem_rows hrow
      rcases List.mem_pair.mp hfield with rfl | rfl
      · obtain ⟨rfl, hfinite⟩ := shown_eq_float.mp (Option.some.inj (hl.symm.trans hget))
        exact ⟨hfinite, b, hb, hleft⟩
      · obtain ⟨rfl, hfinite⟩ := shown_eq_float.mp (Option.some.inj (hr.symm.trans hget))
        exact ⟨hfinite, b, hb, hright⟩
    · obtain ⟨row, hrow, field, hfield, hget⟩ := hx
      obtain ⟨b, hb, hrow⟩ := List.mem_flatMap.mp hrow
      obtain ⟨-, -, -, -, count, hcount, -, -, hc⟩ := get?_of_mem_rows hrow
      obtain rfl := List.mem_singleton.mp hfield
      obtain ⟨rfl, hfinite⟩ := shown_eq_float.mp (Option.some.inj (hc.symm.trans hget))
      exact ⟨hfinite, b, hb, hcount⟩

end Bin

/-! ## 3. Heat maps -/

namespace Cell

/-- Both scales span the sides that the cells have in their rows, where a side that is no finite
number is null. -/
structure Covered (cells : List Cell) (f : Fragment) : Prop where
  data : f.data = [Fragment.source "heatmap_data" (cells.map row)]
  sides : ∀ r ∈ cells.map row, ∀ field ∈ ["x0", "x1", "y0", "y1"],
    r.get? field = some .null ∨ ∃ x, r.get? field = some (.float x)
  x : ∃ domain, ScaleDomain f.scales "xscale" domain ∧
    Spans (Plots (cells.map row) ["x0", "x1"]) domain
  y : ∃ domain, ScaleDomain f.scales "yscale" domain ∧
    Spans (Plots (cells.map row) ["y0", "y1"]) domain

-- The numbers in two fields of the rows are the finite ones of what the cells have there.
theorem plots_rows {cells : List Cell} {a b : Cell → Float} {k l : String}
    (ha : ∀ c : Cell, c.row.get? k = some (shown (a c)))
    (hb : ∀ c : Cell, c.row.get? l = some (shown (b c))) (x : Float) :
    x ∈ Sequence.finite (cells.flatMap fun c => [a c, b c]) ↔ Plots (cells.map row) [k, l] x := by
  have hcell (c : Cell) : x ∈ [a c, b c] ∧ x.isFinite = true ↔
      ∃ field ∈ [k, l], c.row.get? field = some (.float x) := by
    simp only [List.mem_pair, exists_eq_or_imp, exists_eq_left, ha, hb, Option.some.injEq,
      shown_eq_float]
    constructor
    · rintro ⟨rfl | rfl, hx⟩
      exacts [Or.inl ⟨rfl, hx⟩, Or.inr ⟨rfl, hx⟩]
    · rintro (⟨rfl, hx⟩ | ⟨rfl, hx⟩)
      exacts [⟨Or.inl rfl, hx⟩, ⟨Or.inr rfl, hx⟩]
  rw [Sequence.mem_finite, List.mem_flatMap, Plots]
  constructor
  · rintro ⟨⟨c, hc, hx⟩, hfinite⟩
    exact ⟨c.row, List.mem_map_of_mem hc, (hcell c).mp ⟨hx, hfinite⟩⟩
  · rintro ⟨_, hrow, hfield⟩
    obtain ⟨c, hc, rfl⟩ := List.mem_map.mp hrow
    obtain ⟨hx, hfinite⟩ := (hcell c).mpr hfield
    exact ⟨⟨c, hc, hx⟩, hfinite⟩

-- Each side is in the row as it is shown, and what is shown is a number or null.
theorem get?_side (c : Cell) : ∀ field ∈ ["x0", "x1", "y0", "y1"],
    c.row.get? field = some .null ∨ ∃ x, c.row.get? field = some (.float x) := by
  have hshown (x : Float) :
      some (shown x) = some .null ∨ ∃ y, some (shown x) = some (.float y) := by
    rw [shown, Value.plain, Scalar.plain]
    cases x.isFinite
    · exact Or.inl rfl
    · exact Or.inr ⟨x, rfl⟩
  simp only [List.forall_mem_cons]
  exact ⟨hshown c.left, hshown c.right, hshown c.bottom, hshown c.top, List.forall_mem_nil _⟩

theorem covered_fragment {cells : List Cell} {p : Plot} {o : Presentation} {s : Style}
    {f : Fragment} (h : fragment cells p o s = .ok f) : Covered cells f := by
  obtain ⟨heat, -, h⟩ := bind_eq_ok.mp h
  obtain rfl := Except.ok.inj h
  refine ⟨rfl, List.forall_mem_map.mpr fun c _ => get?_side c, ?_, ?_⟩
  · exact ⟨_, ⟨_, List.mem_cons_self, rfl, rfl⟩,
      spans_extent (plots_rows (fun _ => rfl) fun _ => rfl)⟩
  · exact ⟨_, ⟨_, List.mem_cons_of_mem _ List.mem_cons_self, rfl, rfl⟩,
      spans_extent (plots_rows (fun _ => rfl) fun _ => rfl)⟩

end Cell

/-- The written domains of a histogram and of a heat map span what they are drawn from.  The heat
map is there for any cells, unless the rows of its color map differ in length. -/
theorem domains_covered (bins : List BinGroup) (cells : List Cell) (p : Plot) (o : Presentation)
    (s : Style) : Bin.Covered bins (Bin.fragment bins p o s) ∧
      ((∃ f, Cell.fragment cells p o s = .ok f ∧ Cell.Covered cells f) ∨
        p.RaggedColormap ∧ ∃ e, Cell.fragment cells p o s = .error e) := by
  refine ⟨Bin.covered_fragment bins p o s, ?_⟩
  by_cases hragged : p.RaggedColormap
  · obtain ⟨shape, hshape⟩ := Cell.fragment_ragged hragged
    exact Or.inr ⟨hragged, _, hshape cells o s⟩
  · obtain ⟨f, hf⟩ := Cell.fragment_answers hragged cells
    exact Or.inl ⟨f, hf, Cell.covered_fragment hf⟩

/-- A single cell without an end along x. -/
def endlessCells : Value :=
  .obj [("aes", .obj []), ("results", .obj [("stat_bin2d", .obj [("counts", .list [.list [.int 5]]),
    ("edges", .obj [("x", .list [.int 0, .float Double.infinity]),
      ("y", .list [.int 0, .int 1])])])])]

/-- The cell has a row without numbers along x, so the ends of the domain are none of its sides. -/
theorem endlessCells_unitInterval : ∃ p f, Plot.ofDescription endlessCells = .ok p ∧
    Cell.fragment (p.statistics.records .bin2d) p {} (Style.ofSettings {} none) = .ok f ∧
    (p.statistics.records .bin2d).length = 1 ∧
    ScaleDomain f.scales "xscale" (.list [.int 0, .int 1]) ∧
    ∀ x, ¬ Plots ((p.statistics.records .bin2d).map Cell.row) ["x0", "x1"] x := by
  have hsome : (Plot.ofDescription endlessCells).toOption.any (fun p =>
      decide (¬ p.RaggedColormap ∧ (p.statistics.records .bin2d).length = 1 ∧
        ∀ c ∈ p.statistics.records .bin2d, ∀ x ∈ [c.left, c.right], x.isFinite = false)) =
        true := by
    decide +kernel
  obtain ⟨p, hp, hcells⟩ := exists_of_any hsome
  obtain ⟨hcolors, hlength, hsides⟩ := of_decide_eq_true hcells
  obtain ⟨f, hf⟩ := Cell.fragment_answers hcolors (p.statistics.records .bin2d)
  have hnone (x : Float) :
      ¬ Plots ((p.statistics.records .bin2d).map Cell.row) ["x0", "x1"] x := by
    intro hx
    obtain ⟨hmem, hfinite⟩ := Sequence.mem_finite.mp
      ((Cell.plots_rows (fun _ => rfl) (fun _ => rfl) x).mpr hx)
    obtain ⟨c, hc, hside⟩ := List.mem_flatMap.mp hmem
    exact absurd ((hsides c hc x hside).symm.trans hfinite) Bool.false_ne_true
  obtain ⟨domain, hdomain, ⟨a, -, ha, -⟩ | ⟨-, rfl⟩⟩ := (Cell.covered_fragment hf).x
  · exact absurd ha (hnone a)
  · exact ⟨p, f, hp, hf, hlength, hdomain, hnone⟩

end PlotScene
