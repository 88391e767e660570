import PlotScene.Plot.Description
import PlotScene.Proofs.Outcome
import PlotScene.Proofs.Plot.Table
import PlotScene.Proofs.Reference.Unresolved

/-!
# Plots that are read from descriptions

A description with equally long columns of x and y, not empty, gives a regular plot: its other
columns are as long as x, and its grouping is that of its column of colors.
-/

namespace PlotScene

-- A column that a description gives is kept, unless it is empty, and then it is as long as x.
theorem length_of_requireLength {name : String} {x vs : List Value} {column : Option (List Value)}
    (h : requireLength name x column = .ok ()) (hc : optionalColumn column = some vs) :
    vs.length = x.length := by
  rw [requireLength, hc] at h
  dsimp only at h
  split at h
  next hlen => exact hlen
  next => cases h

theorem column_of_optionalColumn {column : Option (List Value)} {vs : List Value}
    (h : optionalColumn column = some vs) : column = some vs :=
  (Option.filter_eq_some_iff.mp h).1

/-- What is known of the columns that are read from a value. -/
structure Aesthetics.FromValue (raw : Value) (a : Aesthetics) : Prop where
  x : a.x = (columnOf? (raw.getD "x")).getD []
  y : a.y = (columnOf? (raw.getD "y")).getD []
  color : ∀ vs, a.color = some vs → vs.length = a.x.length
  ymin : ∀ vs, a.ymin = some vs → vs.length = a.x.length
  ymax : ∀ vs, a.ymax = some vs → vs.length = a.x.length
  yminColumn : ∀ vs, a.ymin = some vs → columnOf? (raw.getD "ymin") = some vs
  ymaxColumn : ∀ vs, a.ymax = some vs → columnOf? (raw.getD "ymax") = some vs

theorem Aesthetics.fromValue_of_read {raw : Value} {a : Aesthetics}
    (h : Aesthetics.read raw = .ok a) : Aesthetics.FromValue raw a := by
  cases raw with
  | map es =>
    rw [Aesthetics.read] at h
    simp only [Value.field, ok_bind] at h
    split at h
    next => cases h
    obtain ⟨⟨⟩, hcolor, h⟩ := bind_eq_ok.mp h
    obtain ⟨⟨⟩, -, h⟩ := bind_eq_ok.mp h
    obtain ⟨⟨⟩, -, h⟩ := bind_eq_ok.mp h
    obtain ⟨⟨⟩, hmin, h⟩ := bind_eq_ok.mp h
    obtain ⟨⟨⟩, hmax, h⟩ := bind_eq_ok.mp h
    obtain rfl := Except.ok.inj h
    exact ⟨rfl, rfl, fun vs hvs => length_of_requireLength hcolor hvs,
      fun vs hvs => length_of_requireLength hmin hvs,
      fun vs hvs => length_of_requireLength hmax hvs,
      fun vs hvs => column_of_optionalColumn hvs, fun vs hvs => column_of_optionalColumn hvs⟩
  | _ => cases h

/-- A grouping is read exactly where every color that is not missing has a label. -/
theorem Grouping.read_eq_ok {colors : Option (List Value)} {g : Grouping} :
    Grouping.read colors = .ok g ↔
      Value.haveLabels (colors.getD []) = true ∧ Grouping.ofColors colors = g := by
  rw [Grouping.read, Value.distinctLabels?, Value.requireLabels]
  by_cases hlabels : Value.haveLabels (colors.getD []) = true
  · rw [if_pos hlabels]
    exact ⟨fun h => ⟨hlabels, Except.ok.inj h⟩, fun h => congrArg Except.ok h.2⟩
  · rw [if_neg hlabels]
    exact iff_of_false (fun h => by cases h) fun h => hlabels h.1

/-- What a plot takes over from the parts of its description. -/
structure Plot.FromDescription (description : Value) (p : Plot) : Prop where
  aesthetics : ∃ raw, (description.getD "aes").orEmpty = .ok raw ∧
    Aesthetics.FromValue raw p.aesthetics
  grouping : p.grouping = Grouping.ofColors p.aesthetics.color
  continuousColor : ∃ options, ContinuousColor.read options = .ok p.continuousColor

theorem Plot.fromDescription {description : Value} {p : Plot}
    (h : Plot.ofDescription description = .ok p) : p.FromDescription description := by
  rw [Plot.ofDescription] at h
  obtain ⟨aes, haes, h⟩ := bind_eq_ok.mp h
  obtain ⟨-, rfl⟩ := Value.isMap_of_field haes
  obtain ⟨raw, hraw, h⟩ := bind_eq_ok.mp h
  obtain ⟨aesthetics, haesthetics, h⟩ := bind_eq_ok.mp h
  obtain ⟨grouping, hgrouping, h⟩ := bind_eq_ok.mp h
  obtain ⟨options, -, h⟩ := bind_eq_ok.mp h
  obtain ⟨color, hcolor, h⟩ := bind_eq_ok.mp h
  -- The layers, results, figure and labels that follow do not touch these parts.
  simp only [bind_eq_ok] at h
  obtain ⟨_, -, _, -, _, -, _, -, _, -, _, -, _, -, _, -, _, -, _, -, _, -, _, -, _, -, _, -, _, -,
    _, -, _, -, _, -, h⟩ := h
  obtain rfl := Except.ok.inj h
  exact ⟨⟨raw, hraw, Aesthetics.fromValue_of_read haesthetics⟩,
    (Grouping.read_eq_ok.mp hgrouping).2.symm, ⟨options, hcolor⟩⟩

theorem columnOf?_getD {description raw : Value} {key : String} {vs : List Value}
    (hraw : (description.getD "aes").orEmpty = .ok raw)
    (h : columnOf? ((description.getD "aes").getD key) = some vs) :
    columnOf? (raw.getD key) = some vs := by
  rw [Value.getD, Reference.get?_orEmpty hraw]
  exact h

/-- Equally long columns of x and y that are not empty make a regular plot. -/
theorem Plot.regular_of_description {description : Value} {p : Plot} {xs ys : List Value}
    (h : Plot.ofDescription description = .ok p)
    (hx : columnOf? ((description.getD "aes").getD "x") = some xs)
    (hy : columnOf? ((description.getD "aes").getD "y") = some ys) (hne : xs ≠ [])
    (hlen : ys.length = xs.length) : p.Regular := by
  have hp := Plot.fromDescription h
  obtain ⟨raw, hraw, ha⟩ := hp.aesthetics
  have hxs : p.aesthetics.x = xs := by
    rw [ha.x, columnOf?_getD hraw hx]
    rfl
  have hys : p.aesthetics.y = ys := by
    rw [ha.y, columnOf?_getD hraw hy]
    rfl
  refine ⟨?_, ?_, fun hg => ?_, ha.ymin, ha.ymax⟩
  · rw [hxs]
    exact hne
  · rw [hxs, hys]
    exact hlen
  · -- Colors group only where there is a column of them.
    rw [Plot.grouped, hp.grouping, Grouping.active_iff] at hg
    cases hc : p.aesthetics.color with
    | none =>
      rw [hc] at hg
      exact absurd hg (by decide)
    | some vs => exact ⟨vs, rfl, ha.color vs hc⟩

end PlotScene
