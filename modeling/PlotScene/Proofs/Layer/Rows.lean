import PlotScene.Proofs.Layer.Registry
import PlotScene.Proofs.Reference.Fields

/-!
# The rows of statistics have the fields that are read

The rows of a layer are written in one place and read in another.  Here every source of a layer is
shown to have the fields that it supplies: each row of a statistic has the fields of its kind, the
bounds of means become fields by a pivot, and filtered rows have the fields of what they are
filtered from.
-/

namespace PlotScene

open Reference

/-! ## 1. Rows -/

theorem has_obj {fields : List (String × Value)} {key : String}
    (h : key ∈ fields.map Prod.fst) : (Value.obj fields).has key = true := by
  induction fields with
  | nil => cases h
  | cons f fields ih =>
    obtain ⟨k, v⟩ := f
    rw [Value.has, Value.get?_obj_cons]
    split
    · rfl
    next hk =>
      rcases List.mem_cons.mp h with heq | h
      · exact absurd heq.symm hk
      · exact ih h

-- A row of a group has its own fields, its group, and its color where that is shared.
theorem has_row {c : Coloring} {p : Plot} {group : Nat} {fields : List (String × Value)}
    {own : List String} (hown : ∀ f ∈ own, f ∈ fields.map Prod.fst) :
    ∀ f ∈ c.fields own, (c.row p group fields).has f = true := by
  intro f hf
  apply has_obj
  simp only [List.map_append, List.map_map, List.mem_append]
  rcases List.mem_append.mp hf with hf | hf
  · obtain ⟨e, he, rfl⟩ := List.mem_map.mp (hown f hf)
    exact Or.inl (Or.inl (List.mem_map.mpr ⟨e, he, rfl⟩))
  · rcases List.mem_cons.mp hf with rfl | hf
    · exact Or.inl (Or.inr (List.mem_singleton.mpr rfl))
    · split at hf
      next hshared =>
        rw [if_pos hshared]
        exact Or.inr hf
      next => cases hf

theorem get?_row {c : Coloring} {p : Plot} {group : Nat} {fields : List (String × Value)}
    {key : String} {v : Value} (h : (Value.obj fields).get? key = some v) :
    (c.row p group fields).get? key = some v.plain := by
  rw [Coloring.row]
  induction fields with
  | nil => cases h
  | cons f fields ih =>
    obtain ⟨k, w⟩ := f
    rw [Value.get?_obj_cons] at h
    rw [List.map_cons, List.cons_append, List.cons_append, Value.get?_obj_cons]
    split at h
    next hk =>
      obtain rfl := Option.some.inj h
      rw [if_pos hk]
    next hk =>
      rw [if_neg hk]
      exact ih h

/-! ## 2. Sources -/

-- A source that is written out has the fields that all of its rows have.
theorem hasField_source {data rows : List Value} {name f : String}
    (h : ∀ row ∈ rows, row.has f = true) :
    HasField data (Fragment.source name rows) f := by
  refine HasField.values rfl (fun t ht => ?_) h
  have hnone : transforms (Fragment.source name rows) = [] := parts_of_get?_none rfl
  rw [hnone] at ht
  cases ht

/-- The sources of a layer stand in the data, and no other source has one of their names. -/
structure OwnedBy (data own : List Value) : Prop where
  mem : ∀ v ∈ own, v ∈ data
  unique : ∀ v ∈ own, ∀ n, Names n v → ∀ w ∈ data, Names n w → w = v

theorem provided_of_owned {data own : List Value} (h : OwnedBy data own) {v : Value}
    (hv : v ∈ own) {n f : String} (hn : Names n v) (hf : HasField data v f) :
    Provided data n f := by
  refine ⟨⟨v, h.mem v hv, hn⟩, fun w hw hnw => ?_⟩
  rw [h.unique v hv n hn w hw hnw]
  exact hf

/-- A source of this name among those of a layer has all fields that it supplies. -/
def Supplies (data own : List Value) (d : Supply) : Prop :=
  ∃ v ∈ own, Names d.source v ∧ ∀ f ∈ d.fields, HasField data v f

theorem Supplies.provided {data own : List Value} {d : Supply} (hs : Supplies data own d)
    (h : OwnedBy data own) {f : String} (hf : f ∈ d.fields) : Provided data d.source f := by
  obtain ⟨v, hv, hn, hfields⟩ := hs
  exact provided_of_owned h hv hn (hfields f hf)

-- One source of a layer with rows of a group.
theorem supplies_rows {data own rows : List Value} {name : String} {fields : List String}
    (hmem : Fragment.source name rows ∈ own)
    (h : ∀ row ∈ rows, ∀ f ∈ fields, row.has f = true) : Supplies data own ⟨name, fields⟩ :=
  ⟨_, hmem, rfl, fun f hf => hasField_source fun row hr => h row hr f hf⟩

-- The only source of a layer, with rows of a statistic.
theorem supplies_single {data rows : List Value} {name : String} {fields : List String}
    (h : ∀ row ∈ rows, ∀ f ∈ fields, row.has f = true) :
    ∀ d ∈ [(⟨name, fields⟩ : Supply)], Supplies data [Fragment.source name rows] d := by
  intro d hd
  obtain rfl := List.mem_singleton.mp hd
  exact supplies_rows (List.mem_singleton.mpr rfl) h

/-! ## 3. Layers -/

variable {p : Plot} {o : Presentation} {s : Style} {data : List Value}

theorem supplies_regression {n : Curve.Names} {curves : List RegressionCurve}
    (h : OwnedBy data (Curve.regressionFragment n curves p o s).data) :
    ∀ d ∈ Curve.regressionSupplies n curves p s,
      Supplies data (Curve.regressionFragment n curves p o s).data d := by
  have hcurve : Supplies data (Curve.regressionFragment n curves p o s).data
      ⟨n.curve, (Curve.regressionColoring curves p s).fields Curve.regressionFields⟩ := by
    apply supplies_rows List.mem_cons_self
    intro row hr
    obtain ⟨c, -, hr⟩ := List.mem_flatMap.mp hr
    obtain ⟨⟨⟨x, y⟩, lower, upper⟩, -, rfl⟩ := List.mem_map.mp hr
    exact has_row fun f hf => hf
  intro d hd
  rcases List.mem_cons.mp hd with rfl | hd
  · exact hcurve
  · split at hd
    next hb =>
      obtain rfl := List.mem_singleton.mp hd
      have hband : Curve.bandSource n ∈ (Curve.regressionFragment n curves p o s).data := by
        apply List.mem_cons_of_mem _
        show _ ∈ if Curve.isBanded curves = true then _ else _
        rw [if_pos hb]
        exact List.mem_singleton.mpr rfl
      refine ⟨Curve.bandSource n, hband, rfl, fun f hf => ?_⟩
      obtain ⟨hex, hall⟩ := hcurve.provided h hf
      -- The filter keeps whole rows of the curve, so they have the fields that the curve has.
      have hbase : (Curve.bandSource n).get? "source" = some (.str n.curve) := rfl
      refine HasField.upstream hbase (fun t ht => ?_) hex hall
      obtain rfl := List.mem_singleton.mp (show t ∈ [_] from ht)
      exact Or.inl rfl
    next => cases hd

/-- The rows of both bounds of all means. -/
def Category.meanBounds (p : Plot) (c : Coloring) (curves : List SummaryCurve) : List Value :=
  curves.flatMap fun k => (Category.means k).flatMap (Category.boundRows p c k.group)

section

variable {c : Coloring} {curves : List SummaryCurve}

-- The two rows of a mean have the names of the bounds under `ci_type`.
theorem hasField_bound {b : String} (hb : b = "lower" ∨ b = "upper") :
    HasField data (Category.boundSource c (Category.meanBounds p c curves)) b := by
  refine HasField.pivoted (k := "ci_type") rfl rfl ?_ rfl rfl fun hne => ?_
  · intro t ht
    obtain rfl := List.mem_singleton.mp ht
    exact Or.inr rfl
  · obtain ⟨row, hr⟩ := List.exists_mem_of_ne_nil _ hne
    obtain ⟨k, hk, hr⟩ := List.mem_flatMap.mp hr
    obtain ⟨m, hm, -⟩ := List.mem_flatMap.mp hr
    have hin {row : Value} (hr : row ∈ Category.boundRows p c k.group m) :
        row ∈ Category.meanBounds p c curves :=
      List.mem_flatMap.mpr ⟨k, hk, List.mem_flatMap.mpr ⟨m, hm, hr⟩⟩
    rcases hb with rfl | rfl
    · exact ⟨_, hin List.mem_cons_self, get?_row (v := .str "lower") rfl⟩
    · exact ⟨_, hin (List.mem_cons_of_mem _ List.mem_cons_self), get?_row (v := .str "upper") rfl⟩

-- The pivot keeps the fields that it groups by.
theorem hasField_boundGroup {rows : List Value} {f : String}
    (hf : f ∈ ["x", "group"] ++ if c.isShared then ["color"] else []) :
    HasField data (Category.boundSource c rows) f := by
  refine HasField.grouped rfl rfl ?_ (List.mem_map.mpr ⟨f, hf, rfl⟩)
  intro t ht
  obtain rfl := List.mem_singleton.mp ht
  exact Or.inr rfl

theorem supplies_mean :
    ∀ d ∈ Category.meanSupplies curves p s,
      Supplies data (Category.meanFragment curves p o s).data d := by
  intro d hd
  rcases List.mem_cons.mp hd with rfl | hd
  · apply supplies_rows List.mem_cons_self
    intro row hr
    obtain ⟨k, -, hr⟩ := List.mem_flatMap.mp hr
    obtain ⟨m, -, rfl⟩ := List.mem_map.mp hr
    exact has_row fun f hf => hf
  · obtain rfl := List.mem_singleton.mp hd
    refine ⟨_, List.mem_cons_of_mem _ List.mem_cons_self, rfl, fun f hf => ?_⟩
    rcases List.mem_append.mp hf with hf | hf
    · simp only [List.mem_cons, List.not_mem_nil, or_false] at hf
      rcases hf with rfl | hf
      · exact hasField_boundGroup List.mem_cons_self
      · exact hasField_bound hf
    · exact hasField_boundGroup (List.mem_cons_of_mem _ hf)

end

theorem supplies_box {boxes : List Box} :
    ∀ d ∈ Category.boxSupplies, Supplies data (Category.boxFragment boxes p o s).data d := by
  intro d hd
  simp only [Category.boxSupplies, List.mem_cons, List.not_mem_nil, or_false] at hd
  rcases hd with rfl | rfl | rfl
  · apply supplies_rows List.mem_cons_self
    intro row hr f hf
    obtain ⟨b, -, rfl⟩ := List.mem_map.mp hr
    apply has_obj
    revert f
    simp [Category.boxFields]
  · apply supplies_rows (List.mem_cons_of_mem _ List.mem_cons_self)
    intro row hr f hf
    obtain ⟨b, -, hr⟩ := List.mem_flatMap.mp hr
    have hrow : ∃ type start stop, row = Category.whiskerRow p b type start stop := by
      rcases List.mem_cons.mp hr with rfl | hr
      · exact ⟨_, _, _, rfl⟩
      · obtain rfl := List.mem_singleton.mp hr
        exact ⟨_, _, _, rfl⟩
    obtain ⟨type, start, stop, rfl⟩ := hrow
    apply has_obj
    revert f
    simp [Category.boxFields]
  · refine supplies_rows
      (List.mem_cons_of_mem _ (List.mem_cons_of_mem _ List.mem_cons_self)) fun row hr f hf => ?_
    obtain ⟨b, -, rfl⟩ := List.mem_map.mp hr
    apply has_obj
    revert f
    simp [Category.boxFields]

/-- Every layer has the fields that it supplies. -/
theorem supplies_fragment {kind : LayerKind} {f : Fragment} (hf : kind.fragment p o s = .ok f)
    (h : OwnedBy data f.data) : ∀ d ∈ kind.supplies p s, Supplies data f.data d := by
  cases kind with
  | geometry g =>
    intro d hd
    cases hd
  | statistic k =>
    cases k with
    | glm =>
      obtain rfl := Except.ok.inj hf
      exact supplies_regression h
    | smooth =>
      obtain rfl := Except.ok.inj hf
      exact supplies_regression h
    | summary =>
      obtain rfl := Except.ok.inj hf
      exact supplies_mean
    | boxplot =>
      obtain rfl := Except.ok.inj hf
      exact supplies_box
    | bin =>
      obtain rfl := Except.ok.inj hf
      apply supplies_single
      intro row hr
      obtain ⟨b, -, hr⟩ := List.mem_flatMap.mp hr
      obtain ⟨⟨⟨center, count⟩, left, right⟩, -, rfl⟩ := List.mem_map.mp hr
      exact has_row (by simp)
    | density =>
      obtain rfl := Except.ok.inj hf
      apply supplies_single
      intro row hr
      obtain ⟨c, -, hr⟩ := List.mem_flatMap.mp hr
      rw [Curve.densityRows, ← List.map_uncurry_zip_eq_zipWith] at hr
      obtain ⟨⟨x, y⟩, -, rfl⟩ := List.mem_map.mp hr
      exact has_row (by simp)
    | violin =>
      obtain rfl := Except.ok.inj hf
      apply supplies_single
      intro row hr
      obtain ⟨v, -, rfl⟩ := List.mem_map.mp hr
      exact has_row (by simp)
    | qq =>
      obtain rfl := Except.ok.inj hf
      apply supplies_single
      intro row hr
      obtain ⟨q, -, rfl⟩ := List.mem_map.mp hr
      exact has_row (by simp)
    | bin2d =>
      obtain ⟨heat, -, hf⟩ := bind_eq_ok.mp hf
      obtain rfl := Except.ok.inj hf
      apply supplies_single
      intro row hr f hf
      obtain ⟨c, -, rfl⟩ := List.mem_map.mp hr
      apply has_obj
      revert f
      simp [Cell.cellFields]

/-! ## 4. Pivots -/

theorem pivotsRead_source (name : String) (rows : List Value) :
    PivotsRead (Fragment.source name rows) := by
  intro t ht
  rw [transforms, parts_of_get?_none rfl] at ht
  cases ht

-- The pivot of the bounds reads fields that the rows of both bounds have.
theorem pivotsRead_boundSource (c : Coloring) (curves : List SummaryCurve) :
    PivotsRead (Category.boundSource c (Category.meanBounds p c curves)) := by
  intro t ht hpivot
  refine ⟨_, rfl, fun x hx => ?_⟩
  obtain rfl : t = _ := by
    rcases List.mem_cons.mp ht with rfl | ht
    · rfl
    · obtain rfl := List.mem_singleton.mp ht
      exact absurd (hpivot.eq_of_type rfl) (by decide)
  -- The pivot reads its field, its value, and the fields that it groups by.
  have hfield : ∃ f ∈ c.fields ["x", "y", "ci_type"], x = .str f := by
    rcases List.mem_cons.mp hx with rfl | hx
    · exact ⟨"ci_type", Coloring.own_mem_fields (by decide), rfl⟩
    rcases List.mem_cons.mp hx with rfl | hx
    · exact ⟨"y", Coloring.own_mem_fields (by decide), rfl⟩
    obtain ⟨f, hf, rfl⟩ := List.mem_map.mp hx
    refine ⟨f, ?_, rfl⟩
    rcases List.mem_append.mp hf with hf | hf
    · simp only [List.mem_cons, List.not_mem_nil, or_false] at hf
      rcases hf with rfl | rfl
      · exact Coloring.own_mem_fields (by decide)
      · exact Coloring.group_mem_fields
    · exact List.mem_append_right _ (List.mem_cons_of_mem _ hf)
  obtain ⟨f, hf, rfl⟩ := hfield
  refine ⟨f, rfl, fun row hr => ?_⟩
  obtain ⟨k, -, hr⟩ := List.mem_flatMap.mp hr
  obtain ⟨m, -, hr⟩ := List.mem_flatMap.mp hr
  obtain ⟨b, -, rfl⟩ := List.mem_map.mp hr
  exact has_row (by simp) f hf

-- A pivot of a layer reads fields that are there.
theorem pivotsRead_fragment {kind : LayerKind} {f : Fragment}
    (hf : kind.fragment p o s = .ok f) : ∀ v ∈ f.data, PivotsRead v := by
  have hregression (n : Curve.Names) (curves : List RegressionCurve) :
      ∀ v ∈ (Curve.regressionFragment n curves p o s).data, PivotsRead v := by
    intro v hv
    rcases List.mem_cons.mp hv with rfl | hv
    · exact pivotsRead_source _ _
    · split at hv
      next =>
        obtain rfl := List.mem_singleton.mp hv
        intro t ht hpivot
        obtain rfl := List.mem_singleton.mp ht
        exact absurd (hpivot.eq_of_type rfl) (by decide)
      next => cases hv
  cases kind with
  | geometry g =>
    obtain rfl := Except.ok.inj hf
    cases g <;> exact List.forall_mem_nil _
  | statistic k =>
    cases k with
    | glm =>
      obtain rfl := Except.ok.inj hf
      exact hregression _ _
    | smooth =>
      obtain rfl := Except.ok.inj hf
      exact hregression _ _
    | summary =>
      obtain rfl := Except.ok.inj hf
      intro v hv
      rcases List.mem_cons.mp hv with rfl | hv
      · exact pivotsRead_source _ _
      · obtain rfl := List.mem_singleton.mp hv
        exact pivotsRead_boundSource _ _
    | boxplot =>
      obtain rfl := Except.ok.inj hf
      exact List.forall_mem_cons.mpr ⟨pivotsRead_source _ _, List.forall_mem_cons.mpr
        ⟨pivotsRead_source _ _, List.forall_mem_cons.mpr ⟨pivotsRead_source _ _,
          List.forall_mem_nil _⟩⟩⟩
    | bin2d =>
      obtain ⟨heat, -, hf⟩ := bind_eq_ok.mp hf
      obtain rfl := Except.ok.inj hf
      exact List.forall_mem_cons.mpr ⟨pivotsRead_source _ _, List.forall_mem_nil _⟩
    | _ =>
      obtain rfl := Except.ok.inj hf
      exact List.forall_mem_cons.mpr ⟨pivotsRead_source _ _, List.forall_mem_nil _⟩

end PlotScene
