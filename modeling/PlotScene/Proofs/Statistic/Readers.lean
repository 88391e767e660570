import PlotScene.Proofs.Outcome
import PlotScene.Proofs.Pairwise
import PlotScene.Proofs.Value.Lookup
import PlotScene.Statistic.Normalize

/-!
# What a reader accepts

A reader of fields accepts a record when the fields are there and hold what is asked for, and what
it gives is what they hold.
-/

namespace PlotScene

/-! ## 1. Fields -/

theorem isMap_of_isNull_getD {record : Value} {key : String}
    (h : (record.getD key).isNull = false) : record.isMap = true := by
  cases hget : record.get? key with
  | none =>
    rw [Value.getD_of_get?_none hget] at h
    cases h
  | some v => exact Value.isMap_of_get? hget

theorem requireFields_eq_ok {record : Value} {names : List String} :
    requireFields record names = .ok () ↔
      record.isMap = true ∧ ∀ name ∈ names, (record.getD name).isNull = false := by
  have hmissing : (names.filter fun name => (record.getD name).isNull) = [] ↔
      ∀ name ∈ names, (record.getD name).isNull = false := by
    simp [List.filter_eq_nil_iff]
  rw [requireFields, ← hmissing]
  split
  next hmap =>
    split
    next h => exact iff_of_true rfl ⟨hmap, h⟩
    next h => exact iff_of_false (fun h => by cases h) fun hall => h hall.2
  next hmap => exact iff_of_false (fun h => by cases h) fun h => hmap h.1

theorem readItems_eq_ok {v : Value} {vs : List Value} :
    readItems v = .ok vs ↔ v.iterate = .ok vs := by
  rw [readItems.eq_def]
  cases v.iterate with
  | ok ws => exact ⟨fun h => by cases h; rfl, fun h => by cases h; rfl⟩
  | error f => cases v <;> exact iff_of_false (fun h => by cases h) fun h => by cases h

/-! ## 2. Numbers -/

/-- The numbers of a value, in order, whatever the shape in which it gives them. -/
def Value.Holds (v : Value) (xs : List Float) : Prop :=
  ∃ shape, Grid.ofValue v = .ok ⟨shape, xs⟩

theorem readGrid_eq_ok {v : Value} {g : Grid} : readGrid v = .ok g ↔ Grid.ofValue v = .ok g := by
  rw [readGrid]
  split <;> simp_all

theorem readGrid?_eq_ok_some {v : Value} {g : Grid} :
    readGrid? v = .ok (some g) ↔ Grid.ofValue v = .ok g := by
  rw [readGrid?]
  split <;> simp_all

theorem readVector_eq_ok {v : Value} {name : String} {xs : List Float} :
    readVector v name = .ok xs ↔ v.Holds xs ∧ xs ≠ [] := by
  constructor
  · intro h
    rw [readVector] at h
    split at h
    next => cases h
    next => cases h
    next grid hgrid =>
      split at h
      next => cases h
      next hcells =>
        cases h
        exact ⟨⟨grid.shape, readGrid?_eq_ok_some.mp hgrid⟩, fun hnil => hcells (by rw [hnil]; rfl)⟩
  · rintro ⟨⟨shape, hgrid⟩, hne⟩
    have hcells : ¬ xs.isEmpty = true := fun h => hne (List.isEmpty_iff.mp h)
    rw [readVector, readGrid?_eq_ok_some.mpr hgrid]
    exact if_neg hcells

theorem readPair_eq_ok {v w : Value} {first second : String} {xs ys : List Float} :
    readPair v w first second = .ok (xs, ys) ↔
      v.Holds xs ∧ w.Holds ys ∧ xs ≠ [] ∧ xs.length = ys.length := by
  constructor
  · intro h
    obtain ⟨xs', hxs, h⟩ := bind_eq_ok.mp h
    obtain ⟨ys', hys, h⟩ := bind_eq_ok.mp h
    split at h
    next hlength =>
      cases h
      obtain ⟨hv, hne⟩ := readVector_eq_ok.mp hxs
      exact ⟨hv, (readVector_eq_ok.mp hys).1, hne, hlength⟩
    next => cases h
  · rintro ⟨hv, hw, hne, hlength⟩
    have hney : ys ≠ [] := by
      rintro rfl
      exact hne (List.eq_nil_of_length_eq_zero hlength)
    rw [readPair, readVector_eq_ok.mpr ⟨hv, hne⟩, ok_bind, readVector_eq_ok.mpr ⟨hw, hney⟩, ok_bind]
    exact if_pos hlength

/-- Whether a record gives the coordinates of a curve. -/
structure Value.GivesCurve (x y : List Float) (record : Value) : Prop where
  isMap : record.isMap = true
  x_there : (record.getD "x").isNull = false
  y_there : (record.getD "y").isNull = false
  x_holds : (record.getD "x").Holds x
  y_holds : (record.getD "y").Holds y

theorem readCurve_eq_ok {record : Value} {x y : List Float} :
    readCurve record = .ok (x, y) ↔ record.GivesCurve x y ∧ x ≠ [] ∧ x.length = y.length := by
  have hthere : (∀ name ∈ ["x", "y"], (record.getD name).isNull = false) ↔
      (record.getD "x").isNull = false ∧ (record.getD "y").isNull = false := by
    simp
  constructor
  · intro h
    obtain ⟨⟨⟩, hfields, hpair⟩ := bind_eq_ok.mp h
    obtain ⟨hmap, hall⟩ := requireFields_eq_ok.mp hfields
    obtain ⟨hxs, hys, hne, hlength⟩ := readPair_eq_ok.mp hpair
    obtain ⟨hx, hy⟩ := hthere.mp hall
    exact ⟨⟨hmap, hx, hy, hxs, hys⟩, hne, hlength⟩
  · rintro ⟨h, hne, hlength⟩
    rw [readCurve, requireFields_eq_ok.mpr ⟨h.isMap, hthere.mpr ⟨h.x_there, h.y_there⟩⟩, ok_bind]
    exact readPair_eq_ok.mpr ⟨h.x_holds, h.y_holds, hne, hlength⟩

/-! ## 3. Outlines -/

/-- The outline of a category: its number, and its densities at their positions. -/
structure ViolinOutline where
  category : Float
  densities : List Float
  positions : List Float

/-- What is read of an outline in group `g`. -/
def ViolinOutline.part (g : Nat) (o : ViolinOutline) : Normalized ViolinPoint :=
  readViolinCategory g o.category (o.densities, o.positions)

/-- A positive number of densities, each at a position. -/
structure ViolinOutline.Filled (o : ViolinOutline) : Prop where
  ne_nil : o.densities ≠ []
  length : o.densities.length = o.positions.length

/-- A record with these outlines, one for each category. -/
structure Value.GivesOutlines (outlines : List ViolinOutline) (record : Value) : Prop where
  isMap : record.isMap = true
  there : ∀ name ∈ ["densities", "densities_y", "unique_x"], (record.getD name).isNull = false
  categories : (record.getD "unique_x").Holds (outlines.map (·.category))
  densities : ∃ vs, (record.getD "densities").iterate = .ok vs ∧
    vs.Forall₂ (fun v o => v.Holds o.densities) outlines
  positions : ∃ vs, (record.getD "densities_y").iterate = .ok vs ∧
    vs.Forall₂ (fun v o => v.Holds o.positions) outlines
  ne_nil : outlines ≠ []
  filled : ∀ o ∈ outlines, o.Filled

-- A category, and the values of its densities and positions, make an outline.
theorem mapM_readPair_eq_ok {cs : List Float} {vs ws : List Value}
    {curves : List (List Float × List Float)} (hvs : vs.length = cs.length)
    (hws : ws.length = cs.length) :
    (vs.zip ws).mapM (fun p => readPair p.1 p.2 "d" "y") = .ok curves ↔
      ∃ outlines : List ViolinOutline, outlines.map (·.category) = cs ∧
        outlines.map (fun o => (o.densities, o.positions)) = curves ∧
        vs.Forall₂ (fun v o => v.Holds o.densities) outlines ∧
        ws.Forall₂ (fun v o => v.Holds o.positions) outlines ∧ ∀ o ∈ outlines, o.Filled := by
  induction cs generalizing vs ws curves with
  | nil =>
    obtain rfl := List.length_eq_zero_iff.mp hvs
    obtain rfl := List.length_eq_zero_iff.mp hws
    constructor
    · rintro h
      cases h
      exact ⟨[], rfl, rfl, .nil, .nil, List.forall_mem_nil _⟩
    · rintro ⟨outlines, hcs, rfl, -⟩
      rw [List.map_eq_nil_iff.mp hcs]
      rfl
  | cons c cs ih =>
    obtain ⟨v, vs, rfl⟩ := List.exists_cons_of_length_eq_add_one hvs
    obtain ⟨w, ws, rfl⟩ := List.exists_cons_of_length_eq_add_one hws
    rw [List.zip_cons_cons, mapM_cons_eq_ok]
    constructor
    · rintro ⟨⟨ds, ys⟩, rest, hpair, hrest, rfl⟩
      obtain ⟨hv, hw, hne, hlength⟩ := readPair_eq_ok.mp hpair
      obtain ⟨outlines, rfl, rfl, hds, hys, hfilled⟩ :=
        (ih (Nat.succ.inj hvs) (Nat.succ.inj hws)).mp hrest
      exact ⟨⟨c, ds, ys⟩ :: outlines, rfl, rfl, .cons hv hds, .cons hw hys,
        List.forall_mem_cons.mpr ⟨⟨hne, hlength⟩, hfilled⟩⟩
    · rintro ⟨outlines, hcs, rfl, hds, hys, hfilled⟩
      obtain ⟨o, rest, rfl, rfl, rfl⟩ := List.map_eq_cons_iff.mp hcs
      obtain ⟨hv, hds⟩ := List.forall₂_cons.mp hds
      obtain ⟨hw, hys⟩ := List.forall₂_cons.mp hys
      obtain ⟨hfirst, hfilled⟩ := List.forall_mem_cons.mp hfilled
      refine ⟨_, _, readPair_eq_ok.mpr ⟨hv, hw, hfirst.ne_nil, hfirst.length⟩, ?_, rfl⟩
      exact (ih (Nat.succ.inj hvs) (Nat.succ.inj hws)).mpr
        ⟨rest, rfl, rfl, hds, hys, hfilled⟩

/-- A violin record is accepted when it gives outlines, and it is read as these, each on its own. -/
theorem readViolin_eq_ok {g : Nat} {record : Value} {n : Normalized ViolinPoint} :
    readViolin g record = .ok n ↔ ∃ outlines, record.GivesOutlines outlines ∧
      n = Normalized.concat (outlines.map (·.part g)) := by
  have hparts (outlines : List ViolinOutline) : List.zipWith (readViolinCategory g)
      (outlines.map (·.category)) (outlines.map fun o => (o.densities, o.positions)) =
        outlines.map (·.part g) := by
    rw [List.zipWith_map, List.zipWith_self]
    rfl
  constructor
  · intro h
    obtain ⟨⟨⟩, hfields, h⟩ := bind_eq_ok.mp h
    obtain ⟨cs, hcs, h⟩ := bind_eq_ok.mp h
    obtain ⟨vs, hvs, h⟩ := bind_eq_ok.mp h
    obtain ⟨ws, hws, h⟩ := bind_eq_ok.mp h
    split at h
    next => cases h
    next hcounts =>
      obtain ⟨curves, hcurves, h⟩ := bind_eq_ok.mp h
      rw [not_or, not_not, not_not] at hcounts
      obtain ⟨hmap, hthere⟩ := requireFields_eq_ok.mp hfields
      obtain ⟨outlines, rfl, rfl, hds, hys, hfilled⟩ :=
        (mapM_readPair_eq_ok hcounts.1 hcounts.2).mp hcurves
      obtain ⟨hcategories, hne⟩ := readVector_eq_ok.mp hcs
      refine ⟨outlines, ⟨hmap, hthere, hcategories, ⟨vs, readItems_eq_ok.mp hvs, hds⟩,
        ⟨ws, readItems_eq_ok.mp hws, hys⟩, ?_, hfilled⟩, ?_⟩
      · rintro rfl
        exact hne rfl
      · rw [← hparts]
        exact (pure_eq_ok.mp h).symm
  · rintro ⟨outlines, houtlines, rfl⟩
    obtain ⟨vs, hvs, hds⟩ := houtlines.densities
    obtain ⟨ws, hws, hys⟩ := houtlines.positions
    have hne : outlines.map (·.category) ≠ [] := by
      rw [ne_eq, List.map_eq_nil_iff]
      exact houtlines.ne_nil
    have hvslength : vs.length = (outlines.map (·.category)).length := by
      rw [List.length_map, hds.length_eq]
    have hwslength : ws.length = (outlines.map (·.category)).length := by
      rw [List.length_map, hys.length_eq]
    have hcurves := (mapM_readPair_eq_ok hvslength hwslength).mpr
      ⟨outlines, rfl, rfl, hds, hys, houtlines.filled⟩
    rw [readViolin, requireFields_eq_ok.mpr ⟨houtlines.isMap, houtlines.there⟩, ok_bind,
      readVector_eq_ok.mpr ⟨houtlines.categories, hne⟩, ok_bind, readItems_eq_ok.mpr hvs, ok_bind,
      readItems_eq_ok.mpr hws, ok_bind, ← hparts]
    dsimp only
    rw [if_neg (by rw [hvslength, hwslength]; simp), hcurves]
    rfl

end PlotScene
