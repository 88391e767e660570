import PlotScene.Proofs.Numeric.Range
import PlotScene.Proofs.Statistic.Contribution

/-!
# Records that do not stop a reading

A record of numbers within the range of doubles is read or it is malformed, with one exception: an
array of boxes that has no axis, or whose rows are long and nested, stops the reading.
-/

namespace PlotScene

/-! ## 1. Readings that end in records or in a malformed record -/

/-- A reading that does not stop the operation. -/
def Reading.Recovers {α : Type} (x : Reading α) : Prop := ∀ f, x ≠ .error (.fault f)

namespace Reading

variable {α β : Type}

theorem recovers_ok (a : α) : Recovers (.ok a : Reading α) := fun f hf => by cases hf

theorem recovers_malformed (m : Malformed) : Recovers (.error (.malformed m) : Reading α) :=
  fun f hf => by cases hf

theorem Recovers.bind {x : Reading α} {k : α → Reading β} (hx : x.Recovers)
    (hk : ∀ a, x = .ok a → (k a).Recovers) : (x >>= k).Recovers := by
  intro f hf
  rcases bind_eq_error.mp hf with hf | ⟨a, ha, hf⟩
  · exact hx f hf
  · exact hk a ha f hf

end Reading

open Reading

theorem recovers_requireFields (record : Value) (names : List String) :
    (requireFields record names).Recovers := by
  rw [requireFields]
  split
  · split
    · exact recovers_ok ()
    · exact recovers_malformed _
  · exact recovers_malformed _

theorem recovers_readGrid {v : Value} (h : v.InRange) : (readGrid v).Recovers := by
  rw [readGrid]
  split
  next => exact recovers_ok _
  next hv => exact absurd hv (Grid.ofValue_ne_outOfRange h)
  next => exact recovers_malformed _

theorem readGrid?_answers {v : Value} (h : v.InRange) : ∃ g, readGrid? v = .ok g := by
  rw [readGrid?]
  split
  next g _ => exact ⟨some g, rfl⟩
  next hv => exact absurd hv (Grid.ofValue_ne_outOfRange h)
  next => exact ⟨none, rfl⟩

theorem recovers_readVector {v : Value} (h : v.InRange) (name : String) :
    (readVector v name).Recovers := by
  obtain ⟨g, hg⟩ := readGrid?_answers h
  rw [readVector, hg]
  cases g with
  | none => exact recovers_malformed _
  | some g =>
    show Recovers (if g.cells.isEmpty then _ else _)
    split
    · exact recovers_malformed _
    · exact recovers_ok _

theorem recovers_readPair {v w : Value} (hv : v.InRange) (hw : w.InRange)
    (first second : String) : (readPair v w first second).Recovers := by
  apply (recovers_readVector hv first).bind
  intro xs _
  apply (recovers_readVector hw second).bind
  intro ys _
  split
  · exact recovers_ok _
  · exact recovers_malformed _

theorem recovers_readCurve {record : Value} (h : record.InRange) :
    (readCurve record).Recovers := by
  apply (recovers_requireFields _ _).bind
  intro _ _
  exact recovers_readPair (h.getD "x") (h.getD "y") "x" "y"

/-! ## 2. Bands -/

namespace Band

theorem columns_ne_nil {cells : List Float} (h : 2 ≤ cells.length) : (columns cells).1 ≠ [] := by
  match cells, h with
  | a :: b :: rest, _ => exact List.cons_ne_nil _ _

theorem halves_ne_nil {cells : List Float} (h : 2 ≤ cells.length) : (halves cells).1 ≠ [] := by
  intro hnil
  have hlength := congrArg List.length hnil
  rw [halves, List.length_take, List.length_nil] at hlength
  omega

-- An array that is not empty and has a usable shape gives at least one bound.
theorem lower_ne_nil {g : Grid} (hlength : g.cells.length = g.shape.prod)
    {lower upper : List Float} (hs : split? g = some (lower, upper)) : lower ≠ [] := by
  obtain ⟨shape, cells⟩ := g
  have hfirst : ∀ p : List Float × List Float, p.1 ≠ [] → some p = some (lower, upper) →
      lower ≠ [] := by
    intro p hp he
    cases he
    exact hp
  rw [split?] at hs
  split at hs
  next => cases hs
  next hne =>
    have hpos : cells.length ≠ 0 := by
      intro h0
      apply hne
      rw [List.length_eq_zero_iff.mp h0]
      rfl
    split at hs
    next n hshape =>
      cases hshape
      have htwo : cells.length = n * 2 := by simpa using hlength
      have hcells : 2 ≤ cells.length := by omega
      exact hfirst _ (columns_ne_nil hcells) hs
    next n _ hshape =>
      cases hshape
      have htwo : cells.length = 2 * n := by simpa using hlength
      have hcells : 2 ≤ cells.length := by omega
      exact hfirst _ (halves_ne_nil hcells) hs
    next =>
      split at hs
      next heven =>
        have hturned : (Grid.columnMajor shape cells).length = cells.length :=
          (Grid.columnMajor_perm hlength).length_eq
        dsimp only at heven
        have hcells : 2 ≤ (Grid.columnMajor shape cells).length := by omega
        exact hfirst _ (halves_ne_nil hcells) hs
      next => cases hs

theorem base?_answers (count : Nat) {vs : List Value} (h : ∀ v ∈ vs, v.InRange) :
    ∃ b, base? count vs = .ok b := by
  induction vs with
  | nil => exact ⟨none, rfl⟩
  | cons v vs ih =>
    obtain ⟨b, hb⟩ := ih fun w hw => h w (List.mem_cons_of_mem _ hw)
    rw [base?]
    split
    · exact ⟨b, hb⟩
    · obtain ⟨g, hg⟩ := readGrid?_answers (h v List.mem_cons_self)
      rw [hg, ok_bind]
      cases g with
      | none => exact ⟨b, hb⟩
      | some g =>
        dsimp only
        split
        · exact ⟨_, rfl⟩
        · exact ⟨b, hb⟩

theorem align_answers (x upper : List Float) {lower : List Float} {bases : List Value}
    (hne : lower ≠ []) (hbases : ∀ v ∈ bases, v.InRange) :
    ∃ b, align x lower upper bases = .ok b := by
  rw [align]
  dsimp only
  split
  · exact ⟨_, rfl⟩
  · split
    next h0 => exact absurd (List.length_eq_zero_iff.mp h0) hne
    next =>
      split
      · exact ⟨_, rfl⟩
      · obtain ⟨b, hb⟩ := base?_answers lower.length hbases
        rw [hb, ok_bind]
        exact ⟨_, rfl⟩

theorem joined?_answers {lower upper : Value} (hl : lower.InRange) (hu : upper.InRange) :
    ∃ g, joined? lower upper = .ok g ∧
      ∀ grid, g = some grid → grid.cells.length = grid.shape.prod := by
  obtain ⟨l, hl⟩ := readGrid?_answers hl
  obtain ⟨u, hu⟩ := readGrid?_answers hu
  rw [joined?, hl, ok_bind, hu, ok_bind]
  cases l with
  | none => exact ⟨none, rfl, fun _ h => by cases h⟩
  | some l =>
    cases u with
    | none => exact ⟨none, rfl, fun _ h => by cases h⟩
    | some u =>
      dsimp only
      split
      next hlength =>
        refine ⟨_, rfl, fun grid h => ?_⟩
        cases h
        simp [hlength, List.length_flatMap]
      next => exact ⟨none, rfl, fun _ h => by cases h⟩

-- What a record gives as its band is read without a fault, and with the cells of its shape.
theorem given?_answers {record : Value} (hrange : record.InRange) (hrect : record.Rectangular) :
    ∃ given, given? record = .ok given ∧ ∀ v, given = some v → v.InRange ∧
      ∀ g, Grid.ofValue v = .ok g → g.cells.length = g.shape.prod := by
  rw [given?]
  dsimp only
  split
  · refine ⟨_, rfl, fun v hv => ?_⟩
    cases hv
    exact ⟨hrange.getD "yci", fun g hg => (Grid.full_of_ofValue (hrect.getD "yci") hg).length_cells⟩
  · split
    · exact ⟨none, rfl, fun v hv => by cases hv⟩
    · have hl := hrange.getD "ci_lower"
      have hu := hrange.getD "ci_upper"
      obtain ⟨joined, hjoined, hlength⟩ := joined?_answers hl hu
      rw [hjoined, ok_bind]
      cases joined with
      | some grid =>
        refine ⟨_, rfl, fun v hv => ?_⟩
        cases hv
        refine ⟨.array _ _, fun g hg => ?_⟩
        cases hg
        exact hlength grid rfl
      | none =>
        refine ⟨_, rfl, fun v hv => ?_⟩
        cases hv
        refine ⟨.list (by simpa using ⟨hl, hu⟩), fun g hg => ?_⟩
        have hpair : (Value.list [record.getD "ci_lower", record.getD "ci_upper"]).Rectangular :=
          .list (by simpa using ⟨hrect.getD "ci_lower", hrect.getD "ci_upper"⟩)
        exact (Grid.full_of_ofValue hpair hg).length_cells

theorem ofRecord_answers {record observationX : Value} (hrange : record.InRange)
    (hrect : record.Rectangular) (hobs : observationX.InRange) (kind : StatisticKind)
    (group : Nat) (x : List Float) :
    ∃ p, ofRecord kind group record x observationX = .ok p := by
  obtain ⟨given, hgiven, hvalue⟩ := given?_answers hrange hrect
  rw [ofRecord, hgiven, ok_bind]
  cases given with
  | none => exact ⟨_, rfl⟩
  | some v =>
    obtain ⟨hv, hlength⟩ := hvalue v rfl
    obtain ⟨g, hg⟩ := readGrid?_answers hv
    have hresolve : resolve v = .ok (g.bind split?) := by
      rw [resolve, hg]
      rfl
    dsimp only
    rw [hresolve, ok_bind]
    cases hs : g.bind split? with
    | none => exact ⟨_, rfl⟩
    | some bounds =>
      obtain ⟨lower, upper⟩ := bounds
      obtain ⟨grid, rfl, hsplit⟩ := Option.bind_eq_some_iff.mp hs
      have hne := lower_ne_nil (hlength grid (readGrid?_eq_ok_some.mp hg)) hsplit
      have hbases : ∀ v ∈ [record.getD "ci_x", observationX], v.InRange := by
        simpa using ⟨hrange.getD "ci_x", hobs⟩
      obtain ⟨b, hb⟩ := align_answers x upper hne hbases
      dsimp only
      rw [hb]
      exact ⟨_, rfl⟩

end Band

/-! ## 3. All kinds but boxes -/

theorem recovers_ofExcept {α : Type} {x : Except Fault α} (h : ∃ a, x = .ok a) :
    (Reading.ofExcept x).Recovers := by
  obtain ⟨a, rfl⟩ := h
  exact recovers_ok a

theorem recovers_readRegression {record observationX : Value} (hrange : record.InRange)
    (hrect : record.Rectangular) (hobs : observationX.InRange) (kind : StatisticKind)
    (group : Nat) : (readRegression kind observationX group record).Recovers := by
  apply (recovers_readCurve hrange).bind
  rintro ⟨x, y⟩ _
  apply (recovers_ofExcept (Band.ofRecord_answers hrange hrect hobs kind group x)).bind
  exact fun _ _ => recovers_ok _

theorem recovers_readSummary {record observationX : Value} (hrange : record.InRange)
    (hrect : record.Rectangular) (hobs : observationX.InRange) (group : Nat) :
    (readSummary observationX group record).Recovers := by
  apply (recovers_readCurve hrange).bind
  rintro ⟨x, y⟩ _
  apply (recovers_ofExcept (Band.ofRecord_answers hrange hrect hobs .summary group x)).bind
  exact fun _ _ => recovers_ok _

theorem recovers_readDensity {record : Value} (h : record.InRange) (group : Nat) :
    (readDensity group record).Recovers :=
  (recovers_readCurve h).bind fun _ _ => recovers_ok _

theorem recovers_readQuantiles {record : Value} (h : record.InRange) (group : Nat) :
    (readQuantiles group record).Recovers :=
  (recovers_readCurve h).bind fun _ _ => recovers_ok _

theorem recovers_readBins {record : Value} (h : record.InRange) (group : Nat) :
    (readBins group record).Recovers := by
  apply (recovers_requireFields _ _).bind
  intro _ _
  apply (recovers_readVector (h.getD "edges") "edges").bind
  intro edges _
  apply (recovers_readVector (h.getD "counts") "counts").bind
  intro counts _
  split
  · exact recovers_malformed _
  · dsimp only
    split
    · exact recovers_ok _
    · apply (recovers_readVector (h.getD "centers") "centers").bind
      intro centers _
      split
      · exact recovers_malformed _
      · exact recovers_ok _

theorem readItems_recovers {v : Value} (h : v.InRange) :
    (readItems v).Recovers ∧ ∀ vs, readItems v = .ok vs → ∀ x ∈ vs, x.InRange := by
  cases hvs : v.iterate with
  | ok items =>
    rw [readItems_eq_ok.mpr hvs]
    refine ⟨recovers_ok _, fun vs he => ?_⟩
    cases he
    exact h.iterate hvs
  | error f =>
    obtain ⟨m, hm⟩ : ∃ m, readItems v = .error (.malformed m) := by
      unfold readItems
      rw [hvs]
      cases v <;> exact ⟨_, rfl⟩
    rw [hm]
    exact ⟨recovers_malformed m, fun vs he => by cases he⟩

theorem recovers_mapM {α β : Type} {f : α → Reading β} {xs : List α}
    (h : ∀ x ∈ xs, (f x).Recovers) : (xs.mapM f).Recovers := by
  induction xs with
  | nil => exact recovers_ok []
  | cons x xs ih =>
    rw [List.mapM_cons]
    apply (h x List.mem_cons_self).bind
    intro y _
    apply (ih fun z hz => h z (List.mem_cons_of_mem _ hz)).bind
    exact fun ys _ => recovers_ok _

theorem recovers_readViolin {record : Value} (h : record.InRange) (group : Nat) :
    (readViolin group record).Recovers := by
  obtain ⟨hdensities, hds⟩ := readItems_recovers (h.getD "densities")
  obtain ⟨hpositions, hps⟩ := readItems_recovers (h.getD "densities_y")
  apply (recovers_requireFields _ _).bind
  intro _ _
  apply (recovers_readVector (h.getD "unique_x") "unique_x").bind
  intro categories _
  apply hdensities.bind
  intro densities hd
  apply hpositions.bind
  intro positions hp
  split
  · exact recovers_malformed _
  · apply Recovers.bind
    · apply recovers_mapM
      rintro ⟨d, p⟩ hmem
      obtain ⟨hdmem, hpmem⟩ := List.of_mem_zip hmem
      exact recovers_readPair (hds densities hd d hdmem) (hps positions hp p hpmem) "d" "y"
    · exact fun curves _ => recovers_ok _

theorem recovers_readCellEdges {v : Value} (h : v.InRange) : (readCellEdges v).Recovers := by
  -- What follows once both edges are known, in whichever form they were given.
  have hpair : ∀ {xs ys : Value}, xs.InRange → ys.InRange →
      (if xs.isNull || ys.isNull then .error (.malformed .edgesMissing) else do
        return (← readVector xs "edges.x", ← readVector ys "edges.y") :
          Reading (List Float × List Float)).Recovers := by
    intro xs ys hx hy
    split
    · exact recovers_malformed _
    · apply (recovers_readVector hx "edges.x").bind
      intro xEdges _
      apply (recovers_readVector hy "edges.y").bind
      exact fun yEdges _ => recovers_ok _
  have hitems : ∀ {xs ys : Value}, v.iterate = .ok [xs, ys] → xs.InRange ∧ ys.InRange :=
    fun hvs => ⟨h.iterate hvs _ (by simp), h.iterate hvs _ (by simp)⟩
  unfold readCellEdges
  dsimp only
  split
  · exact hpair (h.getD "x") (h.getD "y")
  all_goals first
    | exact recovers_malformed _
    | split
      next hvs => exact hpair (hitems hvs).1 (hitems hvs).2
      next => exact recovers_malformed _

theorem recovers_readCounts {v : Value} (h : v.InRange) (expected : List Nat) :
    (readCounts v expected).Recovers := by
  apply (recovers_readGrid h).bind
  intro g _
  dsimp only
  split
  · exact recovers_ok _
  · split
    · exact recovers_ok _
    · exact recovers_malformed _

theorem recovers_readCells {record : Value} (h : record.InRange) (group : Nat) :
    (readCells group record).Recovers := by
  apply (recovers_requireFields _ _).bind
  intro _ _
  apply (recovers_readCellEdges (h.getD "edges")).bind
  rintro ⟨xEdges, yEdges⟩ _
  apply (recovers_readCounts (h.getD "counts") _).bind
  exact fun counts _ => recovers_ok _

/-! ## 4. Boxes -/

/-- An array that boxes can be read from: it has an axis, and where its rows are long each of them
is one number after the other. -/
def Grid.HasBoxes (g : Grid) : Prop :=
  g.shape ≠ [] ∧ (g.shape.tail.prod < 5 ∨ g.shape.tail.tail.prod = 1)

/-- A record whose field of boxes, if it is there and numeric, has boxes. -/
def Value.HasBoxes (record : Value) : Prop :=
  (record.getD "boxplot_data").isNull = false →
    ∀ g, Grid.ofValue (record.getD "boxplot_data") = .ok g → g.HasBoxes

/-- A row that a box can be read from, or that is too short for one. -/
def Grid.IsBoxRow (row : Grid) : Prop :=
  row.size < 5 ∨ (row.shape ≠ [] ∧ row.shape.tail.prod = 1)

theorem rowNumbers_of_isBoxRow {row : Grid} (h : row.IsBoxRow) (hlong : ¬ row.size < 5) :
    rowNumbers row = .ok row.cells := by
  obtain ⟨hne, hone⟩ := h.resolve_left hlong
  rw [rowNumbers]
  split
  next hshape => exact absurd hshape hne
  next axis inner hshape =>
    rw [hshape] at hone
    rw [if_pos (by rw [← List.prod_eq_foldl]; exact hone)]

theorem rowNumbers_of_not_isBoxRow {row : Grid} (h : ¬ row.IsBoxRow) :
    ∃ f, rowNumbers row = .error f := by
  rw [rowNumbers]
  split
  · exact ⟨_, rfl⟩
  next axis inner hshape =>
    split
    next hone =>
      rw [← List.prod_eq_foldl] at hone
      exact absurd (Or.inr (by rw [hshape]; exact ⟨List.cons_ne_nil _ _, hone⟩)) h
    next => exact ⟨_, rfl⟩

theorem exists_of_five_le {xs : List Float} (h : 5 ≤ xs.length) :
    ∃ a b c d e rest, xs = a :: b :: c :: d :: e :: rest := by
  match xs, h with
  | a :: b :: c :: d :: e :: rest, _ => exact ⟨a, b, c, d, e, rest, rfl⟩

theorem readBox_of_isBoxRow {row : Grid} (h : row.IsBoxRow) (group category : Nat) :
    ∃ n, readBox group category row = .ok n := by
  rw [readBox]
  split
  · exact ⟨_, rfl⟩
  next hlong =>
    rw [rowNumbers_of_isBoxRow h hlong]
    have hfive : 5 ≤ row.cells.length := Nat.le_of_not_lt hlong
    obtain ⟨a, b, c, d, e, rest, hcells⟩ := exists_of_five_le hfive
    rw [hcells]
    exact ⟨_, rfl⟩

theorem readBox_of_not_isBoxRow {row : Grid} (h : ¬ row.IsBoxRow) (group category : Nat) :
    ∃ f, readBox group category row = .error (.fault f) := by
  obtain ⟨f, hf⟩ := rowNumbers_of_not_isBoxRow h
  rw [readBox, if_neg fun hshort => h (Or.inl hshort), hf]
  exact ⟨f, rfl⟩

theorem readBoxesFrom_recovers_iff {group category : Nat} {rows : List Grid} :
    (readBoxesFrom group category rows).Recovers ↔ ∀ row ∈ rows, row.IsBoxRow := by
  induction rows generalizing category with
  | nil =>
    constructor
    · intro _ row hrow
      cases hrow
    · exact fun _ => recovers_ok _
  | cons row rows ih =>
    rw [readBoxesFrom, List.forall_mem_cons]
    by_cases hrow : row.IsBoxRow
    · obtain ⟨n, hn⟩ := readBox_of_isBoxRow hrow group category
      have hrest := @ih (category + 1)
      rw [hn, ok_bind, ← hrest]
      constructor
      · intro h
        refine ⟨hrow, fun f hf => h f ?_⟩
        rw [hf]
        rfl
      · rintro ⟨-, h⟩
        exact h.bind fun _ _ => recovers_ok _
    · obtain ⟨f, hf⟩ := readBox_of_not_isBoxRow hrow group category
      rw [hf]
      exact ⟨fun h => absurd rfl (h f), fun h => absurd h.1 hrow⟩

-- Only the last axis can be empty, so an array with further axes has a row.
theorem Grid.Full.rows_ne_nil {g : Grid} (h : g.Full) (hempty : g.shape ≠ [])
    (hone : ∀ n, g.shape ≠ [n]) : g.rows ≠ [] := by
  obtain ⟨shape, cells⟩ := g
  match shape, h, hempty, hone with
  | [], _, hempty, _ => exact absurd rfl hempty
  | [n], _, _, hone => exact absurd rfl (hone n)
  | count :: m :: inner, h, _, _ =>
    have hcount : count ≠ 0 := h.axes count (by simp)
    intro hnil
    have hlength := congrArg List.length hnil
    rw [rows, List.length_map, Grid.length_cut] at hlength
    exact hcount hlength

-- The rows of an array are alike, so it is enough to look at its shape.
theorem Grid.Full.rows_isBoxRow_iff {g : Grid} (h : g.Full) (hempty : g.shape ≠ [])
    (hone : ∀ n, g.shape ≠ [n]) : (∀ row ∈ g.rows, row.IsBoxRow) ↔ g.HasBoxes := by
  have hne := h.rows_ne_nil hempty hone
  obtain ⟨shape, cells⟩ := g
  match shape, h, hempty, hone, hne with
  | [], _, hempty, _, _ => exact absurd rfl hempty
  | [n], _, _, hone, _ => exact absurd rfl (hone n)
  | count :: m :: inner, h, _, _, hne =>
    have hlength : cells.length = count * (m :: inner).prod := by
      simpa using h.length_cells
    have hwidth : (m :: inner).foldl (· * ·) 1 = (m :: inner).prod := List.prod_eq_foldl.symm
    have hrow : ∀ row ∈ (Grid.mk (count :: m :: inner) cells).rows,
        row.IsBoxRow ↔ (m :: inner).prod < 5 ∨ inner.prod = 1 := by
      intro row hrow
      rw [rows] at hrow
      dsimp only at hrow
      rw [hwidth] at hrow
      obtain ⟨part, hpart, rfl⟩ := List.mem_map.mp hrow
      have hsize : part.length = (m :: inner).prod := length_of_mem_cut hlength hpart
      rw [IsBoxRow, size, hsize]
      simp
    obtain ⟨first, hfirst⟩ := List.exists_mem_of_ne_nil _ hne
    constructor
    · intro hall
      exact ⟨List.cons_ne_nil _ _, (hrow first hfirst).mp (hall first hfirst)⟩
    · rintro ⟨-, hshape⟩ row hmem
      exact (hrow row hmem).mpr hshape

theorem readBoxes_recovers_iff {record : Value} (hrange : record.InRange)
    (hrect : record.Rectangular) (group : Nat) :
    (readBoxes group record).Recovers ↔ record.HasBoxes := by
  unfold readBoxes
  cases hnull : (record.getD "boxplot_data").isNull with
  | true =>
    refine ⟨fun _ h => ?_, fun _ => (recovers_requireFields _ _).bind fun _ hfields => ?_⟩
    · rw [hnull] at h
      cases h
    · rw [(requireFields_eq_ok.mp hfields).2 _ (List.mem_singleton_self _)] at hnull
      cases hnull
  | false =>
    rw [requireFields_eq_ok.mpr ⟨isMap_of_isNull_getD hnull, by simpa using hnull⟩, ok_bind]
    cases hg : Grid.ofValue (record.getD "boxplot_data") with
    | error f =>
      have hrecovers : (readGrid (record.getD "boxplot_data")).Recovers :=
        recovers_readGrid (hrange.getD _)
      constructor
      · intro _ _ g hg'
        rw [hg] at hg'
        cases hg'
      · intro _
        apply hrecovers.bind
        intro g hread
        rw [readGrid_eq_ok, hg] at hread
        cases hread
    | ok g =>
      rw [readGrid_eq_ok.mpr hg, ok_bind]
      have hfull : g.Full := Grid.full_of_ofValue (hrect.getD _) hg
      have hiff : record.HasBoxes ↔ g.HasBoxes := by
        constructor
        · exact fun h => h hnull g hg
        · intro h _ g' hg'
          rw [hg] at hg'
          cases hg'
          exact h
      rw [hiff]
      split
      next hshape => exact ⟨fun h => absurd rfl (h .wrongType), fun h => absurd hshape h.1⟩
      next n hshape =>
        rw [readBoxesFrom_recovers_iff]
        constructor
        · intro _
          rw [Grid.HasBoxes, hshape]
          exact ⟨List.cons_ne_nil _ _, Or.inl (by simp)⟩
        · intro _ row hrow
          rw [List.mem_singleton.mp hrow, Grid.IsBoxRow, hshape]
          exact Or.inr ⟨List.cons_ne_nil _ _, rfl⟩
      next hempty hone => rw [readBoxesFrom_recovers_iff, hfull.rows_isBoxRow_iff hempty hone]

end PlotScene
