import PlotScene.Proofs.Statistic.Samples
import PlotScene.Proofs.Statistic.Bounds

/-!
# The layouts of a band

Two bounds are given as two fields, as rows of two, as one row after the other, or as one list with
the lower bounds first.  All layouts give the same band to the same curve.
-/

namespace PlotScene

open Band

/-- The layouts in which a record gives the bounds `lower` and `upper`.  Two rows of two are read as
two columns. -/
inductive Value.GivesBounds (lower upper : List Float) (record : Value) : Prop where
  | apart : (record.getD "yci").isNull = true → (record.getD "ci_lower").isNull = false →
      (record.getD "ci_upper").isNull = false → (record.getD "ci_lower").Holds lower →
      (record.getD "ci_upper").Holds upper → GivesBounds lower upper record
  | columns : Grid.ofValue (record.getD "yci") = .ok ⟨[lower.length, 2], paired lower upper⟩ →
      GivesBounds lower upper record
  | flat : Grid.ofValue (record.getD "yci") = .ok ⟨[2 * lower.length], lower ++ upper⟩ →
      GivesBounds lower upper record
  | rows : lower.length ≠ 2 →
      Grid.ofValue (record.getD "yci") = .ok ⟨[2, lower.length], lower ++ upper⟩ →
      GivesBounds lower upper record

namespace Band

/-! ## 1. Splitting each layout -/

section

variable {lower upper : List Float} (hne : lower ≠ []) (hlength : lower.length = upper.length)

theorem columns_paired : ∀ {lower upper : List Float}, lower.length = upper.length →
    columns (paired lower upper) = (lower, upper)
  | [], [], _ => rfl
  | a :: lower, b :: upper, h => by
    have ih := columns_paired (Nat.succ.inj h)
    show columns (a :: b :: paired lower upper) = _
    rw [columns, ih]

include hlength in
theorem halves_append : halves (lower ++ upper) = (lower, upper) := by
  have hhalf : (lower ++ upper).length / 2 = lower.length := by
    rw [List.length_append]
    omega
  rw [halves, hhalf, List.take_left, List.drop_left]

-- Read column by column, an array with one axis is as it is.
theorem columnMajor_flat (cells : List Float) : Grid.columnMajor [cells.length] cells = cells := by
  have hcut : (Grid.cut 1 cells.length cells).filterMap (fun part => part[0]?) = cells := by
    induction cells with
    | nil => rfl
    | cons a cells ih =>
      rw [List.length_cons, Grid.cut, List.filterMap_cons]
      simpa using ih
  simpa [Grid.columnMajor, Grid.interleave] using hcut

include hne hlength in
theorem split?_columns : split? ⟨[lower.length, 2], paired lower upper⟩ = some (lower, upper) := by
  have hcells : (paired lower upper).isEmpty = false := by
    match lower, upper, hne, hlength with
    | _ :: _, _ :: _, _, _ => rfl
  simp only [split?, hcells, Bool.false_eq_true, if_false, columns_paired hlength]

include hne hlength in
theorem split?_flat : split? ⟨[2 * lower.length], lower ++ upper⟩ = some (lower, upper) := by
  have hcells : (lower ++ upper).isEmpty = false := by simp [hne]
  have htwice : (lower ++ upper).length = 2 * lower.length := by
    rw [List.length_append]
    omega
  have heven : (lower ++ upper).length % 2 = 0 := by omega
  simp only [split?, hcells, Bool.false_eq_true, if_false, heven, if_true, ← htwice,
    columnMajor_flat, halves_append hlength]

include hne hlength in
theorem split?_rows (hrows : lower.length ≠ 2) :
    split? ⟨[2, lower.length], lower ++ upper⟩ = some (lower, upper) := by
  have hcells : (lower ++ upper).isEmpty = false := by simp [hne]
  simp only [split?, hcells, Bool.false_eq_true, if_false]
  rw [halves_append hlength]

end

/-! ## 2. The band of a record -/

variable {record : Value} {lower upper : List Float}

theorem ofRecord_of_split? {v : Value} {g : Grid} (hgiven : given? record = .ok (some v))
    (hg : Grid.ofValue v = .ok g) (hsplit : split? g = some (lower, upper)) (kind : StatisticKind)
    (group : Nat) (x : List Float) (observationX : Value) :
    ofRecord kind group record x observationX =
      (align x lower upper [record.getD "ci_x", observationX]).map fun b => (some b, []) := by
  have hresolve : resolve v = .ok (some (lower, upper)) := by
    rw [resolve, readGrid?_eq_ok_some.mpr hg, ok_bind, Option.bind_some, hsplit]
    rfl
  rw [ofRecord, hgiven, ok_bind]
  dsimp only
  rw [hresolve, ok_bind]
  rfl

-- An array with an axis is not null, which has none.
theorem given?_whole {g : Grid} (hg : Grid.ofValue (record.getD "yci") = .ok g)
    (hshape : g.shape ≠ []) : given? record = .ok (some (record.getD "yci")) := by
  have hnull : (!(record.getD "yci").isNull) = true := by
    rw [Bool.not_eq_true']
    unfold Value.isNull
    split
    · next heq =>
      rw [heq] at hg
      cases hg
      exact absurd rfl hshape
    · rfl
  rw [given?]
  exact if_pos hnull

theorem given?_apart (hwhole : (record.getD "yci").isNull = true)
    (hl : (record.getD "ci_lower").isNull = false) (hu : (record.getD "ci_upper").isNull = false)
    (hlower : (record.getD "ci_lower").Holds lower) (hupper : (record.getD "ci_upper").Holds upper)
    (hlength : lower.length = upper.length) :
    given? record = .ok (some (.array [lower.length, 2] (paired lower upper))) := by
  obtain ⟨_, hlower⟩ := hlower
  obtain ⟨_, hupper⟩ := hupper
  rw [given?]
  simp only [hwhole, hl, hu, joined?, readGrid?_eq_ok_some.mpr hlower,
    readGrid?_eq_ok_some.mpr hupper, ok_bind, if_pos hlength]
  rfl

/-- In every layout the band of a record is the alignment of its bounds. -/
theorem ofRecord_of_givesBounds (hne : lower ≠ []) (hlength : lower.length = upper.length)
    (h : record.GivesBounds lower upper) (kind : StatisticKind) (group : Nat) (x : List Float)
    (observationX : Value) :
    ofRecord kind group record x observationX =
      (align x lower upper [record.getD "ci_x", observationX]).map fun b => (some b, []) := by
  cases h with
  | apart hwhole hl hu hlower hupper =>
    exact ofRecord_of_split? (given?_apart hwhole hl hu hlower hupper hlength) rfl
      (split?_columns hne hlength) kind group x observationX
  | columns hg =>
    exact ofRecord_of_split? (given?_whole hg (List.cons_ne_nil _ _)) hg
      (split?_columns hne hlength) kind group x observationX
  | flat hg =>
    exact ofRecord_of_split? (given?_whole hg (List.cons_ne_nil _ _)) hg
      (split?_flat hne hlength) kind group x observationX
  | rows hrows hg =>
    exact ofRecord_of_split? (given?_whole hg (List.cons_ne_nil _ _)) hg
      (split?_rows hne hlength hrows) kind group x observationX

/-! ## 3. When bounds are aligned -/

/-- Whether a value gives the positions of `count` samples. -/
def Serves (count : Nat) (v : Value) : Prop :=
  v.isNull = false ∧ ∃ xs, v.Holds xs ∧ isBase count xs = true

/-- Whether a value has an integer beyond the range of doubles, found before anything that is not
numeric. -/
def Overflows (v : Value) : Prop := Grid.ofValue v = .error .outOfRange

theorem readGrid?_of_overflows {v : Value} (h : Overflows v) :
    readGrid? v = .error (.number .outOfRange) := by
  rw [readGrid?, h]

theorem readGrid?_of_error {v : Value} {f : NumberFault} (h : Grid.ofValue v = .error f)
    (hf : f ≠ .outOfRange) : readGrid? v = .ok none := by
  rw [readGrid?, h]
  cases f with
  | outOfRange => exact absurd rfl hf
  | _ => rfl

section

variable {count : Nat} {v : Value}

theorem serves_iff_isBase {g : Grid} (hnull : ¬ v.isNull = true) (hg : Grid.ofValue v = .ok g) :
    Serves count v ↔ isBase count g.cells = true := by
  constructor
  · rintro ⟨-, xs, ⟨shape, hxs⟩, hbase⟩
    rw [hg] at hxs
    cases hxs
    exact hbase
  · exact fun hbase => ⟨Bool.eq_false_iff.mpr hnull, g.cells, ⟨g.shape, hg⟩, hbase⟩

theorem Serves.not_overflows (h : Serves count v) : ¬ Overflows v := by
  obtain ⟨-, xs, ⟨shape, hxs⟩, -⟩ := h
  intro hover
  rw [Overflows, hxs] at hover
  cases hover

theorem not_serves_of_error {f : NumberFault} (hg : Grid.ofValue v = .error f) :
    ¬ Serves count v := by
  rintro ⟨-, xs, ⟨shape, hxs⟩, -⟩
  rw [hg] at hxs
  cases hxs

theorem not_overflows_of_isNull (hnull : v.isNull = true) : ¬ Overflows v := by
  intro h
  unfold Value.isNull at hnull
  split at hnull
  · cases h
  · cases hnull

/-- A value stops the search for positions, ends it, or is passed over. -/
theorem base?_cons (count : Nat) (v : Value) (vs : List Value) :
    (Overflows v ∧ base? count (v :: vs) = .error (.number .outOfRange)) ∨
      (Serves count v ∧ ∃ xs, base? count (v :: vs) = .ok (some xs)) ∨
      (¬ Overflows v ∧ ¬ Serves count v ∧ base? count (v :: vs) = base? count vs) := by
  by_cases hnull : v.isNull = true
  · refine .inr (.inr ⟨not_overflows_of_isNull hnull, fun h => ?_, by rw [base?, if_pos hnull]⟩)
    exact Bool.false_ne_true (h.1.symm.trans hnull)
  cases hg : Grid.ofValue v with
  | ok g =>
    have hread : base? count (v :: vs) =
        if isBase count g.cells then .ok (some g.cells) else base? count vs := by
      rw [base?, if_neg hnull, readGrid?_eq_ok_some.mpr hg]
      rfl
    have hnumeric : ¬ Overflows v := fun h => by cases hg.symm.trans h
    by_cases hbase : isBase count g.cells = true
    · rw [if_pos hbase] at hread
      exact .inr (.inl ⟨(serves_iff_isBase hnull hg).mpr hbase, g.cells, hread⟩)
    · rw [if_neg hbase] at hread
      have hserves : ¬ Serves count v := fun h => hbase ((serves_iff_isBase hnull hg).mp h)
      exact .inr (.inr ⟨hnumeric, hserves, hread⟩)
  | error f =>
    by_cases hf : f = .outOfRange
    · subst hf
      refine .inl ⟨hg, ?_⟩
      rw [base?, if_neg hnull, readGrid?_of_overflows hg]
      rfl
    · have hnumeric : ¬ Overflows v := fun h => hf (Except.error.inj (hg.symm.trans h))
      refine .inr (.inr ⟨hnumeric, not_serves_of_error hg, ?_⟩)
      rw [base?, if_neg hnull, readGrid?_of_error hg hf, ok_bind]

-- Positions are looked for as long as no integer stops the search.
theorem base?_cons_answers_iff (count : Nat) (v : Value) (vs : List Value) :
    (∃ b, base? count (v :: vs) = .ok b) ↔
      ¬ Overflows v ∧ (Serves count v ∨ ∃ b, base? count vs = .ok b) := by
  rcases base?_cons count v vs with ⟨hover, hbase⟩ | ⟨hserves, xs, hbase⟩ | ⟨hover, hserves, hbase⟩
  · rw [hbase]
    refine iff_of_false ?_ fun h => h.1 hover
    rintro ⟨b, hb⟩
    cases hb
  · exact iff_of_true ⟨_, hbase⟩ ⟨hserves.not_overflows, .inl hserves⟩
  · rw [hbase]
    exact ⟨fun h => ⟨hover, .inr h⟩, fun h => h.2.resolve_left hserves⟩

end

theorem align_answers_iff {x lower upper : List Float} (hne : lower ≠ []) (v w : Value) :
    (∃ b, align x lower upper [v, w] = .ok b) ↔
      ¬ (1 < lower.length ∧ lower.length < x.length ∧ Sequence.constant x = false ∧
        (Overflows v ∨ ¬ Serves lower.length v ∧ Overflows w)) := by
  have hbase : (∃ b, base? lower.length [v, w] = .ok b) ↔
      ¬ (Overflows v ∨ ¬ Serves lower.length v ∧ Overflows w) := by
    rw [base?_cons_answers_iff, base?_cons_answers_iff]
    have hnil : ∃ b, base? lower.length [] = .ok b := ⟨none, rfl⟩
    tauto
  have hpos : lower.length ≠ 0 := fun h => hne (List.length_eq_zero_iff.mp h)
  rw [align]
  dsimp only
  split
  · next hlong => exact iff_of_true ⟨_, rfl⟩ fun h => absurd h.2.1 (Nat.not_lt.mpr hlong)
  next hshort =>
    by_cases hone : lower.length = 1 ∨ Sequence.constant x = true
    · rw [if_pos hone]
      refine iff_of_true ⟨_, rfl⟩ ?_
      rintro ⟨hmany, -, hvaried, -⟩
      rcases hone with hone | hconstant
      · exact absurd hone (Nat.ne_of_gt hmany)
      · exact Bool.false_ne_true (hvaried.symm.trans hconstant)
    · obtain ⟨hmany, hvaried⟩ := not_or.mp hone
      have hinner : 1 < lower.length ∧ lower.length < x.length ∧ Sequence.constant x = false :=
        ⟨by omega, by omega, Bool.eq_false_iff.mpr hvaried⟩
      rw [if_neg hone, exists_bind_pure, hbase]
      tauto

end Band

/-! ## 4. Curves in every layout -/

section

variable {record observationX : Value} {x y lower upper : List Float}

theorem normalize_of_isMap {kind : StatisticKind} (h : record.isMap = true) :
    normalize kind record observationX = readGroup kind (kind.read observationX) 1 record := by
  cases record with
  | map es => exact (normalize_groupsOf _).trans (normalize_singleton _)
  | _ => cases h

theorem readGroup_readRegression {kind : StatisticKind} {g : Nat} {aligned : Except Fault Band}
    (hread : readCurve record = .ok (x, y))
    (hband : ofRecord kind g record x observationX = aligned.map fun b => (some b, [])) :
    readGroup kind (readRegression kind observationX) g record =
      aligned.map fun b => ⟨[⟨g, x, y, some b⟩], []⟩ := by
  rw [readGroup, readRegression, hread, ok_bind]
  dsimp only
  rw [hband]
  cases aligned <;> rfl

theorem readGroup_readSummary {g : Nat} {aligned : Except Fault Band}
    (hread : readCurve record = .ok (x, y))
    (hband : ofRecord .summary g record x observationX = aligned.map fun b => (some b, [])) :
    readGroup .summary (readSummary observationX) g record =
      aligned.map fun b => ⟨[⟨g, x, y, b⟩], []⟩ := by
  rw [readGroup, readSummary, hread, ok_bind]
  dsimp only
  rw [hband]
  cases aligned <;> rfl

/-- In every layout the bounds of a band make the same curve, without a notice: it has the band that
they are aligned to.  They are aligned, unless a band shorter than its curve looks for the positions
of its samples and meets an integer beyond the range of doubles. -/
theorem normalize_layouts (hcurve : record.GivesCurve x y) (hne : x ≠ [])
    (hpoints : x.length = y.length) (hbounds : lower ≠ []) (hlength : lower.length = upper.length)
    (hgives : record.GivesBounds lower upper) :
    let aligned := align x lower upper [record.getD "ci_x", observationX]
    normalize .glm record observationX = aligned.map (fun b => ⟨[⟨1, x, y, some b⟩], []⟩) ∧
      normalize .smooth record observationX = aligned.map (fun b => ⟨[⟨1, x, y, some b⟩], []⟩) ∧
      normalize .summary record observationX = aligned.map (fun b => ⟨[⟨1, x, y, b⟩], []⟩) ∧
      ((∃ b, aligned = .ok b) ↔
        ¬ (1 < lower.length ∧ lower.length < x.length ∧ Sequence.constant x = false ∧
          (Overflows (record.getD "ci_x") ∨
            ¬ Serves lower.length (record.getD "ci_x") ∧ Overflows observationX))) := by
  have hread := readCurve_eq_ok.mpr ⟨hcurve, hne, hpoints⟩
  have hband (kind : StatisticKind) :=
    ofRecord_of_givesBounds hbounds hlength hgives kind 1 x observationX
  refine ⟨?_, ?_, ?_, align_answers_iff hbounds _ _⟩
  · exact (normalize_of_isMap hcurve.isMap).trans (readGroup_readRegression hread (hband .glm))
  · exact (normalize_of_isMap hcurve.isMap).trans (readGroup_readRegression hread (hband .smooth))
  · exact (normalize_of_isMap hcurve.isMap).trans (readGroup_readSummary hread (hband .summary))

end

/-- A curve of four points, and three samples of a band in the layout of `fields`. -/
def sampledBand (fields : List (String × Value)) : Value :=
  .obj ([("x", .list [.float 0, .float 1, .float 2, .float 3]),
    ("y", .list [.float 5, .float 6, .float 7, .float 8]),
    ("ci_x", .list [.float 3, .float 0, .float 1])] ++ fields)

/-- One band in each of the layouts. -/
def bandLayouts : List (List (String × Value)) :=
  [[("ci_lower", .list [.float 1, .float 2, .float 3]),
      ("ci_upper", .list [.float 4, .float 5, .float 6])],
    [("yci", .list [.list [.float 1, .float 4], .list [.float 2, .float 5],
      .list [.float 3, .float 6]])],
    [("yci", .list [.float 1, .float 2, .float 3, .float 4, .float 5, .float 6])],
    [("yci", .list [.list [.float 1, .float 2, .float 3], .list [.float 4, .float 5, .float 6]])]]

theorem normalize_layouts_bandLayouts : ∃ b, ∀ fields ∈ bandLayouts,
    normalize .summary (sampledBand fields) .null =
      .ok ⟨[⟨1, [0, 1, 2, 3], [5, 6, 7, 8], b⟩], []⟩ := by
  have hcurve (fields : List (String × Value)) :
      (sampledBand fields).GivesCurve [0, 1, 2, 3] [5, 6, 7, 8] :=
    ⟨rfl, rfl, rfl, ⟨[4], rfl⟩, ⟨[4], rfl⟩⟩
  have hbounds : ∀ fields ∈ bandLayouts, (sampledBand fields).GivesBounds [1, 2, 3] [4, 5, 6] := by
    simp only [bandLayouts, List.forall_mem_cons]
    exact ⟨.apart rfl rfl rfl ⟨[3], rfl⟩ ⟨[3], rfl⟩, .columns rfl, .flat rfl,
      .rows (by decide) rfl, fun _ h => by cases h⟩
  have hpositions : ¬ Overflows (.list [.float 3, .float 0, .float 1]) := fun h => by cases h
  have hnull : ¬ Overflows .null := fun h => by cases h
  have hlayout (fields : List (String × Value)) (h : fields ∈ bandLayouts) :=
    @normalize_layouts (sampledBand fields) .null [0, 1, 2, 3] [5, 6, 7, 8] [1, 2, 3] [4, 5, 6]
      (hcurve fields) (by simp) (by simp) (by simp) (by simp) (hbounds fields h)
  obtain ⟨b, hb⟩ := (hlayout _ List.mem_cons_self).2.2.2.mpr fun h =>
    h.2.2.2.elim hpositions fun h => hnull h.2
  refine ⟨b, fun fields h => ?_⟩
  exact (hlayout fields h).2.2.1.trans (congrArg _ hb)

/-- A short band at a position beyond the range of doubles. -/
def hugePositions : Value :=
  .obj [("x", .list [.int 0, .int 1, .int 2]), ("y", .list [.int 0, .int 1, .int 2]),
    ("ci_lower", .list [.int 0, .int 2]), ("ci_upper", .list [.int 1, .int 3]),
    ("ci_x", .list [.int (10 ^ 400), .int 0])]

theorem normalize_hugePositions : ¬ ∃ n, normalize .glm hugePositions .null = .ok n := by
  have hfails : (normalize .glm hugePositions .null).toOption.isSome = false := by decide +kernel
  rintro ⟨n, hn⟩
  rw [hn] at hfails
  cases hfails

end PlotScene
