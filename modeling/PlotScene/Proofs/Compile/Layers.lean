import Mathlib.Data.List.Nodup
import PlotScene.Proofs.Compile.Assembled
import PlotScene.Proofs.Pairwise
import PlotScene.Proofs.Plot.Results

/-!
# The layers of a compiled description

Which layers a description is compiled to, in which order, from which records, and that their marks
are those of the document.
-/

namespace PlotScene

open Reference

variable {p : Plot} {o : Presentation} {s : Style}

/-! ## 1. Built-in layers -/

theorem Registry.get?_standard (kind : LayerKind) :
    Registry.standard.get? kind = some kind.builder := by
  cases kind with
  | geometry g => cases g <;> rfl
  | statistic k => cases k <;> rfl

-- Every kind has a builder, so no layer is left out.
theorem buildKinds_standard {kinds : List LayerKind} {layers : List Layer}
    (h : p.buildKinds o s .standard kinds = .ok layers) :
    layers.map Layer.kind = kinds ∧
      List.Forall₂ (fun kind f => kind.fragment p o s = .ok f) kinds
        (layers.map Layer.fragment) := by
  have hall : kinds.filter Registry.standard.contains = kinds :=
    List.filter_eq_self.mpr fun kind _ =>
      Registry.contains_of_get? (Registry.get?_standard kind)
  have hlayers := buildKinds_eq_ok.mp h
  rw [hall] at hlayers
  refine ⟨Registry.kinds_of_makes hlayers, List.forall₂_map_right_iff.mpr ?_⟩
  refine hlayers.imp fun kind layer hmakes => ?_
  obtain ⟨b, hb, hf⟩ := hmakes.builder
  obtain rfl := Option.some.inj ((Registry.get?_standard kind).symm.trans hb)
  exact hf

/-- The layers of a plot are those of its plan, each with what the built-in builder makes. -/
theorem layers_of_build {layers : List Layer} {told : List Notice}
    (h : p.build o s .standard = .ok (layers, told)) :
    layers.map Layer.kind = p.layers.1 ∧
      List.Forall₂ (fun kind f => kind.fragment p o s = .ok f) p.layers.1
        (layers.map Layer.fragment) :=
  buildKinds_standard (buildKinds_of_build h).1

-- Built-in layers have nothing to tell: what was left out has been told when the plot was read.
theorem LayerKind.notices_fragment {kind : LayerKind} {f : Fragment}
    (h : kind.fragment p o s = .ok f) : f.notices = [] := by
  cases kind with
  | geometry g =>
    cases h
    cases g <;> rfl
  | statistic k =>
    cases k with
    | bin2d =>
      obtain ⟨heat, -, h⟩ := bind_eq_ok.mp h
      cases h
      rfl
    | _ =>
      cases h
      rfl

theorem told_of_build {layers : List Layer} {told : List Notice}
    (h : p.build o s .standard = .ok (layers, told)) : told = p.layers.2 := by
  obtain ⟨-, rfl⟩ := buildKinds_of_build h
  obtain ⟨-, hfragments⟩ := layers_of_build h
  have hsilent : layers.flatMap (fun layer => layer.fragment.notices) = [] := by
    rw [List.flatMap_eq_nil_iff]
    intro layer hlayer
    obtain ⟨kind, -, hkind⟩ := forall₂_mem_right hfragments (List.mem_map_of_mem hlayer)
    exact LayerKind.notices_fragment hkind
  rw [hsilent, List.append_nil]

/-! ## 2. The plan -/

/-- The layers that a description asks for: geometries, then statistics. -/
def askedLayers (description : Value) : List LayerKind :=
  (askedGeometries description).map .geometry ++ (askedStatistics description).map .statistic

theorem nodup_askedLayers (description : Value) : (askedLayers description).Nodup := by
  have hgeometries : ((askedGeometries description).map LayerKind.geometry).Nodup :=
    List.Nodup.map (fun _ _ h => LayerKind.geometry.inj h) (nodup_firsts _)
  have hstatistics : ((askedStatistics description).map LayerKind.statistic).Nodup :=
    List.Nodup.map (fun _ _ h => LayerKind.statistic.inj h) (nodup_firsts _)
  apply hgeometries.append hstatistics
  intro kind hg hs
  obtain ⟨g, -, rfl⟩ := List.mem_map.mp hg
  obtain ⟨k, -, hk⟩ := List.mem_map.mp hs
  cases hk

-- A statistic that is asked for has records, so every layer that is asked for is drawn.
theorem Plot.AsksFor.requested {description : Value} (h : p.AsksFor description) :
    p.requested = askedLayers description := by
  have hdrawable : ∀ kind ∈ askedLayers description, p.isDrawable kind = true := by
    intro kind hkind
    rcases List.mem_append.mp hkind with hg | hs
    · obtain ⟨g, -, rfl⟩ := List.mem_map.mp hg
      rfl
    · obtain ⟨k, hk, rfl⟩ := List.mem_map.mp hs
      obtain ⟨rs, hrs, hne⟩ := exists_askedRecords hk
      show (!(p.statistics.records k).isEmpty) = true
      rw [h.records, hrs]
      simpa using hne
  rw [Plot.requested, h.declared, h.order]
  show firsts ((askedLayers description).filter p.isDrawable) = askedLayers description
  rw [List.filter_eq_self.mpr hdrawable, firsts_of_nodup (nodup_askedLayers description)]

theorem Plot.AsksFor.layers {description : Value} (h : p.AsksFor description) :
    p.layers = if askedLayers description = [] then ([.geometry .point], [noLayersNotice])
      else (askedLayers description, []) := by
  rw [Plot.layers, h.requested]
  cases askedLayers description with
  | nil => rfl
  | cons kind kinds => rfl

/-! ## 3. Notices and marks -/

theorem Table.code_of_notice? {table : Table} :
    ∀ m ∈ table.notice?.toList, m.code = .invalidNumericObservation := by
  intro m hm
  rw [Table.notice?] at hm
  split at hm
  · cases hm
  · rw [List.mem_singleton.mp hm]

theorem Plot.code_of_overflowNotices :
    ∀ m ∈ p.overflowNotices s, m.code = .paletteOverflow := by
  intro m hm
  rw [Plot.overflowNotices] at hm
  split at hm
  · rw [Style.overflowNotice?] at hm
    split at hm
    · cases hm
    · rw [List.mem_singleton.mp hm]
  · cases hm

theorem Plot.code_of_layers : ∀ m ∈ p.layers.2, m.code = .noLayersDetected := by
  intro m hm
  rw [Plot.layers] at hm
  split at hm
  · rw [List.mem_singleton.mp hm]
    rfl
  · cases hm

theorem code_of_problems {ps : List Problem} :
    ∀ m ∈ ps.map Problem.notice, m.code = .unresolvedReference := by
  intro m hm
  obtain ⟨problem, -, rfl⟩ := List.mem_map.mp hm
  rfl

-- A code that is not of reading comes from one stage only.
theorem exists_code_iff {description : Value} (h : p.AsksFor description) {table : Table}
    {ps : List Problem} {code : NoticeCode} (hcode : code.isOfReading = false) :
    (∃ m ∈ p.notices ++ table.notice?.toList ++ p.overflowNotices s ++ p.layers.2 ++
        ps.map Problem.notice, m.code = code) ↔
      (code = .invalidNumericObservation ∧ table.notice?.toList ≠ []) ∨
      (code = .paletteOverflow ∧ p.overflowNotices s ≠ []) ∨
      (code = .noLayersDetected ∧ p.layers.2 ≠ []) ∨ (code = .unresolvedReference ∧ ps ≠ []) := by
  have hplot : ¬ ∃ m ∈ p.notices, m.code = code := by
    rintro ⟨m, hm, rfl⟩
    rw [h.notices m hm] at hcode
    cases hcode
  have hstage {ms : List Notice} {own : NoticeCode} (hms : ∀ m ∈ ms, m.code = own) :
      (∃ m ∈ ms, m.code = code) ↔ code = own ∧ ms ≠ [] := by
    constructor
    · rintro ⟨m, hm, rfl⟩
      exact ⟨hms m hm, List.ne_nil_of_mem hm⟩
    · rintro ⟨rfl, hne⟩
      obtain ⟨m, hm⟩ := List.exists_mem_of_ne_nil ms hne
      exact ⟨m, hm, hms m hm⟩
  simp only [List.mem_append, or_and_right, exists_or, hstage Table.code_of_notice?,
    hstage Plot.code_of_overflowNotices, hstage Plot.code_of_layers, hstage code_of_problems,
    hplot, false_or, or_assoc, ne_eq, List.map_eq_nil_iff]

-- No other stage gives the notice of a plan without layers.
theorem noLayersDetected_iff {description : Value} (h : p.AsksFor description) {table : Table}
    {ps : List Problem} :
    (∃ m ∈ p.notices ++ table.notice?.toList ++ p.overflowNotices s ++ p.layers.2 ++
        ps.map Problem.notice, m.code = .noLayersDetected) ↔ askedLayers description = [] := by
  have hplan : p.layers.2 ≠ [] ↔ askedLayers description = [] := by
    rw [h.layers]
    split <;> simp [*]
  rw [exists_code_iff h rfl, hplan]
  simp

/-- The names of marks, in the order in which they are painted. -/
def markNames (marks : List Value) : List (Option Value) :=
  marks.map fun m => m.get? "name"

-- Highlighting adds no mark, takes none away, and renames none.
theorem markNames_marks {neutral : String} {vs vs' : List Value}
    (h : Highlight.marks neutral vs = .ok vs') : markNames vs' = markNames vs := by
  induction vs generalizing vs' with
  | nil =>
    cases h
    rfl
  | cons v vs ih =>
    rw [Highlight.marks] at h
    obtain ⟨first, hfirst, h⟩ := bind_eq_ok.mp h
    obtain ⟨rest, hrest, h⟩ := bind_eq_ok.mp h
    cases h
    show first.get? "name" :: markNames rest = v.get? "name" :: markNames vs
    rw [Highlight.get?_mark_of_ne hfirst (by decide), ih hrest]

theorem markNames_inside {fs : List Fragment} {rows : List Value} {spec : Value}
    (h : Assembled (Fragment.joined fs) rows spec) :
    markNames (inside spec) = fs.flatMap fun f => markNames f.marks := by
  have hjoined : markNames (Fragment.joined fs).marks = fs.flatMap fun f => markNames f.marks := by
    rw [joined_marks, markNames, List.map_flatMap]
    rfl
  rcases h.marks with hmarks | ⟨neutral, hmarks⟩
  · rw [hmarks, hjoined]
  · rw [markNames_marks hmarks, hjoined]

/-- A compiled description has the layers that it asks for, first geometries and then statistics,
and its points where it asks for none; only then a notice says so.  A statistic is drawn from the
records of its last result that yields any.  The marks of the document are those of the layers, in
the order of the layers. -/
theorem compileDescription_layers (settings : Settings) (description options : Value) (s : Style)
    (c : Compiled) (h : compileDescription settings description options s = .ok c) :
    ∃ named p o fragments, NamedValues.read options = .ok named ∧
      Plot.ofDescription description = .ok p ∧
      Presentation.ofNamedValues settings named (some p) = .ok o ∧
      c.layers = (if askedLayers description = [] then [.geometry .point]
        else askedLayers description) ∧
      (askedLayers description).Nodup ∧
      ((∃ m ∈ c.notices, m.code = .noLayersDetected) ↔ askedLayers description = []) ∧
      (∀ kind ∈ askedStatistics description,
        askedRecords? description kind = some (p.statistics.records kind)) ∧
      List.Forall₂ (fun kind f => kind.fragment p o s = .ok f) c.layers fragments ∧
      markNames (inside c.spec) = fragments.flatMap fun f => markNames f.marks := by
  obtain ⟨named, hnamed, h⟩ := bind_eq_ok.mp h
  obtain ⟨p, hp, h⟩ := bind_eq_ok.mp h
  obtain ⟨o, ho, h⟩ := bind_eq_ok.mp h
  have hasks := Plot.asksFor hp
  obtain ⟨table, layers, told, ps, -, hbuild, hassembled, -, hkinds, hnotices⟩ :=
    stages_of_compile h
  obtain ⟨hplan, hfragments⟩ := buildKinds_standard (buildKinds_of_build hbuild).1
  have hlayers : c.layers = p.layers.1 := by rw [hkinds, hplan]
  refine ⟨named, p, o, layers.map Layer.fragment, hnamed, hp, ho, ?_,
    nodup_askedLayers description, ?_, ?_, ?_, markNames_inside hassembled⟩
  · rw [hlayers, hasks.layers]
    split <;> rfl
  · rw [hnotices, told_of_build hbuild]
    exact noLayersDetected_iff hasks
  · intro kind hkind
    obtain ⟨rs, hrs, -⟩ := exists_askedRecords hkind
    rw [hasks.records, hrs]
    rfl
  · rw [hlayers]
    exact hfragments

/-- Lines and bars by several of their names, points that have a result, and two results of one
statistic with an empty one of another between them. -/
def layeredDescription : Value :=
  .obj [
    ("aes", .obj [("x", .list [.int 1, .int 2]), ("y", .list [.int 3, .int 4])]),
    ("geoms", .list [.str "geom_line", .str "bar", .str "line_handle"]),
    ("results", .obj [
      ("stat_glm", .list [.obj [("x", .list [.int 1, .int 2]), ("y", .list [.int 3, .int 4])]]),
      ("stat_smooth", .obj []), ("point", .obj [("shown", .bool true)]),
      ("glm", .list [.obj [("x", .list [.int 1]), ("y", .list [.int 2])]])])]

theorem compileDescription_layers_layeredDescription :
    ∃ c, compileDescription {} layeredDescription (.obj []) (Style.ofSettings {} none) = .ok c ∧
      c.layers = [.geometry .line, .geometry .bar, .geometry .point, .statistic .glm] := by
  have hsome : (compileDescription {} layeredDescription (.obj [])
      (Style.ofSettings {} none)).toOption.isSome = true := by decide +kernel
  have hasked : askedLayers layeredDescription =
      [.geometry .line, .geometry .bar, .geometry .point, .statistic .glm] := by decide +kernel
  obtain ⟨c, hc⟩ := exists_of_isSome hsome
  obtain ⟨-, -, -, -, -, -, -, hlayers, -⟩ :=
    compileDescription_layers {} layeredDescription (.obj []) _ c hc
  refine ⟨c, hc, ?_⟩
  rw [hlayers, hasked]
  rfl

end PlotScene
