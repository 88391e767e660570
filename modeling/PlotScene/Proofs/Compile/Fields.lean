import Mathlib.Data.List.Nodup
import PlotScene.Proofs.Compile.References
import PlotScene.Proofs.Plot.Description

/-!
# Compiled documents read fields that are there

The rows of a document and the encodings that read them are written in different places.  For a plot
from a description with equally long columns of x and y, whatever its layers, every field that the
document names is a field of all rows that it is read from.
-/

namespace PlotScene

open Reference

/-! ## 1. Sources belong to one kind of layer -/

/-- The names of the sources that a kind of layer can bring. -/
def LayerKind.sourceNames : LayerKind → List String
  | .geometry _ => []
  | .statistic .glm => ["stats", "confidence_filtered"]
  | .statistic .smooth => ["smooth_stats", "smooth_confidence_filtered"]
  | .statistic .bin => ["bins"]
  | .statistic .summary => ["summary_lines", "summary_ci"]
  | .statistic .boxplot => ["boxplot_boxes", "boxplot_whiskers", "boxplot_medians"]
  | .statistic .density => ["density"]
  | .statistic .violin => ["violin"]
  | .statistic .qq => ["qq"]
  | .statistic .bin2d => ["heatmap_data"]

theorem LayerKind.sourceNames_disjoint :
    ∀ k ∈ LayerKind.all, ∀ l ∈ LayerKind.all, ∀ n ∈ k.sourceNames, n ∈ l.sourceNames → k = l := by
  decide

theorem LayerKind.sourceNames_reserved :
    ∀ k ∈ LayerKind.all, ∀ n ∈ k.sourceNames, n ≠ Scene.tableName ∧ n ≠ selectedName := by
  decide

theorem supplies_sublist (kind : LayerKind) (p : Plot) (s : Style) :
    ((kind.supplies p s).map Supply.source).Sublist kind.sourceNames := by
  have hregression (n : Curve.Names) (curves : List RegressionCurve) :
      ((Curve.regressionSupplies n curves p s).map Supply.source).Sublist [n.curve, n.banded] := by
    show (Supply.source _ :: List.map _ (if Curve.isBanded curves = true then _ else _)).Sublist _
    split
    · exact List.Sublist.refl _
    · exact (List.nil_sublist [n.banded]).cons_cons n.curve
  cases kind with
  | geometry g => exact List.Sublist.refl _
  | statistic k =>
    cases k with
    | glm => exact hregression _ _
    | smooth => exact hregression _ _
    | _ => exact List.Sublist.refl _

theorem LayerKind.sourceNames_nodup (k : LayerKind) : k.sourceNames.Nodup := by
  have h : ∀ k ∈ LayerKind.all, k.sourceNames.Nodup := by decide
  exact h k (LayerKind.mem_all k)

-- Two sources of a layer with one name are one source.
theorem eq_of_names {kind : LayerKind} {p : Plot} {o : Presentation} {s : Style} {f : Fragment}
    (hf : kind.fragment p o s = .ok f) {v w : Value} (hv : v ∈ f.data) (hw : w ∈ f.data)
    {n : String} (hnv : Names n v) (hnw : Names n w) : v = w := by
  have hnodup : (f.data.map (·.get? "name")).Nodup := by
    rw [LayerKind.names_data hf]
    have hsources := (supplies_sublist kind p s).nodup kind.sourceNames_nodup
    show ((kind.supplies p s).map ((fun n => some (Value.str n)) ∘ Supply.source)).Nodup
    rw [← List.map_map]
    exact hsources.map fun a b hab => by simpa using hab
  exact List.inj_on_of_nodup_map hnodup hv hw (hnv.trans hnw.symm)

/-! ## 2. The sources of a document -/

theorem mem_sourceNames {kind : LayerKind} {p : Plot} {o : Presentation} {s : Style}
    {f : Fragment} (hf : kind.fragment p o s = .ok f) {v : Value} (hv : v ∈ f.data) {n : String}
    (hn : Names n v) : n ∈ kind.sourceNames := by
  have hname : some (Value.str n) ∈ f.data.map (·.get? "name") := List.mem_map.mpr ⟨v, hv, hn⟩
  rw [LayerKind.names_data hf] at hname
  obtain ⟨d, hd, heq⟩ := List.mem_map.mp hname
  obtain rfl : d.source = n := by simpa using heq
  exact (supplies_sublist kind p s).subset (List.mem_map.mpr ⟨d, hd, rfl⟩)

theorem names_of_declared {vs : List Value} {n : String} (h : Declared vs (.str n)) :
    ∃ v ∈ vs, Names n v := by
  obtain ⟨v, hv, hsame⟩ := h
  refine ⟨v, hv, ?_⟩
  rw [Names]
  rw [nameOf] at hsame
  cases hx : v.get? "name" with
  | none =>
    rw [Value.getD_of_get?_none hx] at hsame
    cases hsame
  | some x =>
    rw [Value.getD_of_get? hx] at hsame
    cases x with
    | scalar k =>
      cases k with
      | str m =>
        rw [scalarOf, Scalar.same_str, beq_iff_eq] at hsame
        rw [hsame]
      | _ => cases hsame
    | _ => cases hsame

section

variable {fs : List Fragment} {rows : List Value} {spec : Value} {p : Plot} {o : Presentation}
  {s : Style}

-- A source of a document is the table, comes from some kind of layer, or holds the selection.
theorem source_cases (h : Assembled (Fragment.joined fs) rows spec)
    (hkinds : ∀ f ∈ fs, ∃ kind : LayerKind, kind.fragment p o s = .ok f) {w : Value}
    (hw : w ∈ parts spec "data") :
    w = Fragment.source Scene.tableName rows ∨
      (∃ f ∈ fs, ∃ kind : LayerKind, kind.fragment p o s = .ok f ∧ w ∈ f.data) ∨
      w = selectionSource := by
  obtain ⟨extra, hextra, hdata⟩ := h.data
  rw [hdata] at hw
  rcases List.mem_cons.mp hw with rfl | hw
  · exact Or.inl rfl
  rcases List.mem_append.mp hw with hw | hw
  · have hall := mem_of_mem_firstsAfter hw
    rw [joined_data] at hall
    obtain ⟨f, hf, hwf⟩ := List.mem_flatMap.mp hall
    obtain ⟨kind, hk⟩ := hkinds f hf
    exact Or.inr (Or.inl ⟨f, hf, kind, hk, hwf⟩)
  · rcases hextra with rfl | rfl
    · cases hw
    · exact Or.inr (Or.inr (List.mem_singleton.mp hw))

-- The sources of a layer are in the document and have their names for themselves.
theorem ownedBy_of_assembled (h : Assembled (Fragment.joined fs) rows spec)
    (hkinds : ∀ f ∈ fs, ∃ kind : LayerKind, kind.fragment p o s = .ok f) {kind : LayerKind}
    {f : Fragment} (hf : f ∈ fs) (hk : kind.fragment p o s = .ok f) :
    OwnedBy (parts spec "data") f.data := by
  have hunique (v : Value) (hv : v ∈ f.data) (n : String) (hn : Names n v) (w : Value)
      (hw : w ∈ parts spec "data") (hnw : Names n w) : w = v := by
    have hname := mem_sourceNames hk hv hn
    obtain ⟨htable, hselected⟩ := kind.sourceNames_reserved (LayerKind.mem_all kind) n hname
    -- A source of the same name comes from the same kind of layer, hence from the same fragment.
    rcases source_cases h hkinds hw with rfl | ⟨f', -, kind', hk', hw'⟩ | rfl
    · exact absurd (hnw.unique rfl) htable
    · obtain rfl : kind = kind' := LayerKind.sourceNames_disjoint _ (LayerKind.mem_all _) _
        (LayerKind.mem_all _) n hname (mem_sourceNames hk' hw' hnw)
      obtain rfl := Except.ok.inj (hk.symm.trans hk')
      exact eq_of_names hk hw' hv hnw hn
    · exact absurd (hnw.unique rfl) hselected
  refine ⟨fun v hv => ?_, hunique⟩
  obtain ⟨n, hn⟩ := (LayerKind.based_data hk).exists_name hv
  obtain ⟨w, hw, hnw⟩ := names_of_declared (declared_source h hf hv hn)
  rw [← hunique v hv n hn w hw hnw]
  exact hw

-- The table of a regular plot provides the fields that layers read from it.
theorem provided_table (h : Assembled (Fragment.joined fs) rows spec)
    (hkinds : ∀ f ∈ fs, ∃ kind : LayerKind, kind.fragment p o s = .ok f) {f : String}
    (hf : ∀ row ∈ rows, row.has f = true) : Provided (parts spec "data") "table" f := by
  refine ⟨names_of_declared (declared_table h), fun w hw hn => ?_⟩
  rcases source_cases h hkinds hw with rfl | ⟨g, -, kind, hk, hwg⟩ | rfl
  · exact hasField_source hf
  · obtain ⟨htable, -⟩ :=
      kind.sourceNames_reserved (LayerKind.mem_all kind) _ (mem_sourceNames hk hwg hn)
    exact absurd rfl htable
  · exact absurd (hn.unique (m := "selected") rfl) (by decide)

/-! ## 3. The view of a whole document -/

/-- Everything that a document names, with the fields of its data. -/
def fieldView (spec : Value) : View where
  source n := Declared (parts spec "data") (.str n)
  field := Provided (parts spec "data")
  scale n := Declared (parts spec "scales") (.str n)

theorem fieldsPresent_of_reads (h : Assembled (Fragment.joined fs) rows spec)
    (hreads : ∀ f ∈ fs, f.Reads (fieldView spec))
    (hpivots : ∀ v ∈ parts spec "data", PivotsRead v) : FieldsPresent spec := by
  have htop : FieldsReadable (parts spec "data") [] (fieldView spec) := fun _ _ hf => hf
  refine ⟨fun as m hat => ?_, fun c hc r hr => ?_, hpivots⟩
  · have hmarks := marks_read h hreads
    obtain ⟨W, hW, hm⟩ := markReads_at (P := FieldsReadable (parts spec "data")) hmarks htop
      (fun as W a g name source hP hg hname hdata => hP.inside hg hname hdata) hat
    exact markPresent_of_reads hW hm
  · obtain ⟨f, hf, hcf⟩ := exists_layer_of_scale h hc
    exact domainPresent_of_reads htop ((hreads f hf).scales c hcf).domain hr

end

/-! ## 4. No field is missing -/

/-- A regular plot compiles to a document whose fields are all there. -/
theorem fieldsPresent_of_regular {p : Plot} {o : Presentation} {s : Style} {r : Registry}
    {c : Compiled} (hp : p.Regular)
    (hr : ∀ e ∈ r.builders, ∃ kind : LayerKind, e.2 = kind.builder)
    (h : compile p o s r = .ok c) : FieldsPresent c.spec := by
  obtain ⟨table, fs, htable, hkinds, hassembled, -⟩ := assembled_of_compile hr h
  have hrow {f : String} (hf : f ∈ tableFields p) : (fieldView c.spec).field "table" f :=
    provided_table hassembled hkinds fun row hr => Table.has_of_ofPlot hp htable row hr f hf
  have hreadsTable : ReadsTable (fieldView c.spec) p := by
    refine ⟨declared_table hassembled, hrow ?_, hrow ?_, hrow ?_, hrow ?_, fun hg => hrow ?_⟩
    · simp [tableFields]
    · simp [tableFields]
    · simp [tableFields]
    · simp [tableFields]
    · simp [tableFields, hg]
  refine fieldsPresent_of_reads hassembled (fun f hf => ?_) fun v hv => ?_
  · obtain ⟨kind, hk⟩ := hkinds f hf
    have howned := ownedBy_of_assembled hassembled hkinds hf hk
    refine LayerKind.reads_fragment hk hreadsTable (fun d hd => ?_)
      fun c hc n hn => declared_scale hassembled hf hc hn
    exact ⟨declared_supply hassembled hf hk hd,
      fun f hf => (supplies_fragment hk howned d hd).provided howned hf⟩
  · rcases source_cases hassembled hkinds hv with rfl | ⟨f, -, kind, hk, hvf⟩ | rfl
    · exact pivotsRead_source _ _
    · exact pivotsRead_fragment hk v hvf
    · intro t ht
      rw [transforms, parts_of_get?_none rfl] at ht
      cases ht

/-- A description with equally long columns of x and y, not empty, compiles to a document in which
every field that is read is a field of all rows that it is read from. -/
theorem compileDescription_fields (settings : Settings) (description options : Value) (s : Style)
    (c : Compiled) (xs ys : List Value)
    (hx : columnOf? ((description.getD "aes").getD "x") = some xs)
    (hy : columnOf? ((description.getD "aes").getD "y") = some ys) (hne : xs ≠ [])
    (hlen : ys.length = xs.length)
    (h : compileDescription settings description options s = .ok c) : FieldsPresent c.spec := by
  obtain ⟨named, -, h⟩ := bind_eq_ok.mp h
  obtain ⟨p, hp, h⟩ := bind_eq_ok.mp h
  obtain ⟨o, -, h⟩ := bind_eq_ok.mp h
  exact fieldsPresent_of_regular (Plot.regular_of_description hp hx hy hne hlen)
    builder_of_mem_standard h

/-- Two groups of bars, and a curve with a band for the first group only. -/
def summaryDescription : Value :=
  .obj [
    ("aes", .obj [("x", .list [.int 1, .int 2]), ("y", .list [.int 3, .int 4]),
      ("color", .list [.str "r", .str "s"])]),
    ("geoms", .list [.str "bar"]),
    ("results", .obj [("stat_summary", .list [
      .obj [("x", .list [.int 1, .int 2]), ("y", .list [.int 3, .int 4]),
        ("yci", .list [.list [.int 2, .int 5], .list [.int 3, .int 6]])]])])]

theorem compileDescription_summaryDescription :
    (compileDescription {} summaryDescription (.obj [("interactive", .bool true)])
      (Style.ofSettings {} none)).toOption.isSome = true := by decide +kernel

theorem compileDescription_fields_summaryDescription :
    ∃ c, compileDescription {} summaryDescription (.obj [("interactive", .bool true)])
      (Style.ofSettings {} none) = .ok c ∧ FieldsPresent c.spec := by
  have hsome := compileDescription_summaryDescription
  cases hc : compileDescription {} summaryDescription (.obj [("interactive", .bool true)])
      (Style.ofSettings {} none) with
  | error f =>
    rw [hc] at hsome
    cases hsome
  | ok c =>
    exact ⟨c, rfl, compileDescription_fields {} summaryDescription _ _ c [.int 1, .int 2]
      [.int 3, .int 4] rfl rfl (List.cons_ne_nil _ _) rfl hc⟩

end PlotScene
