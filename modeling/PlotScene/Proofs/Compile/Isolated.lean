import PlotScene.Proofs.Compile.Sheet

/-!
# Display options stay apart

Each display option has its own place in a compiled document.  The compilations of one plot under
two presentations are followed side by side: all stages agree up to what a mask hides, and what is
told about the plot is the same.
-/

namespace PlotScene

open Highlight

variable {a g : Value → Value} {p : Plot} {o o' : Presentation} {s : Style}

/-! ## 1. Layers -/

/-- Layers of one kind whose fragments differ at most in what the masks hide. -/
structure Layer.Alike (a g : Value → Value) (l l' : Layer) : Prop where
  kind : l.kind = l'.kind
  fragment : Fragment.Alike a g l.fragment l'.fragment

theorem buildKinds_alike (h : o.Alike a g o') (kinds : List LayerKind) :
    Agree (List.Forall₂ (Layer.Alike a g)) (p.buildKinds o s .standard kinds)
      (p.buildKinds o' s .standard kinds) := by
  induction kinds with
  | nil => exact .ok .nil
  | cons kind kinds ih =>
    rw [Plot.buildKinds, Plot.buildKinds, Registry.get?_standard]
    refine (h.fragment kind).bind fun f f' hf => ih.bind fun ls ls' hls => ?_
    exact .ok (.cons ⟨rfl, hf⟩ hls)

theorem build_alike (h : o.Alike a g o') :
    Agree (fun x y => List.Forall₂ (Layer.Alike a g) x.1 y.1 ∧ x.2 = y.2)
      (p.build o s .standard) (p.build o' s .standard) := by
  refine (buildKinds_alike h p.layers.1).bind fun ls ls' hls => .ok ⟨hls, ?_⟩
  have hnotices : ls.flatMap (fun l => l.fragment.notices) =
      ls'.flatMap fun l => l.fragment.notices := by
    induction hls with
    | nil => rfl
    | cons hl _ ih => rw [List.flatMap_cons, List.flatMap_cons, hl.fragment.notices, ih]
  rw [hnotices]

-- Fragments that are put one after the other stay alike.
theorem Fragment.Alike.append {f f' k k' : Fragment} (hf : Fragment.Alike a g f f')
    (hk : Fragment.Alike a g k k') : Fragment.Alike a g (f.append k) (f'.append k') where
  data := congrArg₂ _ hf.data hk.data
  scales := congrArg₂ _ hf.scales hk.scales
  notices := congrArg₂ _ hf.notices hk.notices
  axes := List.rel_append hf.axes hk.axes
  marks := List.rel_append hf.marks hk.marks

theorem joined_alike {ls ls' : List Layer} (h : List.Forall₂ (Layer.Alike a g) ls ls') :
    Fragment.Alike a g (Fragment.joined (ls.map Layer.fragment))
      (Fragment.joined (ls'.map Layer.fragment)) := by
  have hfoldl {k k' : Fragment} (hk : Fragment.Alike a g k k') :
      Fragment.Alike a g ((ls.map Layer.fragment).foldl Fragment.append k)
        ((ls'.map Layer.fragment).foldl Fragment.append k') := by
    induction h generalizing k k' with
    | nil => exact hk
    | cons hl _ ih => exact ih (hk.append hl.fragment)
  exact hfoldl ⟨rfl, rfl, rfl, .nil, .nil⟩

/-! ## 2. Documents through masks -/

/-- A list with every item rewritten. -/
def eachItem (f : Value → Value) : Value → Value
  | .list vs => .list (vs.map f)
  | v => v

/-- A document with its axes and the encodings of its marks, at every depth, behind masks. -/
def masked (onAxis onEncoding : Value → Value) (spec : Value) : Value :=
  (spec.adjust "axes" (eachItem onAxis)).adjust "marks" (eachItem (recoded onEncoding))

/-- A field of a document behind masks. -/
def maskedField (a g : Value → Value) (e : String × Value) : String × Value :=
  (e.1, if e.1 = "marks" then eachItem (recoded g) e.2
    else if e.1 = "axes" then eachItem a e.2
    else e.2)

theorem masked_setAll (v : Value) (fields : List (String × Value)) :
    masked a g (v.setAll fields) = (masked a g v).setAll (fields.map (maskedField a g)) := by
  have hfield (e : String × Value) : maskedField a g e =
      (e.1, if (Scalar.str e.1).same (.str "marks") then
          eachItem (recoded g) (if (Scalar.str e.1).same (.str "axes") then eachItem a e.2 else e.2)
        else if (Scalar.str e.1).same (.str "axes") then eachItem a e.2 else e.2) := by
    simp only [maskedField, Scalar.same_str, beq_iff_eq]
    split
    next hmarks => rw [if_neg (by rw [hmarks]; decide)]
    next => rfl
  rw [masked, Value.adjust, Value.adjust, Value.mapped_setAll, Value.mapped_setAll, List.map_map,
    List.map_congr_left fun e _ => hfield e]
  rfl

section

variable {f f' : Fragment} {rows : List Value} {needed : Bool}

theorem axes_alike (h : o.Alike a g o') (hf : Fragment.Alike a g f f') :
    ((firstsAfter (Scene.keyOf "orient") [] f.axes).map (Scene.titledAxis o)).map a =
      ((firstsAfter (Scene.keyOf "orient") [] f'.axes).map (Scene.titledAxis o')).map a := by
  have hside : ∀ v w, a v = a w → Scene.keyOf "orient" v = Scene.keyOf "orient" w := by
    intro v w hvw
    rw [Scene.keyOf, Scene.keyOf, ← h.orient v, ← h.orient w, hvw]
  rw [List.map_map, List.map_map]
  refine map_eq_of_forall₂ (firstsAfter_forall₂ hside hf.axes []) fun v _ w _ hvw => ?_
  show a (Scene.titled o ⟨_, v⟩) = a (Scene.titled o' ⟨_, w⟩)
  rw [hside v w hvw]
  exact h.titled _ v w hvw

theorem masked_frame (width height : Value) :
    masked a g (s.frame width height) = s.frame width height := by
  rw [masked, Value.adjust_of_get?_none, Value.adjust_of_get?_none] <;> rfl

theorem maskedField_marks (ms : List Value) :
    maskedField a g ("marks", .list ms) = ("marks", .list (ms.map (recoded g))) := rfl

theorem maskedField_partFields {G : Value → Value} (h : o.Alike a g o')
    (hf : Fragment.Alike a g f f')
    (hmarks : f.marks.map (recoded G) = f'.marks.map (recoded G)) :
    (Scene.partFields f rows o).map (maskedField a G) =
      (Scene.partFields f' rows o').map (maskedField a G) := by
  simp [Scene.partFields, maskedField, eachItem, hf.data, hf.scales, axes_alike h hf, hmarks]

theorem maskedField_addedFields {G : Value → Value} {reacts : Bool}
    {data marks marks' : List Value}
    (hmarks : (marks.map (recoded (ruled s.neutralColor))).map (recoded G) =
      (marks'.map (recoded (ruled s.neutralColor))).map (recoded G)) :
    (Legend.addedFields needed reacts data marks s).map (maskedField a G) =
      (Legend.addedFields needed reacts data marks' s).map (maskedField a G) := by
  cases needed with
  | false => rfl
  | true =>
    cases reacts with
    | false => rfl
    | true => simp only [Legend.addedFields, List.map_cons, maskedField_marks, hmarks]

/-- Documents of fragments that are alike are the same through masks that hide as much. -/
theorem masked_sheet {G : Value → Value} (h : o.Alike a g o') (hf : Fragment.Alike a g f f')
    (hs : ∀ m ∈ f.marks, Shaped m) (hs' : ∀ m ∈ f'.marks, Shaped m) (hG : CoveredBy g G)
    (hwidth : o.width = o'.width) (hheight : o.height = o'.height) (htitle : o.title = o'.title)
    (hreacts : o.interactive = o'.interactive) :
    masked a G (sheet f rows needed o s) = masked a G (sheet f' rows needed o' s) := by
  have hmarks : f.marks.map (recoded G) = f'.marks.map (recoded G) :=
    map_eq_of_forall₂ hf.marks fun m hm m' hm' heq => hG m m' (hs m hm) (hs' m' hm') heq
  have hruled : (f.marks.map (recoded (ruled s.neutralColor))).map (recoded G) =
      (f'.marks.map (recoded (ruled s.neutralColor))).map (recoded G) := by
    rw [List.map_map, List.map_map]
    refine map_eq_of_forall₂ hf.marks fun m hm m' hm' heq => ?_
    exact hG _ _ (shaped_ruled (hs m hm) _) (shaped_ruled (hs' m' hm') _)
      (recoded_ruled h.neutral (hs m hm).takesRules (hs' m' hm').takesRules heq)
  have htitles : Scene.titleFields o = Scene.titleFields o' := by
    rw [Scene.titleFields, Scene.titleFields, Presentation.hasTitle, Presentation.hasTitle, htitle]
  have hfields : (sheetFields f rows needed o s).map (maskedField a G) =
      (sheetFields f' rows needed o' s).map (maskedField a G) := by
    rw [sheetFields, sheetFields, List.map_append, List.map_append, List.map_append,
      List.map_append, maskedField_partFields h hf hmarks, htitles, hf.data, hreacts,
      maskedField_addedFields hruled]
  have hframe : s.frame (.scalar o.widthInPixels) (.scalar o.heightInPixels) =
      s.frame (.scalar o'.widthInPixels) (.scalar o'.heightInPixels) := by
    rw [Presentation.widthInPixels, Presentation.heightInPixels, hwidth, hheight]
    rfl
  rw [sheet, sheet, masked_setAll, masked_setAll, masked_frame, masked_frame, hfields, hframe]

end

/-! ## 3. Two compilations -/

/-- The documents of two fragments that are alike, with all else that was compiled the same. -/
def Compiled.Alike (a g : Value → Value) (o o' : Presentation) (s : Style)
    (c c' : Compiled) : Prop :=
  ∃ f f' rows needed, Fragment.Alike a g f f' ∧ (∀ m ∈ f.marks, Shaped m) ∧
    (∀ m ∈ f'.marks, Shaped m) ∧ c.spec = sheet f rows needed o s ∧
    c' = { c with spec := sheet f' rows needed o' s }

theorem shaped_of_build {layers : List Layer} {told : List Notice}
    (h : p.build o s .standard = .ok (layers, told)) :
    ∀ m ∈ (Fragment.joined (layers.map Layer.fragment)).marks, Shaped m :=
  shaped_joined (shaped_of_forall₂ (layers_of_build h).2)

/-- A plot is compiled alike under two presentations that are alike. -/
theorem compile_alike (h : o.Alike a g o') :
    Agree (Compiled.Alike a g o o' s) (compile p o s .standard) (compile p o' s .standard) := by
  cases htable : Table.ofPlot p with
  | error e =>
    rw [compile, htable, compile, htable]
    exact .error e
  | ok table =>
    -- The plot alone decides about a legend, so both documents have one or neither has.
    obtain ⟨needed, hneeded⟩ := exists_needed p table.rows
    have hbuild : Agree _ (p.build o s .standard) (p.build o' s .standard) := build_alike h
    generalize hx : p.build o s .standard = x at hbuild
    generalize hy : p.build o' s .standard = y at hbuild
    cases hbuild with
    | error e =>
      rw [compile, htable, ok_bind, hx, compile, htable, ok_bind, hy]
      exact .error e
    | @ok x y hxy =>
      obtain ⟨layers, told⟩ := x
      obtain ⟨layers', told'⟩ := y
      obtain ⟨hlayers, rfl⟩ : List.Forall₂ (Layer.Alike a g) layers layers' ∧ told = told' := hxy
      have hkinds : layers.map Layer.kind = layers'.map Layer.kind :=
        map_eq_of_forall₂ hlayers fun _ _ _ _ hl => hl.kind
      rw [compile_sheet htable hx hneeded, compile_sheet htable hy hneeded, ← hkinds]
      exact .ok
        ⟨_, _, _, _, joined_alike hlayers, shaped_of_build hx, shaped_of_build hy, rfl, rfl⟩

-- Under the same labels and tooltips the fragments themselves are the same.
theorem Fragment.Alike.eq {f f' : Fragment} (h : Fragment.Alike id id f f')
    (hs : ∀ m ∈ f.marks, PlotScene.Shaped m) (hs' : ∀ m ∈ f'.marks, PlotScene.Shaped m) :
    f = f' := by
  have haxes : f.axes.map id = f'.axes.map id :=
    map_eq_of_forall₂ h.axes fun _ _ _ _ heq => heq
  have hmarks : f.marks.map id = f'.marks.map id :=
    map_eq_of_forall₂ h.marks fun m hm m' hm' heq => by
      rwa [(hs m hm).takesRules.recoded_id, (hs' m' hm').takesRules.recoded_id] at heq
  rw [List.map_id, List.map_id] at haxes hmarks
  cases f
  cases f'
  cases h.data
  cases h.scales
  cases h.notices
  cases haxes
  cases hmarks
  rfl

/-- Under the same labels and tooltips, what was compiled differs at most in the frame and the title
of its document. -/
theorem compile_of_labels {γ : Type} {F G : Compiled → γ} (hx : o.xLabel = o'.xLabel)
    (hy : o.yLabel = o'.yLabel) (ht : o.tooltip = o'.tooltip)
    (hFG : ∀ (c : Compiled) f rows needed, F { c with spec := sheet f rows needed o s } =
      G { c with spec := sheet f rows needed o' s }) :
    (compile p o s .standard).map F = (compile p o' s .standard).map G := by
  refine (compile_alike (alike_of_labels hx hy ht)).map_eq fun c c' hc => ?_
  obtain ⟨f, f', rows, needed, hf, hs, hs', hspec, rfl⟩ := hc
  obtain rfl := hf.eq hs hs'
  rw [← hFG, ← hspec]

/-! ## 4. Options -/

/-- What was compiled, with something done to its document. -/
def Compiled.onSpec (f : Value → Value) (c : Compiled) : Compiled :=
  { c with spec := f c.spec }

/-- Two compilations with one outcome, as far as a mask of their documents lets it be seen: both
fail with the same fault, or both answer and say the same. -/
def SameThrough (mask : Value → Value) (x y : Except Fault Compiled) : Prop :=
  x.map (Compiled.onSpec mask) = y.map (Compiled.onSpec mask)

theorem compile_masked {G : Value → Value} (h : o.Alike a g o') (hG : CoveredBy g G)
    (hwidth : o.width = o'.width) (hheight : o.height = o'.height) (htitle : o.title = o'.title)
    (hreacts : o.interactive = o'.interactive) :
    SameThrough (masked a G) (compile p o s .standard) (compile p o' s .standard) := by
  refine (compile_alike h).map_eq fun c c' hc => ?_
  obtain ⟨f, f', rows, needed, hf, hs, hs', hspec, rfl⟩ := hc
  rw [Compiled.onSpec, Compiled.onSpec, hspec,
    masked_sheet h hf hs hs' hG hwidth hheight htitle hreacts]

theorem compile_framed {f : Value → Value} (hx : o.xLabel = o'.xLabel) (hy : o.yLabel = o'.yLabel)
    (ht : o.tooltip = o'.tooltip)
    (hf : ∀ k rows needed, sheet k rows needed o' s = f (sheet k rows needed o s)) :
    compile p o' s .standard = (compile p o s .standard).map (Compiled.onSpec f) := by
  have hmap := compile_of_labels (p := p) (s := s) (G := id) (F := Compiled.onSpec f) hx hy ht
    fun c k rows needed => by rw [Compiled.onSpec, ← hf]; rfl
  rw [hmap, Except.map_id]
  rfl

theorem compile_unframed (hx : o.xLabel = o'.xLabel) (hy : o.yLabel = o'.yLabel)
    (ht : o.tooltip = o'.tooltip)
    (hf : ∀ k rows needed, sheet k rows needed o' s = sheet k rows needed o s) :
    compile p o' s .standard = compile p o s .standard := by
  have hsame : compile p o' s .standard = (compile p o s .standard).map (Compiled.onSpec id) :=
    compile_framed hx hy ht hf
  exact hsame.trans (congrFun Except.map_id _)

/-- The display options of a plot stay apart.  What is told about a plot, what was left out of its
table, its layers, and whether it is compiled at all do not depend on them.  In the document, the
name and the place of files change nothing; each dimension has its own field; the title changes
whether there is a title, and its text; whether marks have tooltips changes the tooltips in the
updates of marks, at every depth, and the titles of the axes change the titles of axes and the texts
of tooltips. -/
theorem compile_isolated (p : Plot) (o : Presentation) (s : Style) :
    (∀ name, compile p { o with fileName := name } s .standard = compile p o s .standard) ∧
    (∀ path, compile p { o with exportPath := path } s .standard = compile p o s .standard) ∧
    (∀ width, compile p { o with width := width } s .standard =
      (compile p o s .standard).map
        (Compiled.onSpec (·.set "width" (.scalar (pixels width))))) ∧
    (∀ height, compile p { o with height := height } s .standard =
      (compile p o s .standard).map
        (Compiled.onSpec (·.set "height" (.scalar (pixels height))))) ∧
    (∀ title,
      SameThrough (·.without "title") (compile p { o with title := title } s .standard)
        (compile p o s .standard) ∧
      (compile p { o with title := title } s .standard).map (·.spec.get? "title") =
        (compile p o s .standard).map fun _ =>
          if title = untitled then none else some (.str title)) ∧
    (∀ tooltip,
      SameThrough (masked id withoutTooltip) (compile p { o with tooltip := tooltip } s .standard)
        (compile p o s .standard)) ∧
    (∀ label,
      SameThrough (masked withBlankTitle withBlankTooltip)
        (compile p { o with xLabel := label } s .standard) (compile p o s .standard)) ∧
    (∀ label,
      SameThrough (masked withBlankTitle withBlankTooltip)
        (compile p { o with yLabel := label } s .standard) (compile p o s .standard)) := by
  refine ⟨fun name => ?_, fun path => ?_, fun width => ?_, fun height => ?_,
    fun title => ⟨?_, ?_⟩, fun tooltip => ?_, fun label => ?_, fun label => ?_⟩
  · exact compile_unframed rfl rfl rfl fun _ _ _ => rfl
  · exact compile_unframed rfl rfl rfl fun _ _ _ => rfl
  · exact compile_framed rfl rfl rfl fun k rows needed => sheet_width k rows needed o s width
  · exact compile_framed rfl rfl rfl fun k rows needed => sheet_height k rows needed o s height
  · refine compile_of_labels rfl rfl rfl fun c f rows needed => ?_
    rw [Compiled.onSpec, Compiled.onSpec, sheet_without_title]
  · refine compile_of_labels rfl rfl rfl fun c f rows needed => ?_
    exact get?_sheet_title f rows needed { o with title := title } s
  · exact compile_masked (alike_of_tooltip rfl rfl) settled_coveredBy_withoutTooltip rfl rfl rfl rfl
  · exact compile_masked (alike_of_titles rfl) (coveredBy_self _) rfl rfl rfl rfl
  · exact compile_masked (alike_of_titles rfl) (coveredBy_self _) rfl rfl rfl rfl

end PlotScene
