import PlotScene.Presentation.Options
import PlotScene.Proofs.Outcome
import PlotScene.Proofs.Value.Texts

/-!
# Where the parts of a presentation come from

Each part of a presentation is chosen on its own from an option, the plot or the settings.  A choice
stops only at a value that it shows and that has no text.
-/

namespace PlotScene

variable {α β : Type}

/-! ## 1. Operations that need texts -/

/-- An operation that answers where all of these values have a text and stops otherwise. -/
inductive Needs (vs : List Value) : Except Fault α → Prop where
  | answers (a : α) : (∀ v ∈ vs, v.hasText = true) → Needs vs (.ok a)
  | stops {v : Value} : v ∈ vs → v.hasText = false → Needs vs (.error .unusable)

namespace Needs

variable {vs ws : List Value} {r : Except Fault α}

theorem nothing (a : α) : Needs [] (.ok a : Except Fault α) :=
  .answers a (List.forall_mem_nil _)

theorem text? (v : Value) : Needs [v] v.text? := by
  rw [Value.text?]
  split
  next hv => exact .answers _ (List.forall_mem_singleton.mpr hv)
  next hv => exact .stops (List.mem_singleton.mpr rfl) (Bool.eq_false_iff.mpr hv)

theorem bind {f : α → Except Fault β} (h : Needs vs r) (hf : ∀ a, Needs ws (f a)) :
    Needs (vs ++ ws) (r >>= f) := by
  cases h with
  | stops hv hno => exact .stops (List.mem_append_left ws hv) hno
  | answers a hvs =>
    have hnext := hf a
    rw [ok_bind]
    generalize f a = next at hnext ⊢
    cases hnext with
    | stops hw hno => exact .stops (List.mem_append_right vs hw) hno
    | answers b hws => exact .answers b (List.forall_mem_append.mpr ⟨hvs, hws⟩)

theorem map {f : α → β} (h : Needs vs r) : Needs vs (r.map f) := by
  cases h with
  | stops hv hno => exact .stops hv hno
  | answers a hvs => exact .answers (f a) hvs

theorem exists_ok_iff (h : Needs vs r) : (∃ a, r = .ok a) ↔ ∀ v ∈ vs, v.hasText = true := by
  cases h with
  | answers a hvs => exact iff_of_true ⟨a, rfl⟩ hvs
  | stops hv hno =>
    refine iff_of_false (fun ⟨_, ha⟩ => by cases ha) fun hvs => ?_
    rw [hvs _ hv] at hno
    cases hno

theorem outcome (h : Needs vs r) : r = .error .unusable ∨ ∃ a, r = .ok a := by
  cases h with
  | answers a _ => exact Or.inr ⟨a, rfl⟩
  | stops _ _ => exact Or.inl rfl

theorem eq_error_iff (h : Needs vs r) :
    r = .error .unusable ↔ ∃ v ∈ vs, v.hasText = false := by
  cases h with
  | stops hv hno => exact iff_of_true rfl ⟨_, hv, hno⟩
  | answers a hvs =>
    refine iff_of_false (fun h => by cases h) ?_
    rintro ⟨v, hv, hno⟩
    simp [hvs v hv] at hno

end Needs

namespace Presentation

/-! ## 2. What a presentation shows -/

/-- The value of a flag, where it is read through its text. -/
def shownFlag : Option Value → List Value
  | some (.scalar _) => []
  | option => option.toList

/-- The values whose texts a presentation needs. -/
def shown (s : Settings) (options : NamedValues) (plot : Option Plot) : List Value :=
  [[.int s.defaultWidth], [.int s.defaultHeight],
    shownFlag (options.last? "interactive"), shownFlag (options.last? "tooltip"),
    (options.last? "file_name").toList, (options.last? "export_path").toList,
    (options.last? "x" <|> plot.bind Plot.xLabel).toList,
    (options.last? "y" <|> plot.bind Plot.yLabel).toList,
    (options.last? "title").toList].flatten

theorem needs_chooseText (option inPlot : Option Value) (otherwise : String) :
    Needs (option <|> inPlot).toList (chooseText option inPlot otherwise) := by
  rw [chooseText]
  cases option <|> inPlot with
  | none => exact .nothing otherwise
  | some v => exact .text? v

theorem needs_chooseOption (option : Option Value) (otherwise : String) :
    Needs option.toList (chooseText option none otherwise) := by
  simpa using needs_chooseText option none otherwise

theorem needs_readFlag (v : Value) : Needs (shownFlag (some v)) (readFlag v) := by
  rw [readFlag.eq_def]
  cases v with
  | scalar k => exact .nothing _
  | _ =>
    dsimp only
    split
    next hv => exact .answers _ (List.forall_mem_singleton.mpr hv)
    next hv => exact .stops (List.mem_singleton.mpr rfl) (Bool.eq_false_iff.mpr hv)

theorem needs_chooseFlag (option : Option Value) (otherwise : Bool) :
    Needs (shownFlag option) (chooseFlag option otherwise) := by
  cases option with
  | none => exact .nothing otherwise
  | some v => exact (needs_readFlag v).map

theorem needs_ofNamedValues (s : Settings) (options : NamedValues) (plot : Option Plot) :
    Needs (shown s options plot) (ofNamedValues s options plot) :=
  (Needs.text? _).bind fun _ => (Needs.text? _).bind fun _ =>
    (needs_chooseFlag _ _).bind fun _ => (needs_chooseFlag _ _).bind fun _ =>
    (needs_chooseOption _ _).bind fun _ => (needs_chooseOption _ _).bind fun _ =>
    (needs_chooseText _ _ _).bind fun _ => (needs_chooseText _ _ _).bind fun _ =>
    (needs_chooseOption _ _).bind fun _ => .nothing _

/-! ## 3. The parts -/

/-- How each part of a presentation was chosen. -/
structure Chosen (s : Settings) (options : NamedValues) (plot : Option Plot) (o : Presentation) :
    Prop where
  fileName : chooseText (options.last? "file_name") none "untitled" = .ok o.fileName
  exportPath : chooseText (options.last? "export_path") none "./" = .ok o.exportPath
  xLabel : chooseText (options.last? "x") (plot.bind Plot.xLabel) "x-axis" = .ok o.xLabel
  yLabel : chooseText (options.last? "y") (plot.bind Plot.yLabel) "y-axis" = .ok o.yLabel
  title : chooseText (options.last? "title") none untitled = .ok o.title
  width : o.width = chooseDimension (options.last? "width") (plot.bind Plot.figureWidth)
    (toString s.defaultWidth)
  height : o.height = chooseDimension (options.last? "height") (plot.bind Plot.figureHeight)
    (toString s.defaultHeight)
  interactive : chooseFlag (options.last? "interactive") false = .ok o.interactive
  tooltip : chooseFlag (options.last? "tooltip") true = .ok o.tooltip

theorem text_of_text?_int {n : Int} {t : String} (h : (Value.int n).text? = .ok t) :
    t = toString n := by
  rw [Value.text?] at h
  split at h
  next => exact (Except.ok.inj h).symm
  next => cases h

theorem chosen_of_ofNamedValues {s : Settings} {options : NamedValues} {plot : Option Plot}
    {o : Presentation} (h : ofNamedValues s options plot = .ok o) : Chosen s options plot o := by
  obtain ⟨width, hwidth, h⟩ := bind_eq_ok.mp h
  obtain ⟨height, hheight, h⟩ := bind_eq_ok.mp h
  obtain ⟨interactive, hinteractive, h⟩ := bind_eq_ok.mp h
  obtain ⟨tooltip, htooltip, h⟩ := bind_eq_ok.mp h
  obtain ⟨fileName, hfileName, h⟩ := bind_eq_ok.mp h
  obtain ⟨exportPath, hexportPath, h⟩ := bind_eq_ok.mp h
  obtain ⟨xLabel, hxLabel, h⟩ := bind_eq_ok.mp h
  obtain ⟨yLabel, hyLabel, h⟩ := bind_eq_ok.mp h
  obtain ⟨title, htitle, h⟩ := bind_eq_ok.mp h
  obtain rfl := Except.ok.inj h
  obtain rfl := text_of_text?_int hwidth
  obtain rfl := text_of_text?_int hheight
  exact ⟨hfileName, hexportPath, hxLabel, hyLabel, htitle, rfl, rfl, hinteractive, htooltip⟩

end Presentation

end PlotScene
