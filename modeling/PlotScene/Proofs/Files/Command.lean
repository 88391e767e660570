import Mathlib.Data.List.Nodup
import PlotScene.CommandLine
import PlotScene.Proofs.Files.Export
import PlotScene.Proofs.Presentation.Options

/-!
# What a command leaves

A command that is refused leaves all files as they were.  A command that succeeds has compiled the
description in its file with the options that were given, and has written what an export writes.
-/

namespace PlotScene.CommandLine

open Filing

/-! ## 1. Options -/

-- An item of a list whose names are distinct is found from behind, too.
theorem find?_reverse_filterMap {κ : Type} (value : κ → Option String) {l : List (String × κ)}
    (hl : (l.map Prod.fst).Nodup) {name : String} {key : κ} (h : (name, key) ∈ l) :
    ((l.filterMap fun e => (value e.2).map fun text => (e.1, Value.str text)).reverse.find?
      fun o => o.1 == name) = (value key).map fun text => (name, .str text) := by
  have habsent {l : List (String × κ)} (hn : name ∉ l.map Prod.fst) :
      (l.filterMap fun e => (value e.2).map fun text => (e.1, Value.str text)).reverse.find?
        (fun o => o.1 == name) = none := by
    rw [List.find?_eq_none]
    intro o ho
    obtain ⟨e, he, hvalue⟩ := List.mem_filterMap.mp (List.mem_reverse.mp ho)
    obtain ⟨text, -, rfl⟩ := Option.map_eq_some_iff.mp hvalue
    rw [beq_iff_eq]
    rintro rfl
    exact hn (List.mem_map_of_mem he)
  induction l with
  | nil => cases h
  | cons e l ih =>
    obtain ⟨hn, hl⟩ := List.nodup_cons.mp hl
    rw [List.filterMap_cons]
    rcases List.mem_cons.mp h with rfl | h
    · cases value key with
      | none => exact habsent hn
      | some text => simp [List.find?_append, habsent hn]
    · have hne : e.1 ≠ name := fun heq => hn (heq ▸ List.mem_map_of_mem h)
      cases value e.2 with
      | none => exact ih hl h
      | some text =>
        rw [Option.map_some, List.reverse_cons, List.find?_append, ih hl h]
        cases value key <;> simp [hne]

/-- The last value that was given for a text option is the one that counts. -/
theorem Request.last?_options (r : Request) {name : String} {key : Key}
    (h : (name, key) ∈ textOptions) : r.options.last? name = (r.value? key).map .str := by
  have hflags : ∀ e ∈ textOptions, e.1 ≠ "interactive" ∧ e.1 ≠ "tooltip" := by decide
  obtain ⟨hinteractive, htooltip⟩ := hflags _ h
  have hnames : (textOptions.map Prod.fst).Nodup := by decide
  have hfind := find?_reverse_filterMap r.value? hnames h
  have hoptions : r.options.reverse.find? (fun o => o.1 == name) =
      (r.value? key).map fun text => (name, .str text) := by
    rw [options, List.reverse_append, List.find?_append, List.find?_eq_none.mpr, Option.none_or]
    · exact hfind
    · simp [hinteractive.symm, htooltip.symm]
  rw [NamedValues.last?, hoptions, Option.map_map]
  rfl

theorem Request.chooseText_options (r : Request) {name : String} {key : Key}
    (h : (name, key) ∈ textOptions) (otherwise : String) :
    Presentation.chooseText (r.options.last? name) none otherwise =
      .ok ((r.value? key).getD otherwise) := by
  rw [r.last?_options h]
  cases r.value? key <;> rfl

/-- The name of the exported files, which the endings stand behind. -/
def Request.fileName (r : Request) : String := (r.value? .fileName).getD "untitled"

/-- The directory of the exported files. -/
def Request.directory (r : Request) : Path := Path.ofText ((r.value? .exportPath).getD "./")

def Request.paths (r : Request) : ExportPaths :=
  ⟨r.directory.join (r.fileName ++ ".json"), r.directory.join (r.fileName ++ ".html")⟩

section

variable {s : Settings} {r : Request} {p : Option Plot} {o : Presentation}
  (h : Presentation.ofNamedValues s r.options p = .ok o)
include h

theorem Request.fileName_ofNamedValues : o.fileName = r.fileName := by
  have hname : ("file_name", Key.fileName) ∈ textOptions := by decide
  have hchosen := (Presentation.chosen_of_ofNamedValues h).fileName
  rw [r.chooseText_options hname] at hchosen
  exact (Except.ok.inj hchosen).symm

theorem Request.directory_ofNamedValues : Path.ofText o.exportPath = r.directory := by
  have hname : ("export_path", Key.exportPath) ∈ textOptions := by decide
  have hchosen := (Presentation.chosen_of_ofNamedValues h).exportPath
  rw [r.chooseText_options hname] at hchosen
  exact congrArg Path.ofText (Except.ok.inj hchosen).symm

theorem Request.paths_ofNamedValues : o.paths = r.paths := by
  rw [Presentation.paths, directory_ofNamedValues h, fileName_ofNamedValues h]
  rfl

end

-- Options with texts for names are read as they are.
theorem read_obj (options : NamedValues) : NamedValues.read (.obj options) = .ok options :=
  NamedValues.read_map_texts options

/-! ## 2. Runs -/

theorem readOnly_readGiven (p : Path) : ReadOnly (readGiven p) :=
  .tryCatch (.read p) fun e => by
    cases e <;> exact .throw _

theorem readOnly_prepare (s : Settings) (r : Request) : ReadOnly (prepare s r) :=
  .bind (.bind (readOnly_readGiven _) fun _ => .bind (.ofExcept _) fun _ => .ofExcept _) fun _ =>
    .bind (.ofExcept _) fun _ => .bind (.ofExcept _) fun _ => .pure _

theorem run_map {α β : Type} (c : α → β) (x : Filing α) (f : Files) :
    Filing.run (c <$> x) f = (((Filing.run x f).1).map c, (Filing.run x f).2) := by
  rw [← bind_pure_comp, run_bind]
  rcases Filing.run x f with ⟨e | a, g⟩ <;> rfl

-- Preparing a request changes nothing, and answers what it prepared or a fault to tell.
theorem run_tryPrepare {s : Settings} {r : Request} {f g : Files}
    {answer : Except ConfigurationFault (Plot × Presentation)}
    (h : Filing.run (tryPrepare s r) f = (.ok answer, g)) :
    g = f ∧ ∀ prepared, answer = .ok prepared → Filing.run (prepare s r) f = (.ok prepared, f) := by
  have hsame := readOnly_prepare s r f
  rw [tryPrepare, run_tryCatch, run_map] at h
  rcases hrun : Filing.run (prepare s r) f with ⟨e | prepared, f'⟩
  · rw [hrun] at h hsame
    obtain rfl : f' = f := hsame
    cases e with
    | configuration fault =>
      cases h
      exact ⟨rfl, fun _ hp => by cases hp⟩
    | _ => cases h
  · rw [hrun] at h hsame
    obtain rfl : f' = f := hsame
    cases h
    exact ⟨rfl, fun _ hp => by rw [Except.ok.inj hp]⟩

theorem prepare_of_run {s : Settings} {r : Request} {f : Files} {plot : Plot} {o : Presentation}
    (h : Filing.run (prepare s r) f = (.ok (plot, o), f)) :
    ∃ description, Filing.run (loadDescription r.description) f = (.ok description, f) ∧
      Plot.ofDescription description = .ok plot ∧
      Presentation.ofNamedValues s r.options (some plot) = .ok o := by
  obtain ⟨description, _, hload, hrest⟩ := run_bind_eq_ok.mp h
  obtain ⟨plot', _, hplot, hrest⟩ := run_bind_eq_ok.mp hrest
  obtain ⟨o', _, ho, hanswer⟩ := run_bind_eq_ok.mp hrest
  rw [run_ofExcept] at hplot ho
  obtain ⟨hread, rfl⟩ := Prod.mk.inj hplot
  obtain ⟨hchosen, rfl⟩ := Prod.mk.inj ho
  cases hanswer
  exact ⟨description, hload, hread, hchosen⟩

/-- A command line is understood, and its request answers and leaves these files. -/
def Leaves (s : Settings) (argv : List String) (f : Files) (outcome : Outcome) (g : Files) : Prop :=
  ∃ r, read argv = .ok r ∧ Filing.run (run s r) f = (.ok outcome, g)

/-- What a request does that succeeds: it compiles the description in its file with its options, it
writes the document and the page under the name and to the directory that were asked for, and it
tells the notices in their order. -/
def Succeeds (s : Settings) (r : Request) (f : Files) (outcome : Outcome) (g : Files) : Prop :=
  ∃ description c text, Filing.run (loadDescription r.description) f = (.ok description, f) ∧
    compileDescription s description (.obj r.options) (Style.ofSettings s none) = .ok c ∧
    documentText s c.spec = .ok text ∧
    f.Exported r.directory r.paths (text ++ "\n") (page s r.fileName) g ∧
    outcome.errors = String.join (c.notices.map noticeLine)

theorem succeeds_of_exportPlot {s : Settings} {r : Request} {f g : Files} {outcome : Outcome}
    {plot : Plot} {o : Presentation} (hprepare : Filing.run (prepare s r) f = (.ok (plot, o), f))
    (h : Filing.run (exportPlot s plot o) f = (.ok outcome, g)) :
    outcome.status = 0 ∧ Succeeds s r f outcome g := by
  obtain ⟨description, hload, hplot, ho⟩ := prepare_of_run hprepare
  obtain ⟨c, _, hcompile, hrest⟩ := run_bind_eq_ok.mp h
  obtain ⟨paths, _, hexport, hanswer⟩ := run_bind_eq_ok.mp hrest
  rw [run_ofExcept] at hcompile
  obtain ⟨hc, rfl⟩ := Prod.mk.inj hcompile
  cases hanswer
  have hcompiled : compileDescription s description (.obj r.options) (Style.ofSettings s none) =
      .ok c := by
    rw [compileDescription, read_obj, ok_bind, hplot, ok_bind, ho, ok_bind, hc]
  obtain ⟨-, text, htext, hexported⟩ := exported_of_run hexport
  rw [Request.directory_ofNamedValues ho, Request.paths_ofNamedValues ho,
    Request.fileName_ofNamedValues ho] at hexported
  exact ⟨rfl, description, c, text, hload, hcompiled, htext, hexported, rfl⟩

/-- A command line that is understood, and whose request answers, has status one or zero.  With one
it leaves the files exactly as they were, and with zero it has succeeded. -/
theorem leaves_files (s : Settings) (argv : List String) (f g : Files) (outcome : Outcome)
    (h : Leaves s argv f outcome g) :
    (outcome.status = 1 ∧ g = f) ∨
      (outcome.status = 0 ∧ ∃ r, read argv = .ok r ∧ Succeeds s r f outcome g) := by
  obtain ⟨r, hread, h⟩ := h
  obtain ⟨answer, f', hprepare, h⟩ := run_bind_eq_ok.mp h
  obtain ⟨rfl, hprepared⟩ := run_tryPrepare hprepare
  cases answer with
  | error fault =>
    cases h
    exact Or.inl ⟨rfl, rfl⟩
  | ok prepared =>
    obtain ⟨hstatus, hsucceeds⟩ := succeeds_of_exportPlot (hprepared prepared rfl) h
    exact Or.inr ⟨hstatus, r, hread, hsucceeds⟩

/-- A description of two points in a file. -/
def pointFiles : Files :=
  .ofContents [("plot.json", "\x7b\"aes\":\x7b\"x\":[1,2],\"y\":[3,4]\x7d\x7d".toUTF8)]

def pointCommand : List String :=
  ["export", "plot.json", "--file-name", "chart", "--export-path=out", "--interactive"]

/-- The command succeeds on the file, and without the file it is refused. -/
theorem leaves_files_pointCommand :
    (∃ outcome g, Leaves {} pointCommand pointFiles outcome g ∧ outcome.status = 0 ∧
      ∃ r, read pointCommand = .ok r ∧ Succeeds {} r pointFiles outcome g) ∧
    ∃ outcome g, Leaves {} pointCommand {} outcome g ∧ outcome.status = 1 ∧ g = {} := by
  have hruns : (read pointCommand).toOption.any (fun r =>
      (Filing.run (run {} r) pointFiles).1.toOption.any (fun o => o.status == 0) &&
        (Filing.run (run {} r) {}).1.toOption.any (fun o => o.status == 1)) = true := by
    decide +kernel
  obtain ⟨r, hread, hruns⟩ := exists_of_any hruns
  obtain ⟨hwith, hwithout⟩ := Bool.and_eq_true_iff.mp hruns
  have hleaves {f : Files} {status : Nat} (h : (Filing.run (run {} r) f).1.toOption.any
      (fun o => o.status == status) = true) :
      ∃ outcome g, Leaves {} pointCommand f outcome g ∧ outcome.status = status := by
    obtain ⟨outcome, houtcome, hstatus⟩ := exists_of_any h
    exact ⟨outcome, _, ⟨r, hread, Prod.ext houtcome rfl⟩, beq_iff_eq.mp hstatus⟩
  constructor
  · obtain ⟨outcome, g, h, hstatus⟩ := hleaves hwith
    rcases leaves_files {} pointCommand pointFiles g outcome h with ⟨hone, -⟩ | hzero
    · omega
    · exact ⟨outcome, g, h, hzero⟩
  · obtain ⟨outcome, g, h, hstatus⟩ := hleaves hwithout
    rcases leaves_files {} pointCommand {} g outcome h with hone | ⟨hzero, -⟩
    · exact ⟨outcome, g, h, hone⟩
    · omega

end PlotScene.CommandLine
