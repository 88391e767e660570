import PlotScene.Proofs.Files.Export
import PlotScene.Proofs.Files.Loading
import PlotScene.Proofs.Files.Paths
import PlotScene.Proofs.Json.RoundTrip

/-!
# Exported documents are loaded again

An export that answers has written a text that is loaded as the same document: its keys are in their
order and its integers and doubles stay apart.  A document that holds NaN or an infinity is refused,
and then every file is left as it was.
-/

namespace PlotScene

/-! ## 1. Refused exports -/

/-- The same files with the same contents; directories may differ. -/
def Files.SameFiles (f g : Files) : Prop :=
  ∀ l content, g.node? l = some (.file content) ↔ f.node? l = some (.file content)

namespace Filing

open Files

variable {α β : Type}

/-- Work that leaves every file as it was, whether it answers or stops. -/
def KeepsFiles (x : Filing α) : Prop :=
  ∀ f : Files, f.SameFiles (run x f).2

theorem ReadOnly.keepsFiles {x : Filing α} (h : ReadOnly x) : KeepsFiles x := by
  intro f l content
  rw [h f]

theorem KeepsFiles.bind {x : Filing α} {k : α → Filing β} (hx : KeepsFiles x)
    (hk : ∀ a, KeepsFiles (k a)) : KeepsFiles (x >>= k) := by
  intro f l content
  have hf := hx f l content
  rw [run_bind]
  rcases hrun : run x f with ⟨e | a, g⟩
  · rwa [hrun] at hf
  · rw [hrun] at hf
    exact (hk a g l content).trans hf

-- A directory is made only where nothing is.
theorem keepsFiles_ensureDirectory (p : Path) : KeepsFiles (ensureDirectory p) := by
  refine .bind (ReadOnly.locate p).keepsFiles fun l f l' content => ?_
  rw [run_bind, run_get]
  dsimp only
  split
  next hnone =>
    have hnode := Option.isNone_iff_eq_none.mp hnone
    have hbase : l.isBase = false := isBase_eq_false (f := f) (by simp [hnode])
    show (f.put l .directory).node? l' = _ ↔ _
    rw [node?_put hbase]
    split
    next heq => simp [heq, hnode]
    next => exact Iff.rfl
  next => exact Iff.rfl

theorem keepsFiles_ensureNames (absolute : Bool) (names : List String) :
    KeepsFiles (ensureNames absolute names) := by
  induction names with
  | nil => exact (ReadOnly.pure ()).keepsFiles
  | cons name above ih => exact .bind ih fun _ => keepsFiles_ensureDirectory _

theorem keepsFiles_makeDirectories (p : Path) : KeepsFiles (makeDirectories p) := by
  refine .bind (ReadOnly.requireNames p).keepsFiles fun _ =>
    .bind (keepsFiles_ensureNames _ _) fun _ => ReadOnly.keepsFiles ?_
  refine .bind (fun _ => rfl) fun f => .bind (.locate p) fun l => ?_
  split
  · exact .throw _
  · exact .pure _

theorem run_export_of_error {s : Settings} {spec : Value} {e : Fault}
    (h : documentText s spec = .error e) (o : Presentation) (f : Files) :
    ∃ e g, run (Filing.export s spec o) f = (.error e, g) ∧ f.SameFiles g := by
  have hkept := keepsFiles_makeDirectories (Path.ofText o.exportPath) f
  rw [Filing.export, run_bind]
  rcases hmake : run (makeDirectories (Path.ofText o.exportPath)) f with ⟨e' | u, made⟩
  · rw [hmake] at hkept
    exact ⟨e', made, rfl, hkept⟩
  · rw [hmake] at hkept
    refine ⟨e, made, ?_, hkept⟩
    dsimp only
    rw [run_bind, run_ofExcept, h]

/-! ## 2. Exports that answer -/

theorem run_write {p : Path} {f : Files} {l : Location} (hlocate : run (locate p) f = (.ok l, f))
    (hnode : f.node? l ≠ some .directory) (text : String) :
    run (write p text) f = (.ok (), f.put l (.file text.toUTF8)) := by
  rw [write, run_bind, hlocate]
  dsimp only
  rw [run_bind, run_get]
  dsimp only
  split
  next heq => exact absurd heq hnode
  next => rfl

end Filing

/-- The directory of an export can be made, and its two files can be written there. -/
structure Files.Takes (f : Files) (o : Presentation) (made : Files) (json html : Location) :
    Prop where
  makes : Filing.run (Filing.makeDirectories (Path.ofText o.exportPath)) f = (.ok (), made)
  json_place : Filing.run (Filing.locate o.paths.json) made = (.ok json, made)
  html_place : Filing.run (Filing.locate o.paths.html) made = (.ok html, made)
  json_free : made.node? json ≠ some .directory
  html_free : made.node? html ≠ some .directory

namespace Filing

open Files

theorem exists_run_export {s : Settings} {spec : Value} {o : Presentation} {text : String}
    (htext : documentText s spec = .ok text) {f made : Files} {json html : Location}
    (h : f.Takes o made json html) : ∃ g, run (Filing.export s spec o) f = (.ok o.paths, g) := by
  generalize hwritten : made.put json (.file (text ++ "\n").toUTF8) = written
  have hwrote : Wrote (Path.ofText o.exportPath) [json] made written :=
    hwritten ▸ .file h.json_free _
  have hhtml : run (locate o.paths.html) written = (.ok html, written) := by
    obtain ⟨hnull, hplace, -⟩ := run_locate_eq_ok.mp h.html_place
    exact run_locate_eq_ok.mpr ⟨hnull, locate_mono hwrote.directories hplace, rfl⟩
  have hfree : written.node? html ≠ some .directory := by
    rw [← hwritten, node?_put (isBase_eq_false h.json_free)]
    split
    · exact fun heq => by cases heq
    · exact h.html_free
  rw [Filing.export, run_bind, h.makes]
  dsimp only
  rw [run_bind, run_ofExcept, htext]
  dsimp only
  rw [run_bind, run_write h.json_place h.json_free, hwritten]
  dsimp only
  rw [run_bind, run_write hhtml hfree]
  exact ⟨_, rfl⟩

/-! ## 3. Loading -/

theorem run_loadDescription_of_read {p : Path} (hp : p.Formed) {g : Files} {text : String}
    (hread : run (read p) g = (.ok text.toUTF8, g)) (hreturn : '\r' ∉ text.toList) {v : Value}
    (hdocument : Json.document text.toList = .ok v) (hmap : v.isMap = true) :
    run (loadDescription p.text) g = (.ok v, g) := by
  have hgiven : run (readGiven (Path.ofText p.text)) g = (.ok text.toUTF8, g) := by
    rw [Path.ofText_text hp, readGiven, run_tryCatch, hread]
  rw [run_loadDescription hgiven, decodeText_toUTF8,
    unifyLineBreaks_of_not_mem _ hreturn, ok_bind, parseDescription, hdocument]
  dsimp only
  rw [if_pos hmap]

theorem run_loadDescription_of_export {s : Settings} {v : Value} (hv : Json.Document v)
    (hread : ∀ x ∈ v.floats, Decimal.ReadsBack x) (hmap : v.isMap = true) {o : Presentation}
    {f g : Files} {paths : ExportPaths} (h : run (Filing.export s v o) f = (.ok paths, g)) :
    run (loadDescription o.paths.json.text) g = (.ok v, g) := by
  obtain ⟨-, text, htext, hexported⟩ := exported_of_run h
  obtain ⟨hreturn, hdocument⟩ := Json.document_of_document? hv hread htext
  have hformed : o.paths.json.Formed := (Path.formed_ofText o.exportPath).join _
  exact run_loadDescription_of_read hformed hexported.json hreturn hdocument hmap

end Filing

/-- What becomes of a value that is exported and loaded again. -/
structure Reloads (s : Settings) (v : Value) : Prop where
  /-- It is refused exactly when it holds NaN or an infinity, at whatever depth. -/
  refused : documentText s v = .error .unusable ↔ ∃ x ∈ v.floats, x.isFinite = false
  /-- An export that is refused leaves every file as it was. -/
  kept : (∃ x ∈ v.floats, x.isFinite = false) → ∀ o f, ∃ e g,
    Filing.run (Filing.export s v o) f = (.error e, g) ∧ f.SameFiles g
  /-- With finite doubles alone it has a text. -/
  written : (∀ x ∈ v.floats, x.isFinite = true) → ∃ text, documentText s v = .ok text
  /-- Where the files can be written the export answers, and its document is loaded as the value. -/
  loaded : (∀ x ∈ v.floats, x.isFinite = true ∧ Decimal.ReadsBack x) → v.isMap = true →
    ∀ o f made json html, f.Takes o made json html → ∃ g,
      Filing.run (Filing.export s v o) f = (.ok o.paths, g) ∧
        Filing.run (Filing.loadDescription o.paths.json.text) g = (.ok v, g)

/-- Every value of a document is exported in full and loaded as it was, or refused before any file
is touched. -/
theorem reloads_of_document (s : Settings) {v : Value} (hv : Json.Document v) : Reloads s v := by
  have hchecked : Json.Checked v.floats (documentText s v) := Json.checked_document? hv s.layout
  refine ⟨hchecked.eq_unusable_iff, fun hinfinite o f => ?_, hchecked.exists_ok,
    fun hfloats hmap o f made json html htakes => ?_⟩
  · exact Filing.run_export_of_error (hchecked.eq_unusable_iff.mpr hinfinite) o f
  · obtain ⟨text, htext⟩ := hchecked.exists_ok fun x hx => (hfloats x hx).1
    obtain ⟨g, hexport⟩ := Filing.exists_run_export htext htakes
    exact ⟨g, hexport,
      Filing.run_loadDescription_of_export hv (fun x hx => (hfloats x hx).2) hmap hexport⟩

/-- A document with every kind of value. -/
def nestedDocument : Value :=
  .obj [("size", .float 0.1), ("far", .float (-1e300)), ("note", .str "a\n\"b\""),
    ("rows", .list [.int (-3), .null, .obj [("on", .bool true)], .list []])]

theorem reloads_of_document_nested : ∃ g,
    Filing.run (Filing.export {} nestedDocument {}) {} =
      (.ok (Presentation.paths {}), g) ∧
    Filing.run (Filing.loadDescription (Presentation.paths {}).json.text) g =
      (.ok nestedDocument, g) := by
  have hthree : (Scalar.int (-3)).hasText = true := by decide
  have hrow : ∀ v ∈ [Value.int (-3), .null, .obj [("on", .bool true)], .list []],
      Json.Document v := by
    simp only [List.forall_mem_cons]
    exact ⟨.scalar hthree, .scalar rfl,
      .map (by decide) (List.forall_mem_singleton.mpr (.scalar rfl)),
      .list (List.forall_mem_nil _), List.forall_mem_nil _⟩
  have hdocument : Json.Document nestedDocument := by
    refine .map (by decide) ?_
    simp only [List.forall_mem_cons]
    exact ⟨.scalar rfl, .scalar rfl, .scalar rfl, .list hrow, List.forall_mem_nil _⟩
  have hfloats : ∀ x ∈ nestedDocument.floats, x.isFinite = true ∧ Decimal.ReadsBack x := by
    decide +kernel
  have hempty (l : Location) (hl : l.isBase = false) :
      (({} : Files).node? l) ≠ some .directory := by
    rw [Files.node?, hl]
    exact fun h => by cases h
  exact (reloads_of_document {} hdocument).loaded hfloats rfl {} {} {} ["untitled.json"]
    ["untitled.html"] ⟨rfl, rfl, rfl, hempty _ (by decide), hempty _ (by decide)⟩

end PlotScene
