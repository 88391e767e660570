import PlotScene.Files.Export
import PlotScene.Proofs.Files.Work

/-!
# What an export leaves

A document and its page stand side by side: the last names of their paths differ in the ending,
so they are two files.  After an export each can be read back where it was written, and nothing else
has changed but directories on the way.
-/

namespace PlotScene

/-! ## 1. Endings -/

-- Letters behind a text without a separator among them belong to its last part.
theorem Text.parts_append (separator : Char) (cs : List Char) :
    ∃ before last, ∀ ending : List Char, separator ∉ ending →
      parts separator (cs ++ ending) = before ++ [last ++ ending] := by
  induction cs with
  | nil =>
    refine ⟨[], [], fun ending hending => ?_⟩
    induction ending with
    | nil => rfl
    | cons c ending ih =>
      obtain ⟨hc, hending⟩ := not_or.mp fun h => hending (List.mem_cons.mpr h)
      have hparts := ih hending
      rw [List.nil_append] at hparts
      rw [List.nil_append, parts, if_neg fun h => hc h.symm, hparts]
      rfl
  | cons c cs ih =>
    obtain ⟨before, last, h⟩ := ih
    by_cases hc : c = separator
    · refine ⟨[] :: before, last, fun ending hending => ?_⟩
      rw [List.cons_append, parts, if_pos hc, h ending hending]
      rfl
    · cases before with
      | nil =>
        refine ⟨[], c :: last, fun ending hending => ?_⟩
        rw [List.cons_append, parts, if_neg hc, h ending hending]
        rfl
      | cons p before =>
        refine ⟨(c :: p) :: before, last, fun ending hending => ?_⟩
        rw [List.cons_append, parts, if_neg hc, h ending hending]
        rfl

namespace Path

/-- The endings of the files of an export. -/
def endings : List String := [".json", ".html"]

-- A text with an ending leads, from where it begins, to a last name with that ending.
theorem ofText_append (text : String) : ∃ absolute names name, ∀ ending ∈ endings,
    ofText (text ++ ending) = ⟨absolute, names ++ [name ++ ending]⟩ := by
  obtain ⟨before, last, hparts⟩ := Text.parts_append '/' text.toList
  refine ⟨text.toList.head? == some '/', (before.map String.ofList).filter
    fun name => name != "" && name != ".", String.ofList last, fun ending hending => ?_⟩
  obtain ⟨hslash, hdot, hlength⟩ : '/' ∉ ending.toList ∧ ending.toList.head? = some '.' ∧
      ending.length = 5 := by
    revert ending
    decide
  have hhead : ((text ++ ending).toList.head? == some '/') = (text.toList.head? == some '/') := by
    rw [String.toList_append]
    cases text.toList with
    | nil => rw [List.nil_append, hdot]; rfl
    | cons c cs => rfl
  have hlast : String.ofList (last ++ ending.toList) = String.ofList last ++ ending := by
    rw [String.ofList_append, String.ofList_toList]
  have hkept (short : String) (hshort : short.length < 5) :
      (String.ofList last ++ ending != short) = true := by
    rw [bne_iff_ne]
    rintro rfl
    rw [String.length_append, hlength] at hshort
    omega
  rw [ofText, namesOf, hhead, String.toList_append, hparts _ hslash, List.map_append,
    List.filter_append, List.map_singleton, hlast, List.filter_cons_of_pos, List.filter_nil]
  rw [hkept "" (by decide), hkept "." (by decide)]
  rfl

-- The same text with the two endings, below a directory, leads to two last names.
theorem join_append (directory : Path) (text : String) : ∃ absolute names name, ∀ ending ∈ endings,
    directory.join (text ++ ending) = ⟨absolute, names ++ [name ++ ending]⟩ := by
  obtain ⟨absolute, names, name, htext⟩ := ofText_append text
  cases absolute with
  | true =>
    refine ⟨true, names, name, fun ending hending => ?_⟩
    rw [join, htext ending hending]
    rfl
  | false =>
    refine ⟨directory.absolute, directory.names ++ names, name, fun ending hending => ?_⟩
    rw [join, htext ending hending, List.append_assoc]
    rfl

end Path

-- A path with a last name leads to a place with that name.
theorem Files.getLast?_locate {f : Files} {absolute : Bool} {names : List String} {name : String}
    (hname : name ≠ "..") {l : Location}
    (h : f.locate ⟨absolute, names ++ [name]⟩ = .ok l) : l.getLast? = some name := by
  rw [locate, List.getLast?_concat] at h
  split at h
  next hnone => cases hnone
  next hup => exact absurd (Option.some.inj hup) hname
  next last _ hlast =>
    obtain rfl := Option.some.inj hlast
    obtain ⟨here, -, rfl⟩ := map_eq_ok.mp h
    exact List.getLast?_concat

theorem Path.name_ne {name ending : String} (h : ending ∈ endings) : name ++ ending ≠ ".." := by
  have hlength : ending.length = 5 := by
    revert ending
    decide
  intro heq
  have hlong := congrArg String.length heq
  rw [String.length_append, hlength] at hlong
  have hshort : "..".length = 2 := by decide
  omega

-- The two files of an export are at two places.
theorem Presentation.places_ne {o : Presentation} {f : Files} {json html : Location}
    (hjson : f.locate o.paths.json = .ok json) (hhtml : f.locate o.paths.html = .ok html) :
    json ≠ html := by
  obtain ⟨absolute, names, name, hjoin⟩ := Path.join_append (Path.ofText o.exportPath) o.fileName
  have hj : ".json" ∈ Path.endings := by decide
  have hh : ".html" ∈ Path.endings := by decide
  have hjsonPath : o.paths.json = ⟨absolute, names ++ [name ++ ".json"]⟩ := hjoin _ hj
  have hhtmlPath : o.paths.html = ⟨absolute, names ++ [name ++ ".html"]⟩ := hjoin _ hh
  rw [hjsonPath] at hjson
  rw [hhtmlPath] at hhtml
  rintro rfl
  have hname := (Files.getLast?_locate (Path.name_ne hj) hjson).symm.trans
    (Files.getLast?_locate (Path.name_ne hh) hhtml)
  have heq := congrArg String.toList (Option.some.inj hname)
  rw [String.toList_append, String.toList_append, List.append_cancel_left_eq] at heq
  exact absurd heq (by decide)

/-! ## 2. Exports -/

open Files

/-- What work leaves that wrote a document and its page to two paths.  Nothing else was written, and
directories were made only on the way to the one of the export. -/
structure Files.Exported (directory : Path) (paths : ExportPaths) (document page : String)
    (f g : Files) : Prop where
  json : Filing.run (Filing.read paths.json) g = (.ok document.toUTF8, g)
  html : Filing.run (Filing.read paths.html) g = (.ok page.toUTF8, g)
  rest : ∃ j h, g.locate paths.json = .ok j ∧ g.locate paths.html = .ok h ∧
    Files.Wrote directory [j, h] f g

/-- An export that answers has written the text of the document, a line feed behind it, and its
page. -/
theorem Filing.exported_of_run {s : Settings} {spec : Value} {o : Presentation}
    {paths : ExportPaths} {f g : Files}
    (h : run (Filing.export s spec o) f = (.ok paths, g)) :
    paths = o.paths ∧ ∃ text, documentText s spec = .ok text ∧
      f.Exported (Path.ofText o.exportPath) o.paths (text ++ "\n") (page s o.fileName) g := by
  obtain ⟨_, made, hmake, h⟩ := run_bind_eq_ok.mp h
  obtain ⟨text, _, hanswer, h⟩ := run_bind_eq_ok.mp h
  obtain ⟨_, _, hwriteJson, h⟩ := run_bind_eq_ok.mp h
  obtain ⟨_, _, hwriteHtml, h⟩ := run_bind_eq_ok.mp h
  rw [run_ofExcept] at hanswer
  obtain ⟨htext, rfl⟩ := Prod.mk.inj hanswer
  obtain ⟨j, hjnull, hj, hjson, rfl⟩ := write_of_run hwriteJson
  obtain ⟨l, hlnull, hl, hhtml, rfl⟩ := write_of_run hwriteHtml
  cases h
  generalize hwritten : made.put j (.file (text ++ "\n").toUTF8) = written at hl hhtml ⊢
  have hwroteJson : Wrote (Path.ofText o.exportPath) [j] made written := hwritten ▸ .file hjson _
  generalize hfinal : written.put l (.file (page s o.fileName).toUTF8) = final
  have hwroteHtml : Wrote (Path.ofText o.exportPath) [l] written final := hfinal ▸ .file hhtml _
  have hj' : final.locate o.paths.json = .ok j :=
    locate_mono hwroteHtml.directories (locate_mono hwroteJson.directories hj)
  have hl' : final.locate o.paths.html = .ok l := locate_mono hwroteHtml.directories hl
  have hne : j ≠ l := Presentation.places_ne hj' hl'
  have hjnode : final.node? j = some (.file (text ++ "\n").toUTF8) := by
    rw [← hfinal, node?_put (isBase_eq_false hhtml), if_neg hne, ← hwritten,
      node?_put (isBase_eq_false hjson), if_pos rfl]
  have hlnode : final.node? l = some (.file (page s o.fileName).toUTF8) := by
    rw [← hfinal, node?_put (isBase_eq_false hhtml), if_pos rfl]
  exact ⟨rfl, text, htext, run_read hjnull hj' hjnode, run_read hlnull hl' hlnode, j, l, hj', hl',
    ((wrote_makeDirectories hmake).trans hwroteJson).trans hwroteHtml⟩

end PlotScene
