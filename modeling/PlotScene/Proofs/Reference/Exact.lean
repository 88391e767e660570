import PlotScene.Proofs.Reference.Unresolved

/-!
# The check of references is exact

The problems of a document are those of its references that do not resolve.  A document in which
data, scales, axes, legends and marks are lists of mappings is always read, so for such a document
the check decides whether all references are in scope.
-/

namespace PlotScene.Reference

/-! ## 1. Problems of what is read -/

theorem sourceProblems_eq (before : List Scalar) (vs : List Value) :
    sourceProblems before (vs.map Source.of) = problemsOf (sourceOccurrences before vs) := by
  induction vs generalizing before with
  | nil => rfl
  | cons v vs ih =>
    rw [List.map_cons, sourceProblems, sourceOccurrences, problemsOf_append, ← ih]
    congr 1
    simp only [Source.of]
    split
    next u hu =>
      split at hu
      next => cases hu
      next hnull =>
        obtain rfl := Option.some.inj hu
        rw [if_neg hnull]
        rw [problemsOf_singleton]
    next hu =>
      split at hu
      next hnull =>
        rw [if_pos hnull]
        rfl
      next => cases hu

theorem scaleProblems_eq (scope : List Scalar) (place : String) (cs : List Value) :
    scaleProblems scope place (cs.map Scale.of) = problemsOf (scaleOccurrences scope place cs) := by
  rw [scaleProblems, scaleOccurrences, problemsOf_flatMap, List.flatMap_map]
  simp only [problemsOf_map, Scale.of]

theorem legendProblems_eq (scope : List Scalar) (l : Value) :
    ((legendOf l).flatMap fun s => missing scope s (.legend s)) =
      problemsOf (legendOccurrences scope l) := by
  rw [legendOccurrences, problemsOf_map, legendOf, List.flatMap_map]

theorem sourceScope_cons (spec v : Value) (as : List Value) :
    sourceScope spec (v :: as) =
      (((facetOf? v).map Facet.of).map Facet.name).toList ++ sourceScope spec as := by
  rw [sourceScope, sourceScope, List.flatMap_cons, List.append_assoc]
  cases facetOf? v <;> rfl

theorem scaleScope_cons (spec v : Value) (as : List Value) :
    scaleScope spec (v :: as) =
      ((parts v "scales").map Scale.of).map Scale.name ++ scaleScope spec as := by
  rw [scaleScope, scaleScope, List.flatMap_cons, List.append_assoc, List.map_map]
  rfl

-- The problems of a mark: those of its own references, and those of the marks inside it, which see
-- what it adds to the scope.
theorem markProblems_of (spec : Value) (as : List Value) (place : String) (index : Nat)
    (v : Value) (children : List Mark) :
    markProblems (sourceScope spec as) (scaleScope spec as) place index (Mark.of v children) =
      problemsOf (markOccurrences spec ⟨as, place, index, v⟩) ++
        childProblems (sourceScope spec (v :: as)) (scaleScope spec (v :: as))
          ((Visit.mk as place index v).label ++ ".") 0 children := by
  rw [Mark.of, markProblems, markOccurrences]
  simp only [problemsOf_append, problemsOf_map, ← scaleProblems_eq, sourceScope_cons,
    scaleScope_cons, Visit.label, Option.toList_map, List.flatMap_map, Facet.of]

/-! ## 2. Problems along the walk -/

section

variable (spec : Value)

mutual

-- The recursion is that of the reader, which goes from a mark to its entries, from the entry for
-- marks to its items, and back; each step adds the problems of one mark or of none.
theorem markProblems_eq {as : List Value} {place : String} {index : Nat} {m : Mark} (v : Value)
    (h : Mark.read v = .ok m) :
    markProblems (sourceScope spec as) (scaleScope spec as) place index m =
      problemsOf ((walk as place index v).flatMap (markOccurrences spec)) := by
  match v with
  | .map es =>
    rw [Mark.read] at h
    obtain ⟨children, hchildren, h⟩ := bind_eq_ok.mp h
    rw [readMark_eq h, markProblems_of, insideProblems_eq es hchildren, walk, List.flatMap_cons,
      problemsOf_append]
  | .scalar _ | .list _ | .array _ _ | .column _ => cases h
termination_by structural v

theorem insideProblems_eq {as : List Value} {place : String} {ms : List Mark}
    (es : List (Scalar × Value)) (h : readInside es = .ok ms) :
    childProblems (sourceScope spec as) (scaleScope spec as) place 0 ms =
      problemsOf ((walkInside as place es).flatMap (markOccurrences spec)) := by
  match es with
  | [] =>
    cases h
    rw [childProblems]
    rfl
  | (k, v) :: es =>
    rw [readInside] at h
    rw [walkInside]
    split at h
    next hk =>
      rw [if_pos hk]
      exact marksProblems_eq v h
    next hk =>
      rw [if_neg hk]
      exact insideProblems_eq es h
termination_by structural es

theorem marksProblems_eq {as : List Value} {place : String} {ms : List Mark} (v : Value)
    (h : readMarks v = .ok ms) :
    childProblems (sourceScope spec as) (scaleScope spec as) place 0 ms =
      problemsOf ((walkMarks as place v).flatMap (markOccurrences spec)) := by
  match v with
  | .list vs => exact itemsProblems_eq vs h
  | .scalar _ | .map _ | .array _ _ | .column _ =>
    -- Nothing but a list has marks: anything else is read only where it has no items.
    obtain ⟨items, -, h⟩ := bind_eq_ok.mp h
    cases items with
    | nil =>
      cases h
      rw [childProblems]
      rfl
    | cons w ws => cases h
termination_by structural v

theorem itemsProblems_eq {as : List Value} {place : String} {index : Nat} {ms : List Mark}
    (vs : List Value) (h : readMarkItems vs = .ok ms) :
    childProblems (sourceScope spec as) (scaleScope spec as) place index ms =
      problemsOf ((walkItems as place index vs).flatMap (markOccurrences spec)) := by
  match vs with
  | [] =>
    cases h
    rw [childProblems]
    rfl
  | v :: vs =>
    rw [readMarkItems] at h
    obtain ⟨m, hm, h⟩ := bind_eq_ok.mp h
    obtain ⟨ms, hms, h⟩ := bind_eq_ok.mp h
    rw [← Except.ok.inj h, childProblems, markProblems_eq v hm, itemsProblems_eq vs hms, walkItems,
      List.flatMap_append, problemsOf_append]
termination_by structural vs

end

end

/-! ## 3. Problems of documents -/

theorem inside_of_readMarks {v : Value} {ms : List Mark} (h : readMarks v = .ok ms) :
    readMarkItems v.items = .ok ms := by
  cases v with
  | list vs => exact h
  | _ =>
    obtain ⟨items, -, h⟩ := bind_eq_ok.mp h
    cases items with
    | nil => exact h
    | cons w ws => cases h

theorem Document.read_eq {spec : Value} {d : Document} (h : Document.read spec = .ok d) :
    ∃ ms, readMarkItems (inside spec) = .ok ms ∧ d = Document.of spec ms := by
  obtain ⟨ss, hss, h⟩ := bind_eq_ok.mp h
  obtain ⟨sources, hsources, h⟩ := bind_eq_ok.mp h
  obtain ⟨cs, hcs, h⟩ := bind_eq_ok.mp h
  obtain ⟨scales, hscales, h⟩ := bind_eq_ok.mp h
  obtain ⟨as, has, h⟩ := bind_eq_ok.mp h
  obtain ⟨axes, haxes, h⟩ := bind_eq_ok.mp h
  obtain ⟨ls, hls, h⟩ := bind_eq_ok.mp h
  obtain ⟨legends, hlegends, h⟩ := bind_eq_ok.mp h
  obtain ⟨o, ho, h⟩ := bind_eq_ok.mp h
  obtain ⟨-, rfl⟩ := Value.isMap_of_entry? ho
  -- Whatever marks follow, the other parts are read item by item.
  have hd (ms : List Mark) :
      (⟨sources, scales, axes, legends, ms⟩ : Document) = Document.of spec ms := by
    rw [Document.of, parts_of_itemsUnder hss, parts_of_itemsUnder hcs, parts_of_itemsUnder has,
      parts_of_itemsUnder hls, eq_map_of_mapM (fun _ _ => Source.read_eq) hsources,
      eq_map_of_mapM (fun _ _ => Scale.read_eq) hscales,
      eq_map_of_mapM (fun _ _ => Axis.read_eq) haxes,
      eq_map_of_mapM (fun _ _ => readLegend_eq) hlegends]
  split at h
  next marks hmarks =>
    obtain ⟨ms, hms, h⟩ := bind_eq_ok.mp h
    refine ⟨ms, ?_, (Except.ok.inj h).symm.trans (hd ms)⟩
    rw [inside, Value.getD_of_get? hmarks]
    exact inside_of_readMarks hms
  next hmarks =>
    refine ⟨[], ?_, (Except.ok.inj h).symm.trans (hd [])⟩
    rw [inside, Value.getD_of_get?_none hmarks]
    rfl

/-- The problems of a document that can be read are those of its references out of scope. -/
theorem problems_of_read {spec : Value} {d : Document} (h : Document.read spec = .ok d) :
    d.problems = problemsOf (occurrences spec) := by
  obtain ⟨ms, hms, rfl⟩ := Document.read_eq h
  have hsources : (parts spec "data").map (Source.name ∘ Source.of) = sourceScope spec [] := rfl
  have hscales : (parts spec "scales").map (Scale.name ∘ Scale.of) = scaleScope spec [] := rfl
  simp only [Document.problems, Document.of, List.map_map, List.flatMap_map, sourceProblems_eq,
    scaleProblems_eq, legendProblems_eq, hsources, hscales, itemsProblems_eq spec (inside spec) hms,
    occurrences, problemsOf_append, problemsOf_flatMap, problemsOf_map]
  rfl

/-- What the check finds: nothing exactly when the document is scoped. -/
theorem unresolved_eq_ok {spec : Value} {ps : List Problem} (h : unresolved spec = .ok ps) :
    ps = problemsOf (occurrences spec) ∧ (ps = [] ↔ Scoped spec) := by
  obtain ⟨d, hd, rfl⟩ := map_eq_ok.mp h
  rw [problems_of_read hd]
  exact ⟨rfl, problemsOf_eq_nil.trans occurrences_resolve⟩

end PlotScene.Reference
