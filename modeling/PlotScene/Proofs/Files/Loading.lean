import PlotScene.Files.Description
import PlotScene.Proofs.Files.Work
import PlotScene.Proofs.Json.Document

/-!
# What loading a description comes to

A description is the object that the text of a file encodes.  A path without a readable file, a text
that encodes nothing and one that encodes something else are configuration faults.  A path that no
file can have, a content that is no UTF-8 text, and a text with an integer that is too long are
faults of another kind.  A text with half a pair of units encodes nothing here, and what it comes to
is left open.
-/

namespace PlotScene

/-! ## 1. Contents -/

/-- A content is the UTF-8 form of a text, read with its line breaks unified. -/
def Holds (content : ByteArray) (s : List Char) : Prop :=
  ∃ t : String, content = t.toUTF8 ∧ s = unifyLineBreaks t.toList

theorem toUTF8_of_fromUTF8? {content : ByteArray} {t : String}
    (h : String.fromUTF8? content = some t) : content = t.toUTF8 := by
  unfold String.fromUTF8? at h
  split at h
  next => exact congrArg String.toByteArray (Option.some.inj h)
  next => cases h

theorem decodeText_eq_ok {content : ByteArray} {s : List Char} :
    decodeText content = .ok s ↔ Holds content s := by
  constructor
  · intro h
    unfold decodeText at h
    split at h
    next t ht => exact ⟨t, toUTF8_of_fromUTF8? ht, (Except.ok.inj h).symm⟩
    next => cases h
  · rintro ⟨t, rfl, rfl⟩
    exact decodeText_toUTF8 t

theorem eq_undecodable {content : ByteArray} {e : Fault} (h : decodeText content = .error e) :
    e = .undecodable := by
  unfold decodeText at h
  split at h
  next => cases h
  next => exact (Except.error.inj h).symm

/-- What the content of a file comes to as a description; the path stands in the messages. -/
inductive Described (path : String) (content : ByteArray) : Except Fault Value → Prop where
  | object {s : List Char} {v : Value} : Holds content s → Json.Encodes s v → v.isMap = true →
      Described path content (.ok v)
  | notAnObject {s : List Char} {v : Value} : Holds content s → Json.Encodes s v →
      v.isMap = false → Described path content (.error (.configuration (.notAnObject path)))
  | notADocument {s : List Char} {cause : SyntaxCause} {left : Nat} : Holds content s →
      (∀ v, ¬ Json.Encodes s v) → Described path content
        (.error (.configuration (.notADocument path (Json.placeOf s cause left))))
  | longInteger {s : List Char} : Holds content s → (∀ v, ¬ Json.Encodes s v) →
      Json.Overlong s → Described path content (.error .unusable)
  -- No text here holds half a pair of units, so this says nothing of the answer.
  | halfPair {s : List Char} {answer : Except Fault Value} : Holds content s →
      (∀ v, ¬ Json.Encodes s v) → Json.HalfPaired s → Described path content answer
  | notText : (∀ s, ¬ Holds content s) → Described path content (.error .undecodable)

theorem described_parseDescription (path : String) {content : ByteArray} {s : List Char}
    (h : Holds content s) : Described path content (parseDescription path s) := by
  have houtcome := Json.document_outcome s
  have hnone {e : Json.Refusal} (he : Json.document s = .error e) (v : Value) :
      ¬ Json.Encodes s v := by
    rw [← Json.document_eq_ok_iff, he]
    exact fun hok => by cases hok
  unfold parseDescription
  split
  next v hv =>
    rw [hv] at houtcome
    split
    next hmap => exact .object h houtcome hmap
    next hmap => exact .notAnObject h houtcome (Bool.not_eq_true _ ▸ hmap)
  next he => exact .notADocument h (hnone he)
  next he =>
    rw [he] at houtcome
    exact .longInteger h (hnone he) houtcome
  next he =>
    rw [he] at houtcome
    exact .halfPair h (hnone he) houtcome

/-! ## 2. Files -/

/-- Why there is no file to read at a path. -/
inductive Files.Unreadable (f : Files) (p : Path) : FileCause → Prop where
  | lost {cause : FileCause} : f.locate p = .error cause → Unreadable f p cause
  | missing {l : Location} : f.locate p = .ok l → f.node? l = none → Unreadable f p .missing
  | directory {l : Location} : f.locate p = .ok l → f.node? l = some .directory →
      Unreadable f p .isADirectory

/-- What loading the description at a path comes to. -/
inductive Loaded (f : Files) (p : Path) : Except Fault Value → Prop where
  | file {l : Location} {content : ByteArray} {answer : Except Fault Value} :
      p.hasNull = false → f.locate p = .ok l → f.node? l = some (.file content) →
      Described p.text content answer → Loaded f p answer
  | unreadable {cause : FileCause} : p.hasNull = false → f.Unreadable p cause →
      Loaded f p (.error (.configuration (.unreadableFile p.text ⟨cause, p.text⟩)))
  | null : p.hasNull = true → Loaded f p (.error .unusable)

namespace Filing

theorem run_read_of_unreadable {p : Path} {f : Files} {cause : FileCause}
    (hnull : p.hasNull = false) (h : f.Unreadable p cause) :
    run (read p) f = (.error (faultAt p cause), f) := by
  rw [read, run_bind, run_get]
  dsimp only
  rw [run_bind, run_locate hnull]
  cases h with
  | lost hl =>
    rw [hl]
    rfl
  | missing hl hnode | directory hl hnode =>
    rw [hl]
    dsimp only [Except.mapError]
    rw [hnode]
    rfl

-- Whatever stands in the way of a file, the caller is told of it.
theorem run_readGiven_of_unreadable {p : Path} {f : Files} {cause : FileCause}
    (hnull : p.hasNull = false) (h : f.Unreadable p cause) : run (readGiven p) f =
      (.error (.configuration (.unreadableFile p.text ⟨cause, p.text⟩)), f) := by
  rw [readGiven, run_tryCatch, run_read_of_unreadable hnull h]
  rfl

-- A null character in a path is a fault of another kind, which passes through.
theorem run_readGiven_of_hasNull {p : Path} (h : p.hasNull = true) (f : Files) :
    run (readGiven p) f = (.error .unusable, f) := by
  have hread : run (read p) f = (.error .unusable, f) := by
    rw [read, run_bind, run_get]
    dsimp only
    rw [run_bind, run_locate_of_hasNull h]
  rw [readGiven, run_tryCatch, hread]
  rfl

theorem run_readGiven {p : Path} {f : Files} {l : Location} {content : ByteArray}
    (hnull : p.hasNull = false) (hl : f.locate p = .ok l)
    (hnode : f.node? l = some (.file content)) : run (readGiven p) f = (.ok content, f) := by
  rw [readGiven, run_tryCatch, run_read hnull hl hnode]

theorem run_loadDescription {path : String} {f : Files} {content : ByteArray}
    (h : run (readGiven (Path.ofText path)) f = (.ok content, f)) :
    run (loadDescription path) f =
      (decodeText content >>= parseDescription (Path.ofText path).text, f) := by
  rw [loadDescription, run_bind, h]
  dsimp only
  rw [run_bind, run_ofExcept]
  cases decodeText content with
  | error e => rfl
  | ok s => exact run_ofExcept _ f

theorem described_decodeText (path : String) (content : ByteArray) :
    Described path content (decodeText content >>= parseDescription path) := by
  cases h : decodeText content with
  | ok s => exact described_parseDescription path (decodeText_eq_ok.mp h)
  | error e =>
    obtain rfl := eq_undecodable h
    refine .notText fun s hs => ?_
    rw [decodeText_eq_ok.mpr hs] at h
    cases h

/-- Loading a description leaves the files as they are.  It answers the object that a file encodes;
a path without a file and a text that encodes no object are configuration faults.  Faults of another
kind are those of a path with a null character, of a content that is no text, and of a text with an
integer that is too long.  What a text with half a pair of units comes to is left open, and no bound
on the nesting of a text is modelled. -/
theorem loaded_run (path : String) (f : Files) : ∃ answer,
    run (loadDescription path) f = (answer, f) ∧ Loaded f (Path.ofText path) answer := by
  cases hnull : (Path.ofText path).hasNull with
  | true =>
    exact ⟨_, by rw [loadDescription, run_bind, run_readGiven_of_hasNull hnull], .null hnull⟩
  | false =>
    have hunreadable {cause : FileCause} (h : f.Unreadable (Path.ofText path) cause) :
        ∃ answer, run (loadDescription path) f = (answer, f) ∧
          Loaded f (Path.ofText path) answer :=
      ⟨_, by rw [loadDescription, run_bind, run_readGiven_of_unreadable hnull h],
        .unreadable hnull h⟩
    cases hl : f.locate (Path.ofText path) with
    | error cause => exact hunreadable (.lost hl)
    | ok l =>
      cases hnode : f.node? l with
      | none => exact hunreadable (.missing hl hnode)
      | some node =>
        cases node with
        | directory => exact hunreadable (.directory hl hnode)
        | file content =>
          exact ⟨_, run_loadDescription (run_readGiven hnull hl hnode),
            .file hnull hl hnode (described_decodeText _ content)⟩

/-- A byte that begins no character is a fault that no caller is told of. -/
theorem loaded_undecodable : ¬ ∀ path f,
    (∃ v, run (loadDescription path) f = (.ok v, f)) ∨
      ∃ fault, run (loadDescription path) f = (.error (.configuration fault), f) := by
  intro h
  have hfault : (run (loadDescription "plot.json") (.ofContents [("plot.json", ⟨#[0xFF]⟩)])).1 =
      .error .undecodable := by
    rfl
  rcases h "plot.json" (.ofContents [("plot.json", ⟨#[0xFF]⟩)]) with ⟨v, hv⟩ | ⟨fault, hv⟩
  all_goals
    rw [hv] at hfault
    cases hfault

end Filing

end PlotScene
