import PlotScene.Files
import PlotScene.Json.Reader

/-!
# Descriptions in files

A description is read from a file of UTF-8 text that holds one JSON object.
-/

namespace PlotScene

/-- The text with every line break as a single line feed. -/
def unifyLineBreaks : List Char → List Char
  | [] => []
  | '\r' :: '\n' :: rest => '\n' :: unifyLineBreaks rest
  | c :: rest => (if c = '\r' then '\n' else c) :: unifyLineBreaks rest

/-- Text without carriage returns stays as it is. -/
theorem unifyLineBreaks_of_not_mem (s : List Char) (h : '\r' ∉ s) : unifyLineBreaks s = s := by
  induction s with
  | nil => rfl
  | cons c rest ih =>
      rw [List.mem_cons, not_or] at h
      have hc : c ≠ '\r' := fun e => h.1 e.symm
      unfold unifyLineBreaks
      split
      · contradiction
      · rename_i heq
        exact absurd (List.cons.inj heq).1 hc
      · rename_i heq
        obtain ⟨rfl, rfl⟩ := List.cons.inj heq
        simp [hc, ih h.2]

/-- The text of a file. -/
def decodeText (content : ByteArray) : Except Fault (List Char) :=
  match String.fromUTF8? content with
  | some s => .ok (unifyLineBreaks s.toList)
  | none => .error .undecodable

theorem decodeText_toUTF8 (s : String) :
    decodeText s.toUTF8 = .ok (unifyLineBreaks s.toList) := by
  have h : String.fromUTF8? s.toUTF8 = some s := by
    unfold String.fromUTF8?
    rw [String.toUTF8_eq_toByteArray, dif_pos s.isValidUTF8]
    rfl
  simp only [decodeText, h]

/-- Reads a description from a text; the path is for messages. -/
def parseDescription (path : String) (s : List Char) : Except Fault Value :=
  match Json.document s with
  | .ok v =>
      if v.isMap then .ok v else .error (.configuration (.notAnObject path))
  | .error (.malformed cause left) =>
      .error (.configuration (.notADocument path (Json.placeOf s cause left)))
  | .error .longInteger | .error .halfPair => .error .unusable

namespace Filing

/-- Reads a file whose failure is the caller's fault. -/
def readGiven (p : Path) : Filing ByteArray := do
  try read p
  catch
    | .file f => throw (.configuration (.unreadableFile p.text f))
    | other => throw other

/-- Reads the description at a path. -/
def loadDescription (path : String) : Filing Value := do
  let p := Path.ofText path
  let s ← ofExcept (decodeText (← readGiven p))
  ofExcept (parseDescription p.text s)

end Filing

end PlotScene
