import PlotScene.Json.Reader

/-!
# Why documents are refused

Between two quotes stand characters for themselves, escapes with one letter, and the codes of 16-bit
units in four hexadecimal digits.  Two units that are the halves of a pair stand for one character,
and a half without the other one for none.  Such a half and an integer that is too long are refused
apart from what is malformed.
-/

namespace PlotScene.Json

/-! ## 1. Units -/

/-- Four hexadecimal digits and the unit that they stand for. -/
inductive Hex : List Char → Nat → Prop where
  | digits {a b c d : Char} {w x y z : Nat} : hexValue? a = some w → hexValue? b = some x →
      hexValue? c = some y → hexValue? d = some z →
      Hex [a, b, c, d] (((w * 16 + x) * 16 + y) * 16 + z)

theorem Hex.length {ds : List Char} {unit : Nat} (h : Hex ds unit) : ds.length = 4 := by
  cases h
  rfl

/-- The first half of a pair. -/
abbrev IsHigh (unit : Nat) : Prop := 0xD800 ≤ unit ∧ unit < 0xDC00

/-- The second half of a pair. -/
abbrev IsLow (unit : Nat) : Prop := 0xDC00 ≤ unit ∧ unit < 0xE000

/-- The character of a pair. -/
def paired (high low : Nat) : Char :=
  Char.ofNat (0x10000 + (high - 0xD800) * 0x400 + (low - 0xDC00))

/-- A text that begins with the code of a second half. -/
def BeginsLow (s : List Char) : Prop :=
  ∃ ds unit rest, s = '\\' :: 'u' :: (ds ++ rest) ∧ Hex ds unit ∧ IsLow unit

/-- What the unit at the front of a text stands for, together with the text behind it. -/
inductive UnitStands (unit : Nat) (rest : List Char) : Char → List Char → Prop where
  | whole : ¬ IsHigh unit → ¬ IsLow unit → UnitStands unit rest (Char.ofNat unit) rest
  | pair {ds after : List Char} {low : Nat} : IsHigh unit → Hex ds low → IsLow low →
      rest = '\\' :: 'u' :: (ds ++ after) → UnitStands unit rest (paired unit low) after

/-- A unit that is half a pair and has not the other half behind it. -/
def IsHalf (unit : Nat) (rest : List Char) : Prop :=
  IsLow unit ∨ IsHigh unit ∧ ¬ BeginsLow rest

/-! ## 2. Letters -/

/-- What stands between two quotes, and the characters that it stands for. -/
inductive Letters : List Char → List Char → Prop where
  | nil : Letters [] []
  | plain {c : Char} {cs s : List Char} : c ≠ '"' → c ≠ '\\' → 0x20 ≤ c.toNat → Letters cs s →
      Letters (c :: cs) (c :: s)
  | escape {letter c : Char} {cs s : List Char} : escaped? letter = some c → Letters cs s →
      Letters ('\\' :: letter :: cs) (c :: s)
  | unit {ds cs after s : List Char} {unit : Nat} {c : Char} : Hex ds unit →
      UnitStands unit cs c after → Letters after s → Letters ('\\' :: 'u' :: (ds ++ cs)) (c :: s)

theorem UnitStands.append {unit : Nat} {cs after : List Char} {c : Char}
    (h : UnitStands unit cs c after) (rest : List Char) :
    UnitStands unit (cs ++ rest) c (after ++ rest) := by
  cases h with
  | whole hhigh hlow => exact .whole hhigh hlow
  | pair hhigh hds hlow heq => exact .pair hhigh hds hlow (by rw [heq]; simp)

theorem Letters.append {cs ds s t : List Char} (h : Letters cs s) (hds : Letters ds t) :
    Letters (cs ++ ds) (s ++ t) := by
  induction h with
  | nil => exact hds
  | plain hquote hslash hcontrol _ ih => exact .plain hquote hslash hcontrol ih
  | escape hescape _ ih => exact .escape hescape ih
  | unit hhex hstands _ ih =>
    rw [List.cons_append, List.cons_append, List.append_assoc]
    exact .unit hhex (hstands.append ds) ih

/-! ## 3. Refusals -/

/-- A text in which, behind a quote and the letters after it, a unit is half a pair. -/
def HalfPaired (s : List Char) : Prop :=
  ∃ front cs body ds rest unit, s = front ++ '"' :: (cs ++ '\\' :: 'u' :: (ds ++ rest)) ∧
    Letters cs body ∧ Hex ds unit ∧ IsHalf unit rest

theorem HalfPaired.mono {s t : List Char} (h : HalfPaired s) (hst : s <:+ t) : HalfPaired t := by
  obtain ⟨front, cs, body, ds, rest, unit, rfl, hletters, hds, hhalf⟩ := h
  obtain ⟨before, rfl⟩ := hst
  exact ⟨before ++ front, cs, body, ds, rest, unit, (List.append_assoc _ _ _).symm, hletters, hds,
    hhalf⟩

/-- A text with more digits in a row than an integer may have. -/
def Overlong (s : List Char) : Prop :=
  ∃ ds, ds <:+: s ∧ (∀ c ∈ ds, c.isDigit = true) ∧ maxIntegerDigits < ds.length

theorem Overlong.mono {s t : List Char} (h : Overlong s) (hst : s <:+ t) : Overlong t := by
  obtain ⟨ds, hds, hdigits, hlong⟩ := h
  exact ⟨ds, hds.trans hst.isInfix, hdigits, hlong⟩

/-- What reading a text can come to: an answer, an integer that is too long, half a pair, or the
finding that the text is malformed. -/
def Outcome {α : Type} (Answer : α → List Char → Prop) (s : List Char) : Step α → Prop
  | .ok (a, rest) => Answer a rest
  | .error .longInteger => Overlong s
  | .error .halfPair => HalfPaired s
  | .error (.malformed _ _) => True

-- A refusal says nothing about answers.
theorem Outcome.error {α β : Type} {P : α → List Char → Prop} {Q : β → List Char → Prop}
    {s t : List Char} {e : Refusal} (h : Outcome P s (.error e)) (hst : s <:+ t) :
    Outcome Q t (.error e) := by
  match e with
  | .longInteger => exact Overlong.mono h hst
  | .halfPair => exact HalfPaired.mono h hst
  | .malformed _ _ => trivial

theorem Outcome.imp {α : Type} {P Q : α → List Char → Prop} {s t : List Char} {r : Step α}
    (h : Outcome P s r) (hst : s <:+ t) (hPQ : ∀ a rest, P a rest → Q a rest) :
    Outcome Q t r := by
  match r with
  | .ok (a, rest) => exact hPQ a rest h
  | .error _ => exact Outcome.error h hst

/-- What is spelled at the front of a text, and what is left behind it. -/
def Fronts {α : Type} (Spelled : List Char → α → Prop) (s : List Char) (a : α)
    (rest : List Char) : Prop :=
  ∃ cs, s = cs ++ rest ∧ Spelled cs a

end PlotScene.Json
