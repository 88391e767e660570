import PlotScene.Scene.Encoding

/-!
# Titles inside tooltips

The tooltip of an observation is an expression in which the titles of the axes stand as quoted
texts.  Read from left to right, it gives both titles back, whatever their characters are: no title
ends its text early, and nothing else in the expression depends on a title.
-/

namespace PlotScene

namespace Tooltip

/-! ## 1. Reading an expression -/

/-- A character of code, or a quoted text as it is written and as it reads. -/
inductive Token where
  | code (c : Char)
  | text (written read : List Char)
deriving DecidableEq

/-- Where the reading of an expression stands: in code, or in a text of which some characters have
been written and read, or after a backslash in such a text. -/
inductive State where
  | code
  | text (written read : List Char)
  | escape (written read : List Char)

/-- Reads an expression.  In a text a backslash takes the next character as it is, and a quote ends
the text; a text that does not end is refused. -/
def scan : State → List Char → Option (List Token)
  | .code, [] => some []
  | .code, c :: cs =>
      if c = '\'' then scan (.text [] []) cs else (scan .code cs).map (.code c :: ·)
  | .text _ _, [] => none
  | .text w r, c :: cs =>
      if c = '\'' then (scan .code cs).map (.text w r :: ·)
      else if c = '\\' then scan (.escape w r) cs
      else scan (.text (w ++ [c]) (r ++ [c])) cs
  | .escape _ _, [] => none
  | .escape w r, c :: cs => scan (.text (w ++ ['\\', c]) (r ++ [c])) cs

def tokens (expression : String) : Option (List Token) :=
  scan .code expression.toList

example : tokens "f('it\\'s')" = some [.code 'f', .code '(',
    .text ['i', 't', '\\', '\'', 's'] ['i', 't', '\'', 's'], .code ')'] := by decide

/-- The characters that a token is read from. -/
def Token.written : Token → List Char
  | .code c => [c]
  | .text w _ => '\'' :: w ++ ['\'']

/-- What has been read of a text that has not ended. -/
def State.pending : State → List Char
  | .code => []
  | .text w _ => '\'' :: w
  | .escape w _ => '\'' :: w ++ ['\\']

/-- Every character of an expression belongs to one token. -/
theorem flatMap_written_of_scan {state : State} {s : List Char} {ts : List Token}
    (h : scan state s = some ts) : ts.flatMap Token.written = state.pending ++ s := by
  induction s generalizing state ts with
  | nil =>
    cases state with
    | code =>
      cases h
      rfl
    | text w r => cases h
    | escape w r => cases h
  | cons c cs ih =>
    cases state with
    | code =>
      rw [scan] at h
      split at h
      next hc =>
        rw [ih h, hc]
        rfl
      next =>
        obtain ⟨ts, hts, rfl⟩ := Option.map_eq_some_iff.mp h
        rw [List.flatMap_cons, ih hts]
        rfl
    | text w r =>
      rw [scan] at h
      split at h
      next hc =>
        obtain ⟨ts, hts, rfl⟩ := Option.map_eq_some_iff.mp h
        rw [List.flatMap_cons, ih hts, hc]
        simp [Token.written, State.pending]
      next =>
        split at h
        next hc =>
          rw [ih h, hc]
          simp [State.pending]
        next =>
          rw [ih h]
          simp [State.pending]
    | escape w r =>
      rw [scan] at h
      rw [ih h]
      simp [State.pending]

theorem flatMap_written_of_tokens {s : String} {ts : List Token} (h : tokens s = some ts) :
    ts.flatMap Token.written = s.toList :=
  @flatMap_written_of_scan .code s.toList ts h

/-- Whether an expression reads as these tokens, whatever follows it. -/
def Reads (s : String) (ts : List Token) : Prop :=
  ∀ rest, scan .code (s.toList ++ rest) = (scan .code rest).map (ts ++ ·)

theorem Reads.append {s s' : String} {ts ts' : List Token} (h : Reads s ts) (h' : Reads s' ts') :
    Reads (s ++ s') (ts ++ ts') := by
  intro rest
  rw [String.toList_append, List.append_assoc, h, h', Option.map_map]
  congr 1
  funext us
  exact (List.append_assoc ts ts' us).symm

theorem Reads.tokens {s : String} {ts : List Token} (h : Reads s ts) : tokens s = some ts := by
  have hall := h []
  rw [List.append_nil] at hall
  rw [Tooltip.tokens, hall]
  show some (ts ++ []) = some ts
  rw [List.append_nil]

/-! ## 2. Code and quoted texts -/

/-- The tokens of code without a text. -/
def code (s : String) : List Token := s.toList.map .code

/-- The token of a text that is written with its quotes and backslashes escaped. -/
def quoted (t : String) : Token := .text (escapeQuotes t.toList) t.toList

theorem scan_code {s : List Char} (h : '\'' ∉ s) (rest : List Char) :
    scan .code (s ++ rest) = (scan .code rest).map (s.map .code ++ ·) := by
  induction s with
  | nil => exact Option.map_id'.symm
  | cons c s ih =>
    have hc : c ≠ '\'' := fun hc => h (hc ▸ List.mem_cons_self)
    rw [List.cons_append, scan, if_neg hc, ih fun hs => h (List.mem_cons_of_mem _ hs),
      Option.map_map]
    rfl

theorem reads_code {s : String} (h : '\'' ∉ s.toList) : Reads s (code s) :=
  scan_code h

theorem escapeQuotes_append (s t : List Char) :
    escapeQuotes (s ++ t) = escapeQuotes s ++ escapeQuotes t :=
  List.flatMap_append

/-- Escaping both characters at once is escaping backslashes first and quotes then. -/
theorem escapeQuotes_eq_inTurn (s : List Char) :
    escapeQuotes s =
      (s.flatMap fun c => if c = '\\' then ['\\', '\\'] else [c]).flatMap fun c =>
        if c = '\'' then ['\\', '\''] else [c] := by
  induction s with
  | nil => rfl
  | cons c s ih =>
    rw [List.flatMap_cons, List.flatMap_append, ← ih]
    by_cases hback : c = '\\'
    · subst hback
      rfl
    · by_cases hquote : c = '\''
      · subst hquote
        rfl
      · simp [escapeQuotes, hback, hquote]

-- The invariant: an escaped text is taken up whole, and nothing in it ends the text.
theorem scan_escapeQuotes (t rest w r : List Char) :
    scan (.text w r) (escapeQuotes t ++ rest) =
      scan (.text (w ++ escapeQuotes t) (r ++ t)) rest := by
  induction t generalizing w r with
  | nil => simp [escapeQuotes]
  | cons c t ih =>
    by_cases hc : c = '\\' ∨ c = '\''
    · have hsplit : escapeQuotes (c :: t) = '\\' :: c :: escapeQuotes t := by
        simp [escapeQuotes, hc]
      rw [hsplit, List.cons_append, List.cons_append, scan, if_neg (by decide), if_pos rfl, scan,
        ih]
      simp
    · have hsplit : escapeQuotes (c :: t) = c :: escapeQuotes t := by simp [escapeQuotes, hc]
      rw [not_or] at hc
      rw [hsplit, List.cons_append, scan, if_neg hc.2, if_neg hc.1, ih]
      simp

theorem reads_quoted (t : String) :
    Reads ("'" ++ String.ofList (escapeQuotes t.toList) ++ "'") [quoted t] := by
  intro rest
  have hsplit : ("'" ++ String.ofList (escapeQuotes t.toList) ++ "'").toList ++ rest =
      '\'' :: (escapeQuotes t.toList ++ '\'' :: rest) := by simp
  rw [hsplit, scan, if_pos rfl, scan_escapeQuotes, scan, if_pos rfl]
  rfl

end Tooltip

open Tooltip

/-! ## 3. Tooltips -/

theorem reads_quotedTitle {opening : String} (h : escapeQuotes opening.toList = opening.toList)
    (title : String) :
    Reads (quotedTitle opening title) [quoted (opening ++ title ++ ": ")] := by
  have hread := reads_quoted (opening ++ title ++ ": ")
  have hcolon : escapeQuotes ": ".toList = ": ".toList := by decide
  rw [String.toList_append, String.toList_append, escapeQuotes_append, escapeQuotes_append, h,
    hcolon, String.ofList_append, String.ofList_append, String.ofList_toList,
    String.ofList_toList] at hread
  have hclose : ": " ++ "'" = ": '" := rfl
  rw [quotedTitle, ← hclose]
  simpa only [String.append_assoc] using hread

/-- The tokens of a field with three decimals where it is a number. -/
def numberTokens (field : String) : List Token :=
  code ("(isNumber(datum." ++ field ++ ") ? format(datum." ++ field ++ ", ") ++ [quoted ".3f"] ++
    code (") : datum." ++ field ++ ")")

theorem reads_numberOrText {field : String} (h : '\'' ∉ field.toList) :
    Reads (numberOrText field) (numberTokens field) := by
  have hopen : '\'' ∉
      ("(isNumber(datum." ++ field ++ ") ? format(datum." ++ field ++ ", ").toList := by
    simp only [String.toList_append, List.mem_append, h, or_false]
    decide
  have hclose : '\'' ∉ (") : datum." ++ field ++ ")").toList := by
    simp only [String.toList_append, List.mem_append, h, or_false]
    decide
  have hread := ((reads_code hopen).append (reads_quoted ".3f")).append (reads_code hclose)
  have hliteral : ", '.3f') : datum." =
      ", " ++ ("'" ++ String.ofList (escapeQuotes ".3f".toList) ++ "'") ++ ") : datum." := by decide
  unfold numberOrText numberTokens
  rw [hliteral]
  simpa only [String.append_assoc] using hread

/-- What stands between the titles of a tooltip. -/
def betweenTitles : List Token := code " + " ++ numberTokens "x" ++ code " + "

/-- What follows the titles of a tooltip. -/
def afterTitles (grouped : Bool) : List Token :=
  code " + " ++ numberTokens "y" ++
    if grouped then code " + " ++ [quoted ", Color: "] ++ code " + datum.color" else []

theorem reads_grouped (grouped : Bool) :
    Reads (if grouped then " + ', Color: ' + datum.color" else "")
      (if grouped then code " + " ++ [quoted ", Color: "] ++ code " + datum.color" else []) := by
  cases grouped with
  | false => exact reads_code (s := "") (List.not_mem_nil)
  | true =>
    have hliteral : " + ', Color: ' + datum.color" =
        " + " ++ ("'" ++ String.ofList (escapeQuotes ", Color: ".toList) ++ "'") ++
          " + datum.color" := by decide
    rw [if_pos rfl, if_pos rfl, hliteral]
    exact ((reads_code (by decide)).append (reads_quoted ", Color: ")).append
      (reads_code (by decide))

theorem reads_xyTooltip (p : Presentation) (grouped : Bool) :
    Reads (xyTooltip p grouped)
      (quoted (p.xLabel ++ ": ") ::
        (betweenTitles ++ quoted (", " ++ p.yLabel ++ ": ") :: afterTitles grouped)) := by
  have hplus : Reads " + " (code " + ") := reads_code (by decide)
  have hbetween : Reads (" + " ++ numberOrText "x" ++ " + ") betweenTitles :=
    (hplus.append (reads_numberOrText (by decide))).append hplus
  have hnumber : Reads (numberOrText "y") (numberTokens "y") := reads_numberOrText (by decide)
  have hafter := (hplus.append hnumber).append (reads_grouped grouped)
  have hx : Reads (quotedTitle "" p.xLabel) [quoted (p.xLabel ++ ": ")] := by
    have hread := @reads_quotedTitle "" rfl p.xLabel
    rwa [String.empty_append] at hread
  have hy : Reads (quotedTitle ", " p.yLabel) [quoted (", " ++ p.yLabel ++ ": ")] :=
    reads_quotedTitle (by decide) p.yLabel
  have hread := (hx.append hbetween).append (hy.append hafter)
  unfold xyTooltip
  simpa only [afterTitles, String.append_assoc, List.append_assoc, List.singleton_append,
    List.cons_append, List.nil_append] using hread

theorem afterTitles_injective {grouped other : Bool} (h : afterTitles other = afterTitles grouped) :
    other = grouped := by
  have hcolor : code " + " ++ [quoted ", Color: "] ++ code " + datum.color" ≠ [] := by simp
  unfold afterTitles at h
  rw [List.append_cancel_left_eq] at h
  cases grouped <;> cases other
  · rfl
  · exact absurd h hcolor
  · exact absurd h.symm hcolor
  · rfl

theorem quoted_injective {s t : String} (h : quoted s = quoted t) : s = t := by
  injection h with _ hread
  exact String.toList_injective hread

/-- A tooltip reads as the title of x and a colon in quotes, the number along x, the title of y and
a colon in quotes, and the number along y, with the color after it where colors group.  Its tokens
make up the whole tooltip, and only the two texts with the titles depend on them, so that different
titles give different tooltips. -/
theorem tokens_xyTooltip (p : Presentation) (grouped : Bool) :
    ∃ ts, tokens (xyTooltip p grouped) = some ts ∧
      ts.flatMap Token.written = (xyTooltip p grouped).toList ∧
      ts = quoted (p.xLabel ++ ": ") ::
        (betweenTitles ++ quoted (", " ++ p.yLabel ++ ": ") :: afterTitles grouped) ∧
      ∀ (q : Presentation) (other : Bool), xyTooltip q other = xyTooltip p grouped ↔
        q.xLabel = p.xLabel ∧ q.yLabel = p.yLabel ∧ other = grouped := by
  have htokens := (reads_xyTooltip p grouped).tokens
  refine ⟨_, htokens, flatMap_written_of_tokens htokens, rfl, fun q other => ⟨fun h => ?_, ?_⟩⟩
  · have hother := (reads_xyTooltip q other).tokens
    rw [h, htokens, Option.some_inj, List.cons.injEq, List.append_cancel_left_eq,
      List.cons.injEq] at hother
    obtain ⟨hx, hy, hafter⟩ := hother
    refine ⟨?_, ?_, (afterTitles_injective hafter).symm⟩
    · exact (String.append_left_inj _).mp (quoted_injective hx).symm
    · have hy := (String.append_left_inj _).mp (quoted_injective hy)
      exact ((String.append_right_inj _).mp hy).symm
  · rintro ⟨hx, hy, rfl⟩
    unfold xyTooltip
    rw [hx, hy]

end PlotScene
