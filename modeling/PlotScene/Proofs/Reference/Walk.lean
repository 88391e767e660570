import PlotScene.Proofs.Outcome
import PlotScene.Proofs.Value.Within
import PlotScene.Scene.Reference.Document

/-!
# The marks of a document and where they stand

A mark stands at the top of a document or inside other marks, its ancestors.  Here are the parts of
a document that name or refer to something, read without a fault, the marks at every depth with
their ancestors, and the walk that visits them from the front to the back, each mark before the
marks inside it.
-/

namespace PlotScene.Reference

/-! ## 1. Parts -/

/-- The items under a key; what has no such items counts as having none. -/
def parts (v : Value) (key : String) : List Value :=
  (v.itemsUnder key).toOption.getD []

/-- The marks directly inside a mark or a document. -/
def inside (v : Value) : List Value :=
  (v.getD "marks").items

/-- The scalar that a name or a reference is. -/
def scalarOf : Value → Scalar
  | .scalar s => s
  | _ => .null

def nameOf (v : Value) : Scalar :=
  scalarOf (v.getD "name")

/-- The names of parts that are known by name. -/
def names (vs : List Value) : List Scalar :=
  vs.map nameOf

/-- The part of its data that a mark splits off. -/
def facetOf? (m : Value) : Option Value :=
  ((m.getD "from").get? "facet").filter Value.isMap

/-- A reference to data within the domain of a scale: the domain itself or one of its fields. -/
def DomainRef (domain r : Value) : Prop :=
  (r = domain ∨ r ∈ parts domain "fields") ∧ r.has "data" = true

/-- The data sources that the domain of a scale refers to. -/
def domainNames (domain : Value) : List Scalar :=
  (domain :: parts domain "fields").filterMap fun r => (r.get? "data").map scalarOf

theorem mem_domainNames {domain : Value} {n : Scalar} :
    n ∈ domainNames domain ↔ ∃ r, DomainRef domain r ∧ scalarOf (r.getD "data") = n := by
  rw [domainNames, List.mem_filterMap]
  constructor
  · rintro ⟨r, hr, h⟩
    obtain ⟨d, hd, rfl⟩ := Option.map_eq_some_iff.mp h
    exact ⟨r, ⟨List.mem_cons.mp hr, by rw [Value.has, hd]; rfl⟩, by rw [Value.getD_of_get? hd]⟩
  · rintro ⟨r, ⟨hr, hd⟩, rfl⟩
    obtain ⟨d, hd⟩ := Option.isSome_iff_exists.mp hd
    exact ⟨r, List.mem_cons.mpr hr, by rw [hd, Value.getD_of_get? hd]; rfl⟩

theorem scalarOf_key {v : Value} {s : Scalar} (h : v.key = .ok s) : scalarOf v = s := by
  rw [Value.key_eq_ok h]
  rfl

theorem parts_of_itemsUnder {v : Value} {key : String} {vs : List Value}
    (h : v.itemsUnder key = .ok vs) : parts v key = vs := by
  rw [parts, h]
  rfl

theorem parts_of_get? {v : Value} {key : String} {vs : List Value}
    (h : v.get? key = some (.list vs)) : parts v key = vs := by
  apply parts_of_itemsUnder
  cases v with
  | map es =>
    rw [Value.itemsUnder,
      show Value.entry? (.map es) key = .ok (some (.list vs)) from congrArg Except.ok h]
    rfl
  | _ => simp [Value.get?] at h

theorem parts_of_get?_none {v : Value} {key : String} (h : v.get? key = none) :
    parts v key = [] := by
  cases v with
  | map es =>
    rw [parts, Value.itemsUnder,
      show Value.entry? (.map es) key = .ok none from congrArg Except.ok h]
    rfl
  | _ => rfl

-- The parts under a key depend on the value under that key alone.
theorem parts_congr {v w : Value} {key : String} (h : v.get? key = w.get? key)
    (hm : v.isMap = w.isMap) : parts v key = parts w key := by
  cases v with
  | map es =>
    cases w with
    | map fs =>
      have he : Value.entry? (.map es) key = Value.entry? (.map fs) key := congrArg Except.ok h
      rw [parts, parts, Value.itemsUnder, Value.itemsUnder, he]
    | _ => simp [Value.isMap] at hm
  | _ => cases w <;> first | rfl | simp [Value.isMap] at hm

/-! ## 2. Marks at every depth -/

/-- A mark at some depth, with its ancestors from the nearest one outwards. -/
inductive MarkAt (marks : List Value) : List Value → Value → Prop where
  | top {m : Value} : m ∈ marks → MarkAt marks [] m
  | within {as : List Value} {a m : Value} :
      MarkAt marks as a → m ∈ inside a → MarkAt marks (a :: as) m

theorem MarkAt.nest {marks as : List Value} {v m : Value} (hv : v ∈ marks)
    (h : MarkAt (inside v) as m) : MarkAt marks (as ++ [v]) m := by
  induction h with
  | top hm => exact MarkAt.within (MarkAt.top hv) hm
  | within _ hm ih => exact MarkAt.within ih hm

theorem MarkAt.mono {vs ws as : List Value} {m : Value} (h : MarkAt vs as m)
    (hsub : ∀ v ∈ vs, v ∈ ws) : MarkAt ws as m := by
  induction h with
  | top hm => exact MarkAt.top (hsub _ hm)
  | within _ hm ih => exact MarkAt.within ih hm

/-! ## 3. The walk -/

/-- The name of a mark, where it has one that counts as true. -/
def ownName? (m : Value) : Option String :=
  if (m.getD "name").truthy.toOption.getD false then some (m.getD "name").text else none

/-- A mark on the walk: its ancestors, and its place among its siblings. -/
structure Visit where
  ancestors : List Value
  place : String
  index : Nat
  mark : Value

def Visit.label (x : Visit) : String :=
  markLabel (ownName? x.mark) x.place x.index

mutual

/-- The visits to a mark and to the marks inside it. -/
def walk (ancestors : List Value) (place : String) (index : Nat) : Value → List Visit
  | .map es =>
      let here : Visit := ⟨ancestors, place, index, .map es⟩
      here :: walkInside (.map es :: ancestors) (here.label ++ ".") es
  | other => [⟨ancestors, place, index, other⟩]
termination_by structural v => v

def walkInside (ancestors : List Value) (place : String) : List (Scalar × Value) → List Visit
  | [] => []
  | (k, v) :: es =>
      if k.same (.str "marks") then walkMarks ancestors place v else walkInside ancestors place es
termination_by structural es => es

def walkMarks (ancestors : List Value) (place : String) : Value → List Visit
  | .list vs => walkItems ancestors place 0 vs
  | _ => []
termination_by structural v => v

/-- The visits to marks, the first of which has the place `index`. -/
def walkItems (ancestors : List Value) (place : String) (index : Nat) : List Value → List Visit
  | [] => []
  | v :: vs => walk ancestors place index v ++ walkItems ancestors place (index + 1) vs
termination_by structural vs => vs

end

theorem walkInside_eq (as : List Value) (place : String) (es : Entries) :
    walkInside as place es = walkItems as place 0 (inside (.map es)) := by
  induction es with
  | nil => rfl
  | cons e es ih =>
    obtain ⟨k, v⟩ := e
    rw [walkInside, inside, Value.getD, Value.get?_map, Entries.lookup?_cons]
    split
    · cases v <;> rfl
    · rw [ih, inside, Value.getD, Value.get?_map]

theorem inside_of_not_map {v : Value} (h : v.isMap = false) : inside v = [] := by
  cases v <;> first | rfl | simp [Value.isMap] at h

-- A visit to a mark is followed by the visits to the marks inside it.
theorem walk_eq (as : List Value) (place : String) (index : Nat) (v : Value) :
    walk as place index v =
      ⟨as, place, index, v⟩ ::
        walkItems (v :: as) ((Visit.mk as place index v).label ++ ".") 0 (inside v) := by
  cases v with
  | map es => rw [walk, walkInside_eq]
  | _ =>
    rw [inside_of_not_map rfl]
    rfl

-- Every mark inside a visited mark is visited as well.
theorem mem_walkItems_of_mem (as : List Value) (place : String) (index : Nat) {vs : List Value}
    {v : Value} (hv : v ∈ vs) :
    ∃ x ∈ walkItems as place index vs, x.ancestors = as ∧ x.mark = v ∧
      ∀ y ∈ walk as x.place x.index v, y ∈ walkItems as place index vs := by
  induction vs generalizing index with
  | nil => cases hv
  | cons w ws ih =>
    rw [walkItems]
    rcases List.mem_cons.mp hv with rfl | hv
    · refine ⟨⟨as, place, index, v⟩, ?_, rfl, rfl, fun y hy => List.mem_append_left _ hy⟩
      rw [walk_eq]
      exact List.mem_append_left _ List.mem_cons_self
    · obtain ⟨x, hx, hxa, hxm, hxw⟩ := ih (index + 1) hv
      exact ⟨x, List.mem_append_right _ hx, hxa, hxm,
        fun y hy => List.mem_append_right _ (hxw y hy)⟩

-- The walk visits every mark with its ancestors.
theorem exists_visit {marks as : List Value} {m : Value} (h : MarkAt marks as m) :
    ∃ x ∈ walkItems [] "" 0 marks, x.ancestors = as ∧ x.mark = m ∧
      ∀ y ∈ walk as x.place x.index m, y ∈ walkItems [] "" 0 marks := by
  induction h with
  | top hm => exact mem_walkItems_of_mem [] "" 0 hm
  | @within as a m _ hm ih =>
    -- The ancestor is visited, so the walk goes on to the marks inside it.
    obtain ⟨x, -, -, -, hw⟩ := ih
    rw [walk_eq] at hw
    obtain ⟨y, hy, hya, hym, hyw⟩ :=
      mem_walkItems_of_mem (a :: as) ((Visit.mk as x.place x.index a).label ++ ".") 0 hm
    exact ⟨y, hw y (List.mem_cons_of_mem _ hy), hya, hym,
      fun z hz => hw z (List.mem_cons_of_mem _ (hyw z hz))⟩

mutual

-- What is visited on the way through a mark is that mark or stands inside it.
-- The ancestors of a visit are those on the way down and then the ones that the walk began with.
theorem markAt_of_mem_walk {as : List Value} {place : String} {index : Nat} {x : Visit}
    (v : Value) (hx : x ∈ walk as place index v) :
    (x.ancestors = as ∧ x.mark = v) ∨
      ∃ inner, x.ancestors = inner ++ v :: as ∧ MarkAt (inside v) inner x.mark := by
  match v with
  | .map es =>
    rw [walk] at hx
    rcases List.mem_cons.mp hx with rfl | hx
    · exact Or.inl ⟨rfl, rfl⟩
    · exact Or.inr (markAt_of_mem_walkInside es hx)
  | .scalar _ | .list _ | .array _ _ | .column _ =>
    obtain rfl := List.mem_singleton.mp hx
    exact Or.inl ⟨rfl, rfl⟩
termination_by structural v

theorem markAt_of_mem_walkInside {as : List Value} {place : String} {x : Visit}
    (es : List (Scalar × Value)) (hx : x ∈ walkInside as place es) :
    ∃ inner, x.ancestors = inner ++ as ∧ MarkAt (inside (.map es)) inner x.mark := by
  match es with
  | [] => simp [walkInside] at hx
  | (k, v) :: es =>
    rw [walkInside] at hx
    rw [inside, Value.getD, Value.get?_map, Entries.lookup?_cons]
    split at hx
    next hk =>
      rw [if_pos hk]
      exact markAt_of_mem_walkMarks v hx
    next hk =>
      rw [if_neg hk]
      exact markAt_of_mem_walkInside es hx
termination_by structural es

theorem markAt_of_mem_walkMarks {as : List Value} {place : String} {x : Visit}
    (v : Value) (hx : x ∈ walkMarks as place v) :
    ∃ inner, x.ancestors = inner ++ as ∧ MarkAt v.items inner x.mark := by
  match v with
  | .list vs => exact markAt_of_mem_walkItems vs hx
  | .scalar _ | .map _ | .array _ _ | .column _ => simp [walkMarks] at hx
termination_by structural v

theorem markAt_of_mem_walkItems {as : List Value} {place : String} {index : Nat} {x : Visit}
    (vs : List Value) (hx : x ∈ walkItems as place index vs) :
    ∃ inner, x.ancestors = inner ++ as ∧ MarkAt vs inner x.mark := by
  match vs with
  | [] => simp [walkItems] at hx
  | v :: vs =>
    rw [walkItems] at hx
    rcases List.mem_append.mp hx with hx | hx
    · rcases markAt_of_mem_walk v hx with ⟨ha, hm⟩ | ⟨inner, ha, hm⟩
      · exact ⟨[], ha, hm ▸ MarkAt.top List.mem_cons_self⟩
      · exact ⟨inner ++ [v], by rw [ha, List.append_assoc]; rfl, hm.nest List.mem_cons_self⟩
    · obtain ⟨inner, ha, hm⟩ := markAt_of_mem_walkItems vs hx
      exact ⟨inner, ha, hm.mono fun w hw => List.mem_cons_of_mem _ hw⟩
termination_by structural vs

end

-- The walk visits the marks at every depth, and nothing else.
theorem forall_visits {marks : List Value} {P : List Value → Value → Prop} :
    (∀ x ∈ walkItems [] "" 0 marks, P x.ancestors x.mark) ↔
      ∀ as m, MarkAt marks as m → P as m := by
  constructor
  · intro h as m hm
    obtain ⟨x, hx, rfl, rfl, -⟩ := exists_visit hm
    exact h x hx
  · intro h x hx
    obtain ⟨inner, ha, hm⟩ := markAt_of_mem_walkItems marks hx
    rw [List.append_nil] at ha
    exact ha ▸ h inner x.mark hm

end PlotScene.Reference
