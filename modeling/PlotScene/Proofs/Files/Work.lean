import PlotScene.Files
import PlotScene.Proofs.Outcome

/-!
# What work on files leaves

Reading leaves the files as they are.  Writing a file and creating directories keeps everything
else: no directory is lost, so a path leads where it led before, and a directory is new only on the
way to the one that was asked for.
-/

namespace PlotScene

/-! ## 1. Runs -/

namespace Filing

variable {α β : Type}

theorem run_ofExcept (x : Except Fault α) (f : Files) : run (ofExcept x) f = (x, f) := by
  cases x <;> rfl

theorem run_bind (x : Filing α) (k : α → Filing β) (f : Files) :
    run (x >>= k) f = match run x f with
      | (.ok a, g) => run (k a) g
      | (.error e, g) => (.error e, g) := by
  simp only [run, ExceptT.run_bind, StateT.run_bind, Id.run_bind]
  rcases (StateT.run (ExceptT.run x) f).run with ⟨e | a, g⟩ <;> rfl

theorem run_bind_eq_ok {x : Filing α} {k : α → Filing β} {f h : Files} {b : β} :
    run (x >>= k) f = (.ok b, h) ↔ ∃ a g, run x f = (.ok a, g) ∧ run (k a) g = (.ok b, h) := by
  rw [run_bind]
  rcases run x f with ⟨e | a, g⟩
  · simp
  · constructor
    · exact fun hk => ⟨a, g, rfl, hk⟩
    · rintro ⟨a', g', hx, hk⟩
      obtain ⟨ha, rfl⟩ := Prod.mk.inj hx
      rwa [Except.ok.inj ha]

theorem run_tryCatch (x : Filing α) (k : Fault → Filing α) (f : Files) :
    run (tryCatch x k) f = match run x f with
      | (.ok a, g) => (.ok a, g)
      | (.error e, g) => run (k e) g := by
  change Id.run (StateT.run (ExceptT.run (ExceptT.tryCatch x k)) f) = _
  simp only [run, ExceptT.tryCatch, ExceptT.run, ExceptT.mk, StateT.run_bind, Id.run_bind]
  rcases Id.run (StateT.run x f) with ⟨e | a, g⟩ <;> rfl

theorem run_get (f : Files) : run (get : Filing Files) f = (.ok f, f) := rfl

theorem run_locate {p : Path} (h : p.hasNull = false) (f : Files) :
    run (locate p) f = ((f.locate p).mapError (faultAt p), f) := by
  have hnames : run (requireNames p) f = (.ok (), f) := by
    rw [requireNames, if_neg (by simp [h])]
    rfl
  rw [locate, run_bind, hnames]
  dsimp only
  rw [run_bind, run_get]
  dsimp only
  cases f.locate p <;> rfl

theorem run_locate_of_hasNull {p : Path} (h : p.hasNull = true) (f : Files) :
    run (locate p) f = (.error .unusable, f) := by
  rw [locate, run_bind, requireNames, if_pos h]
  rfl

theorem run_locate_eq_ok {p : Path} {f g : Files} {l : Location} :
    run (locate p) f = (.ok l, g) ↔ p.hasNull = false ∧ f.locate p = .ok l ∧ g = f := by
  cases hnull : p.hasNull with
  | true =>
    rw [run_locate_of_hasNull hnull]
    exact iff_of_false (fun h => by cases h) fun h => by cases h.1
  | false =>
    rw [run_locate hnull]
    constructor
    · intro h
      obtain ⟨hl, rfl⟩ := Prod.mk.inj h
      cases hf : f.locate p with
      | error cause =>
        rw [hf] at hl
        cases hl
      | ok l' =>
        rw [hf] at hl
        rw [Except.ok.inj hl]
        exact ⟨rfl, rfl, rfl⟩
    · rintro ⟨-, hl, rfl⟩
      rw [hl]
      rfl

/-! ## 2. Reading -/

theorem run_read {p : Path} {f : Files} {l : Location} {content : ByteArray}
    (hnull : p.hasNull = false) (hl : f.locate p = .ok l)
    (hnode : f.node? l = some (.file content)) : run (read p) f = (.ok content, f) := by
  have hlocate : run (locate p) f = (.ok l, f) := run_locate_eq_ok.mpr ⟨hnull, hl, rfl⟩
  rw [read, run_bind, run_get]
  dsimp only
  rw [run_bind, hlocate]
  dsimp only
  rw [hnode]
  rfl

/-- Work that leaves the files as they are, whether it answers or stops. -/
def ReadOnly (x : Filing α) : Prop :=
  ∀ f, (run x f).2 = f

namespace ReadOnly

theorem pure (a : α) : ReadOnly (Pure.pure a : Filing α) := fun _ => rfl

theorem throw (e : Fault) : ReadOnly (MonadExcept.throw e : Filing α) := fun _ => rfl

theorem ofExcept (x : Except Fault α) : ReadOnly (Filing.ofExcept x) := fun f => by
  rw [run_ofExcept]

theorem bind {x : Filing α} {k : α → Filing β} (hx : ReadOnly x) (hk : ∀ a, ReadOnly (k a)) :
    ReadOnly (x >>= k) := by
  intro f
  have hf := hx f
  rw [run_bind]
  rcases hrun : run x f with ⟨e | a, g⟩
  · rwa [hrun] at hf
  · rw [hrun] at hf
    obtain rfl : g = f := hf
    exact hk a g

theorem tryCatch {x : Filing α} {k : Fault → Filing α} (hx : ReadOnly x)
    (hk : ∀ e, ReadOnly (k e)) : ReadOnly (MonadExcept.tryCatch x k) := by
  intro f
  have hf := hx f
  rw [run_tryCatch]
  rcases hrun : run x f with ⟨e | a, g⟩
  · rw [hrun] at hf
    obtain rfl : g = f := hf
    exact hk e g
  · rwa [hrun] at hf

theorem requireNames (p : Path) : ReadOnly (Filing.requireNames p) := by
  unfold Filing.requireNames
  split
  · exact throw _
  · exact pure ()

theorem locate (p : Path) : ReadOnly (Filing.locate p) := by
  refine bind (requireNames p) fun _ => bind (fun f => rfl) fun f => ?_
  split
  · exact pure _
  · exact throw _

theorem read (p : Path) : ReadOnly (Filing.read p) := by
  refine bind (fun f => rfl) fun f => bind (locate p) fun l => ?_
  split
  · exact pure _
  · exact throw _
  · exact throw _

end ReadOnly

end Filing

/-! ## 3. Places -/

namespace Files

theorem lookup_append_singleton (es : List (Location × FileNode)) (l l' : Location)
    (n : FileNode) : (es.filter (fun e => e.1 != l) ++ [(l, n)]).lookup l' =
      if l' = l then some n else es.lookup l' := by
  induction es with
  | nil =>
    rw [List.filter_nil, List.nil_append, List.lookup_cons]
    by_cases h : l' = l
    · simp [h]
    · simp [h, beq_false_of_ne h]
  | cons e es ih =>
    by_cases he : e.1 = l
    · rw [List.filter_cons_of_neg (by simp [he]), ih, List.lookup_cons, he]
      by_cases h : l' = l
      · simp [h]
      · simp [h, beq_false_of_ne h]
    · rw [List.filter_cons_of_pos (by simp [he]), List.cons_append, List.lookup_cons,
        List.lookup_cons, ih]
      by_cases h : l' = e.1
      · have hl : l' ≠ l := fun hl => he (h.symm.trans hl)
        simp [h, he]
      · simp [beq_false_of_ne h]

theorem node?_put {f : Files} {l : Location} (hl : l.isBase = false) (n : FileNode)
    (l' : Location) : (f.put l n).node? l' = if l' = l then some n else f.node? l' := by
  rw [node?, node?, put, lookup_append_singleton]
  by_cases h : l' = l
  · subst h
    rw [hl]
    simp
  · simp [h]

-- A place that is no directory is none of those that are always there.
theorem isBase_eq_false {f : Files} {l : Location} (h : f.node? l ≠ some .directory) :
    l.isBase = false := by
  rw [← Bool.not_eq_true]
  intro hl
  rw [node?, if_pos hl] at h
  exact h rfl

/-- Every directory of the first files is one of the second. -/
def KeepsDirectories (f g : Files) : Prop :=
  ∀ l, f.node? l = some .directory → g.node? l = some .directory

theorem walk_mono {f g : Files} (hfg : f.KeepsDirectories g) {here l : Location}
    {names : List String} (h : f.walk here names = .ok l) : g.walk here names = .ok l := by
  induction names generalizing here with
  | nil => exact h
  | cons name names ih =>
    rw [walk] at h ⊢
    split at h
    next hup => rw [if_pos hup, ih h]
    next hname =>
      rw [if_neg hname]
      split at h
      next hdir =>
        rw [hfg _ hdir]
        exact ih h
      next => cases h
      next => cases h

-- A path leads where it led before.
theorem locate_mono {f g : Files} (hfg : f.KeepsDirectories g) {p : Path} {l : Location}
    (h : f.locate p = .ok l) : g.locate p = .ok l := by
  rw [locate] at h ⊢
  split at h
  next => exact h
  next => exact walk_mono hfg h
  next =>
    obtain ⟨here, hwalk, rfl⟩ := map_eq_ok.mp h
    rw [walk_mono hfg hwalk]
    rfl

/-! ## 4. Writing -/

/-- A place that a path leads to, or one of those on its way. -/
def OnWay (f : Files) (p : Path) (l : Location) : Prop :=
  ∃ names, names <+: p.names ∧ f.locate ⟨p.absolute, names⟩ = .ok l

/-- What work did that asked for the directory at a path and wrote the files at some places. -/
structure Wrote (way : Path) (places : List Location) (f g : Files) : Prop where
  directories : f.KeepsDirectories g
  kept : ∀ l ∉ places, ∀ n, f.node? l = some n → g.node? l = some n
  made : ∀ l ∉ places, f.node? l = none →
    g.node? l = none ∨ (g.node? l = some .directory ∧ g.OnWay way l)

namespace Wrote

theorem refl (way : Path) (f : Files) : Wrote way [] f f :=
  ⟨fun _ h => h, fun _ _ _ h => h, fun _ _ h => Or.inl h⟩

theorem trans {way : Path} {ps qs : List Location} {f g h : Files} (hfg : Wrote way ps f g)
    (hgh : Wrote way qs g h) : Wrote way (ps ++ qs) f h := by
  refine ⟨fun l hl => hgh.directories l (hfg.directories l hl), fun l hl n hn => ?_,
    fun l hl hnone => ?_⟩
  · obtain ⟨hp, hq⟩ : l ∉ ps ∧ l ∉ qs := by simpa using hl
    exact hgh.kept l hq n (hfg.kept l hp n hn)
  · obtain ⟨hp, hq⟩ : l ∉ ps ∧ l ∉ qs := by simpa using hl
    rcases hfg.made l hp hnone with hg | ⟨hg, names, hway, hlocate⟩
    · exact hgh.made l hq hg
    · exact Or.inr ⟨hgh.directories l hg, names, hway, locate_mono hgh.directories hlocate⟩

theorem widen {absolute : Bool} {names more : List String} {ps : List Location} {f g : Files}
    (h : Wrote ⟨absolute, names⟩ ps f g) (hmore : names <+: more) :
    Wrote ⟨absolute, more⟩ ps f g := by
  refine ⟨h.directories, h.kept, fun l hl hnone => ?_⟩
  rcases h.made l hl hnone with hg | ⟨hg, way, hway, hlocate⟩
  · exact Or.inl hg
  · exact Or.inr ⟨hg, way, hway.trans hmore, hlocate⟩

theorem file {way : Path} {f : Files} {l : Location} (h : f.node? l ≠ some .directory)
    (content : ByteArray) : Wrote way [l] f (f.put l (.file content)) := by
  have hbase := isBase_eq_false h
  have hother : ∀ l' ∉ [l], (f.put l (.file content)).node? l' = f.node? l' := by
    intro l' hl'
    rw [node?_put hbase, if_neg (by simpa using hl')]
  refine ⟨fun l' hl' => ?_, fun l' hl' n hn => ?_, fun l' hl' hnone => ?_⟩
  · rw [hother l' (by rintro hmem; exact h (List.mem_singleton.mp hmem ▸ hl'))]
    exact hl'
  · rw [hother l' hl']
    exact hn
  · rw [hother l' hl']
    exact Or.inl hnone

theorem directory {way : Path} {f : Files} {l : Location} (h : f.node? l = none)
    (hway : f.locate way = .ok l) : Wrote way [] f (f.put l .directory) := by
  have hbase := isBase_eq_false (f := f) (l := l) (by rw [h]; exact fun hc => by cases hc)
  have hdirectories : f.KeepsDirectories (f.put l .directory) := by
    intro l' hl'
    rw [node?_put hbase]
    split
    · rfl
    · exact hl'
  refine ⟨hdirectories, fun l' _ n hn => ?_, fun l' _ hnone => ?_⟩
  · rw [node?_put hbase, if_neg]
    · exact hn
    · rintro rfl
      rw [h] at hn
      cases hn
  · rw [node?_put hbase]
    split
    next heq =>
      exact Or.inr ⟨rfl, way.names, List.prefix_rfl, heq ▸ locate_mono hdirectories hway⟩
    next => exact Or.inl hnone

end Wrote

end Files

namespace Filing

open Files

theorem write_of_run {p : Path} {text : String} {f g : Files} {u : Unit}
    (h : run (write p text) f = (.ok u, g)) :
    ∃ l, p.hasNull = false ∧ f.locate p = .ok l ∧ f.node? l ≠ some .directory ∧
      g = f.put l (.file text.toUTF8) := by
  obtain ⟨l, f', hlocate, hrest⟩ := run_bind_eq_ok.mp h
  obtain ⟨hnull, hl, rfl⟩ := run_locate_eq_ok.mp hlocate
  obtain ⟨_, _, hget, hwrite⟩ := run_bind_eq_ok.mp hrest
  cases hget
  split at hwrite
  next => cases hwrite
  next hnode =>
    cases hwrite
    exact ⟨l, hnull, hl, hnode, rfl⟩

theorem wrote_ensureDirectory {p : Path} {f g : Files} {u : Unit}
    (h : run (ensureDirectory p) f = (.ok u, g)) : Wrote p [] f g := by
  obtain ⟨l, f', hlocate, hrest⟩ := run_bind_eq_ok.mp h
  obtain ⟨-, hl, rfl⟩ := run_locate_eq_ok.mp hlocate
  obtain ⟨_, _, hget, hmake⟩ := run_bind_eq_ok.mp hrest
  cases hget
  split at hmake
  next hnone =>
    cases hmake
    exact .directory (Option.isNone_iff_eq_none.mp hnone) hl
  next =>
    cases hmake
    exact .refl p _

-- The directories are made from the top down, so each is on the way to the next.
theorem wrote_ensureNames {absolute : Bool} {names : List String} {f g : Files} {u : Unit}
    (h : run (ensureNames absolute names) f = (.ok u, g)) :
    Wrote ⟨absolute, names.reverse⟩ [] f g := by
  induction names generalizing g u with
  | nil =>
    cases h
    exact .refl _ f
  | cons name above ih =>
    obtain ⟨_, f', habove, hlast⟩ := run_bind_eq_ok.mp h
    have hprefix : above.reverse <+: (name :: above).reverse := by simp
    exact ((ih habove).widen hprefix).trans (wrote_ensureDirectory hlast)

theorem wrote_makeDirectories {p : Path} {f g : Files} {u : Unit}
    (h : run (makeDirectories p) f = (.ok u, g)) : Wrote p [] f g := by
  obtain ⟨_, f₀, hnames, hrest⟩ := run_bind_eq_ok.mp h
  obtain rfl : f₀ = f := (congrArg Prod.snd hnames).symm.trans (ReadOnly.requireNames p f)
  obtain ⟨_, f', hmade, hcheck⟩ := run_bind_eq_ok.mp hrest
  have hwrote := wrote_ensureNames hmade
  rw [List.reverse_reverse] at hwrote
  obtain ⟨_, _, hget, hcheck⟩ := run_bind_eq_ok.mp hcheck
  cases hget
  obtain ⟨l, g', hlocate, hcheck⟩ := run_bind_eq_ok.mp hcheck
  obtain ⟨-, -, rfl⟩ := run_locate_eq_ok.mp hlocate
  split at hcheck
  next => cases hcheck
  next =>
    cases hcheck
    exact hwrote

end Filing

end PlotScene
