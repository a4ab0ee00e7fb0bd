import Logbook.Proofs.Sinks.Company
import Logbook.Proofs.Sinks.Independence

/-!
# Loggers keep to themselves

Several loggers are made over one tree of files and used in any order. Each of them shows, writes
and keeps the same as if only the steps had been made that are addressed to it (`KeepsToItself`,
`isolated`): in a run, every other step leaves alone what it depends on. A logger that is alone
tells a story (`heard`), and in company it delivers that story as well (`Delivers`), whatever the
moments are.

All this holds until a write panics. That ends the program, and so what is addressed to the other
loggers from then on is lost (`not_isolated`).
-/

set_option autoImplicit false
set_option relaxedAutoImplicit false

namespace Logbook

namespace Session

open FileTree

variable {s x : Session} {i j k : Nat} {now : Moment} {steps : List (Moment × Step)}

/-! ### Runs -/

/-- The steps of a run that are addressed to a logger. -/
def only (s : Session) (i : Nat) : List (Moment × Step) → List (Moment × Step)
  | [] => []
  | (now, step) :: rest =>
    (if s.addressee? step = some i then [(now, step)] else []) ++ (s.step now step).1.only i rest

/-- The steps of a run leave handles to the loggers whose spans they stand for. -/
def RespectsAll (s : Session) : List (Moment × Step) → Prop
  | [] => True
  | (now, step) :: rest => s.Respects step ∧ (s.step now step).1.RespectsAll rest

theorem suits_of_mem_only {p : Moment × Step} (h : p ∈ s.only i steps) : p.2.Suits i := by
  induction steps generalizing s with
  | nil => exact absurd h List.not_mem_nil
  | cons q rest ih =>
    obtain ⟨now, step⟩ := q
    rw [only] at h
    split_ifs at h with hstep
    · rcases List.mem_cons.mp h with rfl | h
      · exact suits_of_addressee? hstep
      · exact ih h
    · exact ih h

/-- Steps with a logger in the place of the one they name. -/
def allTo (i : Nat) (steps : List (Moment × Step)) : List (Moment × Step) :=
  steps.map fun p ↦ (p.1, p.2.to i)

theorem allTo_only (s : Session) (i : Nat) (steps : List (Moment × Step)) :
    allTo i (s.only i steps) = s.only i steps := by
  refine (List.map_congr_left fun p hp ↦ ?_).trans (List.map_id _)
  rw [(suits_of_mem_only hp).to_eq]
  rfl

/-- Steps for loggers that cannot be told apart. -/
theorem Mirrors.run_suits (h : Mirrors s i x j) (hs : Orderly s) (hx : Orderly x)
    (hnow : ∀ p ∈ steps, IsReading p.1) (hsteps : ∀ p ∈ steps, p.2.Suits i) :
    Mirrors (s.run steps) i (x.run (allTo j steps)) j := by
  induction steps generalizing s x with
  | nil => exact h
  | cons p rest ih =>
    obtain ⟨now, step⟩ := p
    rw [List.forall_mem_cons] at hnow hsteps
    exact ih (h.step hs hx hnow.1 hsteps.1) (hs.step hnow.1 step) (hx.step hnow.1 _) hnow.2 hsteps.2

/-- A run does to a logger what the steps do that are addressed to it. -/
theorem Mirrors.run (h : Mirrors s i x j) (hs : Orderly s) (hx : Orderly x)
    (hnow : ∀ p ∈ steps, IsReading p.1) (hrespects : s.RespectsAll steps) :
    Mirrors (s.run steps) i (x.run (allTo j (s.only i steps))) j := by
  induction steps generalizing s x with
  | nil => exact h
  | cons p rest ih =>
    obtain ⟨now, step⟩ := p
    rw [List.forall_mem_cons] at hnow
    rw [run_cons, only]
    split_ifs with hstep
    · exact ih (h.step hs hx hnow.1 (suits_of_addressee? hstep)) (hs.step hnow.1 step)
        (hx.step hnow.1 _) hnow.2 hrespects.2
    · exact ih ((mirrors_step hs hnow.1 hstep hrespects.1).symm.trans h) (hs.step hnow.1 step) hx
        hnow.2 hrespects.2

/-! ### Until a write panics -/

/-- Of the loggers of a session, only one may have had a write that panicked. -/
def PanicsOnly (s : Session) (i : Nat) : Prop :=
  ∀ (k : Nat) (l : Logger), k ≠ i → s.loggers[k]? = some l →
    l.failures.any LogFile.WriteError.isPanic = false

theorem Step.Suits.event? {step : Step} {e : Event} {around : Around} (h : step.Suits i)
    (hevent : step.event? k = some (e, around)) : k = i := by
  cases step with
  | event logger _ _ =>
    rw [show logger = some i from h, Step.event?] at hevent
    split_ifs at hevent with hk
    exact (Option.some.inj hk).symm
  | panic logger _ _ =>
    rw [show logger = some i from h, Step.event?] at hevent
    split_ifs at hevent with hk
    exact (Option.some.inj hk).symm
  | _ => exact absurd hevent (by simp [Step.event?])

theorem PanicsOnly.step (h : s.PanicsOnly i) (now : Moment) {step : Step} (hstep : step.Suits i) :
    (s.step now step).1.PanicsOnly i := by
  intro k l hk hl
  by_cases hquiet : ∀ k, step.event? k = none
  · have hbare := (s.quiet_step hquiet now).loggers k
    rw [hl, Option.map_some, eq_comm, Option.map_eq_some_iff] at hbare
    obtain ⟨l', hl', hbare⟩ := hbare
    rw [show l.failures = l'.failures from (congrArg Logger.failures hbare).symm]
    exact h k l' hk hl'
  · obtain ⟨k', hk'⟩ := not_forall.mp hquiet
    obtain ⟨⟨e, around⟩, hevent⟩ := Option.ne_none_iff_exists'.mp hk'
    obtain rfl := hstep.event? hevent
    rw [step_of_event? hevent] at hl
    refine h k l hk ?_
    cases hlogger : s.loggers[k']? with
    | none => rwa [emit_of_none hlogger] at hl
    | some l₁ =>
      rw [emit_eq hlogger] at hl
      rw [← hl]
      exact (List.getElem?_set_ne hk.symm).symm

/-- A session has panicked only where the one it mirrors has. -/
theorem Mirrors.hasPanicked (h : Mirrors s i x j) (hx : x.PanicsOnly j)
    (hs : s.hasPanicked = false) : x.hasPanicked = false := by
  rw [Session.hasPanicked, List.any_eq_false] at hs ⊢
  intro l hl
  obtain ⟨k, hk⟩ := List.mem_iff_getElem?.mp hl
  by_cases hkj : k = j
  · subst hkj
    rcases h.loggers with ⟨-, hnone⟩ | ⟨l', file, hl', hl'', -⟩
    · rw [hnone] at hk
      exact absurd hk (by simp)
    · obtain rfl := Option.some.inj (hl''.symm.trans hk)
      exact hs l' (List.mem_of_getElem? hl')
  · rw [hx k l hkj hk]
    exact Bool.false_ne_true

/-- Of the steps that are made until a write panics, those addressed to one logger can be made alone
without a panic before the last of them. -/
theorem Mirrors.made_only (h : Mirrors s i x i) (hs : Orderly s) (hx : Orderly x)
    (hpanics : x.PanicsOnly i) (hnow : ∀ p ∈ steps, IsReading p.1)
    (hrespects : s.RespectsAll steps) :
    x.made (s.only i (s.made steps)) = s.only i (s.made steps) := by
  induction steps generalizing s x with
  | nil => rfl
  | cons p rest ih =>
    obtain ⟨now, step⟩ := p
    rw [List.forall_mem_cons] at hnow
    rw [made_cons]
    split_ifs with hpanicked
    · rfl
    have hnext := hs.step hnow.1 step
    rw [only]
    split_ifs with hstep
    · have hsuits := suits_of_addressee? hstep
      have hx' := h.hasPanicked hpanics (Bool.eq_false_of_not_eq_true hpanicked)
      have hmirrors := h.step hs hx hnow.1 hsuits
      rw [hsuits.to_eq] at hmirrors
      rw [List.singleton_append, made_cons, if_neg (by simp [hx'])]
      exact congrArg _ (ih hmirrors hnext (hx.step hnow.1 step) (hpanics.step now hsuits) hnow.2
        hrespects.2)
    · rw [List.nil_append]
      exact ih ((mirrors_step hs hnow.1 hstep hrespects.1).symm.trans h) hnext hx hpanics hnow.2
        hrespects.2

/-! ### Loggers that have just been made -/

/-- A logger that has done nothing yet, over the files in which its log file has been opened. -/
structure Fresh (t : FileTree) (l : Logger) : Prop where
  spans : l.spans = .empty
  console : l.console = []
  failures : l.failures = []
  file : ∀ f, l.file = some f → LogFile.InOrder t f

variable {t t₀ : FileTree} {settings : LoggingSettings} {all : List LoggingSettings} {color : Bool}
  {origin : Origin} {l l₀ : Logger} {loggers : List Logger}

theorem ofSettings_fst (ht : t.WellFormed) (settings : LoggingSettings) (color : Bool)
    (origin : Origin) : (Logger.ofSettings t settings color origin).1.WellFormed ∧
      Extends t (Logger.ofSettings t settings color origin).1 := by
  unfold Logger.ofSettings
  split_ifs
  · have hkeeps := LogFile.prepare_keeps ht ⟨settings.file.path⟩
    unfold Logger.openFile
    generalize LogFile.prepare t ⟨settings.file.path⟩ = prepared at hkeeps ⊢
    obtain ⟨left, _ | ⟨place, id⟩⟩ := prepared
    · exact hkeeps
    · exact hkeeps
  · exact ⟨ht, fun _ _ hnode ↦ hnode⟩

theorem fresh_ofSettings (ht : t.WellFormed)
    (h : Logger.ofSettings t settings color origin = (t₀, .ok l₀)) : Fresh t₀ l₀ := by
  obtain ⟨file, rfl, hfile⟩ := ofSettings_eq_ok h
  refine ⟨rfl, rfl, rfl, fun f hf ↦ ?_⟩
  obtain ⟨place, id, hprepare, rfl⟩ := hfile f hf
  exact .start ht hprepare _ _

/-- A logger stays as fresh when other log files are opened. -/
theorem Fresh.of_extends (h : Fresh t l) (ht₀ : t₀.WellFormed) (hextends : Extends t t₀) :
    Fresh t₀ l :=
  ⟨h.spans, h.console, h.failures,
    fun f hf ↦ (h.file f hf).of_node? ht₀ (fun _ ↦ hextends.isDirectory) (hextends f.place)⟩

theorem fresh_openAll (ht : t.WellFormed) (h : openAll t color origin all = (t₀, .ok loggers)) :
    t₀.WellFormed ∧ Extends t t₀ ∧ ∀ l ∈ loggers, Fresh t₀ l := by
  induction all generalizing t loggers with
  | nil =>
    simp only [openAll, Prod.mk.injEq, Except.ok.injEq] at h
    obtain ⟨rfl, rfl⟩ := h
    exact ⟨ht, fun _ _ hnode ↦ hnode, fun l hl ↦ absurd hl List.not_mem_nil⟩
  | cons settings rest ih =>
    rw [openAll] at h
    obtain ⟨hwell, hextends⟩ := ofSettings_fst ht settings color origin
    split at h
    · exact absurd (congrArg Prod.snd h) (by simp)
    next left l hmade =>
    have hfresh := fresh_ofSettings ht hmade
    rw [hmade] at hwell hextends
    dsimp only at hwell hextends
    split at h
    · exact absurd (congrArg Prod.snd h) (by simp)
    next opened others hrest =>
    simp only [Prod.mk.injEq, Except.ok.injEq] at h
    obtain ⟨rfl, rfl⟩ := h
    obtain ⟨hwell', hextends', hothers⟩ := ih hwell hrest
    refine ⟨hwell', hextends.trans hextends', List.forall_mem_cons.mpr ⟨?_, hothers⟩⟩
    exact hfresh.of_extends hwell' hextends'

/-- Log files stand apart as soon as those of any two loggers do. -/
theorem standApart_start (h : loggers.Pairwise fun l l' ↦
    ∀ f ∈ l.file, ∀ g ∈ l'.file, ¬ f.Owns g.place ∧ ¬ g.Owns f.place) :
    (start t₀ loggers).StandApart := by
  intro i j f g hij hf hg
  obtain ⟨l, hl, hf⟩ := Option.bind_eq_some_iff.mp hf
  obtain ⟨l', hl', hg⟩ := Option.bind_eq_some_iff.mp hg
  obtain ⟨hi, rfl⟩ := List.getElem?_eq_some_iff.mp hl
  obtain ⟨hj, rfl⟩ := List.getElem?_eq_some_iff.mp hl'
  rw [List.pairwise_iff_getElem] at h
  rcases lt_or_gt_of_ne hij with hlt | hlt
  · exact (h i j hi hj hlt f hf g hg).1
  · exact (h j i hj hi hlt g hg f hf).2

theorem orderly_start (hloggers : ∀ l ∈ loggers, Fresh t₀ l)
    (hplaces : (start t₀ loggers).StandApart) : Orderly (start t₀ loggers) := by
  refine ⟨fun i f hf ↦ ?_, hplaces⟩
  obtain ⟨l, hl, hfile⟩ := Option.bind_eq_some_iff.mp hf
  exact (hloggers l (List.mem_of_getElem? hl)).file f hfile

theorem orderly_single (h : Fresh t₀ l₀) : Orderly (start t₀ [l₀]) :=
  orderly_start (fun _ hl ↦ List.mem_singleton.mp hl ▸ h)
    (standApart_start (List.pairwise_singleton _ _))

theorem mirrors_single (hl : loggers[i]? = some l₀) :
    Mirrors (start t₀ loggers) i (start t₀ [l₀]) 0 :=
  ⟨congrArg _ hl.symm, fun _ ↦ rfl, fun _ _ _ _ ↦ rfl⟩

/-! ### What a logger delivers in company -/

/-- A logger has delivered events as if there were no other: its console shows them, and its log
file and the places of that look as if they had been written one after the other. -/
def Delivers (t₀ : FileTree) (l₀ : Logger) (told : List (Moment × Handed)) (s : Session) (i : Nat) :
    Prop :=
  ∃ l, s.loggers[i]? = some l ∧ l.console = told.map l₀.shows ∧
    (l₀.file = none → l.file = none ∧ l.failures = []) ∧
    ∀ f₀, l₀.file = some f₀ → ∃ files f,
      LogFile.writeAll t₀ f₀ (told.map l₀.writes) = (files, f, l.failures) ∧
        l.file.map LogFile.closed = some f.closed ∧ SameOn f₀.Owns files s.files

theorem Mirrors.delivers {files : FileTree} {told : List (Moment × Handed)} {stage : Stage}
    (h : Mirrors s i (stage.session files l) 0) (hfresh : Fresh t₀ l₀)
    (htold : Told t₀ l₀ told files l) : Delivers t₀ l₀ told s i := by
  rcases h.symm.loggers with ⟨hnone, -⟩ | ⟨l', file, hl', hl'', hfile⟩
  · exact absurd hnone (by simp [Stage.session])
  obtain rfl : { l with spans := stage.spans } = l' := Option.some.inj hl'
  refine ⟨_, hl'', ?_, fun hnone ↦ ?_, fun f₀ hf₀ ↦ ?_⟩
  · show l.console = _
    rw [htold.console, hfresh.console, List.nil_append]
  · obtain ⟨-, hnone', hfailures⟩ := htold.noFile hnone
    refine ⟨?_, hfailures.trans hfresh.failures⟩
    rw [hnone', Option.map_none, Option.map_eq_none_iff] at hfile
    exact hfile
  · obtain ⟨id, active, hsteady⟩ := (hfresh.file f₀ hf₀).steady
    obtain ⟨f, failures, hwrites, hf, hfailures⟩ := htold.file f₀ hf₀
    rw [hfresh.failures, List.nil_append] at hfailures
    refine ⟨files, f, hfailures ▸ hwrites, by rw [hfile, hf, Option.map_some], ?_⟩
    rw [← hsteady.owns_writeAll hwrites]
    exact h.symm.files f hf

theorem RespectsAll.of_prefix {done : List (Moment × Step)} (hdone : done <+: steps)
    (h : s.RespectsAll steps) : s.RespectsAll done := by
  induction done generalizing s steps with
  | nil => trivial
  | cons p rest ih =>
    obtain ⟨later, rfl⟩ := hdone
    exact ⟨h.1, ih (List.prefix_append rest later) h.2⟩

theorem RespectsAll.last {before : List (Moment × Step)} {step : Step}
    (h : s.RespectsAll (before ++ [(now, step)])) : (s.run before).Respects step := by
  induction before generalizing s with
  | nil => exact h.1
  | cons p rest ih => exact ih h.2

/-- The events that a logger is handed by steps and admits. -/
def heard (l : Logger) (steps : List (Moment × Step)) : List (Moment × Handed) :=
  admitted l.settings.level (Stage.initial.story l.structuredSinks (allTo 0 steps))

/-- What looks to a logger like the run of some steps by this logger alone has delivered their
events. -/
theorem Mirrors.delivers_heard (h : Mirrors s i ((start t₀ [l₀]).run (allTo 0 steps)) 0)
    (hfresh : Fresh t₀ l₀) : Delivers t₀ l₀ (heard l₀ steps) s i := by
  obtain ⟨files, l, hrun, htold⟩ := told_of_run .initial t₀ l₀ (allTo 0 steps)
  have hstart : start t₀ [l₀] = Stage.initial.session t₀ l₀ := by
    have hspans : { l₀ with spans := Stage.initial.spans } = l₀ :=
      Logger.with_spans_eq_self hfresh.spans
    rw [Stage.session, hspans]
    rfl
  rw [hstart, hrun] at h
  exact h.delivers hfresh htold

/-- The same steps at other moments hand a logger the same events. -/
theorem heard_agree (l : Logger) {others : List (Moment × Step)}
    (hothers : others.map Prod.snd = steps.map Prod.snd) :
    List.Forall₂ (fun p q ↦ p.2 = q.2) (heard l steps) (heard l others) := by
  have hsteps : (allTo 0 steps).map Prod.snd = (allTo 0 others).map Prod.snd := by
    have hto : ∀ steps : List (Moment × Step),
        (allTo 0 steps).map Prod.snd = (steps.map Prod.snd).map (Step.to 0) := by
      intro steps
      rw [allTo, List.map_map, List.map_map]
      rfl
    rw [hto, hto, hothers]
  exact admitted_alike (fun hpq ↦ congrArg Handed.event hpq) (story_agree _ _ hsteps) _

/-- In a run, a logger keeps to itself. -/
structure KeepsToItself (t₀ : FileTree) (s₀ : Session) (done : List (Moment × Step)) (i : Nat)
    (l₀ : Logger) : Prop where
  /-- It has shown, written and kept the same as if only the steps addressed to it had been made. -/
  mirrors : Mirrors (s₀.run done) i (s₀.live (undisturbed (s₀.only i done))) i
  delivers : Delivers t₀ l₀ (heard l₀ (s₀.only i done)) (s₀.run done) i
  /-- At other moments, these steps deliver the same events. -/
  moments : ∀ others, others.map Prod.snd = (s₀.only i done).map Prod.snd →
    (∀ p ∈ others, IsReading p.1) → Delivers t₀ l₀ (heard l₀ others) (s₀.run others) i ∧
      List.Forall₂ (fun p q ↦ p.2 = q.2 ∧
        ShownBut l₀.settings.pretty p.1 q.1 (l₀.shows p) (l₀.shows q))
        (heard l₀ (s₀.only i done)) (heard l₀ others)

/-- Several loggers are made in any tree, each without a log file or with one that stands at no
place of another's, and the steps of a program leave handles to the loggers whose spans they stand
for. All steps are made unless a write panics. Each logger keeps to itself in the steps that are
made, and a step that is addressed to no logger changes nothing. -/
theorem isolated (ht : t.WellFormed) (hopen : openAll t color origin all = (t₀, .ok loggers))
    (hplaces : (start t₀ loggers).StandApart)
    (hnow : ∀ p ∈ steps, IsReading p.1) (hrespects : (start t₀ loggers).RespectsAll steps) :
    let s₀ := start t₀ loggers
    ∃ done, done <+: steps ∧ s₀.live (undisturbed steps) = s₀.run done ∧
      ((s₀.run done).hasPanicked = false → done = steps) ∧
      (∀ i l₀, loggers[i]? = some l₀ → KeepsToItself t₀ s₀ done i l₀) ∧
      ∀ before now step, before ++ [(now, step)] <+: done →
        (s₀.run before).addressee? step = none →
          (s₀.run (before ++ [(now, step)])).files = (s₀.run before).files ∧
          (s₀.run (before ++ [(now, step)])).loggers = (s₀.run before).loggers := by
  intro s₀
  obtain ⟨-, -, hloggers⟩ := fresh_openAll ht hopen
  have hs : Orderly s₀ := orderly_start hloggers hplaces
  have hdone := s₀.made_isPrefix steps
  have hnow' : ∀ p ∈ s₀.made steps, IsReading p.1 := fun p hp ↦ hnow p (hdone.subset hp)
  have hrespects' := hrespects.of_prefix hdone
  refine ⟨s₀.made steps, hdone, s₀.live_undisturbed steps, made_eq_self,
    fun i l₀ hl ↦ ?_, fun before now step hbefore hnobody ↦ ?_⟩
  · have hfresh := hloggers l₀ (List.mem_of_getElem? hl)
    have hsingle : Mirrors s₀ i (start t₀ [l₀]) 0 := mirrors_single hl
    have hpanics : s₀.PanicsOnly i := by
      intro k l _ hk
      rw [(hloggers l (List.mem_of_getElem? hk)).failures]
      rfl
    refine ⟨?_, ?_, fun others hothers hreadings ↦ ⟨?_, ?_⟩⟩
    · rw [live_undisturbed, (Mirrors.refl s₀ i).made_only hs hs hpanics hnow hrespects]
      have hrun := (Mirrors.refl s₀ i).run hs hs hnow' hrespects'
      rwa [allTo_only] at hrun
    · exact (hsingle.run hs (orderly_single hfresh) hnow' hrespects').delivers_heard hfresh
    · have hsuits : ∀ p ∈ others, p.2.Suits i := by
        intro p hp
        have hmem : p.2 ∈ (s₀.only i (s₀.made steps)).map Prod.snd :=
          hothers ▸ List.mem_map_of_mem hp
        obtain ⟨q, hq, hpq⟩ := List.mem_map.mp hmem
        exact hpq ▸ suits_of_mem_only hq
      exact (hsingle.run_suits hs (orderly_single hfresh) hreadings hsuits).delivers_heard hfresh
    · refine (heard_agree l₀ hothers).imp fun p q hpq ↦ ⟨hpq, ?_⟩
      have hshown := l₀.shownBut p.1 q.1 p.2
      rwa [show (q.1, p.2) = q by rw [hpq]] at hshown
  · rw [run_concat]
    exact step_of_nobody (hrespects'.of_prefix hbefore).last hnobody now

/-- A log file of another name. -/
def otherSettings : LoggingSettings :=
  { smallSettings with file := { enabled := true, path := "b.log" } }

/-- The tree in which both log files have been opened. -/
def pairTree : FileTree :=
  (smallTree.addFile ["b.log"] ByteArray.empty).1

/-- Two loggers. -/
def pair : List Logger :=
  [smallLogger, .build otherSettings false smallOrigin
    (some (LogFile.start pairTree ⟨"b.log"⟩ ["b.log"] 1 (byteLimit 100) 0))]

/-- The loggers take turns, and an error is for none of them. -/
def turns : List (Moment × Step) :=
  [(smallMoment, .span (some 0) "a" [⟨"k", some (.bool true)⟩] .current),
    (smallMoment, .event (some 1) smallEvent .current),
    (smallMoment, .enter "a"),
    (smallMoment, .event none smallEvent .current),
    (smallMoment, .event (some 0) smallEvent .current)]

/-- A log file owns no place whose name begins otherwise. -/
theorem not_owns_of_head? {f : LogFile} {directory : Place} {name : String} {c : Char}
    (hname : f.name.toList.head? = some c) (hhead : name.toList.head? ≠ some c) :
    ¬ f.Owns (directory ++ [name]) := by
  rintro (hplace | ⟨name', hplace, hnames⟩)
  · obtain rfl : name = f.name := List.singleton_inj.mp (List.append_inj' hplace rfl).2
    exact hhead hname
  · obtain rfl : name = name' := List.singleton_inj.mp (List.append_inj' hplace rfl).2
    obtain ⟨stamp, rest, hchars, -⟩ := BackupName.exists_of_names hnames
    refine hhead ?_
    rw [hchars, List.head?_append, hname]
    rfl

theorem isReading_small : IsReading smallMoment :=
  ⟨⟨2024, 2, 29, 23, 59, 59⟩, by decide, rfl⟩

theorem respects_turns : (start pairTree pair).RespectsAll turns := by
  refine ⟨fun handle _ target htarget ↦ ?_, ?_, ?_, ?_, ?_, trivial⟩
  · exact absurd htarget (by simp [start, target?])
  all_goals exact fun handle hhandle ↦ absurd hhandle (by simp [Step.gives?])

/-- Taking turns does the same to either logger as its own steps. -/
theorem isolated_turns :
    ((start pairTree pair).only 0 turns).length = 3 ∧
      ((start pairTree pair).only 1 turns).length = 1 ∧
      ∀ i < 2, Mirrors ((start pairTree pair).run turns) i
        ((start pairTree pair).live (undisturbed ((start pairTree pair).only i turns))) i := by
  refine ⟨by decide +kernel, by decide +kernel, fun i hi ↦ ?_⟩
  have hopen : openAll .empty false smallOrigin [smallSettings, otherSettings] =
      (pairTree, .ok pair) := rfl
  have hplaces : (start pairTree pair).StandApart := by
    refine standApart_start (List.pairwise_pair.mpr fun f hf g hg ↦ ?_)
    rw [← Option.some.inj hf, ← Option.some.inj hg]
    exact ⟨not_owns_of_head? (c := 'a') rfl (by decide),
      not_owns_of_head? (c := 'b') rfl (by decide)⟩
  have hnow : ∀ p ∈ turns, IsReading p.1 := by
    simp only [turns, List.forall_mem_cons]
    exact ⟨isReading_small, isReading_small, isReading_small, isReading_small, isReading_small,
      fun p hp ↦ absurd hp List.not_mem_nil⟩
  have hcalm : ((start pairTree pair).live (undisturbed turns)).hasPanicked = false := by
    decide +kernel
  obtain ⟨done, -, hlive, hall, hloggers, -⟩ :=
    isolated FileTree.wellFormed_empty hopen hplaces hnow respects_turns
  rw [hlive] at hcalm
  obtain rfl := hall hcalm
  interval_cases i
  · exact (hloggers 0 _ rfl).mirrors
  · exact (hloggers 1 _ rfl).mirrors

/-! ### A program that ends -/

/-- Structured records on the console alone. -/
def plainSettings : LoggingSettings :=
  { crowdedSettings with file := {} }

/-- An error for each of two loggers. -/
def oneEach : List (Moment × Step) :=
  [(smallMoment, .event (some 0) smallEvent .current),
    (smallMoment, .event (some 1) smallEvent .current)]

/-- A logger whose log file is to be rotated to a name that is taken. -/
def crowdedLogger : Logger :=
  .build crowdedSettings false smallOrigin (some crowdedFile)

/-- A logger without a log file. -/
def plainLogger : Logger :=
  .build plainSettings false smallOrigin none

/-- Both loggers, made one after the other. -/
def crowdedPair : Session :=
  start crowdedTree [crowdedLogger, plainLogger]

theorem live_oneEach :
    (crowdedPair.live (undisturbed oneEach)).loggers.map (fun l ↦ l.console.length) = [1, 0] := by
  have hadmits : crowdedLogger.settings.level.admits smallEvent.metadata = true := rfl
  obtain ⟨htold, -⟩ := told_of_emit crowdedLogger hadmits crowdedTree smallMoment .current
  have hfailures := htold.failures_of_taken rfl fun _ hbytes ↦ write_crowdedFile hbytes
  -- Said of any two loggers, so that the large file is not looked at.
  have hnext : ∀ (t : FileTree) (l l' : Logger),
      ((start t [l, l']).step smallMoment (.event (some 0) smallEvent .current)).1 =
        start (l.emit t smallMoment smallEvent .current).1
          [(l.emit t smallMoment smallEvent .current).2, l'] := fun _ _ _ ↦ rfl
  have hcalm : crowdedPair.hasPanicked = false := rfl
  have hpanicked : ∀ l', (start (crowdedLogger.emit crowdedTree smallMoment smallEvent .current).1
      [(crowdedLogger.emit crowdedTree smallMoment smallEvent .current).2, l']).hasPanicked =
        true := by
    intro l'
    simp [hasPanicked, start, hfailures, LogFile.WriteError.isPanic, LogFile.WriteError.panic?]
  rw [oneEach, undisturbed, List.map_cons, live_cons, if_neg (by simp [hcalm]), happen, crowdedPair,
    hnext, live_of_hasPanicked (hpanicked _)]
  simp only [start, List.map_cons, htold.console]
  rfl

/-- Where the log file of one logger comes to a name that is taken, its error ends the program, and
with that also what the other logger would have shown. -/
theorem not_isolated :
    openAll crowdedTree false smallOrigin [crowdedSettings, plainSettings] =
        (crowdedTree, .ok [crowdedLogger, plainLogger]) ∧
      crowdedPair.StandApart ∧ crowdedPair.RespectsAll oneEach ∧
      (crowdedPair.live (undisturbed oneEach)).loggers.map (fun l ↦ l.console.length) = [1, 0] ∧
      (crowdedPair.live (undisturbed (crowdedPair.only 1 oneEach))).loggers.map
        (fun l ↦ l.console.length) = [0, 1] := by
  refine ⟨?_, ?_, ?_, live_oneEach, rfl⟩
  · rw [openAll, ofSettings_crowded rfl]
    rfl
  · exact standApart_start (List.pairwise_pair.mpr fun _ _ g hg ↦ absurd hg (Option.not_mem_none g))
  · refine ⟨?_, ?_, trivial⟩ <;>
      exact fun handle hhandle ↦ absurd hhandle (by simp [Step.gives?])

end Session

end Logbook
