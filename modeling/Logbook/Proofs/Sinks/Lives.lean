import Logbook.Proofs.Sinks.Records

/-!
# Programs that a write may end

A program makes its steps until a write to a log file panics. What it has done then is what a run of
the steps does that were made (`made`, `live_undisturbed`); these are a beginning of all its steps,
and all of them if no write has panicked. So whatever holds of every run holds of a program that
ended early, too.

Of a logger that has just been made, the sinks have been given the events of those steps that it
admits (`tellsStory_of_live`). Without a log file no write panics.

Each record is put together in an empty buffer: a step that is followed by another one has left
nothing in it (`unfinished_of_made`).
-/

set_option autoImplicit false
set_option relaxedAutoImplicit false

namespace Logbook

namespace Session

variable {s : Session} {now : Moment} {step : Step} {steps before : List (Moment × Step)}

/-! ### Lives -/

/-- The step of the program that a happening is, if it is one. -/
def Happening.step? : Happening → Option (Moment × Step)
  | .step now next => some (now, next)
  | .files _ => none

/-- The steps of the program among happenings. -/
def stepsOf (life : List Happening) : List (Moment × Step) :=
  life.filterMap Happening.step?

theorem live_cons (s : Session) (next : Happening) (rest : List Happening) :
    s.live (next :: rest) = if s.hasPanicked then s else (s.happen next).live rest := by
  rw [live, untilPanic]
  split_ifs <;> rfl

theorem live_of_hasPanicked (h : s.hasPanicked = true) (life : List Happening) :
    s.live life = s := by
  cases life with
  | nil => rfl
  | cons next rest => rw [live_cons, if_pos h]

/-! ### Steps that are made -/

/-- The steps that a program makes until a write panics, if nobody else is at its files. -/
def made (s : Session) (steps : List (Moment × Step)) : List (Moment × Step) :=
  stepsOf (s.untilPanic (undisturbed steps))

theorem made_cons (s : Session) (now : Moment) (step : Step) (rest : List (Moment × Step)) :
    s.made ((now, step) :: rest) =
      if s.hasPanicked then [] else (now, step) :: (s.step now step).1.made rest := by
  rw [made, undisturbed, List.map_cons, untilPanic]
  split_ifs <;> rfl

theorem live_undisturbed (s : Session) (steps : List (Moment × Step)) :
    s.live (undisturbed steps) = s.run (s.made steps) := by
  induction steps generalizing s with
  | nil => rfl
  | cons p rest ih =>
    obtain ⟨now, step⟩ := p
    rw [undisturbed, List.map_cons, live_cons, made_cons]
    split_ifs
    · rfl
    · exact ih _

theorem made_isPrefix (s : Session) (steps : List (Moment × Step)) : s.made steps <+: steps := by
  induction steps generalizing s with
  | nil => exact List.nil_prefix
  | cons p rest ih =>
    obtain ⟨now, step⟩ := p
    rw [made_cons]
    split_ifs
    · exact List.nil_prefix
    · exact (List.prefix_cons_inj _).mpr (ih _)

/-- If no write has panicked in the end, all steps have been made. -/
theorem made_eq_self (h : (s.run (s.made steps)).hasPanicked = false) : s.made steps = steps := by
  induction steps generalizing s with
  | nil => rfl
  | cons p rest ih =>
    obtain ⟨now, step⟩ := p
    rw [made_cons] at h ⊢
    split_ifs at h ⊢ with hpanicked
    · rw [show s.run [] = s from rfl, hpanicked] at h
      exact absurd h (by simp)
    · have hrest : (s.step now step).1.made rest = rest := ih h
      rw [hrest]

/-- Where a step is made, no write before it has panicked. -/
theorem hasPanicked_of_made {p : Moment × Step} (h : before ++ [p] <+: s.made steps) :
    (s.run before).hasPanicked = false := by
  induction steps generalizing s before with
  | nil => exact absurd (List.prefix_nil.mp h) (by simp)
  | cons q rest ih =>
    obtain ⟨now, step⟩ := q
    rw [made_cons] at h
    split_ifs at h with hpanicked
    · exact absurd (List.prefix_nil.mp h) (by simp)
    cases before with
    | nil => exact Bool.eq_false_of_not_eq_true hpanicked
    | cons r before =>
      rw [List.cons_append, List.cons_prefix_cons] at h
      obtain ⟨rfl, h⟩ := h
      have hcalm : ((s.step now step).1.run before).hasPanicked = false := ih h
      exact hcalm

/-! ### The buffer of the thread -/

/-- An event leaves something unfinished only where its write panics. -/
theorem unfinishedBy_of_emit {k : Nat} {e : Event} {around : Around}
    (h : (s.emit now k e around).hasPanicked = false) : s.unfinishedBy now k e around = "" := by
  rw [unfinishedBy]
  cases hl : s.loggers[k]? with
  | none => rfl
  | some l =>
    rw [emit, hl, hasPanicked, List.any_eq_false] at h
    have hcalm := h (l.emit s.files now e (s.inside k around)).2
      (List.mem_of_getElem? (List.getElem?_set_self (List.getElem?_eq_some_iff.mp hl).1))
    rw [List.any_eq_true, not_exists] at hcalm
    refine if_neg fun hpanic ↦ ?_
    obtain ⟨failure, hfailure, hpanic⟩ := List.any_eq_true.mp hpanic
    exact hcalm failure ⟨List.mem_of_mem_drop hfailure, hpanic⟩

theorem unfinished_of_step (h : (s.step now step).1.hasPanicked = false) :
    s.unfinished now step = "" := by
  match step with
  | .event (some _) _ _ | .panic (some _) _ _ => exact unfinishedBy_of_emit h
  | .event none _ _ | .panic none _ _ | .span .. | .request .. | .enter _ | .exit _ | .record ..
  | .close _ => rfl

/-- A step that another one follows leaves the buffer of the thread empty. -/
theorem unfinished_of_made {p : Moment × Step} (h : before ++ [(now, step), p] <+: s.made steps) :
    (s.run before).unfinished now step = "" := by
  have hcalm : (s.run (before ++ [(now, step)])).hasPanicked = false :=
    hasPanicked_of_made (by rwa [List.append_assoc])
  rw [run_concat] at hcalm
  exact unfinished_of_step hcalm

/-! ### What a program has told -/

variable {t t₀ : FileTree} {settings : LoggingSettings} {color : Bool} {origin : Origin}
  {l₀ : Logger}

theorem story_isPrefix (sinks : Nat) (stage : Stage) (h : before <+: steps) :
    stage.story sinks before <+: stage.story sinks steps := by
  obtain ⟨rest, rfl⟩ := h
  induction before generalizing stage with
  | nil => exact List.nil_prefix
  | cons p done ih =>
    obtain ⟨now, step⟩ := p
    exact (List.prefix_append_right_inj _).mpr (ih _)

/-- What the steps of a program hand to its one logger, which has just been made, as far as the
logger admits it. -/
def storyOf (l : Logger) (steps : List (Moment × Step)) : List (Moment × Handed) :=
  admitted l.settings.level (Stage.initial.story l.structuredSinks steps)

/-- A logger that has just been made was given these events before its program came to an end: a
beginning of its story, all of it unless a write has panicked, which none does without a log
file. -/
structure TellsStory (t₀ : FileTree) (l₀ : Logger) (story : List (Moment × Handed)) (s : Session)
    (told : List (Moment × Handed)) (l : Logger) : Prop where
  loggers : s.loggers = [l]
  begins : told <+: story
  all : s.hasPanicked = false → told = story
  calm : l₀.file = none → s.hasPanicked = false
  console : l.console = told.map l₀.shows
  sinks : Told t₀ l₀ told s.files l

/-- What a program tells is what its logger admits of the steps that it makes. -/
theorem tellsStory_of_live (h : Logger.ofSettings t settings color origin = (t₀, .ok l₀))
    (steps : List (Moment × Step)) :
    ∃ told l,
      TellsStory t₀ l₀ (storyOf l₀ steps) ((start t₀ [l₀]).live (undisturbed steps)) told l := by
  set s := start t₀ [l₀] with hs
  obtain ⟨l, hl, -, htold⟩ := told_of_start h (s.made steps)
  obtain ⟨file, hbuild, -⟩ := ofSettings_eq_ok h
  have hlevel : settings.level = l₀.settings.level := by rw [hbuild]; rfl
  have hconsole : l₀.console = [] := by rw [hbuild]; rfl
  have hfailures : l₀.failures = [] := by rw [hbuild]; rfl
  rw [← hs, ← live_undisturbed, hlevel, ← storyOf] at htold
  rw [← hs, ← live_undisturbed] at hl
  refine ⟨storyOf l₀ (s.made steps), l, hl, (story_isPrefix _ _ (s.made_isPrefix steps)).filter _,
    fun hcalm ↦ ?_, fun hfile ↦ ?_, ?_, htold⟩
  · rw [live_undisturbed] at hcalm
    rw [made_eq_self hcalm]
  · obtain ⟨-, -, hsame⟩ := htold.noFile hfile
    rw [hasPanicked, hl, List.any_cons, hsame, hfailures]
    rfl
  · rw [htold.console, hconsole, List.nil_append]

end Session

end Logbook
