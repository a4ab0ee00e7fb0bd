import Logbook.Proofs.Rotation.Opening
import Logbook.Startup

/-!
# Starts that fail

A start takes one step after the other, and none of them does anything before those ahead of it have
succeeded. So a start that ends with its configuration or its level has touched nothing, and one
that ends with its log file has logged nothing and taken nothing from the files that are there: all
it may have done is to make directories for the log file (`failure_leaves_no_trace`). The
configuration fails first, whatever level the options ask for.
-/

set_option autoImplicit false
set_option relaxedAutoImplicit false

namespace Logbook

open CommandLine (Options)
open FileTree (SameFiles Extends)

/-! ### Failures of the log file -/

/-- Where a log file cannot be opened, the files stay as they are and everything that stands still
stands. -/
theorem Logger.keeps_of_ofSettings_error {t left : FileTree} {settings : LoggingSettings}
    {color : Bool} {origin : Origin} {e : SinkError}
    (h : ofSettings t settings color origin = (left, .error e)) :
    SameFiles t left ∧ Extends t left := by
  unfold ofSettings openFile at h
  split_ifs at h
  · rcases hprepare : LogFile.prepare t ⟨settings.file.path⟩ with ⟨opened, e' | file⟩
    · simp only [hprepare, Prod.mk.injEq] at h
      obtain ⟨rfl, -⟩ := h
      rw [LogFile.eq_createParents_of_prepare_error hprepare]
      exact ⟨FileTree.sameFiles_createParents t _, FileTree.extends_createParents t _⟩
    · simp only [hprepare] at h
      exact absurd (congrArg Prod.snd h) (by simp)
  · exact absurd (congrArg Prod.snd h) (by simp)

namespace Startup

/-- The records that a start has logged. -/
def Outcome.records (out : Outcome) : List String :=
  out.logger.elim [] Logger.console

variable {env : Environment} {t : FileTree} {o : Options}

/-! ### Failures of the settings -/

theorem override_eq_error_iff {loaded : ServiceSettings} {f : Failure} :
    override o loaded = .error f ↔
      ∃ name e, o.level = some name ∧ Severity.ofName name = .error e ∧ f = .level e := by
  unfold override
  cases o.level with
  | none => simp [bind, Except.bind]
  | some name =>
    cases hname : Severity.ofName name with
    | ok level => simp [hname, Except.mapError, bind, Except.bind]
    | error e => simp [hname, Except.mapError, bind, Except.bind, eq_comm]

/-- The settings fail with the configuration, or else with the level. -/
theorem settings_eq_error_iff {f : Failure} : settings t o = .error f ↔
    (∃ path e, o.config = some path ∧ Config.load t ⟨path⟩ = .error e ∧ f = .config e) ∨
    (∀ path, o.config = some path → ∃ s, Config.load t ⟨path⟩ = .ok s) ∧
      ∃ name e, o.level = some name ∧ Severity.ofName name = .error e ∧ f = .level e := by
  unfold settings
  cases o.config with
  | none => simp [bind, Except.bind, override_eq_error_iff]
  | some path =>
    cases hload : Config.load t ⟨path⟩ with
    | ok s => simp [hload, Except.mapError, bind, Except.bind, override_eq_error_iff]
    | error e => simp [hload, Except.mapError, bind, Except.bind, eq_comm]

/-! ### Failures of the start -/

/-- A start that fails by its settings ends before it does anything else. -/
theorem run_of_settings_error {f : Failure} (h : settings env.files o = .error f) :
    run env o = ⟨env.files, none, some f⟩ := by
  rw [run, h]

theorem announce_eq_error {s : ServiceSettings} {left : FileTree} {e : SinkError}
    (h : announce env s = (left, .error e)) :
    Logger.ofSettings env.files s.logging env.color env.origin = (left, .error e) := by
  unfold announce at h
  split at h
  · next hmade =>
    obtain ⟨rfl, he⟩ := Prod.mk.inj h
    rw [hmade, Except.error.inj he]
  · dsimp only at h
    split_ifs at h <;> exact absurd (congrArg Prod.snd h) (by simp)

theorem listen_eq_some {s : ServiceSettings} {f : Failure} (h : listen env s = some f) :
    ∃ e, f = .listen e := by
  unfold listen at h
  split at h
  · exact ⟨_, (Option.some.inj h).symm⟩
  · obtain ⟨e, -, he⟩ := Option.map_eq_some_iff.mp h
    exact ⟨e, he.symm⟩

/-- A start whose settings are there ends with its log file, before there is a logger, or it fails,
if at all, where it listens. -/
theorem run_of_settings_ok {s : ServiceSettings} (h : settings env.files o = .ok s) :
    (∃ left e, run env o = ⟨left, none, some (.sink e)⟩ ∧
      SameFiles env.files left ∧ Extends env.files left) ∨
    ∀ f, (run env o).failure = some f → ∃ e, f = .listen e := by
  rcases hannounce : announce env s with ⟨left, e | l⟩
  · refine Or.inl ⟨left, e, ?_, Logger.keeps_of_ofSettings_error (announce_eq_error hannounce)⟩
    simp only [run, h, hannounce]
  · refine Or.inr fun f hf ↦ ?_
    simp only [run, h, hannounce] at hf
    exact listen_eq_some hf

/-- A start fails with its configuration or its level exactly if its settings do. -/
theorem failure_eq_iff {f : Failure} (hf : (∃ e, f = .config e) ∨ ∃ e, f = .level e) :
    (run env o).failure = some f ↔ settings env.files o = .error f := by
  cases hsettings : settings env.files o with
  | error g =>
    rw [run_of_settings_error hsettings, Option.some.injEq, Except.error.injEq]
  | ok s =>
    refine ⟨fun hfailure ↦ ?_, fun h ↦ absurd h (by simp)⟩
    obtain ⟨left, e, hrun, -⟩ | hlisten := run_of_settings_ok hsettings
    · rw [hrun, Option.some.injEq] at hfailure
      subst hfailure
      simp at hf
    · obtain ⟨e, rfl⟩ := hlisten f hfailure
      simp at hf

/-- A start that fails leaves no trace. With a configuration that cannot be loaded it fails as such,
whatever level the options ask for; with one that can, or none, an unknown level is the failure.
Then no file or directory has been touched, and nothing has been logged. If the log file cannot be
opened, nothing has been logged, every file is as it was, and no directory is lost. -/
theorem failure_leaves_no_trace (env : Environment) (o : Options) :
    (∀ e, (run env o).failure = some (.config e) ↔
      ∃ path, o.config = some path ∧ Config.load env.files ⟨path⟩ = .error e) ∧
    (∀ e, (run env o).failure = some (.level e) ↔
      (∀ path, o.config = some path → ∃ s, Config.load env.files ⟨path⟩ = .ok s) ∧
        ∃ name, o.level = some name ∧ Severity.ofName name = .error e) ∧
    (∀ e, (run env o).failure = some (.config e) →
      (run env o).files = env.files ∧ (run env o).records = []) ∧
    (∀ e, (run env o).failure = some (.level e) →
      (run env o).files = env.files ∧ (run env o).records = []) ∧
    ∀ e, (run env o).failure = some (.sink e) →
      (run env o).records = [] ∧ SameFiles env.files (run env o).files ∧
        Extends env.files (run env o).files := by
  have huntouched : ∀ f, (∃ e, f = .config e) ∨ (∃ e, f = .level e) →
      (run env o).failure = some f → (run env o).files = env.files ∧ (run env o).records = [] := by
    intro f hf hfailure
    rw [run_of_settings_error ((failure_eq_iff hf).mp hfailure)]
    exact ⟨rfl, rfl⟩
  refine ⟨fun e ↦ ?_, fun e ↦ ?_, fun e ↦ huntouched _ (Or.inl ⟨e, rfl⟩),
    fun e ↦ huntouched _ (Or.inr ⟨e, rfl⟩), fun e hfailure ↦ ?_⟩
  · rw [failure_eq_iff (Or.inl ⟨e, rfl⟩), settings_eq_error_iff]
    simp
  · rw [failure_eq_iff (Or.inr ⟨e, rfl⟩), settings_eq_error_iff]
    simp
  · cases hsettings : settings env.files o with
    | error f =>
      rw [run_of_settings_error hsettings, Option.some.injEq] at hfailure
      rw [hfailure, settings_eq_error_iff] at hsettings
      simp at hsettings
    | ok s =>
      obtain ⟨left, e', hrun, hkeeps⟩ | hlisten := run_of_settings_ok hsettings
      · rw [hrun]
        exact ⟨rfl, hkeeps⟩
      · obtain ⟨_, h⟩ := hlisten _ hfailure
        exact absurd h (by simp)

/-- A configuration that asks for a log file inside the file it stands in itself. -/
def crossed : FileTree :=
  (FileTree.empty.addFile ["c.toml"]
    "[logging.file]\nenabled = true\npath = \"c.toml/a.log\"\n".toUTF8).1

/-- A start with these files around it. -/
def small (files : FileTree) : Environment where
  files := files
  origin := ⟨"h", .ofUInt64 1⟩
  now := ⟨.ofUInt64 0, ⟨0, 0, 0, 0⟩, "19700101T000000", ""⟩
  site := CallSite.unknown
  filter := none
  forceColor := none
  listen := fun _ ↦ none

/-- A configuration that is missing and a level that is unknown; a level alone; and a log file that
cannot be opened, since the configuration stands where its directory would be. -/
theorem failure_leaves_no_trace_crossed :
    let missing : Options := { config := some "d.toml", level := some "loud" }
    let loud : Options := { config := some "c.toml", level := some "loud" }
    let quiet : Options := { config := some "c.toml" }
    ((run (small crossed) missing).failure = some (.config (.io "d.toml" .notFound)) ∧
        (run (small crossed) missing).files = crossed) ∧
      ((run (small crossed) loud).failure = some (.level ⟨"loud"⟩) ∧
        (run (small crossed) loud).files = crossed) ∧
      (run (small crossed) quiet).failure = some (.sink ⟨"c.toml/a.log", .alreadyExists⟩) ∧
        (run (small crossed) quiet).records = [] ∧
        SameFiles crossed (run (small crossed) quiet).files := by
  intro missing loud quiet
  have hmissing :
      (run (small crossed) missing).failure = some (.config (.io "d.toml" .notFound)) := by
    decide +kernel
  have hloud : (run (small crossed) loud).failure = some (.level ⟨"loud"⟩) := by
    decide +kernel
  have hquiet : (run (small crossed) quiet).failure =
      some (.sink ⟨"c.toml/a.log", .alreadyExists⟩) := by
    decide +kernel
  obtain ⟨-, -, hconfig, -, -⟩ := failure_leaves_no_trace (small crossed) missing
  obtain ⟨-, -, -, hlevel, -⟩ := failure_leaves_no_trace (small crossed) loud
  obtain ⟨-, -, -, -, hsink⟩ := failure_leaves_no_trace (small crossed) quiet
  obtain ⟨hrecords, hfiles, -⟩ := hsink _ hquiet
  exact ⟨⟨hmissing, (hconfig _ hmissing).1⟩, ⟨hloud, (hlevel _ hloud).1⟩, hquiet, hrecords, hfiles⟩

end Startup

end Logbook
