import Logbook.Startup
import Mathlib.Tactic.SplitIfs

/-!
# The settings a service starts with

Settings that are read from a text are valid, or they are not read at all
(`Config.problems_of_parse`), and so are the defaults. Options override them without another look,
and of the settings they override only the address can make no sense: an unknown level is refused,
and the log file has no option. So the logger is always made from settings that are valid but for an
address that an option gives (`invalid_by_option_only`).
-/

set_option autoImplicit false
set_option relaxedAutoImplicit false

namespace Logbook

variable {t : FileTree} {s : ServiceSettings}

/-! ### Settings that are loaded -/

namespace Config

theorem problems_of_parse {text : String} (h : parse text = .ok s) : s.problems = [] := by
  unfold parse at h
  split at h
  · exact absurd h (by simp)
  · split at h
    · exact absurd h (by simp)
    · split_ifs at h with hvalid
      rw [← Except.ok.inj h]
      exact List.isEmpty_iff.mp hvalid

theorem problems_of_load {path : FilePath} (h : load t path = .ok s) : s.problems = [] := by
  unfold load at h
  split at h
  · exact absurd h (by simp)
  · split at h
    · exact absurd h (by simp)
    · exact problems_of_parse h

end Config

theorem ServiceSettings.problems_default : ServiceSettings.problems {} = [] := by
  decide +kernel

/-- Settings are valid only if their address is that of a socket. -/
theorem ServiceSettings.isSome_address (h : s.problems = []) :
    (SocketAddress.read? s.listener.bindAddress).isSome = true := by
  have haddress := (List.append_eq_nil_iff.mp h).1
  split_ifs at haddress with hnone
  simpa [Option.isSome_iff_ne_none] using hnone

namespace Startup

open CommandLine (Options)

variable {o : Options}

/-! ### Settings under options -/

/-- What an option that gives the address can get wrong. -/
def addressProblems (o : Options) : List Invalid :=
  match o.bind with
  | none => []
  | some address => if (SocketAddress.read? address).isNone then [.bindAddress address] else []

/-- Options leave the settings of the log file, and the address unless they give one. -/
theorem override_eq_ok {loaded : ServiceSettings} (h : override o loaded = .ok s) :
    s.logging.file = loaded.logging.file ∧
      s.listener.bindAddress = o.bind.getD loaded.listener.bindAddress := by
  unfold override at h
  cases hlevel : o.level with
  | none =>
    simp only [hlevel, bind, Except.bind, Except.ok.injEq] at h
    exact ⟨by rw [← h], by rw [← h]⟩
  | some name =>
    cases hname : Severity.ofName name with
    | error e => simp [hlevel, hname, Except.mapError, bind, Except.bind] at h
    | ok level =>
      simp only [hlevel, hname, Except.mapError, bind, Except.bind, Except.ok.injEq] at h
      exact ⟨by rw [← h], by rw [← h]⟩

theorem problems_of_override {loaded : ServiceSettings} (hloaded : loaded.problems = [])
    (h : override o loaded = .ok s) : s.problems = addressProblems o := by
  obtain ⟨hfile, haddress⟩ := override_eq_ok h
  have hpath := (List.append_eq_nil_iff.mp hloaded).2
  unfold ServiceSettings.problems
  rw [hfile, hpath, List.append_nil, haddress]
  unfold addressProblems
  cases hbind : o.bind with
  | none =>
    have hsome := ServiceSettings.isSome_address hloaded
    rw [Option.getD_none, if_neg (by simpa [Option.isSome_iff_ne_none] using hsome)]
  | some address => rw [Option.getD_some]

/-- The settings of a start are those of a configuration that was valid, under options. -/
theorem settings_eq_ok (h : settings t o = .ok s) :
    ∃ loaded, loaded.problems = [] ∧ override o loaded = .ok s := by
  unfold settings at h
  cases hconfig : o.config with
  | none =>
    simp only [hconfig, bind, Except.bind] at h
    exact ⟨{}, ServiceSettings.problems_default, h⟩
  | some path =>
    cases hload : Config.load t ⟨path⟩ with
    | error e => simp [hconfig, hload, Except.mapError, bind, Except.bind] at h
    | ok loaded =>
      simp only [hconfig, hload, Except.mapError, bind, Except.bind] at h
      exact ⟨loaded, Config.problems_of_load hload, h⟩

/-- Of the settings with which the logger comes to be made, nothing is invalid but an address that
an option gives; what the logger itself is told is valid. -/
theorem invalid_by_option_only (h : settings t o = .ok s) :
    s.problems = addressProblems o ∧ .emptyLogPath ∉ s.problems := by
  obtain ⟨loaded, hloaded, hoverride⟩ := settings_eq_ok h
  have hproblems := problems_of_override hloaded hoverride
  refine ⟨hproblems, ?_⟩
  rw [hproblems, addressProblems]
  split
  · exact List.not_mem_nil
  · split_ifs <;> simp

/-- Options that make sense but for the address. -/
theorem invalid_by_option_only_small :
    let o : Options := { pretty := true, level := some "Debug", bind := some "nowhere" }
    let s : ServiceSettings :=
      { listener := ⟨"nowhere"⟩, logging := { level := .debug, pretty := true } }
    settings FileTree.empty o = .ok s ∧ s.problems = [.bindAddress "nowhere"] := by
  intro o s
  have hsettings : settings FileTree.empty o = .ok s := by rfl
  refine ⟨hsettings, ?_⟩
  rw [(invalid_by_option_only hsettings).1]
  decide +kernel

/-- The program takes an address that makes no sense, and comes to make the logger with it. -/
theorem not_valid_under_options :
    ∃ o s, Options.read ["--bind", "nowhere"] = .ok o ∧ settings FileTree.empty o = .ok s ∧
      s.problems ≠ [] := by
  refine ⟨{ bind := some "nowhere" }, { listener := ⟨"nowhere"⟩ }, rfl, rfl, ?_⟩
  decide +kernel

end Startup

end Logbook
