import Logbook.Proofs.Rotation.Footprint
import Logbook.Proofs.Sinks.Records

/-!
# Loggers in company

Several loggers share the files and the handles of a session. What one of them has shown and
written, and what further steps do to it, depends on its own part of the session alone (`Mirrors`):
on the logger but for the number its log file writes to, on the handles of its own spans, and on
what is seen at the places its log file owns. A step for a logger does the same wherever this part
is the same, also under another number of the logger (`Mirrors.step`).

A step for another logger leaves that part as it is (`mirrors_step`), if handles are left to the
loggers whose spans they stand for (`Respects`) and no log file stands at a place of another
(`StandApart`). Every step keeps the session orderly in that way (`Orderly.step`), and one for
nobody changes nothing (`step_of_nobody`).
-/

set_option autoImplicit false
set_option relaxedAutoImplicit false

namespace Logbook

/-- A logger but for the number its log file writes to. -/
def Logger.closed (l : Logger) : Logger :=
  { l with file := l.file.map LogFile.closed }

/-- A logger without its spans. -/
def Logger.bare (l : Logger) : Logger :=
  { l with spans := .empty }

theorem Logger.exists_of_closed {l l' : Logger} (h : l'.closed = l.closed) : ∃ file,
    l' = { l with file := file } ∧ file.map LogFile.closed = l.file.map LogFile.closed := by
  refine ⟨l'.file, ?_, congrArg Logger.file h⟩
  rw [show l' = { l'.closed with file := l'.file } from rfl, h]
  rfl

/-- A change of a logger that leaves its log file alone and does not look at the number it writes
to. -/
structure Logger.LeavesFile (act : Logger → Logger) : Prop where
  file : ∀ l, (act l).file = l.file
  closed : ∀ {l l'}, Logger.closed l' = Logger.closed l →
    Logger.closed (act l') = Logger.closed (act l)

/-- A change of the spans may look at everything in a logger but at its log file, and at whether it
has one. -/
theorem Logger.leavesFile_of_spans {change : Logger → SpanTree}
    (h : ∀ l file, file.isSome = l.file.isSome → change { l with file := file } = change l) :
    Logger.LeavesFile fun l ↦ { l with spans := change l } := by
  refine ⟨fun _ ↦ rfl, fun {l l'} hclosed ↦ ?_⟩
  obtain ⟨file, rfl, hfile⟩ := exists_of_closed hclosed
  have hsome : file.isSome = l.file.isSome := by
    rw [← Option.isSome_map, hfile, Option.isSome_map]
  rw [Logger.closed, Logger.closed, h l file hsome, hfile]

/-- The span a handle stands for, if it is one of a given logger. -/
def HandleTarget.spanIn (target : HandleTarget) (i : Nat) : Option SpanId :=
  if target.logger = i then some target.span else none

namespace Session

open FileTree

variable {s s' x x' : Session} {i j k : Nat} {l l' : Logger} {f g : LogFile} {now : Moment}
  {handle name : String}

/-! ### One logger of a session -/

/-- The log file of a logger. -/
def file? (s : Session) (i : Nat) : Option LogFile :=
  s.loggers[i]?.bind Logger.file

/-- The span of a logger that a handle stands for. -/
def spanOf (s : Session) (i : Nat) (handle : String) : Option SpanId :=
  (s.target? handle).bind (·.spanIn i)

theorem inside_handle (s : Session) (i : Nat) (name : String) :
    s.inside i (.handle name) = ((s.spanOf i name).map Inside.span).getD .nothing := by
  rw [inside, spanOf]
  cases s.target? name with
  | none => rfl
  | some target =>
    by_cases hlogger : target.logger = i
    · simp [HandleTarget.spanIn, hlogger]
    · simp [HandleTarget.spanIn, hlogger]

theorem lookup_filter_ne {α : Type} (handles : List (String × α)) (handle name : String) :
    (handles.filter fun p ↦ p.1 ≠ handle).lookup name =
      if name = handle then none else handles.lookup name := by
  induction handles with
  | nil => simp
  | cons p rest ih =>
    obtain ⟨key, value⟩ := p
    rw [List.lookup_cons]
    by_cases hkey : key = handle
    · rw [List.filter_cons_of_neg (by simpa using hkey), ih, hkey]
      split_ifs with hname
      · rfl
      · rw [beq_eq_false_iff_ne.mpr hname]
    · rw [List.filter_cons_of_pos (by simpa using hkey), List.lookup_cons, ih]
      split_ifs with hname
      · rw [beq_eq_false_iff_ne.mpr (hname ▸ Ne.symm hkey)]
      · rfl

theorem getElem?_set_of_some {α : Type} {as : List α} {a : α} (h : as[i]? = some a) (b : α) :
    (as.set i b)[i]? = some b :=
  List.getElem?_set_self (List.getElem?_eq_some_iff.mp h).1

@[simp] theorem target?_through (act : Logger → SpanId → Logger) :
    (s.through handle act).target? name = s.target? name := by
  unfold through
  cases s.target? handle <;> rfl

theorem target?_close : (s.close handle).target? name =
    if name = handle then none else s.target? name := by
  have hhandles : (s.close handle).target? name =
      ((s.handles.filter fun p ↦ p.1 ≠ handle).lookup name).join := rfl
  rw [hhandles, lookup_filter_ne]
  split_ifs
  · rfl
  · rfl

theorem target?_assign (target : Option HandleTarget) : (s.assign handle target).target? name =
    if name = handle then target else s.target? name := by
  have hhandles : (s.assign handle target).target? name =
      (((handle, target) :: (s.close handle).handles).lookup name).join := rfl
  rw [hhandles, List.lookup_cons]
  by_cases hname : name = handle
  · simp [hname]
  · have hrest : (s.close handle).target? name = s.target? name := by
      rw [target?_close, if_neg hname]
    rw [if_neg hname, ← hrest, beq_eq_false_iff_ne.mpr hname]
    rfl

/-- What is done through a handle is done to the one logger whose span the handle stands for. -/
theorem loggers_through (s : Session) (handle : String) (act : Logger → SpanId → Logger) (i : Nat) :
    (s.through handle act).loggers[i]? =
      s.loggers[i]?.map fun l ↦ (s.spanOf i handle).elim l (act l) := by
  rw [through, spanOf]
  cases s.target? handle with
  | none => simp
  | some target =>
    dsimp only [onTarget]
    rw [List.getElem?_modify]
    by_cases hlogger : target.logger = i
    · simp [HandleTarget.spanIn, hlogger]
    · simp [HandleTarget.spanIn, hlogger]

theorem files_through (s : Session) (handle : String) (act : Logger → SpanId → Logger) :
    (s.through handle act).files = s.files := by
  unfold through
  cases s.target? handle <;> rfl

theorem spanOf_through (s : Session) (i : Nat) (handle : String) (act : Logger → SpanId → Logger) :
    (s.through handle act).spanOf i name = s.spanOf i name := by
  rw [spanOf, spanOf, target?_through]

theorem spanOf_close (s : Session) (i : Nat) (handle name : String) :
    (s.close handle).spanOf i name = if name = handle then none else s.spanOf i name := by
  rw [spanOf, target?_close]
  split_ifs
  · rfl
  · rfl

theorem spanOf_assign (s : Session) (i : Nat) (handle : String) (target : Option HandleTarget) :
    (s.assign handle target).spanOf i name =
      if name = handle then target.bind (·.spanIn i) else s.spanOf i name := by
  rw [spanOf, target?_assign]
  split_ifs
  · rfl
  · rfl

theorem loggers_close (s : Session) (handle : String) (i : Nat) :
    (s.close handle).loggers[i]? =
      s.loggers[i]?.map fun l ↦ (s.spanOf i handle).elim l l.release :=
  s.loggers_through handle Logger.release i

/-! ### What tells loggers apart -/

/-- A logger of one session and a logger of another cannot be told apart: they have shown the same,
the same writes have failed, handles stand for the same spans of them, and they see the same files
at the places their log files own. -/
structure Mirrors (s : Session) (i : Nat) (x : Session) (j : Nat) : Prop where
  logger : x.loggers[j]?.map Logger.closed = s.loggers[i]?.map Logger.closed
  handles : ∀ name, x.spanOf j name = s.spanOf i name
  files : ∀ f, s.file? i = some f → SameOn f.Owns s.files x.files

/-- The log files of two loggers that differ in nothing else. -/
theorem exists_file_of_closed
    (h : x.loggers[j]?.map Logger.closed = s.loggers[i]?.map Logger.closed)
    (hf : s.file? i = some f) : ∃ g, x.file? j = some g ∧ g.closed = f.closed := by
  have hfile : ∀ (s : Session) (i : Nat), (s.file? i).map LogFile.closed =
      (s.loggers[i]?.map Logger.closed).bind Logger.file := by
    intro s i
    rw [file?, Option.bind_map, Option.map_bind]
    rfl
  refine Option.map_eq_some_iff.mp ?_
  rw [hfile, h, ← hfile, hf, Option.map_some]

namespace Mirrors

theorem refl (s : Session) (i : Nat) : Mirrors s i s i :=
  ⟨rfl, fun _ ↦ rfl, fun _ _ _ _ ↦ rfl⟩

/-- Nothing that concerns a logger has changed. -/
theorem of_same (hlogger : s'.loggers[i]? = s.loggers[i]?)
    (hhandles : ∀ name, s'.spanOf i name = s.spanOf i name) (hfiles : s'.files = s.files) :
    Mirrors s i s' i :=
  ⟨by rw [hlogger], hhandles, fun f _ q _ ↦ by rw [hfiles]⟩

theorem symm (h : Mirrors s i x j) : Mirrors x j s i := by
  refine ⟨h.logger.symm, fun name ↦ (h.handles name).symm, fun g hg q hq ↦ ?_⟩
  obtain ⟨f, hf, hclosed⟩ := exists_file_of_closed h.logger.symm hg
  exact (h.files f hf q (LogFile.owns_of_closed hclosed ▸ hq)).symm

theorem trans {y : Session} (h : Mirrors s i x j) (h' : Mirrors x j y k) : Mirrors s i y k := by
  refine ⟨h'.logger.trans h.logger, fun name ↦ (h'.handles name).trans (h.handles name),
    fun f hf q hq ↦ ?_⟩
  obtain ⟨g, hg, hclosed⟩ := exists_file_of_closed h.logger hf
  exact (h'.files g hg q (LogFile.owns_of_closed hclosed ▸ hq)).trans (h.files f hf q hq)

/-- The two loggers, if there are any. -/
theorem loggers (h : Mirrors s i x j) : s.loggers[i]? = none ∧ x.loggers[j]? = none ∨
    ∃ l file, s.loggers[i]? = some l ∧ x.loggers[j]? = some { l with file := file } ∧
      file.map LogFile.closed = l.file.map LogFile.closed := by
  have hlogger := h.logger
  cases hl : s.loggers[i]? with
  | none =>
    rw [hl, Option.map_none, Option.map_eq_none_iff] at hlogger
    exact Or.inl ⟨rfl, hlogger⟩
  | some l =>
    rw [hl, Option.map_some, Option.map_eq_some_iff] at hlogger
    obtain ⟨l', hl', hclosed⟩ := hlogger
    obtain ⟨file, rfl, hfile⟩ := Logger.exists_of_closed hclosed
    exact Or.inr ⟨l, file, rfl, hl', hfile⟩

theorem inside_eq (h : Mirrors s i x j) (around : Around) :
    x.inside j around = s.inside i around := by
  cases around with
  | current => rfl
  | nothing => rfl
  | handle name => rw [inside_handle, inside_handle, h.handles]

/-- Both loggers change alike, and the files do not. -/
theorem change (h : Mirrors s i x j) {act : Logger → Logger} (hact : Logger.LeavesFile act)
    (hs : s'.loggers[i]? = s.loggers[i]?.map act) (hx : x'.loggers[j]? = x.loggers[j]?.map act)
    (hfiles : s'.files = s.files) (hfiles' : x'.files = x.files)
    (hhandles : ∀ name, x'.spanOf j name = s'.spanOf i name) : Mirrors s' i x' j := by
  refine ⟨?_, hhandles, fun f hf ↦ ?_⟩
  · rw [hs, hx]
    rcases h.loggers with ⟨hl, hl'⟩ | ⟨l, file, hl, hl', hfile⟩
    · rw [hl, hl']
    · rw [hl, hl', Option.map_some, Option.map_some, Option.map_some, Option.map_some]
      refine congrArg some (hact.closed ?_)
      rw [Logger.closed, Logger.closed, hfile]
  · rw [hfiles, hfiles']
    refine h.files f ?_
    have hfile : Logger.file ∘ act = Logger.file := funext hact.file
    rw [← hf, file?, file?, hs, Option.bind_map, hfile]

theorem through (h : Mirrors s i x j) {act : Logger → SpanId → Logger}
    (hact : ∀ id, Logger.LeavesFile (act · id)) (handle : String) :
    Mirrors (s.through handle act) i (x.through handle act) j := by
  have hact' : Logger.LeavesFile fun l ↦ (s.spanOf i handle).elim l (act l) := by
    cases s.spanOf i handle with
    | none => exact ⟨fun _ ↦ rfl, id⟩
    | some id => exact hact id
  refine h.change hact' (s.loggers_through handle act i) ?_ (s.files_through handle act)
    (x.files_through handle act) fun name ↦ ?_
  · rw [loggers_through, h.handles]
  · rw [spanOf_through, spanOf_through, h.handles]

theorem close (h : Mirrors s i x j) (handle : String) :
    Mirrors (s.close handle) i (x.close handle) j := by
  have hrelease : ∀ id, Logger.LeavesFile (Logger.release · id) :=
    fun _ ↦ Logger.leavesFile_of_spans fun _ _ _ ↦ rfl
  have hthrough := h.through hrelease handle
  refine ⟨hthrough.logger, fun name ↦ ?_, hthrough.files⟩
  rw [spanOf_close, spanOf_close, h.handles]

theorem assign (h : Mirrors s i x j) (handle : String) {target target' : Option HandleTarget}
    (htarget : target'.bind (·.spanIn j) = target.bind (·.spanIn i)) :
    Mirrors (s.assign handle target) i (x.assign handle target') j := by
  have hclose := h.close handle
  refine ⟨hclose.logger, fun name ↦ ?_, hclose.files⟩
  rw [spanOf_assign, spanOf_assign, htarget, h.handles]

/-- A span is made in both loggers. -/
theorem create (h : Mirrors s i x j) (handle : String) (data : Metadata) (fields : List Field)
    (around : Around) :
    Mirrors (s.create i handle data fields around) i (x.create j handle data fields around) j := by
  rw [Session.create, Session.create, h.inside_eq]
  rcases h.loggers with ⟨hl, hl'⟩ | ⟨l, file, hl, hl', hfile⟩
  · rw [hl, hl']
    exact h
  · rw [hl, hl']
    dsimp only
    split_ifs with hadmits
    · have hmade : Mirrors
          { s with loggers := s.loggers.set i (l.createSpan (s.inside i around) fields).1 } i
          { x with
            loggers := x.loggers.set j
              (Logger.createSpan { l with file := file } (s.inside i around) fields).1 } j := by
        have hact : Logger.LeavesFile fun l ↦ (l.createSpan (s.inside i around) fields).1 :=
          Logger.leavesFile_of_spans fun _ _ _ ↦ rfl
        refine h.change hact ?_ ?_ rfl rfl h.handles
        · rw [hl]
          exact getElem?_set_of_some hl _
        · rw [hl']
          exact getElem?_set_of_some hl' _
      refine hmade.assign handle ?_
      simp [HandleTarget.spanIn, Logger.createSpan, SpanTree.create]
    · exact h.assign handle rfl

end Mirrors

/-! ### Steps without an event -/

/-- Neither the files have changed nor anything in a logger but its spans. -/
structure Quiet (s s' : Session) : Prop where
  files : s'.files = s.files
  loggers : ∀ i : Nat, s'.loggers[i]?.map Logger.bare = s.loggers[i]?.map Logger.bare

namespace Quiet

theorem refl (s : Session) : Quiet s s :=
  ⟨rfl, fun _ ↦ rfl⟩

theorem trans {s'' : Session} (h : Quiet s s') (h' : Quiet s' s'') : Quiet s s'' :=
  ⟨h'.files.trans h.files, fun i ↦ (h'.loggers i).trans (h.loggers i)⟩

theorem file?_eq (h : Quiet s s') (i : Nat) : s'.file? i = s.file? i := by
  have hfile : ∀ s : Session, s.file? i = (s.loggers[i]?.map Logger.bare).bind Logger.file := by
    intro s
    rw [Option.bind_map]
    rfl
  rw [hfile, hfile, h.loggers]

end Quiet

theorem quiet_through (s : Session) (handle : String) (act : Logger → SpanId → Logger)
    (hact : ∀ l id, (act l id).bare = Logger.bare l) : Quiet s (s.through handle act) := by
  refine ⟨s.files_through handle act, fun i ↦ ?_⟩
  rw [loggers_through, Option.map_map]
  refine congrArg (s.loggers[i]?.map ·) (funext fun l ↦ ?_)
  show Logger.bare ((s.spanOf i handle).elim l (act l)) = l.bare
  cases s.spanOf i handle with
  | none => rfl
  | some id => exact hact l id

theorem quiet_close (s : Session) (handle : String) : Quiet s (s.close handle) := by
  have hthrough := s.quiet_through handle Logger.release fun _ _ ↦ rfl
  exact ⟨hthrough.files, hthrough.loggers⟩

theorem quiet_assign (s : Session) (handle : String) (target : Option HandleTarget) :
    Quiet s (s.assign handle target) :=
  ⟨(s.quiet_close handle).files, (s.quiet_close handle).loggers⟩

theorem quiet_create (s : Session) (k : Nat) (handle : String) (data : Metadata)
    (fields : List Field)
    (around : Around) : Quiet s (s.create k handle data fields around) := by
  unfold create
  cases hl : s.loggers[k]? with
  | none => exact .refl s
  | some l =>
    dsimp only
    split_ifs with hadmits
    · have hmade : Quiet s
          { s with loggers := s.loggers.set k (l.createSpan (s.inside k around) fields).1 } := by
        refine ⟨rfl, fun i ↦ ?_⟩
        by_cases hi : k = i
        · subst hi
          rw [getElem?_set_of_some hl, hl]
          rfl
        · rw [List.getElem?_set_ne hi]
      exact hmade.trans (quiet_assign _ handle _)
    · exact s.quiet_assign handle none

/-! ### Log files that stand apart -/

theorem toFile_eq {t t' : FileTree} {record : String} {failed : Option LogFile.WriteError}
    (hf : l.file = some f) (hwrite : f.write t now.stamp record.toUTF8 = (t', g, failed)) :
    Logger.toFile t l now record =
      (t', { l with file := some g, failures := l.failures ++ failed.toList }) := by
  rw [Logger.toFile, hf]
  dsimp only
  rw [hwrite]

/-- What an event does to the files and to the log file of a logger: nothing, or one write. -/
theorem emit_file (l : Logger) (t : FileTree) (now : Moment) (e : Event) (inside : Inside) :
    (l.emit t now e inside).1 = t ∧ (l.emit t now e inside).2.file = l.file ∨
      ∃ f g bytes failed, l.file = some f ∧
        f.write t now.stamp bytes = ((l.emit t now e inside).1, g, failed) ∧
        (l.emit t now e inside).2.file = some g := by
  unfold Logger.emit
  split_ifs with hadmits
  · dsimp only
    set record := l.fileRecord now e (l.spans.scope (l.locate inside))
    cases hf : l.file with
    | none =>
      rw [Logger.toFile, show (l.toConsole _).file = none from hf]
      exact Or.inl ⟨rfl, hf⟩
    | some f =>
      rcases hwrite : f.write t now.stamp record.toUTF8 with ⟨t', g, failed⟩
      rw [toFile_eq (show (l.toConsole _).file = some f from hf) hwrite]
      exact Or.inr ⟨f, g, _, failed, rfl, hwrite, rfl⟩
  · exact Or.inl ⟨rfl, rfl⟩

/-- A moment whose timestamp is a reading of the clock. -/
def IsReading (now : Moment) : Prop :=
  ∃ reading : Timestamp, reading.IsReading ∧ now.stamp = reading.text

theorem IsReading.nextBackup (h : IsReading now) (f : LogFile) :
    (f.nextBackup now.stamp).IsDated := by
  obtain ⟨reading, hreading, hstamp⟩ := h
  rw [hstamp]
  exact LogFile.nextBackup_isDated hreading f

/-- No log file of a session stands at a place that another one owns. -/
def StandApart (s : Session) : Prop :=
  ∀ i j f g, i ≠ j → s.file? i = some f → s.file? j = some g → ¬ f.Owns g.place

/-- The log files of a session are in order and stand apart. -/
structure Orderly (s : Session) : Prop where
  inOrder : ∀ i f, s.file? i = some f → LogFile.InOrder s.files f
  apart : s.StandApart

/-- Nothing in a session of which the log files know has changed. -/
theorem Orderly.congr (h : Orderly s) (hfiles : s'.files = s.files)
    (hfile : ∀ i, s'.file? i = s.file? i) : Orderly s' := by
  refine ⟨fun i f hf ↦ ?_, fun i j f g hij hf hg ↦ ?_⟩
  · rw [hfiles]
    exact h.inOrder i f (hfile i ▸ hf)
  · exact h.apart i j f g hij (hfile i ▸ hf) (hfile j ▸ hg)

/-- One log file has been written to. -/
theorem Orderly.write (h : Orderly s) (hnow : IsReading now) (hf : s.file? k = some f)
    {bytes : ByteArray} {failed : Option LogFile.WriteError}
    (hwrite : f.write s.files now.stamp bytes = (s'.files, g, failed)) (hg : s'.file? k = some g)
    (hothers : ∀ i, i ≠ k → s'.file? i = s.file? i) :
    Orderly s' ∧ ∀ i f', i ≠ k → s.file? i = some f' → SameOn f'.Owns s.files s'.files := by
  obtain ⟨hinOrder, howns, hplace, hkeep, hsame⟩ :=
    (h.inOrder k f hf).write (hnow.nextBackup f) hwrite
  have hkept : ∀ i f', i ≠ k → s.file? i = some f' → ∀ q, f'.Owns q →
      s'.files.node? q = s.files.node? q := by
    intro i f' hi hf' q hq
    refine hsame q ?_
    exact LogFile.not_owns_of_owns (h.apart i k f' f hi hf' hf) (h.apart k i f f' hi.symm hf hf') hq
  have hbefore : ∀ i f', s'.file? i = some f' →
      ∃ f₀, s.file? i = some f₀ ∧ f'.Owns = f₀.Owns ∧ f'.place = f₀.place := by
    intro i f' hf'
    by_cases hi : i = k
    · obtain rfl : g = f' := Option.some.inj (hg.symm.trans (hi ▸ hf'))
      exact ⟨f, hi ▸ hf, howns, hplace⟩
    · exact ⟨f', hothers i hi ▸ hf', rfl, rfl⟩
  refine ⟨⟨fun i f' hf' ↦ ?_, fun i j f' g' hij hf' hg' ↦ ?_⟩, fun i f' hi hf' q hq ↦ ?_⟩
  · by_cases hi : i = k
    · obtain rfl : g = f' := Option.some.inj (hg.symm.trans (hi ▸ hf'))
      exact hinOrder
    · rw [hothers i hi] at hf'
      refine (h.inOrder i f' hf').of_node? hinOrder.wellFormed hkeep fun node hnode ↦ ?_
      rw [hkept i f' hi hf' _ f'.owns_place, hnode]
  · obtain ⟨f₀, hf₀, howns, -⟩ := hbefore i f' hf'
    obtain ⟨g₀, hg₀, -, hplace⟩ := hbefore j g' hg'
    rw [howns, hplace]
    exact h.apart i j f₀ g₀ hij hf₀ hg₀
  · rw [seen, seen, hkept i f' hi hf' q hq]

/-- The session after an event, if there is a logger. -/
theorem emit_eq (hl : s.loggers[k]? = some l) (now : Moment) (e : Event) (around : Around) :
    s.emit now k e around =
      { s with
        files := (l.emit s.files now e (s.inside k around)).1
        loggers := s.loggers.set k (l.emit s.files now e (s.inside k around)).2 } := by
  rw [emit, hl]

theorem emit_of_none (hl : s.loggers[k]? = none) (now : Moment) (e : Event) (around : Around) :
    s.emit now k e around = s := by
  rw [emit, hl]

/-- An event keeps the session orderly, and other loggers do not see what it does to the files. -/
theorem Orderly.emit (h : Orderly s) (hnow : IsReading now) (k : Nat) (e : Event)
    (around : Around) :
    Orderly (s.emit now k e around) ∧
      ∀ i, i ≠ k → Mirrors s i (s.emit now k e around) i := by
  cases hl : s.loggers[k]? with
  | none =>
    rw [emit_of_none hl]
    exact ⟨h, fun i _ ↦ .refl s i⟩
  | some l =>
    have hother : ∀ i, i ≠ k → (s.emit now k e around).loggers[i]? = s.loggers[i]? := by
      intro i hi
      rw [emit_eq hl]
      exact List.getElem?_set_ne hi.symm
    have hfiles : (s.emit now k e around).files = (l.emit s.files now e (s.inside k around)).1 := by
      rw [emit_eq hl]
    have hfile : (s.emit now k e around).file? k =
        (l.emit s.files now e (s.inside k around)).2.file := by
      rw [emit_eq hl, file?, getElem?_set_of_some hl]
      rfl
    have hhandles : ∀ i name, (s.emit now k e around).spanOf i name = s.spanOf i name := by
      intro i name
      rw [emit_eq hl]
      rfl
    have hothers : ∀ i, i ≠ k → (s.emit now k e around).file? i = s.file? i :=
      fun i hi ↦ by rw [file?, hother i hi, file?]
    have hbefore : s.file? k = l.file := by
      rw [file?, hl]
      rfl
    rcases emit_file l s.files now e (s.inside k around) with
      ⟨hsame, hsame'⟩ | ⟨f, g, bytes, failed, hf, hwrite, hg⟩
    · have hnone : ∀ i, (s.emit now k e around).file? i = s.file? i := by
        intro i
        by_cases hi : i = k
        · rw [hi, hfile, hsame', hbefore]
        · exact hothers i hi
      exact ⟨h.congr (hfiles.trans hsame) hnone,
        fun i hi ↦ .of_same (hother i hi) (hhandles i) (hfiles.trans hsame)⟩
    · rw [← hfiles] at hwrite
      obtain ⟨horderly, hkept⟩ :=
        h.write hnow (hbefore.trans hf) hwrite (hfile.trans hg) hothers
      exact ⟨horderly,
        fun i hi ↦ ⟨by rw [hother i hi], hhandles i, fun f' hf' ↦ hkept i f' hi hf'⟩⟩

section Alike

variable {file : Option LogFile} {t t' : FileTree}

/-- A record does the same to log files that cannot be told apart. -/
theorem toFile_alike (hfile : file.map LogFile.closed = l.file.map LogFile.closed)
    (hsame : ∀ f, l.file = some f → LogFile.InOrder t f ∧ SameOn f.Owns t t')
    (hinOrder : ∀ f, file = some f → LogFile.InOrder t' f)
    (hnow : IsReading now) (record : String) :
    (Logger.toFile t' { l with file := file } now record).2.closed =
        (Logger.toFile t l now record).2.closed ∧
      ∀ g, (Logger.toFile t l now record).2.file = some g →
        SameOn g.Owns (Logger.toFile t l now record).1
          (Logger.toFile t' { l with file := file } now record).1 := by
  cases hf : l.file with
  | none =>
    rw [hf, Option.map_none, Option.map_eq_none_iff] at hfile
    rw [hfile, Logger.toFile, Logger.toFile, hf]
    refine ⟨by rw [Logger.closed, Logger.closed, hf], fun g hg ↦ ?_⟩
    rw [hf] at hg
    exact absurd hg (by simp)
  | some f =>
    rw [hf, Option.map_some, Option.map_eq_some_iff] at hfile
    obtain ⟨f', hf', hclosed⟩ := hfile
    obtain ⟨hbefore, hplaces⟩ := hsame f hf
    rcases hwrite : f.write t now.stamp record.toUTF8 with ⟨u, g, failed⟩
    rcases hwrite' : f'.write t' now.stamp record.toUTF8 with ⟨u', g', failed'⟩
    obtain ⟨rfl, hclosed', hplaces'⟩ := hbefore.write_alike (hinOrder f' hf') hclosed hplaces
      (hnow.nextBackup f) hwrite hwrite'
    rw [toFile_eq hf hwrite, toFile_eq (l := { l with file := file }) hf' hwrite']
    refine ⟨?_, fun g₁ hg₁ ↦ ?_⟩
    · rw [Logger.closed, Logger.closed, Option.map_some, Option.map_some, hclosed']
    · obtain rfl := Option.some.inj hg₁
      exact hplaces'

/-- An event does the same to loggers that cannot be told apart. -/
theorem emit_alike (hfile : file.map LogFile.closed = l.file.map LogFile.closed)
    (hsame : ∀ f, l.file = some f → LogFile.InOrder t f ∧ SameOn f.Owns t t')
    (hinOrder : ∀ f, file = some f → LogFile.InOrder t' f)
    (hnow : IsReading now) (e : Event) (inside : Inside) :
    (Logger.emit t' { l with file := file } now e inside).2.closed =
        (l.emit t now e inside).2.closed ∧
      ∀ g, (l.emit t now e inside).2.file = some g →
        SameOn g.Owns (l.emit t now e inside).1
          (Logger.emit t' { l with file := file } now e inside).1 := by
  unfold Logger.emit
  split_ifs with hadmits
  · exact toFile_alike (l := l.toConsole _) hfile hsame hinOrder hnow _
  · exact ⟨by rw [Logger.closed, Logger.closed, hfile], fun f hf ↦ (hsame f hf).2⟩

end Alike

/-- An event that two loggers are handed which cannot be told apart. -/
theorem Mirrors.emit (h : Mirrors s i x j) (hs : Orderly s) (hx : Orderly x) (hnow : IsReading now)
    (e : Event) (around : Around) :
    Mirrors (s.emit now i e around) i (x.emit now j e around) j := by
  rcases h.loggers with ⟨hl, hl'⟩ | ⟨l, file, hl, hl', hfile⟩
  · rwa [emit_of_none hl, emit_of_none hl']
  · have hbefore : ∀ f, l.file = some f → s.file? i = some f := by
      intro f hf
      rw [file?, hl]
      exact hf
    have hbefore' : ∀ f, file = some f → x.file? j = some f := by
      intro f hf
      rw [file?, hl']
      exact hf
    obtain ⟨hlogger, hfiles⟩ := emit_alike hfile
      (fun f hf ↦ ⟨hs.inOrder i f (hbefore f hf), h.files f (hbefore f hf)⟩)
      (fun f hf ↦ hx.inOrder j f (hbefore' f hf)) hnow e (s.inside i around)
    rw [emit_eq hl, emit_eq hl', h.inside_eq]
    refine ⟨?_, h.handles, fun g hg ↦ ?_⟩
    · rw [getElem?_set_of_some hl, getElem?_set_of_some hl', Option.map_some, Option.map_some,
        hlogger]
    · rw [file?, getElem?_set_of_some hl] at hg
      exact hfiles g hg

/-! ### Steps -/

/-- The logger a step is addressed to: the one it names, or the one whose span its handle stands
for. -/
def addressee? (s : Session) : Step → Option Nat
  | .event logger _ _ => logger
  | .span logger _ _ _ _ _ => logger
  | .request logger _ _ => logger
  | .panic logger _ _ => logger
  | .enter handle => (s.target? handle).map HandleTarget.logger
  | .exit handle => (s.target? handle).map HandleTarget.logger
  | .record handle _ => (s.target? handle).map HandleTarget.logger
  | .close handle => (s.target? handle).map HandleTarget.logger

/-- The handle a step gives to a new span. -/
def Step.gives? : Step → Option String
  | .span _ handle _ _ _ _ => some handle
  | .request _ handle _ => some handle
  | _ => none

/-- A step leaves handles to the loggers whose spans they stand for: one that it gives to a new span
is free, or stands for a span of the same logger. -/
def Respects (s : Session) (step : Step) : Prop :=
  ∀ handle ∈ step.gives?, ∀ target ∈ s.target? handle, s.addressee? step = some target.logger

/-- If a step names a logger, it is this one. -/
def Step.Suits (i : Nat) : Step → Prop
  | .event logger _ _ => logger = some i
  | .span logger _ _ _ _ _ => logger = some i
  | .request logger _ _ => logger = some i
  | .panic logger _ _ => logger = some i
  | _ => True

/-- The step with a logger in the place of the one it names. -/
def Step.to (i : Nat) : Step → Step
  | .event logger e around => .event (logger.map fun _ ↦ i) e around
  | .span logger handle fields around level target =>
    .span (logger.map fun _ ↦ i) handle fields around level target
  | .request logger handle id => .request (logger.map fun _ ↦ i) handle id
  | .panic logger words site => .panic (logger.map fun _ ↦ i) words site
  | step => step

theorem suits_of_addressee? {step : Step} (h : s.addressee? step = some i) : step.Suits i := by
  cases step <;> first | exact h | trivial

theorem Step.Suits.to_eq {step : Step} (h : step.Suits i) : step.to i = step := by
  cases step with
  | event logger e around => rw [show logger = some i from h]; rfl
  | span logger handle fields around level target => rw [show logger = some i from h]; rfl
  | request logger handle id => rw [show logger = some i from h]; rfl
  | panic logger words site => rw [show logger = some i from h]; rfl
  | _ => rfl

/-- A step for loggers that cannot be told apart, each in its own session. -/
theorem Mirrors.step (h : Mirrors s i x j) (hs : Orderly s) (hx : Orderly x) (hnow : IsReading now)
    {step : Step} (hstep : step.Suits i) :
    Mirrors (s.step now step).1 i (x.step now (step.to j)).1 j := by
  cases step with
  | event logger e around =>
    obtain rfl : logger = some i := hstep
    exact h.emit hs hx hnow e around
  | span logger handle fields around level target =>
    obtain rfl : logger = some i := hstep
    exact h.create handle _ fields around
  | request logger handle id =>
    obtain rfl : logger = some i := hstep
    exact h.create handle _ _ .current
  | enter handle => exact h.through (fun _ ↦ Logger.leavesFile_of_spans fun _ _ _ ↦ rfl) handle
  | exit handle => exact h.through (fun _ ↦ Logger.leavesFile_of_spans fun _ _ _ ↦ rfl) handle
  | record handle fields =>
    refine h.through (fun id ↦ Logger.leavesFile_of_spans fun l file hfile ↦ ?_) handle
    rw [Logger.structuredSinks, Logger.structuredSinks, hfile]
  | close handle => exact h.close handle
  | panic logger words site =>
    obtain rfl : logger = some i := hstep
    exact h.emit hs hx hnow _ .current

theorem mirrors_through (h : s.spanOf i handle = none) (act : Logger → SpanId → Logger) :
    Mirrors s i (s.through handle act) i := by
  refine .of_same ?_ (fun _ ↦ s.spanOf_through i handle act) (s.files_through handle act)
  rw [loggers_through, h]
  exact Option.map_id'

theorem mirrors_close (h : s.spanOf i handle = none) : Mirrors s i (s.close handle) i := by
  refine .of_same ?_ (fun name ↦ ?_) (s.files_through handle Logger.release)
  · rw [loggers_close, h]
    exact Option.map_id'
  · rw [spanOf_close]
    split_ifs with hname
    · rw [hname, h]
    · rfl

theorem mirrors_assign (h : s.spanOf i handle = none) {target : Option HandleTarget}
    (htarget : ∀ t ∈ target, t.logger ≠ i) : Mirrors s i (s.assign handle target) i := by
  have hclose := mirrors_close h
  refine ⟨hclose.logger, fun name ↦ ?_, hclose.files⟩
  rw [spanOf_assign]
  split_ifs with hname
  · rw [hname, h]
    cases target with
    | none => rfl
    | some t => exact if_neg (htarget t rfl)
  · rfl

/-- A span is made in another logger. -/
theorem mirrors_create (h : s.spanOf i handle = none) (hk : k ≠ i) (data : Metadata)
    (fields : List Field) (around : Around) :
    Mirrors s i (s.create k handle data fields around) i := by
  unfold create
  cases hl : s.loggers[k]? with
  | none => exact .refl s i
  | some l =>
    dsimp only
    split_ifs with hadmits
    · have hmade : Mirrors s i
          { s with loggers := s.loggers.set k (l.createSpan (s.inside k around) fields).1 } i :=
        .of_same (List.getElem?_set_ne hk) (fun _ ↦ rfl) rfl
      have hspan : spanOf { s with
          loggers := s.loggers.set k (l.createSpan (s.inside k around) fields).1 } i handle =
          none := h
      exact hmade.trans (mirrors_assign hspan fun t ht ↦ Option.some.inj ht ▸ hk)
    · exact mirrors_assign h fun t ht ↦ absurd ht (Option.not_mem_none t)

/-- A step that is addressed to another logger, or to none. -/
theorem mirrors_step (hs : Orderly s) (hnow : IsReading now) {step : Step}
    (hstep : s.addressee? step ≠ some i) (hrespects : s.Respects step) :
    Mirrors s i (s.step now step).1 i := by
  have hspan : ∀ handle, (∀ target ∈ s.target? handle, target.logger ≠ i) →
      s.spanOf i handle = none := by
    intro handle htarget
    rw [spanOf]
    cases hlookup : s.target? handle with
    | none => rfl
    | some target => exact if_neg (htarget target hlookup)
  have hgiven : ∀ handle ∈ step.gives?, s.spanOf i handle = none :=
    fun handle hhandle ↦ hspan handle fun target htarget hlogger ↦
      hstep (hlogger ▸ hrespects handle hhandle target htarget)
  have hother : ∀ handle, (s.target? handle).map HandleTarget.logger ≠ some i →
      s.spanOf i handle = none := by
    intro handle hne
    refine hspan handle fun target htarget hlogger ↦ hne ?_
    rw [Option.mem_def.mp htarget, Option.map_some, hlogger]
  cases step with
  | event logger e around =>
    cases logger with
    | none => exact .refl s i
    | some k => exact (hs.emit hnow k e around).2 i fun hi ↦ hstep (congrArg some hi.symm)
  | span logger handle fields around level target =>
    cases logger with
    | none => exact mirrors_assign (hgiven handle rfl) fun t ht ↦ absurd ht (Option.not_mem_none t)
    | some k =>
      exact mirrors_create (hgiven handle rfl) (fun hi ↦ hstep (congrArg some hi)) _ fields around
  | request logger handle id =>
    cases logger with
    | none => exact mirrors_assign (hgiven handle rfl) fun t ht ↦ absurd ht (Option.not_mem_none t)
    | some k =>
      exact mirrors_create (hgiven handle rfl) (fun hi ↦ hstep (congrArg some hi)) _ _ .current
  | enter handle => exact mirrors_through (hother handle hstep) _
  | exit handle => exact mirrors_through (hother handle hstep) _
  | record handle fields => exact mirrors_through (hother handle hstep) _
  | close handle => exact mirrors_close (hother handle hstep)
  | panic logger words site =>
    cases logger with
    | none => exact .refl s i
    | some k => exact (hs.emit hnow k _ .current).2 i fun hi ↦ hstep (congrArg some hi.symm)

/-- A step that is addressed to no logger changes neither the files nor any logger. -/
theorem step_of_nobody {step : Step} (hrespects : s.Respects step)
    (hstep : s.addressee? step = none) (now : Moment) :
    (s.step now step).1.files = s.files ∧ (s.step now step).1.loggers = s.loggers := by
  have hthrough : ∀ handle act, s.target? handle = none →
      (s.through handle act).files = s.files ∧ (s.through handle act).loggers = s.loggers := by
    intro handle act htarget
    rw [Session.through, htarget]
    exact ⟨rfl, rfl⟩
  have hgiven : ∀ handle ∈ step.gives?, s.target? handle = none := by
    intro handle hhandle
    refine Option.eq_none_iff_forall_not_mem.mpr fun target htarget ↦ ?_
    exact absurd (hstep.symm.trans (hrespects handle hhandle target htarget)) (by simp)
  have hclose : ∀ handle, s.target? handle = none →
      (s.close handle).files = s.files ∧ (s.close handle).loggers = s.loggers :=
    fun handle htarget ↦ hthrough handle Logger.release htarget
  cases step with
  | event logger e around =>
    obtain rfl : logger = none := hstep
    exact ⟨rfl, rfl⟩
  | panic logger words site =>
    obtain rfl : logger = none := hstep
    exact ⟨rfl, rfl⟩
  | span logger handle fields around level target =>
    obtain rfl : logger = none := hstep
    exact hclose handle (hgiven handle rfl)
  | request logger handle id =>
    obtain rfl : logger = none := hstep
    exact hclose handle (hgiven handle rfl)
  | enter handle => exact hthrough handle Logger.enter (Option.map_eq_none_iff.mp hstep)
  | exit handle => exact hthrough handle Logger.exit (Option.map_eq_none_iff.mp hstep)
  | record handle fields =>
    exact hthrough handle (·.recordOn · fields) (Option.map_eq_none_iff.mp hstep)
  | close handle => exact hclose handle (Option.map_eq_none_iff.mp hstep)

/-- A step that hands no logger an event changes neither the files nor anything in a logger but its
spans. -/
theorem quiet_step (s : Session) {step : Step} (hstep : ∀ k, step.event? k = none) (now : Moment) :
    Quiet s (s.step now step).1 := by
  cases step with
  | event logger e around =>
    cases logger with
    | none => exact .refl s
    | some k => exact absurd (hstep k) (by simp [Step.event?])
  | panic logger words site =>
    cases logger with
    | none => exact .refl s
    | some k => exact absurd (hstep k) (by simp [Step.event?])
  | span logger handle fields around level target =>
    cases logger with
    | none => exact s.quiet_assign handle none
    | some k => exact s.quiet_create k handle _ fields around
  | request logger handle id =>
    cases logger with
    | none => exact s.quiet_assign handle none
    | some k => exact s.quiet_create k handle _ _ .current
  | enter handle => exact s.quiet_through handle Logger.enter fun _ _ ↦ rfl
  | exit handle => exact s.quiet_through handle Logger.exit fun _ _ ↦ rfl
  | record handle fields => exact s.quiet_through handle (·.recordOn · fields) fun _ _ ↦ rfl
  | close handle => exact s.quiet_close handle

/-- Every step keeps the session orderly. -/
theorem Orderly.step (hs : Orderly s) (hnow : IsReading now) (step : Step) :
    Orderly (s.step now step).1 := by
  by_cases hquiet : ∀ k, step.event? k = none
  · have hsame := s.quiet_step hquiet now
    exact hs.congr hsame.files hsame.file?_eq
  · obtain ⟨k, hk⟩ := not_forall.mp hquiet
    obtain ⟨⟨e, around⟩, hevent⟩ := Option.ne_none_iff_exists'.mp hk
    rw [step_of_event? hevent]
    exact (hs.emit hnow k e around).1

end Session
end Logbook
