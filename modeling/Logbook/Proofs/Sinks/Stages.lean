import Logbook.Session
import Mathlib.Tactic

/-!
# Stages of a session

What the steps of a program do to the spans of one logger and to the handles. These two make up a
stage (`Stage`), and what a step makes of it (`Stage.after`) depends on nothing else but the number
of structured sinks: not on the clock, the files, the minimum severity or what was written before
(`session_step`). A span is made whatever its level is, because the logger admits every span.

A relation between spans that every change keeps is kept by steps, for two stages side by side
(`Alike.after`). A property of single spans is a relation of a stage to itself (`keeps_of_forall`).
-/

set_option autoImplicit false
set_option relaxedAutoImplicit false

namespace Logbook

namespace Session

/-- The event a step hands to a logger, and the span it is said to lie in. -/
def Step.event? (logger : Nat) : Step → Option (Event × Around)
  | .event addressee e around => if addressee = some logger then some (e, around) else none
  | .panic addressee words site =>
    if addressee = some logger then some (words.panicEvent site, .current) else none
  | _ => none

/-- The spans of a logger and the handles of a session. -/
structure Stage where
  spans : SpanTree
  handles : List (String × Option HandleTarget)

namespace Stage

/-- The session of one logger at a stage. -/
def session (stage : Stage) (files : FileTree) (l : Logger) : Session :=
  ⟨files, [{ l with spans := stage.spans }], stage.handles⟩

/-- The stage a logger starts at. -/
def initial : Stage := ⟨.empty, []⟩

/-- The span of the logger that a handle stands for. -/
def span? (stage : Stage) (handle : String) : Option SpanId :=
  match (stage.handles.lookup handle).join with
  | some target => if target.logger = 0 then some target.span else none
  | none => none

/-- The span something is said to lie in, at a stage. -/
def locate (stage : Stage) : Around → Option SpanId
  | .current => stage.spans.current?
  | .nothing => none
  | .handle name => stage.span? name

/-! ### What steps make of a stage -/

/-- Changes the span a handle stands for. -/
def through (stage : Stage) (handle : String) (change : SpanTree → SpanId → SpanTree) : Stage :=
  match stage.span? handle with
  | some id => { stage with spans := change stage.spans id }
  | none => stage

/-- Lets go of a handle. -/
def close (stage : Stage) (handle : String) : Stage :=
  ⟨(stage.through handle SpanTree.release).spans, stage.handles.filter fun p ↦ p.1 ≠ handle⟩

/-- Gives a handle to a span. -/
def assign (stage : Stage) (handle : String) (target : Option HandleTarget) : Stage :=
  ⟨(stage.close handle).spans, (handle, target) :: (stage.close handle).handles⟩

/-- Makes a span under a handle. -/
def create (stage : Stage) (handle : String) (fields : List Field) (around : Around) : Stage :=
  assign ⟨(stage.spans.create (stage.locate around) fields).1, stage.handles⟩ handle
    (some ⟨0, stage.spans.spans.length⟩)

/-- What a step makes of a stage, for a logger with a number of structured sinks. -/
def after (sinks : Nat) (stage : Stage) : Step → Stage
  | .event _ _ _ => stage
  | .panic _ _ _ => stage
  | .span none handle _ _ _ _ => stage.assign handle none
  | .span (some 0) handle fields around _ _ => stage.create handle fields around
  | .span (some (_ + 1)) _ _ _ _ _ => stage
  | .request none handle _ => stage.assign handle none
  | .request (some 0) handle id => stage.create handle [Logger.requestField id] .current
  | .request (some (_ + 1)) _ _ => stage
  | .enter handle => stage.through handle SpanTree.enter
  | .exit handle => stage.through handle SpanTree.exit
  | .record handle fields => stage.through handle fun t id ↦ t.record id sinks fields
  | .close handle => stage.close handle

/-- The stage after several steps. -/
def afterAll (sinks : Nat) (stage : Stage) (steps : List (Moment × Step)) : Stage :=
  steps.foldl (fun stage p ↦ stage.after sinks p.2) stage

variable {stage : Stage} {files : FileTree} {l : Logger}

theorem inside_session (around : Around) :
    Logger.locate { l with spans := stage.spans } ((stage.session files l).inside 0 around) =
      stage.locate around := by
  cases around with
  | current => rfl
  | nothing => rfl
  | handle name =>
    have htarget : (stage.session files l).target? name = (stage.handles.lookup name).join := rfl
    rw [inside, locate, span?, htarget]
    cases (stage.handles.lookup name).join with
    | none => rfl
    | some target =>
      dsimp only
      split_ifs <;> rfl

theorem session_through {act : Logger → SpanId → Logger} {change : SpanTree → SpanId → SpanTree}
    (h : ∀ spans id, act { l with spans := spans } id = { l with spans := change spans id })
    (handle : String) :
    (stage.session files l).through handle act = (stage.through handle change).session files l := by
  have htarget : (stage.session files l).target? handle = (stage.handles.lookup handle).join := rfl
  rw [Session.through, Stage.through, htarget, span?]
  cases (stage.handles.lookup handle).join with
  | none => rfl
  | some target =>
    dsimp only
    by_cases hlogger : target.logger = 0
    · rw [if_pos hlogger, onTarget, hlogger]
      show (⟨files, [act { l with spans := stage.spans } target.span], stage.handles⟩ : Session) = _
      rw [h]
      rfl
    · obtain ⟨n, hn⟩ := Nat.exists_eq_succ_of_ne_zero hlogger
      rw [if_neg hlogger]
      simp only [onTarget, hn, session, Nat.succ_eq_add_one, List.modify_succ_cons, List.modify_nil]

theorem session_close (handle : String) :
    (stage.session files l).close handle = (stage.close handle).session files l := by
  have hrelease : ∀ spans id, Logger.release { l with spans := spans } id =
      { l with spans := SpanTree.release spans id } := fun _ _ ↦ rfl
  rw [Session.close, session_through hrelease]
  rfl

theorem session_assign (handle : String) (target : Option HandleTarget) :
    (stage.session files l).assign handle target =
      (stage.assign handle target).session files l := by
  rw [Session.assign, session_close]
  rfl

/-- Whatever is known of a span, it is made. -/
theorem session_create {data : Metadata} (hdata : data.isSpan = true) (handle : String)
    (fields : List Field) (around : Around) :
    (stage.session files l).create 0 handle data fields around =
      (stage.create handle fields around).session files l := by
  have hlogger : (stage.session files l).loggers[0]? = some { l with spans := stage.spans } := rfl
  have hadmits : l.settings.level.admits data = true := by
    rw [Severity.admits, hdata, Bool.true_or]
  rw [Session.create, hlogger]
  dsimp only
  rw [if_pos hadmits]
  simp only [Logger.createSpan, inside_session]
  rw [create, ← session_assign]
  rfl

/-- A step that hands the logger no event turns the stage into the next one, at any moment and
whatever the files hold. -/
theorem session_step {step : Step} (h : step.event? 0 = none) (now : Moment) :
    ((stage.session files l).step now step).1 =
      (stage.after l.structuredSinks step).session files l := by
  cases step with
  | event addressee e around =>
    match addressee, h with
    | none, _ => rfl
    | some (n + 1), _ => rfl
  | panic addressee words site =>
    match addressee, h with
    | none, _ => rfl
    | some (n + 1), _ => rfl
  | span addressee handle fields around level target =>
    match addressee with
    | none => exact session_assign handle none
    | some 0 =>
      have hspan : (Metadata.mk level target true).isSpan = true := rfl
      exact session_create hspan handle fields around
    | some (n + 1) => rfl
  | request addressee handle id =>
    match addressee with
    | none => exact session_assign handle none
    | some 0 =>
      have hspan : Logger.requestData.isSpan = true := rfl
      exact session_create hspan handle [Logger.requestField id] .current
    | some (n + 1) => rfl
  | enter handle => exact session_through (fun _ _ ↦ rfl) handle
  | exit handle => exact session_through (fun _ _ ↦ rfl) handle
  | record handle fields => exact session_through (fun _ _ ↦ rfl) handle
  | close handle => exact session_close handle

end Stage

end Session

/-! ### Spans one by one -/

namespace Span

/-- A span that has just been made. -/
def made (parent : Option SpanId) (fields : List Field) : Span where
  parent := parent
  names := fields.map Field.name
  held := true
  fields := SpanFields.ofFields fields
  text := Console.pairsText fields

/-- A span whose handle has been let go. -/
def released (s : Span) : Span :=
  { s with held := false }

/-- A span after a recording has visited fields, once for every structured sink. -/
def recorded (s : Span) (sinks : Nat) (fields : List Field) : Span :=
  { s with
    fields := (List.range sinks).foldl (fun (kept : SpanFields) _ ↦ kept.record fields) s.fields
    text := Console.recordText s.text fields }

end Span

namespace SpanTree

theorem create_eq (t : SpanTree) (parent : Option SpanId) (fields : List Field) :
    t.create parent fields =
      (⟨t.spans ++ [Span.made parent fields], t.stack⟩, t.spans.length) :=
  rfl

theorem release_eq (t : SpanTree) (id : SpanId) :
    t.release id = ⟨t.spans.modify id Span.released, t.stack⟩ :=
  rfl

theorem record_eq (t : SpanTree) (id : SpanId) (sinks : Nat) (fields : List Field) :
    t.record id sinks fields =
      ⟨t.spans.modify id fun s ↦ s.recorded sinks (visited s.names fields), t.stack⟩ :=
  rfl

/-- The way up depends on the parents alone. -/
theorem upward_congr {spans spans' : List Span}
    (h : spans'.map Span.parent = spans.map Span.parent) (fuel : Nat) (id : SpanId) :
    upward spans' fuel id = upward spans fuel id := by
  induction fuel generalizing id with
  | zero => rfl
  | succ fuel ih =>
    have hparent : (spans'[id]?).map Span.parent = (spans[id]?).map Span.parent := by
      rw [← List.getElem?_map, ← List.getElem?_map, h]
    rw [upward, upward]
    cases hspan : spans[id]? with
    | none =>
      rw [hspan, Option.map_none, Option.map_eq_none_iff] at hparent
      rw [hparent]
    | some s =>
      rw [hspan, Option.map_some, Option.map_eq_some_iff] at hparent
      obtain ⟨s', hspan', hparent⟩ := hparent
      rw [hspan']
      dsimp only
      rw [hparent]
      cases s.parent with
      | none => rfl
      | some parent => exact congrArg (id :: ·) (ih parent)

variable {t t' : SpanTree}

/-- Which span is current depends on the stack, the parents and the handles that are held. -/
theorem current?_congr (hparent : t'.spans.map Span.parent = t.spans.map Span.parent)
    (hheld : t'.spans.map Span.held = t.spans.map Span.held) (hstack : t'.stack = t.stack) :
    t'.current? = t.current? := by
  have hlength : t'.spans.length = t.spans.length := by
    simpa using congrArg List.length hparent
  have halive : ∀ id, t'.isAlive id = t.isAlive id := by
    intro id
    simp only [isAlive, hlength, upward_congr hparent, ← List.getElem?_map, hheld]
  rw [current?, current?, hstack]
  simp only [halive]

theorem lineage_congr (hparent : t'.spans.map Span.parent = t.spans.map Span.parent)
    (id : SpanId) : t'.lineage id = t.lineage id := by
  have hlength : t'.spans.length = t.spans.length := by
    simpa using congrArg List.length hparent
  rw [lineage, lineage, hlength, upward_congr hparent]

end SpanTree

/-! ### Two stages side by side -/

section Lists

variable {α β : Type} {R : α → β → Prop} {as : List α} {bs : List β}

theorem rel_getElem? (h : List.Forall₂ R as bs) (i : Nat) : Option.Rel R as[i]? bs[i]? := by
  induction h generalizing i with
  | nil => exact Option.Rel.none
  | cons hab _ ih =>
    cases i with
    | zero => exact Option.Rel.some hab
    | succ i => exact ih i

theorem forall₂_modify (h : List.Forall₂ R as bs) (i : Nat) {f : α → α} {g : β → β}
    (hfg : ∀ a b, as[i]? = some a → R a b → R (f a) (g b)) :
    List.Forall₂ R (as.modify i f) (bs.modify i g) := by
  induction h generalizing i with
  | nil => simp
  | cons hab hrest ih =>
    cases i with
    | zero => exact List.Forall₂.cons (hfg _ _ rfl hab) hrest
    | succ i => exact List.Forall₂.cons hab (ih i fun a b ha ↦ hfg a b ha)

theorem forall₂_filterMap_getElem? (h : List.Forall₂ R as bs) (ids : List Nat) :
    List.Forall₂ R (ids.filterMap (as[·]?)) (ids.filterMap (bs[·]?)) := by
  have hids : List.Forall₂ Eq ids ids := List.forall₂_same.mpr fun _ _ ↦ rfl
  refine List.rel_filterMap (fun i j hij ↦ ?_) hids
  rw [← hij]
  exact rel_getElem? h i

end Lists

namespace Session

/-- The fields a step gives to a span. -/
def Step.spanFields : Step → List Field
  | .span _ _ fields _ _ _ => fields
  | .request _ _ id => [Logger.requestField id]
  | .record _ fields => fields
  | _ => []

theorem mem_of_mem_visited {names : List String} {fields : List Field} {f : Field}
    (h : f ∈ SpanTree.visited names fields) : f ∈ fields := by
  obtain ⟨name, -, hf⟩ := List.mem_filterMap.mp h
  exact List.mem_of_find?_eq_some hf

/-- A relation between the spans of two loggers that holds for new spans and stays under every
change to both, if the fields that are given satisfy a condition. -/
structure Keeps (sinks sinks' : Nat) (ok : Field → Prop) (R : Span → Span → Prop) : Prop where
  parent : ∀ {s s'}, R s s' → s'.parent = s.parent
  held : ∀ {s s'}, R s s' → s'.held = s.held
  names : ∀ {s s'}, R s s' → s'.names = s.names
  made : ∀ parent {fields}, (∀ f ∈ fields, ok f) → R (.made parent fields) (.made parent fields)
  released : ∀ {s s'}, R s s' → R s.released s'.released
  recorded : ∀ {s s'}, R s s' → ∀ {fields}, (∀ f ∈ fields, ok f) →
    R (s.recorded sinks fields) (s'.recorded sinks' fields)

/-- A property of single spans that holds of new ones and stays under every change. -/
theorem keeps_of_forall {sinks : Nat} {ok : Field → Prop} {Q : Span → Prop}
    (made : ∀ parent {fields}, (∀ f ∈ fields, ok f) → Q (.made parent fields))
    (released : ∀ {s}, Q s → Q s.released)
    (recorded : ∀ {s}, Q s → ∀ {fields}, (∀ f ∈ fields, ok f) → Q (s.recorded sinks fields)) :
    Keeps sinks sinks ok fun s s' ↦ s' = s ∧ Q s where
  parent := by rintro s _ ⟨rfl, -⟩; rfl
  held := by rintro s _ ⟨rfl, -⟩; rfl
  names := by rintro s _ ⟨rfl, -⟩; rfl
  made := fun parent _ hfields ↦ ⟨rfl, made parent hfields⟩
  released := by
    rintro s _ ⟨rfl, hs⟩
    exact ⟨rfl, released hs⟩
  recorded := by
    rintro s _ ⟨rfl, hs⟩ fields hfields
    exact ⟨rfl, recorded hs hfields⟩

/-- Spans stay equal, for one number of sinks. -/
theorem keeps_eq (sinks : Nat) : Keeps sinks sinks (fun _ ↦ True) Eq where
  parent := by rintro s _ rfl; rfl
  held := by rintro s _ rfl; rfl
  names := by rintro s _ rfl; rfl
  made := fun _ _ _ ↦ rfl
  released := by rintro s _ rfl; rfl
  recorded := by rintro s _ rfl _ _; rfl

/-- Two stages have the same handles and the same spans entered, and their spans are related one by
one. -/
structure Alike (R : Span → Span → Prop) (stage stage' : Stage) : Prop where
  spans : List.Forall₂ R stage.spans.spans stage'.spans.spans
  stack : stage'.spans.stack = stage.spans.stack
  handles : stage'.handles = stage.handles

namespace Alike

variable {sinks sinks' : Nat} {ok : Field → Prop} {R : Span → Span → Prop} {stage stage' : Stage}

theorem initial (R : Span → Span → Prop) : Alike R .initial .initial :=
  ⟨List.Forall₂.nil, rfl, rfl⟩

theorem refl (stage : Stage) : Alike Eq stage stage :=
  ⟨List.forall₂_same.mpr fun _ _ ↦ rfl, rfl, rfl⟩

/-- A property that all spans of a stage have, as a relation of the stage to itself. -/
theorem of_forall {Q : Span → Prop} (h : ∀ s ∈ stage.spans.spans, Q s) :
    Alike (fun s s' ↦ s' = s ∧ Q s) stage stage :=
  ⟨List.forall₂_same.mpr fun s hs ↦ ⟨rfl, h s hs⟩, rfl, rfl⟩

theorem map_eq (h : Alike R stage stage') {α : Type} {view : Span → α}
    (hview : ∀ {s s'}, R s s' → view s' = view s) :
    stage'.spans.spans.map view = stage.spans.spans.map view := by
  have hspans := h.spans
  generalize stage.spans.spans = spans at hspans
  generalize stage'.spans.spans = spans' at hspans
  induction hspans with
  | nil => rfl
  | cons hs _ ih => rw [List.map_cons, List.map_cons, hview hs, ih]

theorem span?_eq (h : Alike R stage stage') (handle : String) :
    stage'.span? handle = stage.span? handle := by
  rw [Stage.span?, Stage.span?, h.handles]

theorem locate_eq (hR : Keeps sinks sinks' ok R) (h : Alike R stage stage') (around : Around) :
    stage'.locate around = stage.locate around := by
  cases around with
  | current => exact SpanTree.current?_congr (h.map_eq hR.parent) (h.map_eq hR.held) h.stack
  | nothing => rfl
  | handle name => exact h.span?_eq name

/-- The spans around an event are related. -/
theorem scope (hR : Keeps sinks sinks' ok R) (h : Alike R stage stage') (around : Around) :
    List.Forall₂ R (stage.spans.scope (stage.locate around))
      (stage'.spans.scope (stage'.locate around)) := by
  rw [h.locate_eq hR]
  cases stage.locate around with
  | none => exact List.Forall₂.nil
  | some id =>
    rw [SpanTree.scope, SpanTree.scope, SpanTree.lineage_congr (h.map_eq hR.parent)]
    exact forall₂_filterMap_getElem? h.spans _

theorem through (h : Alike R stage stage') (change change' : SpanTree → SpanId → SpanTree)
    (hspans : ∀ id, List.Forall₂ R (change stage.spans id).spans (change' stage'.spans id).spans)
    (hstack : ∀ id, (change' stage'.spans id).stack = (change stage.spans id).stack)
    (handle : String) : Alike R (stage.through handle change) (stage'.through handle change') := by
  rw [Stage.through, Stage.through, h.span?_eq]
  cases stage.span? handle with
  | none => exact h
  | some id => exact ⟨hspans id, hstack id, h.handles⟩

theorem close (hR : Keeps sinks sinks' ok R) (h : Alike R stage stage') (handle : String) :
    Alike R (stage.close handle) (stage'.close handle) := by
  have hthrough : Alike R (stage.through handle SpanTree.release)
      (stage'.through handle SpanTree.release) :=
    h.through _ _ (fun id ↦ forall₂_modify h.spans id fun _ _ _ hs ↦ hR.released hs)
      (fun _ ↦ h.stack) handle
  refine ⟨hthrough.spans, hthrough.stack, ?_⟩
  rw [Stage.close, Stage.close, h.handles]

theorem assign (hR : Keeps sinks sinks' ok R) (h : Alike R stage stage') (handle : String)
    (target : Option HandleTarget) :
    Alike R (stage.assign handle target) (stage'.assign handle target) := by
  have hclose := h.close hR handle
  refine ⟨hclose.spans, hclose.stack, ?_⟩
  rw [Stage.assign, Stage.assign, hclose.handles]

theorem create (hR : Keeps sinks sinks' ok R) (h : Alike R stage stage') (handle : String)
    {fields : List Field} (hfields : ∀ f ∈ fields, ok f) (around : Around) :
    Alike R (stage.create handle fields around) (stage'.create handle fields around) := by
  have hlength : stage'.spans.spans.length = stage.spans.spans.length := h.spans.length_eq.symm
  rw [Stage.create, Stage.create, h.locate_eq hR, hlength]
  have hmade : Alike R ⟨(stage.spans.create (stage.locate around) fields).1, stage.handles⟩
      ⟨(stage'.spans.create (stage.locate around) fields).1, stage'.handles⟩ :=
    ⟨List.rel_append h.spans (List.Forall₂.cons (hR.made _ hfields) List.Forall₂.nil), h.stack,
      h.handles⟩
  exact hmade.assign hR handle _

/-- What is kept by every change of a span is kept by every step. -/
theorem after (hR : Keeps sinks sinks' ok R) (h : Alike R stage stage') {step : Step}
    (hstep : ∀ f ∈ step.spanFields, ok f) :
    Alike R (stage.after sinks step) (stage'.after sinks' step) := by
  cases step with
  | event _ _ _ => exact h
  | panic _ _ _ => exact h
  | span addressee handle fields around level target =>
    match addressee with
    | none => exact h.assign hR handle none
    | some 0 => exact h.create hR handle hstep around
    | some (n + 1) => exact h
  | request addressee handle id =>
    match addressee with
    | none => exact h.assign hR handle none
    | some 0 => exact h.create hR handle hstep .current
    | some (n + 1) => exact h
  | enter handle =>
    refine h.through SpanTree.enter SpanTree.enter (fun _ ↦ h.spans) (fun id ↦ ?_) handle
    rw [SpanTree.enter, SpanTree.enter, h.stack]
  | exit handle =>
    refine h.through SpanTree.exit SpanTree.exit (fun _ ↦ h.spans) (fun id ↦ ?_) handle
    rw [SpanTree.exit, SpanTree.exit, h.stack]
  | record handle fields =>
    have hspans : ∀ id, List.Forall₂ R (stage.spans.record id sinks fields).spans
        (stage'.spans.record id sinks' fields).spans := by
      intro id
      rw [SpanTree.record_eq, SpanTree.record_eq]
      refine forall₂_modify h.spans id fun s s' _ hs ↦ ?_
      show R (s.recorded sinks (SpanTree.visited s.names fields))
        (s'.recorded sinks' (SpanTree.visited s'.names fields))
      rw [hR.names hs]
      exact hR.recorded hs fun f hf ↦ hstep f (mem_of_mem_visited hf)
    exact h.through (fun t id ↦ t.record id sinks fields) (fun t id ↦ t.record id sinks' fields)
      hspans (fun _ ↦ h.stack) handle
  | close handle => exact h.close hR handle

theorem afterAll (hR : Keeps sinks sinks' ok R) (h : Alike R stage stage')
    {steps : List (Moment × Step)} (hsteps : ∀ p ∈ steps, ∀ f ∈ p.2.spanFields, ok f) :
    Alike R (stage.afterAll sinks steps) (stage'.afterAll sinks' steps) := by
  induction steps generalizing stage stage' with
  | nil => exact h
  | cons p rest ih =>
    rw [List.forall_mem_cons] at hsteps
    exact ih (h.after hR hsteps.1) hsteps.2

end Alike

end Session

end Logbook
