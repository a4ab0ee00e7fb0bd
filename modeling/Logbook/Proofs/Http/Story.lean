import Logbook.Http.Service
import Logbook.Proofs.Sinks.Attachment

/-!
# The story of a request

A request hands its logger up to five events (`story`): what is seen of it from outside, inside its
outer span, and what its handler says, inside the inner span too. Around both are the spans that
were around the request. What the logger admits of this story goes to every sink (`went_of_serve`).

A request makes two spans and lets go of both. They are younger than all other spans and nothing is
entered, so behind the request everything that is said without a span lies where it would have lain
before it (`within_spansAfter`).
-/

set_option autoImplicit false
set_option relaxedAutoImplicit false

namespace Logbook

namespace SpanTree

variable {t : SpanTree}

theorem AllStored.create (h : t.AllStored) (parent : Option SpanId) (fields : List Field) :
    (t.create parent fields).1.AllStored := by
  intro span hspan
  rcases List.mem_append.mp hspan with hold | hnew
  · exact h span hold
  · rw [List.mem_singleton.mp hnew]
    exact SpanFields.stored_ofFields fields

theorem AllStored.release (h : t.AllStored) (id : SpanId) : (t.release id).AllStored := by
  intro span hspan
  obtain ⟨i, hi⟩ := List.mem_iff_getElem?.mp hspan
  rw [release_eq, List.getElem?_modify, Option.map_eq_map, Option.map_eq_some_iff] at hi
  obtain ⟨old, hold, rfl⟩ := hi
  have hstored := h old (List.mem_of_getElem? hold)
  split_ifs <;> exact hstored

end SpanTree

namespace Http

open SpanTree Session

/-- The identifier in the records of a request: that of its response, if it can be read. -/
def recordId (a : Arrival) : String :=
  (identify a.occasion a.request).text?.getD unreadableId

/-! ### The spans of a request -/

section Spans

variable (spans : SpanTree) (a : Arrival)

/-- The outer span of a request. -/
def outerSpan : Span :=
  .made spans.current? (requestFields a.request)

/-- The inner span of a request. -/
def innerSpan : Span :=
  .made (some spans.spans.length) [Logger.requestField (recordId a)]

/-- The spans of a logger inside a request, before it says anything. -/
def spansOutside : SpanTree :=
  (spans.create spans.current? (requestFields a.request)).1

/-- The spans of a logger inside the handler of a request. -/
def spansInside : SpanTree :=
  ((spansOutside spans a).create (some spans.spans.length)
    [Logger.requestField (recordId a)]).1

/-- The spans of a logger when the handler of a request has ended. -/
def spansBehind : SpanTree :=
  (spansInside spans a).release (spansOutside spans a).spans.length

/-- The spans of a logger behind a request. -/
def spansAfter : SpanTree :=
  (spansBehind spans a).release spans.spans.length

/-- The spans around what is seen of a request from outside. -/
def outside : List Span :=
  spans.scope spans.current? ++ [outerSpan spans a]

/-- The spans around what the handler of a request says. -/
def inside : List Span :=
  outside spans a ++ [innerSpan spans a]

/-- What a request hands its logger once its handler has said that it was handled. -/
def afterwards : List Handed :=
  (if isRouted a.request && a.request.method == "CONNECT" then
    [⟨bodyDropped a.occasion, inside spans a⟩] else []) ++
  [⟨finished a.occasion (respond a.occasion a.request).status, outside spans a⟩] ++
  (if a.request.method ≠ "HEAD" then [⟨ended a.occasion, outside spans a⟩] else [])

/-- What a request hands its logger, with the spans around each event. -/
def story : List Handed :=
  [⟨started a.occasion, outside spans a⟩] ++
    (if isRouted a.request then [⟨handled a.occasion a.request, inside spans a⟩] else []) ++
    afterwards spans a

end Spans

theorem length_lt_spansOutside (spans : SpanTree) (a : Arrival) :
    spans.spans.length < (spansOutside spans a).spans.length := by
  simp [spansOutside, create_eq]

theorem allStored_spansAfter {spans : SpanTree} (h : spans.AllStored) (a : Arrival) :
    (spansAfter spans a).AllStored :=
  (((h.create _ _).create _ _).release _).release _

section Scopes

variable {spans : SpanTree} (h : Grounded ⟨spans, []⟩) (a : Arrival)
include h

theorem current?_lt {id : SpanId} (hid : spans.current? = some id) : id < spans.spans.length := by
  have hlocate : Stage.locate ⟨spans, []⟩ .current = some id := hid
  exact h.locate_lt hlocate

theorem rooted_spansOutside : Rooted (spansOutside spans a).spans :=
  h.rooted.concat fun _ hparent ↦ current?_lt h hparent

theorem rooted_spansInside : Rooted (spansInside spans a).spans := by
  refine (rooted_spansOutside h a).concat fun parent hparent ↦ ?_
  obtain rfl : spans.spans.length = parent := Option.some.inj hparent
  exact length_lt_spansOutside spans a

theorem rooted_spansBehind : Rooted (spansBehind spans a).spans :=
  (rooted_spansInside h a).modify _ fun _ ↦ rfl

theorem scope_spansOutside :
    (spansOutside spans a).scope (some spans.spans.length) = outside spans a :=
  h.rooted.scope_create (fun _ hid ↦ current?_lt h hid) _

theorem scope_spansInside :
    (spansInside spans a).scope (some (spansOutside spans a).spans.length) = inside spans a := by
  rw [inside, ← scope_spansOutside h a]
  refine (rooted_spansOutside h a).scope_create (fun id hid ↦ ?_) _
  obtain rfl : spans.spans.length = id := Option.some.inj hid
  exact length_lt_spansOutside spans a

/-- The end of the handler changes nothing around what is seen from outside. -/
theorem scope_spansBehind :
    (spansBehind spans a).scope (some spans.spans.length) = outside spans a := by
  have hyounger := length_lt_spansOutside spans a
  rw [← scope_spansOutside h a]
  refine (rooted_spansOutside h a).scope_congr (rooted_spansBehind h a) hyounger fun i hi ↦ ?_
  have hi' := Nat.lt_of_le_of_lt hi hyounger
  rw [spansBehind, release_eq, List.getElem?_modify_ne _ _ (Nat.ne_of_gt hi')]
  exact List.getElem?_append_left hi'

/-- The spans of a request lie on top of those that were there, and are not entered. -/
theorem within_spansAfter : Within ⟨spans, []⟩ ⟨spansAfter spans a, []⟩ [] := by
  have houter : Within ⟨spans, []⟩ ⟨spansOutside spans a, []⟩ [] := by
    refine (Within.refl _).made (fun id hid _ ↦ ?_) _
    have hlocate : Stage.locate ⟨spans, []⟩ .current = some id := hid
    exact h.isAlive_locate hlocate
  have hinner : Within ⟨spans, []⟩ ⟨spansInside spans a, []⟩ [] := by
    refine houter.made (fun i hi hlt ↦ ?_) _
    obtain rfl : spans.spans.length = i := Option.some.inj hi
    exact absurd hlt (Nat.lt_irrefl _)
  have hparent : ∀ s : Span, s.released.parent = s.parent := fun _ ↦ rfl
  have hbehind : Within ⟨spans, []⟩ ⟨spansBehind spans a, []⟩ [] :=
    hinner.modify houter.length hparent
  exact hbehind.modify (Nat.le_refl _) hparent

theorem grounded_spansAfter : Grounded ⟨spansAfter spans a, []⟩ :=
  .of_rooted ((rooted_spansBehind h a).modify _ fun _ ↦ rfl) fun e he ↦
    Nat.lt_of_lt_of_le (h.entry e he) (within_spansAfter h a).length

end Scopes

/-! ### What is told -/

/-- Hands over an event in a span. -/
def say (now : Moment) (e : Event) (id : SpanId) (p : FileTree × Logger) : FileTree × Logger :=
  p.2.emit p.1 now e (.span id)

/-- Serving a request is to make its spans and let them go, and to hand over its events between. -/
theorem serve_eq (t : FileTree) (l : Logger) (a : Arrival) :
    let outer := l.spans.spans.length
    let first := say a.now (started a.occasion) outer
      (t, (l.createSpan .current (requestFields a.request)).1)
    let inner := first.2.spans.spans.length
    let second :=
      (first.1, (first.2.createSpan (.span outer) [Logger.requestField (recordId a)]).1)
    let third :=
      if isRouted a.request then say a.now (handled a.occasion a.request) inner second else second
    let fourth :=
      if isRouted a.request && a.request.method == "CONNECT" then
        say a.now (bodyDropped a.occasion) inner third
      else third
    let fifth := say a.now (finished a.occasion (respond a.occasion a.request).status) outer
      (fourth.1, fourth.2.release inner)
    let sixth :=
      if a.request.method = "HEAD" then fifth else say a.now (ended a.occasion) outer fifth
    serve t l a.now a.occasion a.request =
      (sixth.1, sixth.2.release outer, respond a.occasion a.request) :=
  rfl

variable {t : FileTree} {l : Logger} {now : Moment} {told : List Handed} {spans : SpanTree}
  {p : FileTree × Logger}

/-- From one logger to the next, what is admitted of these events has been told at one moment, and
the next has these spans. -/
structure Went (t : FileTree) (l : Logger) (now : Moment) (told : List Handed) (spans : SpanTree)
    (p : FileTree × Logger) : Prop where
  told : Told t l (admitted l.settings.level (told.map fun handed ↦ (now, handed))) p.1 p.2
  spans : p.2.spans = spans

namespace Went

theorem refl (t : FileTree) (l : Logger) (now : Moment) : Went t l now [] l.spans (t, l) :=
  ⟨Told.refl t l, rfl⟩

/-- What was told stays so when spans are made or let go. -/
theorem change (h : Went t l now told spans p) (next : SpanTree) :
    Went t l now told next (p.1, { p.2 with spans := next }) :=
  ⟨⟨h.told.settings, h.told.color, h.told.origin, h.told.console, h.told.noFile, h.told.file⟩, rfl⟩

theorem create (h : Went t l now told spans p) (inside : Inside) {parent : Option SpanId}
    (hparent : p.2.locate inside = parent) (fields : List Field) :
    Went t l now told (spans.create parent fields).1 (p.1, (p.2.createSpan inside fields).1) := by
  rw [← hparent, ← h.spans]
  exact h.change _

theorem release (h : Went t l now told spans p) (id : SpanId) :
    Went t l now told (spans.release id) (p.1, p.2.release id) := by
  rw [← h.spans]
  exact h.change _

/-- Handing over an event in a span tells it with the spans around what lies in that one. -/
theorem say (h : Went t l now told spans p) (e : Event) (id : SpanId) :
    Went t l now (told ++ [⟨e, spans.scope (some id)⟩]) spans (say now e id p) := by
  obtain ⟨htold, rfl⟩ := h
  set handed : Handed := ⟨e, p.2.spans.scope (some id)⟩
  have hadmitted : admitted l.settings.level ((told ++ [handed]).map fun handed ↦ (now, handed)) =
      admitted l.settings.level (told.map fun handed ↦ (now, handed)) ++
        if l.settings.level.admits e.metadata then [(now, handed)] else [] := by
    rw [List.map_append, admitted_append, List.map_singleton, admitted, admitted,
      List.filter_singleton, Bool.cond_eq_ite]
  have hlevel : p.2.settings.level.admits e.metadata = l.settings.level.admits e.metadata := by
    rw [htold.settings]
  by_cases hadmits : l.settings.level.admits e.metadata = true
  · obtain ⟨hnext, hspans⟩ := told_of_emit p.2 (hlevel.trans hadmits) p.1 now (.span id)
    refine ⟨?_, hspans⟩
    rw [hadmitted, if_pos hadmits]
    exact htold.trans hnext
  · rw [Http.say, Logger.emit, if_neg (hlevel ▸ hadmits)]
    refine ⟨?_, rfl⟩
    rw [hadmitted, if_neg hadmits, List.append_nil]
    exact htold

theorem sayIf (h : Went t l now told spans p) (q : Prop) [Decidable q] (e : Event) (id : SpanId) :
    Went t l now (told ++ if q then [⟨e, spans.scope (some id)⟩] else []) spans
      (if q then Http.say now e id p else p) := by
  split_ifs
  · exact h.say e id
  · rw [List.append_nil]
    exact h

end Went

/-- A request tells its story. -/
theorem went_of_serve (h : Grounded ⟨l.spans, []⟩) (t : FileTree) (a : Arrival) :
    Went t l a.now (story l.spans a) (spansAfter l.spans a)
      ((serve t l a.now a.occasion a.request).1, (serve t l a.now a.occasion a.request).2.1) := by
  set outer := l.spans.spans.length with houter
  set inner := (spansOutside l.spans a).spans.length with hinner
  have houtside : Went t l a.now [] (spansOutside l.spans a)
      (t, (l.createSpan .current (requestFields a.request)).1) :=
    (Went.refl t l a.now).create .current rfl _
  have hstarted := houtside.say (started a.occasion) outer
  have hinside : Went t l a.now _ (spansInside l.spans a) _ :=
    hstarted.create (.span outer) rfl [Logger.requestField (recordId a)]
  have hhandled := hinside.sayIf (isRouted a.request) (handled a.occasion a.request) inner
  have hdropped := hhandled.sayIf (isRouted a.request && a.request.method == "CONNECT")
    (bodyDropped a.occasion) inner
  have hbehind : Went t l a.now _ (spansBehind l.spans a) _ := hdropped.release inner
  have hfinished := hbehind.say (finished a.occasion (respond a.occasion a.request).status) outer
  have hended := hfinished.sayIf (a.request.method ≠ "HEAD") (ended a.occasion) outer
  have hafter : Went t l a.now _ (spansAfter l.spans a) _ := hended.release outer
  rw [scope_spansOutside h a, scope_spansInside h a, scope_spansBehind h a] at hafter
  have hlength := congrArg (·.spans.length) hstarted.spans
  rw [serve_eq]
  dsimp only at hlength ⊢
  rw [hlength, ← ite_not, story, afterwards, ← List.append_assoc, ← List.append_assoc]
  exact hafter

end Http

end Logbook
