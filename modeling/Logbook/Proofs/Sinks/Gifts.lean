import Logbook.Proofs.Sinks.Histories

/-!
# What spans are given

A span is given fields when it is made and by every recording on it. The steps of a program say in
which order which span is given what (`Stage.allGifts`): a span is known by its number, and the
handles it is made and recorded on under do not matter any more.

What a property says of a span and the fields given to it so far (`Tracks`) is true of all spans at
every stage of a session, if it is true of new spans and kept by what can happen to one span
(`Tells.afterAll`).
-/

set_option autoImplicit false
set_option relaxedAutoImplicit false

namespace Logbook.Session

open SpanTree

/-- What a step gives to spans. -/
def Stage.gifts (stage : Stage) : Step → List (SpanId × Field)
  | .event _ _ _ | .panic _ _ _ | .enter _ | .exit _ | .close _ => []
  | .span (some 0) _ fields _ _ _ => fields.map fun f ↦ (stage.spans.spans.length, f)
  | .span none _ _ _ _ _ | .span (some (_ + 1)) _ _ _ _ _ => []
  | .request (some 0) _ id => [(stage.spans.spans.length, Logger.requestField id)]
  | .request none _ _ | .request (some (_ + 1)) _ _ => []
  | .record handle fields =>
    match stage.span? handle with
    | none => []
    | some id =>
      match stage.spans.spans[id]? with
      | none => []
      | some s => (visited s.names fields).map fun f ↦ (id, f)

/-- What steps give to spans, in order. -/
def Stage.allGifts (sinks : Nat) (stage : Stage) : List (Moment × Step) → List (SpanId × Field)
  | [] => []
  | (_, step) :: rest => stage.gifts step ++ (stage.after sinks step).allGifts sinks rest

/-- The fields among gifts that are given to one span. -/
def given (gifts : List (SpanId × Field)) (id : SpanId) : List Field :=
  (gifts.filter fun g ↦ g.1 = id).map Prod.snd

variable {gifts : List (SpanId × Field)} {id : SpanId} {fields : List Field}

theorem given_append (first second : List (SpanId × Field)) (id : SpanId) :
    given (first ++ second) id = given first id ++ given second id := by
  rw [given, given, given, List.filter_append, List.map_append]

theorem given_self (id : SpanId) (fields : List Field) :
    given (fields.map fun f ↦ (id, f)) id = fields := by
  induction fields with
  | nil => rfl
  | cons f rest ih =>
    rw [given, List.map_cons, List.filter_cons_of_pos (by simp), List.map_cons]
    exact congrArg (f :: ·) ih

theorem given_eq_nil (h : ∀ g ∈ gifts, g.1 ≠ id) : given gifts id = [] := by
  rw [given, List.filter_eq_nil_iff.mpr fun g hg ↦ by simpa using h g hg]
  rfl

theorem given_other {other : SpanId} (h : other ≠ id) :
    given (fields.map fun f ↦ (other, f)) id = [] := by
  refine given_eq_nil fun g hg ↦ ?_
  obtain ⟨f, -, rfl⟩ := List.mem_map.mp hg
  exact h

/-! ### Batches, field by field -/

/-- The fields of a batch, one by one. -/
def spread (b : SpanId × List Field) : List (SpanId × Field) :=
  b.2.map fun f ↦ (b.1, f)

theorem flatMap_spread_map (gifts : List (SpanId × Field)) :
    (gifts.map fun g ↦ (g.1, [g.2])).flatMap spread = gifts := by
  rw [List.flatMap_map]
  exact List.flatMap_singleton' gifts

/-- A step gives the fields of its batch. -/
theorem gifts_eq (stage : Stage) (step : Step) :
    stage.gifts step = (stage.batch? step).toList.flatMap spread := by
  cases step with
  | event _ _ _ | panic _ _ _ | enter _ | exit _ | close _ => rfl
  | span addressee _ fields _ _ _ =>
    match addressee with
    | none | some (_ + 1) => rfl
    | some 0 => exact (List.flatMap_singleton ..).symm
  | request addressee _ _ =>
    match addressee with
    | none | some 0 | some (_ + 1) => rfl
  | record handle fields =>
    rw [Stage.gifts, Stage.batch?]
    cases stage.span? handle with
    | none => rfl
    | some id =>
      cases hs : stage.spans.spans[id]? with
      | none => simp [hs]
      | some s => simp [hs, spread]

theorem allGifts_eq (sinks : Nat) (stage : Stage) (steps : List (Moment × Step)) :
    stage.allGifts sinks steps = (stage.allBatches sinks steps).flatMap spread := by
  induction steps generalizing stage with
  | nil => rfl
  | cons p rest ih =>
    rw [Stage.allGifts, Stage.allBatches, List.flatMap_append, gifts_eq, ih]

/-- What a span is given are the batches of its history, one after the other. -/
theorem given_flatMap_spread (batches : List (SpanId × List Field)) (id : SpanId) :
    given (batches.flatMap spread) id = (history batches id).flatten := by
  induction batches with
  | nil => rfl
  | cons b rest ih =>
    rw [List.flatMap_cons, given_append, ih, ← List.singleton_append, history_append,
      List.flatten_append]
    by_cases hid : b.1 = id
    · subst hid
      rw [history_self, List.flatten_singleton]
      exact congrArg (· ++ _) (given_self b.1 b.2)
    · rw [history_other hid]
      exact congrArg (· ++ _) (given_other hid)

/-- After any steps, what a span was given are the batches of its history. -/
theorem given_allGifts (sinks : Nat) (stage : Stage) (steps : List (Moment × Step)) (id : SpanId) :
    given (stage.allGifts sinks steps) id =
      (history (stage.allBatches sinks steps) id).flatten := by
  rw [allGifts_eq, given_flatMap_spread]

/-! ### What is true of spans and what they were given -/

/-- A property of a span and the fields given to it that holds of new spans and stays under every
change, if the fields that are given satisfy a condition. -/
structure Tracks (sinks : Nat) (ok : Field → Prop) (P : List Field → Span → Prop) : Prop where
  made : ∀ parent {fields}, (∀ f ∈ fields, ok f) → P fields (.made parent fields)
  released : ∀ {fields s}, P fields s → P fields s.released
  recorded : ∀ {fields s}, P fields s → ∀ {more}, (∀ f ∈ more, ok f) →
    P (fields ++ more) (s.recorded sinks more)

/-- What is tracked of all that was given follows the batches. -/
theorem Tracks.follows {sinks : Nat} {ok : Field → Prop} {P : List Field → Span → Prop}
    (hP : Tracks sinks ok P) : Follows sinks ok fun batches s ↦ P batches.flatten s where
  made := by
    intro parent fields hfields
    rw [List.flatten_singleton]
    exact hP.made parent hfields
  released := fun h ↦ hP.released h
  recorded := by
    intro batches s h more hmore
    rw [List.flatten_append, List.flatten_singleton]
    exact hP.recorded h hmore

/-- A property holds of all spans and what they were given, and nothing was given to other spans. -/
structure Tells (P : List Field → Span → Prop) (gifts : List (SpanId × Field))
    (spans : List Span) : Prop where
  span : ∀ id s, spans[id]? = some s → P (given gifts id) s
  made : ∀ g ∈ gifts, g.1 < spans.length

namespace Tells

variable {P : List Field → Span → Prop} {spans : List Span} {sinks : Nat} {ok : Field → Prop}
  {stage : Stage}

theorem nil : Tells P [] [] :=
  ⟨fun _ _ h ↦ absurd h (by simp), fun _ h ↦ absurd h List.not_mem_nil⟩

/-- A property of all that was given is one of the batches, joined. -/
theorem of_bears {batches : List (SpanId × List Field)}
    (h : Bears (fun batches s ↦ P batches.flatten s) batches spans) :
    Tells P (batches.flatMap spread) spans := by
  refine ⟨fun id s hs ↦ ?_, fun g hg ↦ ?_⟩
  · rw [given_flatMap_spread]
    exact h.span id s hs
  · obtain ⟨b, hb, hg⟩ := List.mem_flatMap.mp hg
    obtain ⟨f, -, rfl⟩ := List.mem_map.mp hg
    exact h.made b hb

/-- What was given can be taken for given field by field. -/
theorem bears (h : Tells P gifts spans) :
    Bears (fun batches s ↦ P batches.flatten s) (gifts.map fun g ↦ (g.1, [g.2])) spans := by
  refine ⟨fun id s hs ↦ ?_, fun b hb ↦ ?_⟩
  · rw [← given_flatMap_spread, flatMap_spread_map]
    exact h.span id s hs
  · obtain ⟨g, hg, rfl⟩ := List.mem_map.mp hb
    exact h.made g hg

/-- What is true of new spans and kept by every change of a span is kept by every step. -/
theorem afterAll (hP : Tracks sinks ok P) (h : Tells P gifts stage.spans.spans)
    {steps : List (Moment × Step)} (hsteps : ∀ p ∈ steps, ∀ f ∈ p.2.spanFields, ok f) :
    Tells P (gifts ++ stage.allGifts sinks steps) (stage.afterAll sinks steps).spans.spans := by
  have hbears := of_bears (h.bears.afterAll hP.follows hsteps)
  rwa [List.flatMap_append, flatMap_spread_map, ← allGifts_eq] at hbears

end Tells

end Logbook.Session
