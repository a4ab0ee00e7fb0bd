import Logbook.Proofs.Sinks.Stages

/-!
# Histories of spans

A span is given a batch of fields when it is made, and another one by every recording on it. The
batch of a recording can be empty: the span may have been declared with none of the names, and a
recording of no names is a recording all the same. The batches of a program's steps, in order, are
`Stage.allBatches`, and those among them that are given to one span are its `history`.

What a step does to spans is said once (`Stage.exists_gives`): it gives a batch to one span at most,
and then lets go of one handle at most. A property of a span and its history that holds of new spans
and stays under both is therefore true of all spans at every stage (`Bears.afterAll`).
-/

set_option autoImplicit false
set_option relaxedAutoImplicit false

namespace Logbook.Session

open SpanTree

/-! ### Batches -/

/-- The span a step gives fields to, and the fields: a new span those it is made with, and a span
that is recorded on those the recording visits. -/
def Stage.batch? (stage : Stage) : Step → Option (SpanId × List Field)
  | .span (some 0) _ fields _ _ _ => some (stage.spans.spans.length, fields)
  | .request (some 0) _ id => some (stage.spans.spans.length, [Logger.requestField id])
  | .record handle fields =>
    match stage.span? handle with
    | none => none
    | some id => (stage.spans.spans[id]?).map fun s ↦ (id, visited s.names fields)
  | _ => none

/-- The batches that steps give to spans, in order. -/
def Stage.allBatches (sinks : Nat) (stage : Stage) :
    List (Moment × Step) → List (SpanId × List Field)
  | [] => []
  | (_, step) :: rest =>
    (stage.batch? step).toList ++ (stage.after sinks step).allBatches sinks rest

/-- The history of a span: those of the batches that are given to it. -/
def history (batches : List (SpanId × List Field)) (id : SpanId) : List (List Field) :=
  (batches.filter fun b ↦ b.1 = id).map Prod.snd

variable {sinks : Nat} {stage : Stage} {step : Step} {spans spans' : List Span}
  {batches : List (SpanId × List Field)} {batch? : Option (SpanId × List Field)} {id : SpanId}

theorem history_append (first second : List (SpanId × List Field)) (id : SpanId) :
    history (first ++ second) id = history first id ++ history second id := by
  rw [history, history, history, List.filter_append, List.map_append]

theorem history_self (id : SpanId) (fields : List Field) :
    history [(id, fields)] id = [fields] := by
  rw [history, List.filter_cons_of_pos (by simp)]
  rfl

theorem history_eq_nil (h : ∀ b ∈ batches, b.1 ≠ id) : history batches id = [] := by
  rw [history, List.filter_eq_nil_iff.mpr fun b hb ↦ by simpa using h b hb]
  rfl

theorem history_other {other : SpanId} (h : other ≠ id) (fields : List Field) :
    history [(other, fields)] id = [] := by
  refine history_eq_nil fun b hb ↦ ?_
  rw [List.mem_singleton.mp hb]
  exact h

/-- The fields of a batch are fields of the step that gives it. -/
theorem mem_spanFields_of_batch? {b : SpanId × List Field} (h : stage.batch? step = some b) :
    ∀ f ∈ b.2, f ∈ step.spanFields := by
  unfold Stage.batch? at h
  split at h
  · rw [← Option.some.inj h]
    exact fun f hf ↦ hf
  · rw [← Option.some.inj h]
    exact fun f hf ↦ hf
  · split at h
    · exact absurd h (by simp)
    · obtain ⟨s, -, rfl⟩ := Option.map_eq_some_iff.mp h
      exact fun f hf ↦ mem_of_mem_visited hf
  · exact absurd h (by simp)

/-- Nothing is in a history but fields of steps. -/
theorem forall_mem_history {ok : Field → Prop} {steps : List (Moment × Step)}
    (hsteps : ∀ p ∈ steps, ∀ f ∈ p.2.spanFields, ok f) (sinks : Nat) (stage : Stage) (id : SpanId) :
    ∀ f ∈ (history (stage.allBatches sinks steps) id).flatten, ok f := by
  induction steps generalizing stage with
  | nil => exact fun f hf ↦ absurd hf List.not_mem_nil
  | cons p rest ih =>
    rw [List.forall_mem_cons] at hsteps
    rw [Stage.allBatches, history_append, List.flatten_append, List.forall_mem_append]
    refine ⟨fun f hf ↦ ?_, ih hsteps.2 _⟩
    obtain ⟨fields, hfields, hf⟩ := List.mem_flatten.mp hf
    obtain ⟨b, hb, rfl⟩ := List.mem_map.mp hfields
    have hbatch := Option.mem_toList.mp (List.mem_of_mem_filter hb)
    exact hsteps.1 f (mem_spanFields_of_batch? hbatch f hf)

/-! ### What a step does to spans -/

/-- What giving a batch, or none, makes of the spans. -/
inductive Gives (sinks : Nat) (spans : List Span) :
    Option (SpanId × List Field) → List Span → Prop
  | nothing : Gives sinks spans none spans
  | made (parent : Option SpanId) (fields : List Field) :
      Gives sinks spans (some (spans.length, fields)) (spans ++ [.made parent fields])
  | recorded {id : SpanId} (fields : List Field) (h : id < spans.length) :
      Gives sinks spans (some (id, fields)) (spans.modify id fun s ↦ s.recorded sinks fields)

/-- Letting go of a handle releases one span at most. -/
theorem Stage.spans_close (stage : Stage) (handle : String) :
    (stage.close handle).spans.spans = stage.spans.spans ∨
      ∃ id, (stage.close handle).spans.spans = stage.spans.spans.modify id Span.released := by
  rw [close, through]
  cases stage.span? handle with
  | none => exact .inl rfl
  | some id => exact .inr ⟨id, rfl⟩

/-- Entering and leaving leave the spans as they are. -/
theorem Stage.spans_through {change : SpanTree → SpanId → SpanTree}
    (h : ∀ t id, (change t id).spans = t.spans) (stage : Stage) (handle : String) :
    (stage.through handle change).spans.spans = stage.spans.spans := by
  rw [through]
  cases stage.span? handle with
  | none => rfl
  | some id => exact h _ id

/-- A recording gives its span what it visits. -/
theorem Stage.gives_record (sinks : Nat) (stage : Stage) (handle : String) (fields : List Field) :
    Gives sinks stage.spans.spans (stage.batch? (.record handle fields))
      (stage.after sinks (.record handle fields)).spans.spans := by
  rw [after, through, batch?]
  cases stage.span? handle with
  | none => exact .nothing
  | some id =>
    dsimp only
    rw [record_eq]
    cases hs : stage.spans.spans[id]? with
    | none =>
      rw [List.modify_eq_self (List.getElem?_eq_none_iff.mp hs)]
      exact .nothing
    | some s =>
      -- the span that is changed is the one the visited fields were taken from
      have hmodify :
          (stage.spans.spans.modify id fun s ↦ s.recorded sinks (visited s.names fields)) =
            stage.spans.spans.modify id fun s' ↦ s'.recorded sinks (visited s.names fields) := by
        rw [List.modify_eq_set_getElem?, List.modify_eq_set_getElem?, hs]
        rfl
      dsimp only [Option.map_some]
      rw [hmodify]
      exact .recorded _ (List.getElem?_eq_some_iff.mp hs).1

/-- A step gives its batch and then releases one span at most. -/
theorem Stage.exists_gives (sinks : Nat) (stage : Stage) (step : Step) :
    ∃ given, Gives sinks stage.spans.spans (stage.batch? step) given ∧
      ((stage.after sinks step).spans.spans = given ∨
        ∃ id, (stage.after sinks step).spans.spans = given.modify id Span.released) := by
  have hcreate : ∀ handle fields around,
      ∃ given, Gives sinks stage.spans.spans (some (stage.spans.spans.length, fields)) given ∧
        ((stage.create handle fields around).spans.spans = given ∨
          ∃ id, (stage.create handle fields around).spans.spans = given.modify id Span.released) :=
    fun handle fields around ↦ ⟨_, .made (stage.locate around) fields,
      spans_close ⟨(stage.spans.create (stage.locate around) fields).1, stage.handles⟩ handle⟩
  cases step with
  | event _ _ _ => exact ⟨_, .nothing, .inl rfl⟩
  | panic _ _ _ => exact ⟨_, .nothing, .inl rfl⟩
  | span addressee handle fields around _ _ =>
    match addressee with
    | none => exact ⟨_, .nothing, stage.spans_close handle⟩
    | some 0 => exact hcreate handle fields around
    | some (n + 1) => exact ⟨_, .nothing, .inl rfl⟩
  | request addressee handle id =>
    match addressee with
    | none => exact ⟨_, .nothing, stage.spans_close handle⟩
    | some 0 => exact hcreate handle [Logger.requestField id] .current
    | some (n + 1) => exact ⟨_, .nothing, .inl rfl⟩
  | enter handle =>
    have hspans : ∀ (t : SpanTree) id, (t.enter id).spans = t.spans := fun _ _ ↦ rfl
    exact ⟨_, .nothing, .inl (stage.spans_through hspans handle)⟩
  | exit handle =>
    have hspans : ∀ (t : SpanTree) id, (t.exit id).spans = t.spans := fun _ _ ↦ rfl
    exact ⟨_, .nothing, .inl (stage.spans_through hspans handle)⟩
  | record handle fields => exact ⟨_, stage.gives_record sinks handle fields, .inl rfl⟩
  | close handle => exact ⟨_, .nothing, stage.spans_close handle⟩

/-! ### What is true of spans and their histories -/

/-- A property of a history and its span that holds of new spans and stays under every change, if
the fields that are given satisfy a condition. -/
structure Follows (sinks : Nat) (ok : Field → Prop) (P : List (List Field) → Span → Prop) :
    Prop where
  made : ∀ parent {fields}, (∀ f ∈ fields, ok f) → P [fields] (.made parent fields)
  released : ∀ {batches s}, P batches s → P batches s.released
  recorded : ∀ {batches s}, P batches s → ∀ {more}, (∀ f ∈ more, ok f) →
    P (batches ++ [more]) (s.recorded sinks more)

/-- A property holds of all spans and their histories, and there are no histories of other spans. -/
structure Bears (P : List (List Field) → Span → Prop) (batches : List (SpanId × List Field))
    (spans : List Span) : Prop where
  span : ∀ id s, spans[id]? = some s → P (history batches id) s
  made : ∀ b ∈ batches, b.1 < spans.length

namespace Bears

variable {ok : Field → Prop} {P : List (List Field) → Span → Prop} {s : Span} {fields : List Field}

theorem nil : Bears P [] [] :=
  ⟨fun _ _ h ↦ absurd h (by simp), fun _ h ↦ absurd h List.not_mem_nil⟩

/-- A span that has not been made has no history. -/
theorem history_eq_nil (h : Bears P batches spans) (hid : spans.length ≤ id) :
    history batches id = [] :=
  Session.history_eq_nil fun b hb ↦ Nat.ne_of_lt (Nat.lt_of_lt_of_le (h.made b hb) hid)

theorem released (hP : Follows sinks ok P) (h : Bears P batches spans) (id : SpanId) :
    Bears P batches (spans.modify id Span.released) := by
  refine ⟨fun i s hs ↦ ?_, fun b hb ↦ ?_⟩
  · rw [List.getElem?_modify, Option.map_eq_map, Option.map_eq_some_iff] at hs
    obtain ⟨old, hold, rfl⟩ := hs
    split_ifs
    · exact hP.released (h.span i old hold)
    · exact h.span i old hold
  · rw [List.length_modify]
    exact h.made b hb

theorem concat (h : Bears P batches spans) (hs : P [fields] s) :
    Bears P (batches ++ [(spans.length, fields)]) (spans ++ [s]) := by
  refine ⟨fun i s' hs' ↦ ?_, fun b hb ↦ ?_⟩
  · rw [history_append]
    by_cases hi : spans.length = i
    · subst hi
      rw [List.getElem?_concat_length] at hs'
      rw [history_self, h.history_eq_nil le_rfl, List.nil_append, ← Option.some.inj hs']
      exact hs
    · rw [history_other hi, List.append_nil]
      refine h.span i s' ?_
      rw [List.getElem?_append] at hs'
      split_ifs at hs' with hlt
      · exact hs'
      · have hlast := (List.getElem?_eq_some_iff.mp hs').1
        rw [List.length_singleton] at hlast
        omega
  · rw [List.length_append, List.length_singleton]
    rcases List.mem_append.mp hb with hb | hb
    · exact Nat.lt_add_right 1 (h.made b hb)
    · rw [List.mem_singleton.mp hb]
      exact Nat.lt_succ_self _

theorem recorded (h : Bears P batches spans) {change : Span → Span} (hid : id < spans.length)
    (hchange : ∀ s, P (history batches id) s → P (history batches id ++ [fields]) (change s)) :
    Bears P (batches ++ [(id, fields)]) (spans.modify id change) := by
  refine ⟨fun i s hs ↦ ?_, fun b hb ↦ ?_⟩
  · rw [history_append]
    by_cases hi : id = i
    · subst hi
      rw [history_self]
      rw [List.getElem?_modify_eq, Option.map_eq_map, Option.map_eq_some_iff] at hs
      obtain ⟨old, hold, rfl⟩ := hs
      exact hchange old (h.span id old hold)
    · rw [history_other hi, List.append_nil]
      rw [List.getElem?_modify_ne _ _ hi] at hs
      exact h.span i s hs
  · rw [List.length_modify]
    rcases List.mem_append.mp hb with hb | hb
    · exact h.made b hb
    · rw [List.mem_singleton.mp hb]
      exact hid

theorem gives (hP : Follows sinks ok P) (h : Bears P batches spans)
    (hgives : Gives sinks spans batch? spans') (hok : ∀ b, batch? = some b → ∀ f ∈ b.2, ok f) :
    Bears P (batches ++ batch?.toList) spans' := by
  cases hgives with
  | nothing =>
    rw [Option.toList_none, List.append_nil]
    exact h
  | made parent fields => exact h.concat (hP.made parent (hok _ rfl))
  | recorded fields hid => exact h.recorded hid fun s hs ↦ hP.recorded hs (hok _ rfl)

/-- What is true of new spans and kept by every change of a span is kept by every step. -/
theorem after (hP : Follows sinks ok P) (h : Bears P batches stage.spans.spans)
    (hstep : ∀ f ∈ step.spanFields, ok f) :
    Bears P (batches ++ (stage.batch? step).toList) (stage.after sinks step).spans.spans := by
  obtain ⟨given, hgives, hafter⟩ := stage.exists_gives sinks step
  have hgiven := h.gives hP hgives fun b hb f hf ↦ hstep f (mem_spanFields_of_batch? hb f hf)
  rcases hafter with hafter | ⟨id, hafter⟩
  · rw [hafter]
    exact hgiven
  · rw [hafter]
    exact hgiven.released hP id

theorem afterAll (hP : Follows sinks ok P) (h : Bears P batches stage.spans.spans)
    {steps : List (Moment × Step)} (hsteps : ∀ p ∈ steps, ∀ f ∈ p.2.spanFields, ok f) :
    Bears P (batches ++ stage.allBatches sinks steps) (stage.afterAll sinks steps).spans.spans := by
  induction steps generalizing stage batches with
  | nil =>
    rw [Stage.allBatches, List.append_nil]
    exact h
  | cons p rest ih =>
    rw [List.forall_mem_cons] at hsteps
    have hrest := ih (h.after hP hsteps.1) hsteps.2
    rw [List.append_assoc] at hrest
    exact hrest

end Bears

/-- What is true of new spans and kept by every change of a span is true of all spans after any
steps, with their histories. -/
theorem bears_of_run {ok : Field → Prop} {P : List (List Field) → Span → Prop}
    (hP : Follows sinks ok P) (steps : List (Moment × Step))
    (hsteps : ∀ p ∈ steps, ∀ f ∈ p.2.spanFields, ok f) :
    Bears P (Stage.initial.allBatches sinks steps)
      (Stage.initial.afterAll sinks steps).spans.spans := by
  have hinitial : Bears P [] Stage.initial.spans.spans := Bears.nil
  exact hinitial.afterAll hP hsteps

end Logbook.Session
