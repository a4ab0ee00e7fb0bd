import Logbook.Proofs.Record.Wear
import Logbook.Proofs.Sinks.Gifts

/-!
# The batches a span is given

Every step of a program gives a span a batch of fields, which for most steps is empty
(`Stage.batches`). At every stage of a session, what a span keeps are the fields it has learned of
its batches (`learns_of_run`), whatever becomes of its handle, of other spans and of the stack. This
holds for every span and all fields, floats and names with escapes included.

A span that is made with some fields and given nothing later (`MadeWith`) has learned just these
(`MadeWith.learned_eq`).
-/

set_option autoImplicit false
set_option relaxedAutoImplicit false

namespace Logbook.Session

open SpanTree SpanFields

/-- What steps give to one span, a batch for every step. -/
def Stage.batches (sinks : Nat) (id : SpanId) : Stage → List (Moment × Step) → List (List Field)
  | _, [] => []
  | stage, (_, step) :: rest =>
    given (stage.gifts step) id :: Stage.batches sinks id (stage.after sinks step) rest

/-- The batches hold all that a span is given. -/
theorem flatten_batches (sinks : Nat) (id : SpanId) (stage : Stage) (steps : List (Moment × Step)) :
    (stage.batches sinks id steps).flatten = given (stage.allGifts sinks steps) id := by
  induction steps generalizing stage with
  | nil => rfl
  | cons p rest ih => rw [Stage.batches, List.flatten_cons, Stage.allGifts, given_append, ih]

theorem batches_append (sinks : Nat) (id : SpanId) (stage : Stage)
    (first rest : List (Moment × Step)) :
    stage.batches sinks id (first ++ rest) =
      stage.batches sinks id first ++ (stage.afterAll sinks first).batches sinks id rest := by
  induction first generalizing stage with
  | nil => rfl
  | cons p first ih =>
    rw [List.cons_append, Stage.batches, Stage.batches, ih, List.cons_append]
    rfl

/-! ### What the spans of a stage keep -/

/-- The fields of all spans. -/
def Stage.kept (stage : Stage) : List SpanFields :=
  stage.spans.spans.map Span.fields

theorem Stage.getElem?_kept (stage : Stage) (id : SpanId) :
    stage.kept[id]? = (stage.spans.spans[id]?).map Span.fields :=
  List.getElem?_map

/-! ### Learning -/

/-- The span of this number, if it has been made, keeps the fields it has learned of these batches,
and if not, it was given nothing. -/
structure Learns (kept : List SpanFields) (id : SpanId) (batches : List (List Field)) : Prop where
  stored : ∀ s, kept[id]? = some s → s.Stored
  wears : ∀ s, kept[id]? = some s → Wears (ofFields (learned batches)) s
  notMade : kept.length ≤ id → batches.flatten = []

variable {sinks : Nat} {steps : List (Moment × Step)} {id : SpanId} {fields : List Field}

/-- A span keeps what it has learned of its history. -/
theorem follows_learned (hsinks : 0 < sinks) :
    Follows sinks (fun _ ↦ True) fun batches s ↦
      s.fields.Stored ∧ Wears (ofFields (learned batches)) s.fields where
  made := by
    intro _ fields _
    rw [learned_singleton]
    exact ⟨stored_ofFields fields, .refl _⟩
  released := fun h ↦ h
  recorded := by
    rintro batches s ⟨hstored, hwears⟩ more -
    rw [learned_concat]
    exact ⟨hstored.foldl_record sinks more, hwears.foldl_record hstored more hsinks⟩

/-- Steps that give a span nothing teach it nothing. -/
theorem learned_batches (sinks : Nat) (id : SpanId) {known known' : List (List Field)}
    (hknown : learned known = learned known') (stage : Stage) (steps : List (Moment × Step)) :
    learned (known ++ stage.batches sinks id steps) =
      learned (known' ++ history (stage.allBatches sinks steps) id) := by
  induction steps generalizing stage known known' with
  | nil =>
    rw [Stage.batches, Stage.allBatches, List.append_nil]
    exact hknown.trans (congrArg learned (List.append_nil _).symm)
  | cons p rest ih =>
    rw [Stage.batches, Stage.allBatches, history_append, List.append_cons, ← List.append_assoc]
    refine ih ?_ _
    rw [learned_concat, gifts_eq, given_flatMap_spread, hknown]
    cases stage.batch? p.2 with
    | none => exact (learn_nil _).trans (congrArg learned (List.append_nil _).symm)
    | some b =>
      rw [Option.toList_some]
      by_cases hid : b.1 = id
      · subst hid
        rw [history_self, List.flatten_singleton, learned_concat]
      · rw [history_other hid, List.flatten_nil, learn_nil, List.append_nil]

/-- After any steps, every span keeps the fields it has learned. -/
theorem learns_of_run (hsinks : 0 < sinks) (steps : List (Moment × Step)) (id : SpanId) :
    Learns (Stage.initial.afterAll sinks steps).kept id (Stage.initial.batches sinks id steps) := by
  have hbears := bears_of_run (follows_learned hsinks) steps fun _ _ _ _ ↦ trivial
  have hlearned : learned ([] ++ Stage.initial.batches sinks id steps) =
      learned ([] ++ history (Stage.initial.allBatches sinks steps) id) :=
    learned_batches sinks id rfl .initial steps
  rw [List.nil_append, List.nil_append] at hlearned
  have hspan : ∀ fields, (Stage.initial.afterAll sinks steps).kept[id]? = some fields →
      fields.Stored ∧ Wears (ofFields (learned (Stage.initial.batches sinks id steps))) fields := by
    intro fields hfields
    rw [Stage.getElem?_kept, Option.map_eq_some_iff] at hfields
    obtain ⟨s, hs, rfl⟩ := hfields
    rw [hlearned]
    exact hbears.span id s hs
  refine ⟨fun fields h ↦ (hspan fields h).1, fun fields h ↦ (hspan fields h).2, fun hlength ↦ ?_⟩
  rw [Stage.kept, List.length_map] at hlength
  rw [flatten_batches, given_allGifts, hbears.history_eq_nil hlength, List.flatten_nil]

/-! ### Spans that are given nothing later -/

/-- One of the steps has made the span of this number with these fields, and no later one has given
it anything. -/
def MadeWith (sinks : Nat) (steps : List (Moment × Step)) (fields : List Field) (id : SpanId) :
    Prop :=
  ∃ first now handle around level target rest,
    steps = first ++ (now, Step.span (some 0) handle fields around level target) :: rest ∧
      id = (Stage.initial.afterAll sinks first).spans.spans.length ∧
      given (((Stage.initial.afterAll sinks first).create handle fields around).allGifts sinks rest)
        id = []

/-- A span has learned what it was made with. -/
theorem MadeWith.learned_eq (h : MadeWith sinks steps fields id) (hsinks : 0 < sinks) :
    learned (Stage.initial.batches sinks id steps) = fields := by
  obtain ⟨first, now, handle, around, level, target, rest, rfl, rfl, hnone⟩ := h
  set stage := Stage.initial.afterAll sinks first
  have hfirst : (Stage.initial.batches sinks stage.spans.spans.length first).flatten = [] := by
    refine (learns_of_run hsinks first stage.spans.spans.length).notMade ?_
    rw [Stage.kept, List.length_map]
  have hrest : (Stage.batches sinks stage.spans.spans.length
      (stage.after sinks (.span (some 0) handle fields around level target)) rest).flatten = [] := by
    rw [flatten_batches]
    exact hnone
  rw [batches_append, Stage.batches, List.append_cons, learned_append_of_flatten_eq_nil hrest,
    learned_concat, learned_eq_nil hfirst, Stage.gifts, given_self]
  exact if_pos rfl

end Logbook.Session
