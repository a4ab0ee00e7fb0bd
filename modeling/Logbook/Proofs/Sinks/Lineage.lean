import Logbook.Proofs.Sinks.Stages

/-!
# The spans around an event

The spans around an event are a chain (`Lineage`): a span, the span that one was made in, and so on
until one that was made in none. A program can let go of a span while others were made in it, enter
spans twice and leave them in any order; still, at every stage of a session (`Grounded`) a span is
younger than the one it was made in, entered spans have been made, and every handle holds a span of
its own. So the way up from a span reaches the outermost one, and all spans around an event are
alive (`Grounded.exists_lineage`).
-/

set_option autoImplicit false
set_option relaxedAutoImplicit false

namespace Logbook

namespace SpanTree

/-- A span, if any, and all spans around it, from the inside out. -/
inductive Lineage (spans : List Span) : Option SpanId → List SpanId → Prop
  | nothing : Lineage spans none []
  | span {id : SpanId} {s : Span} {ids : List SpanId} (made : spans[id]? = some s)
      (around : Lineage spans s.parent ids) : Lineage spans (some id) (id :: ids)

variable {spans : List Span} {inside : Option SpanId} {id : SpanId} {ids ids' : List SpanId}

/-- There is one chain from a span. -/
theorem Lineage.unique (h : Lineage spans inside ids) (h' : Lineage spans inside ids') :
    ids = ids' := by
  induction h generalizing ids' with
  | nothing =>
    cases h'
    rfl
  | span made _ ih =>
    cases h' with
    | span made' around' =>
      obtain rfl := Option.some.inj (made.symm.trans made')
      rw [ih around']

/-- Every span of a chain begins a chain that is part of it. -/
theorem Lineage.exists_of_mem (h : Lineage spans inside ids) (hid : id ∈ ids) :
    ∃ ids', Lineage spans (some id) ids' ∧ ids' ⊆ ids := by
  induction h with
  | nothing => exact absurd hid List.not_mem_nil
  | @span first s rest made around ih =>
    by_cases hfirst : id = first
    · subst hfirst
      exact ⟨id :: rest, .span made around, List.Subset.refl _⟩
    · obtain ⟨ids', hchain, hsubset⟩ := ih (List.mem_of_ne_of_mem hfirst hid)
      exact ⟨ids', hchain, List.subset_cons_of_subset first hsubset⟩

/-- Every span is younger than the one it was made in. -/
def Rooted (spans : List Span) : Prop :=
  ∀ (id : SpanId) (s : Span) (parent : SpanId),
    spans[id]? = some s → s.parent = some parent → parent < id

theorem Rooted.modify (h : Rooted spans) (id : SpanId) {change : Span → Span}
    (hchange : ∀ s, (change s).parent = s.parent) : Rooted (spans.modify id change) := by
  intro i s parent hs hparent
  rw [List.getElem?_modify, Option.map_eq_map, Option.map_eq_some_iff] at hs
  obtain ⟨old, hold, rfl⟩ := hs
  refine h i old parent hold ?_
  split_ifs at hparent with hi
  · rwa [← hchange]
  · exact hparent

theorem Rooted.concat (h : Rooted spans) {s : Span}
    (hs : ∀ parent, s.parent = some parent → parent < spans.length) : Rooted (spans ++ [s]) := by
  intro i s' parent hs' hparent
  rw [List.getElem?_append] at hs'
  split_ifs at hs' with hi
  · exact h i s' parent hs' hparent
  · rw [List.getElem?_singleton] at hs'
    split_ifs at hs' with hlast
    obtain rfl := Option.some.inj hs'
    exact Nat.lt_of_lt_of_le (hs parent hparent) (Nat.le_of_not_lt hi)

/-- Where every span is younger than its parent, the way up is a chain. -/
theorem Rooted.lineage_upward (h : Rooted spans) {fuel : Nat} (hfuel : id < fuel)
    (hid : id < spans.length) :
    Lineage spans (some id) (upward spans fuel id) := by
  induction fuel generalizing id with
  | zero => exact absurd hfuel (Nat.not_lt_zero id)
  | succ fuel ih =>
    have hmade : spans[id]? = some spans[id] := List.getElem?_eq_getElem hid
    rw [upward, hmade]
    apply Lineage.span hmade
    cases houter : spans[id].parent with
    | none => exact .nothing
    | some parent =>
      have holder := h id _ parent hmade houter
      exact ih (Nat.lt_of_lt_of_le holder (Nat.le_of_lt_succ hfuel)) (Nat.lt_trans holder hid)

variable {t : SpanTree}

theorem isAlive_iff : t.isAlive id = true ↔
    ∃ other s, t.spans[other]? = some s ∧ s.held = true ∧
      id ∈ upward t.spans t.spans.length other := by
  rw [isAlive, List.any_eq_true]
  constructor
  · rintro ⟨other, -, halive⟩
    rw [Bool.and_eq_true, List.contains_iff_mem] at halive
    cases hs : t.spans[other]? with
    | none => exact absurd halive.1 (by simp [hs])
    | some s => exact ⟨other, s, hs, by simpa [hs] using halive.1, halive.2⟩
  · rintro ⟨other, s, hs, hheld, hid⟩
    refine ⟨other, List.mem_range.mpr (List.getElem?_eq_some_iff.mp hs).1, ?_⟩
    rw [Bool.and_eq_true, List.contains_iff_mem]
    exact ⟨by simp [hs, hheld], hid⟩

/-- A span that is held is alive. -/
theorem isAlive_of_held {s : Span} (hs : t.spans[id]? = some s) (hheld : s.held = true) :
    t.isAlive id = true := by
  refine isAlive_iff.mpr ⟨id, s, hs, hheld, ?_⟩
  have hlt := (List.getElem?_eq_some_iff.mp hs).1
  obtain ⟨fuel, hfuel⟩ := Nat.exists_eq_succ_of_ne_zero (Nat.ne_zero_of_lt hlt)
  rw [hfuel, upward, hs]
  exact List.mem_cons_self

/-- The spans around a living span are alive. -/
theorem Rooted.isAlive_of_mem (h : Rooted t.spans) (hchain : Lineage t.spans (some id) ids)
    (halive : t.isAlive id = true) {around : SpanId} (haround : around ∈ ids) :
    t.isAlive around = true := by
  obtain ⟨other, s, hs, hheld, hid⟩ := isAlive_iff.mp halive
  have hlt := (List.getElem?_eq_some_iff.mp hs).1
  obtain ⟨ids', hchain', hsubset⟩ := (h.lineage_upward hlt hlt).exists_of_mem hid
  obtain rfl := hchain.unique hchain'
  exact isAlive_iff.mpr ⟨other, s, hs, hheld, hsubset haround⟩

end SpanTree

namespace Session

open SpanTree

/-- At a stage, a span is younger than the one it was made in, entered spans have been made, and
handles hold spans, no two of them the same one. -/
structure Grounded (stage : Stage) : Prop where
  rooted : Rooted stage.spans.spans
  entry : ∀ e ∈ stage.spans.stack, e.span < stage.spans.spans.length
  target : ∀ handle id, (handle, some ⟨0, id⟩) ∈ stage.handles →
    ∃ s, stage.spans.spans[id]? = some s ∧ s.held = true
  distinct : ∀ handle handle' id, (handle, some ⟨0, id⟩) ∈ stage.handles →
    (handle', some ⟨0, id⟩) ∈ stage.handles → handle = handle'

namespace Grounded

variable {stage : Stage} {handle : String} {around : Around} {id : SpanId}

/-- Where no handles are in use, only the spans and the entered ones matter. -/
theorem of_rooted {t : SpanTree} (hrooted : Rooted t.spans)
    (hentry : ∀ e ∈ t.stack, e.span < t.spans.length) : Grounded ⟨t, []⟩ where
  rooted := hrooted
  entry := hentry
  target := fun _ _ h ↦ absurd h List.not_mem_nil
  distinct := fun _ _ _ h ↦ absurd h List.not_mem_nil

theorem initial : Grounded .initial :=
  of_rooted (fun _ _ _ hmade ↦ absurd hmade (by simp [SpanTree.empty]))
    fun _ he ↦ absurd he List.not_mem_nil

theorem mem_handles (h : stage.span? handle = some id) :
    (handle, some ⟨0, id⟩) ∈ stage.handles := by
  rw [Stage.span?] at h
  cases hlookup : stage.handles.lookup handle with
  | none =>
    rw [hlookup] at h
    exact absurd h (by simp)
  | some target =>
    rw [hlookup, Option.join_some] at h
    cases target with
    | none => exact absurd h (by simp)
    | some target =>
      obtain ⟨logger, span⟩ := target
      dsimp only at h
      split_ifs at h with hlogger
      subst hlogger
      rw [← Option.some.inj h]
      obtain ⟨first, second, hsplit, -⟩ := List.lookup_eq_some_iff.mp hlookup
      rw [hsplit]
      exact List.mem_append_right _ List.mem_cons_self

theorem exists_of_span? (h : Grounded stage) (hspan : stage.span? handle = some id) :
    ∃ s, stage.spans.spans[id]? = some s ∧ s.held = true :=
  h.target handle id (mem_handles hspan)

theorem span?_lt (h : Grounded stage) (hspan : stage.span? handle = some id) :
    id < stage.spans.spans.length := by
  obtain ⟨s, hs, -⟩ := h.exists_of_span? hspan
  exact (List.getElem?_eq_some_iff.mp hs).1

theorem locate_lt (h : Grounded stage) (hlocate : stage.locate around = some id) :
    id < stage.spans.spans.length := by
  cases around with
  | nothing => exact absurd hlocate (by simp [Stage.locate])
  | handle name => exact h.span?_lt hlocate
  | current =>
    rw [Stage.locate, SpanTree.current?] at hlocate
    cases hfind : stage.spans.stack.find? fun e ↦ !e.repeated with
    | none =>
      rw [hfind] at hlocate
      exact absurd hlocate (by simp)
    | some e =>
      rw [hfind] at hlocate
      dsimp only at hlocate
      split_ifs at hlocate
      rw [← Option.some.inj hlocate]
      exact h.entry e (List.mem_of_find?_eq_some hfind)

/-! ### Steps -/

/-- Changing a span in nothing that the tree of spans is made of. -/
theorem modify (h : Grounded stage) (id : SpanId) {change : Span → Span}
    (hparent : ∀ s, (change s).parent = s.parent) (hheld : ∀ s, (change s).held = s.held) :
    Grounded ⟨⟨stage.spans.spans.modify id change, stage.spans.stack⟩, stage.handles⟩ where
  rooted := h.rooted.modify id hparent
  entry := by
    intro e he
    rw [List.length_modify]
    exact h.entry e he
  target := by
    intro handle target hmem
    obtain ⟨s, hs, hs'⟩ := h.target handle target hmem
    refine ⟨if id = target then change s else s, ?_, ?_⟩
    · rw [List.getElem?_modify, hs]
      rfl
    · split_ifs
      · rw [hheld, hs']
      · exact hs'
  distinct := h.distinct

theorem getElem?_close (hspan : stage.span? handle ≠ some id) :
    (stage.close handle).spans.spans[id]? = stage.spans.spans[id]? := by
  rw [Stage.close, Stage.through]
  cases hhandle : stage.span? handle with
  | none => rfl
  | some released =>
    have hne : released ≠ id := fun heq ↦ hspan (by rw [hhandle, heq])
    exact List.getElem?_modify_ne _ _ hne

theorem mem_handles_close {handle' : String} {target : Option HandleTarget}
    (h : (handle', target) ∈ (stage.close handle).handles) :
    (handle', target) ∈ stage.handles ∧ handle' ≠ handle := by
  simpa using List.mem_filter.mp h

/-- What one handle lets go of is held by no other. -/
theorem close (h : Grounded stage) (handle : String) : Grounded (stage.close handle) where
  rooted := by
    rw [Stage.close, Stage.through]
    cases stage.span? handle with
    | none => exact h.rooted
    | some released => exact h.rooted.modify released fun _ ↦ rfl
  entry := by
    rw [Stage.close, Stage.through]
    cases stage.span? handle with
    | none => exact h.entry
    | some released =>
      intro e he
      dsimp only [SpanTree.release_eq]
      rw [List.length_modify]
      exact h.entry e he
  target := by
    intro handle' id hid
    obtain ⟨hold, hother⟩ := mem_handles_close hid
    rw [getElem?_close]
    · exact h.target handle' id hold
    · intro hspan
      exact hother (h.distinct handle' handle id hold (mem_handles hspan))
  distinct := by
    intro first second id hfirst hsecond
    exact h.distinct first second id (mem_handles_close hfirst).1 (mem_handles_close hsecond).1

/-- A handle is given to nothing, or to a span that is held and that no handle stands for. -/
theorem assign (h : Grounded stage) (handle : String) {target : Option HandleTarget}
    (htarget : ∀ id, target = some ⟨0, id⟩ →
      (∃ s, stage.spans.spans[id]? = some s ∧ s.held = true) ∧
        ∀ handle', (handle', some ⟨0, id⟩) ∉ stage.handles) :
    Grounded (stage.assign handle target) where
  rooted := (h.close handle).rooted
  entry := (h.close handle).entry
  target := by
    intro handle' id hid
    rcases List.mem_cons.mp hid with hnew | hold
    · obtain ⟨-, htarget'⟩ := Prod.mk.inj hnew
      obtain ⟨hheld, hfree⟩ := htarget id htarget'.symm
      have hspan : stage.span? handle ≠ some id := fun hspan ↦ hfree handle (mem_handles hspan)
      exact (getElem?_close hspan).symm ▸ hheld
    · exact (h.close handle).target handle' id hold
  distinct := by
    intro first second id hfirst hsecond
    rcases List.mem_cons.mp hfirst with hfirst | hfirst <;>
      rcases List.mem_cons.mp hsecond with hsecond | hsecond
    · exact (Prod.mk.inj hfirst).1.trans (Prod.mk.inj hsecond).1.symm
    · have hfree := (htarget id (Prod.mk.inj hfirst).2.symm).2
      exact absurd (mem_handles_close hsecond).1 (hfree second)
    · have hfree := (htarget id (Prod.mk.inj hsecond).2.symm).2
      exact absurd (mem_handles_close hfirst).1 (hfree first)
    · exact (h.close handle).distinct first second id hfirst hsecond

/-- A new span is held by the handle it is made under. -/
theorem create (h : Grounded stage) (handle : String) (fields : List Field) (around : Around) :
    Grounded (stage.create handle fields around) := by
  have hmade : Grounded ⟨(stage.spans.create (stage.locate around) fields).1, stage.handles⟩ := by
    rw [SpanTree.create_eq]
    refine ⟨h.rooted.concat fun parent hparent ↦ h.locate_lt hparent, fun e he ↦ ?_,
      fun handle' id hid ↦ ?_, h.distinct⟩
    · rw [List.length_append]
      exact Nat.lt_add_right _ (h.entry e he)
    · obtain ⟨s, hs, hheld⟩ := h.target handle' id hid
      refine ⟨s, ?_, hheld⟩
      rw [List.getElem?_append_left (List.getElem?_eq_some_iff.mp hs).1, hs]
  refine hmade.assign handle fun id hid ↦ ?_
  obtain rfl : stage.spans.spans.length = id := by simpa using hid
  constructor
  · exact ⟨_, List.getElem?_concat_length, rfl⟩
  · intro handle' hmem
    obtain ⟨s, hs, -⟩ := h.target handle' _ hmem
    exact absurd (List.getElem?_eq_some_iff.mp hs).1 (Nat.lt_irrefl _)

/-- Every step keeps a stage grounded. -/
theorem after (h : Grounded stage) (sinks : Nat) (step : Step) :
    Grounded (stage.after sinks step) := by
  have hnone : ∀ handle, Grounded (stage.assign handle none) :=
    fun handle ↦ h.assign handle fun _ hid ↦ absurd hid (by simp)
  cases step with
  | event _ _ _ => exact h
  | panic _ _ _ => exact h
  | span addressee handle fields around _ _ =>
    match addressee with
    | none => exact hnone handle
    | some 0 => exact h.create handle fields around
    | some (n + 1) => exact h
  | request addressee handle id =>
    match addressee with
    | none => exact hnone handle
    | some 0 => exact h.create handle [Logger.requestField id] .current
    | some (n + 1) => exact h
  | enter handle =>
    rw [Stage.after, Stage.through]
    cases hspan : stage.span? handle with
    | none => exact h
    | some id =>
      refine ⟨h.rooted, fun e he ↦ ?_, h.target, h.distinct⟩
      rcases List.mem_cons.mp he with rfl | he
      · exact h.span?_lt hspan
      · exact h.entry e he
  | exit handle =>
    rw [Stage.after, Stage.through]
    cases stage.span? handle with
    | none => exact h
    | some id =>
      exact ⟨h.rooted, fun e he ↦ h.entry e (List.eraseP_subset he), h.target, h.distinct⟩
  | record handle fields =>
    rw [Stage.after, Stage.through]
    cases stage.span? handle with
    | none => exact h
    | some id => exact h.modify id (fun _ ↦ rfl) (fun _ ↦ rfl)
  | close handle => exact h.close handle

theorem afterAll (h : Grounded stage) (sinks : Nat) (steps : List (Moment × Step)) :
    Grounded (stage.afterAll sinks steps) := by
  induction steps generalizing stage with
  | nil => exact h
  | cons p rest ih => exact ih (h.after sinks p.2)

/-! ### Around an event -/

theorem isAlive_locate (h : Grounded stage) (hlocate : stage.locate around = some id) :
    stage.spans.isAlive id = true := by
  cases around with
  | nothing => exact absurd hlocate (by simp [Stage.locate])
  | handle name =>
    obtain ⟨s, hs, hheld⟩ := h.exists_of_span? hlocate
    exact isAlive_of_held hs hheld
  | current =>
    rw [Stage.locate, SpanTree.current?] at hlocate
    split at hlocate
    · split_ifs at hlocate with halive
      rwa [← Option.some.inj hlocate]
    · exact absurd hlocate (by simp)

/-- The spans around an event are a chain, from the inside out, and all of them are alive. -/
theorem exists_lineage (h : Grounded stage) (around : Around) :
    ∃ ids, Lineage stage.spans.spans (stage.locate around) ids ∧
      (∀ id ∈ ids, stage.spans.isAlive id = true) ∧
      stage.spans.scope (stage.locate around) = ids.reverse.filterMap (stage.spans.spans[·]?) := by
  cases hlocate : stage.locate around with
  | none => exact ⟨[], .nothing, fun _ hid ↦ absurd hid List.not_mem_nil, rfl⟩
  | some id =>
    have hlt := h.locate_lt hlocate
    have hchain := h.rooted.lineage_upward hlt hlt
    exact ⟨_, hchain, fun _ hid ↦ h.rooted.isAlive_of_mem hchain (h.isAlive_locate hlocate) hid, rfl⟩

end Grounded

end Session

end Logbook
