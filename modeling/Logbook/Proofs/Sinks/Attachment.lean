import Logbook.Proofs.Sinks.Lineage
import Logbook.Proofs.Sinks.Records

/-!
# Fields attached for a while

A program attaches fields by making spans and entering them, and takes them off again by leaving
them. A block of steps (`Stage.isBlock`) leaves all entries it has pushed and no other ones, in any
order, also where it enters spans that were entered before, and records on and lets go of spans of
its own only. Such a block leaves no trace: an event right behind it that names no span is told with
the very spans that would have been around it right before the block (`told_around_block`).

What carries this is that the block works on top of what was there (`Within`). Its entries lie above
the older ones, and leaving a span takes out the topmost entry of that span; its spans are younger
than the older ones, which do not change. A span of the block can keep an older one alive only if
that one was alive when the span was made in it, so no older span is revived
(`Within.isAlive_eq`).
-/

set_option autoImplicit false
set_option relaxedAutoImplicit false

namespace Logbook

namespace SpanTree

variable {spans spans' : List Span} {inside : Option SpanId} {id : SpanId} {ids : List SpanId}

/-- Where every span is younger than its parent, a chain begins with the youngest of its spans. -/
theorem Rooted.le_of_mem (h : Rooted spans) (hchain : Lineage spans inside ids) (hid : id ∈ ids) :
    ∃ first, inside = some first ∧ id ≤ first := by
  induction hchain with
  | nothing => exact absurd hid List.not_mem_nil
  | @span first s rest made around ih =>
    refine ⟨first, rfl, ?_⟩
    rcases List.mem_cons.mp hid with rfl | hid
    · exact Nat.le_refl _
    · obtain ⟨parent, hparent, hle⟩ := ih hid
      exact hle.trans (Nat.le_of_lt (h first s parent made hparent))

/-- A chain stays one where all its spans stay as they are. -/
theorem Lineage.congr (h : Lineage spans inside ids)
    (hsame : ∀ id ∈ ids, spans'[id]? = spans[id]?) : Lineage spans' inside ids := by
  induction h with
  | nothing => exact .nothing
  | span made _ ih =>
    rw [List.forall_mem_cons] at hsame
    exact .span (hsame.1.trans made) (ih hsame.2)

variable {t t' : SpanTree}

/-- Around what lies in a span are the spans around that one, and the span itself. -/
theorem Rooted.scope_eq (h : Rooted t.spans) {s : Span} (hs : t.spans[id]? = some s) :
    t.scope (some id) = t.scope s.parent ++ [s] := by
  have hid := (List.getElem?_eq_some_iff.mp hs).1
  have hchain := h.lineage_upward hid hid
  cases hparent : s.parent with
  | none =>
    have haround : Lineage t.spans s.parent [] := hparent.symm ▸ .nothing
    rw [scope, scope, lineage, hchain.unique (.span hs haround)]
    simp [hs]
  | some parent =>
    have hlt := Nat.lt_trans (h id s parent hs hparent) hid
    have haround : Lineage t.spans s.parent (upward t.spans t.spans.length parent) :=
      hparent.symm ▸ h.lineage_upward hlt hlt
    rw [scope, scope, lineage, lineage, hchain.unique (.span hs haround)]
    simp [hs]

/-- What is around a span depends on no younger span. -/
theorem Rooted.scope_congr (h : Rooted t.spans) (h' : Rooted t'.spans) (hid : id < t.spans.length)
    (hsame : ∀ i ≤ id, t'.spans[i]? = t.spans[i]?) : t'.scope (some id) = t.scope (some id) := by
  have hmade := (hsame id (Nat.le_refl id)).trans (List.getElem?_eq_getElem hid)
  have hid' := (List.getElem?_eq_some_iff.mp hmade).1
  have hchain := h.lineage_upward hid hid
  have holder : ∀ i ∈ upward t.spans t.spans.length id, t'.spans[i]? = t.spans[i]? := by
    intro i hi
    obtain ⟨first, hfirst, hle⟩ := h.le_of_mem hchain hi
    obtain rfl := Option.some.inj hfirst
    exact hsame i hle
  have hupward := (h'.lineage_upward hid' hid').unique (hchain.congr holder)
  rw [scope, scope, lineage, lineage, hupward]
  exact List.filterMap_congr fun i hi ↦ holder i (List.mem_reverse.mp hi)

/-- Around what lies in a new span are the spans it was made in, and the new span. -/
theorem Rooted.scope_create (h : Rooted t.spans) {parent : Option SpanId}
    (hparent : ∀ i, parent = some i → i < t.spans.length) (fields : List Field) :
    (t.create parent fields).1.scope (some t.spans.length) =
      t.scope parent ++ [Span.made parent fields] := by
  have hrooted : Rooted (t.create parent fields).1.spans := h.concat hparent
  rw [hrooted.scope_eq (s := Span.made parent fields) List.getElem?_concat_length]
  congr 1
  cases parent with
  | none => rfl
  | some i =>
    have hi := hparent i rfl
    refine h.scope_congr hrooted hi fun j hj ↦ ?_
    exact List.getElem?_append_left (Nat.lt_of_le_of_lt hj hi)

end SpanTree

namespace Session

open SpanTree

/-! ### Blocks -/

/-- The entries of a block that are on the stack behind one of its steps, each by its span and the
topmost first. -/
def Step.entered (stage : Stage) (own : List SpanId) : Step → List SpanId
  | .enter handle => (stage.span? handle).toList ++ own
  | .exit handle =>
    match stage.span? handle with
    | some id => own.erase id
    | none => own
  | _ => own

/-- Whether a step of a block minds its own business. It leaves a span that the block has entered,
or one that is not entered at all; it records on no span and lets go of none that was made before
the block, of which there are `made`, and letting go includes making another span under the
handle. -/
def Step.isOwn (made : Nat) (stage : Stage) (own : List SpanId) : Step → Bool
  | .exit handle =>
    (stage.span? handle).all fun id ↦
      own.contains id || !stage.spans.stack.any fun e ↦ e.span == id
  | .span _ handle _ _ _ _ | .request _ handle _ | .record handle _ | .close handle =>
    (stage.span? handle).all (made ≤ ·)
  | _ => true

/-- Whether steps go on as a block, of which some entries are on the stack, and take them off. -/
def Stage.closes (sinks made : Nat) : Stage → List SpanId → List (Moment × Step) → Bool
  | _, own, [] => own.isEmpty
  | stage, own, (_, step) :: rest =>
    step.isOwn made stage own &&
      closes sinks made (stage.after sinks step) (step.entered stage own) rest

/-- Whether steps are a block: they pop all entries they push and no other ones, and record on and
let go of no spans but those they make. -/
def Stage.isBlock (sinks : Nat) (stage : Stage) (steps : List (Moment × Step)) : Bool :=
  stage.closes sinks stage.spans.spans.length [] steps

/-! ### On top of what was there -/

/-- At a stage of a block, what was there at its base is as it was. The entries of the block lie
above those of the base, and its spans are younger; they were made in living spans. -/
structure Within (base stage : Stage) (own : List SpanId) : Prop where
  length : base.spans.spans.length ≤ stage.spans.spans.length
  older : ∀ id < base.spans.spans.length, stage.spans.spans[id]? = base.spans.spans[id]?
  younger : ∀ id s parent, base.spans.spans.length ≤ id → stage.spans.spans[id]? = some s →
    s.parent = some parent → parent < base.spans.spans.length → base.spans.isAlive parent = true
  entries : ∃ entries, stage.spans.stack = entries ++ base.spans.stack ∧
    entries.map Entry.span = own

namespace Within

variable {base stage : Stage} {own : List SpanId} {id : SpanId} {ids : List SpanId}

theorem refl (base : Stage) : Within base base [] :=
  ⟨Nat.le_refl _, fun _ _ ↦ rfl,
    fun _ _ _ hid hs _ _ ↦ absurd (List.getElem?_eq_some_iff.mp hs).1 (Nat.not_lt.mpr hid),
    [], rfl, rfl⟩

/-- The spans around an older span are what they were. -/
theorem lineage (h : Within base stage own) (hbase : Grounded base)
    (hid : id < base.spans.spans.length) (hchain : Lineage base.spans.spans (some id) ids) :
    Lineage stage.spans.spans (some id) ids := by
  refine hchain.congr fun i hi ↦ h.older i ?_
  obtain ⟨first, hfirst, hle⟩ := hbase.rooted.le_of_mem hchain hi
  obtain rfl := Option.some.inj hfirst
  exact Nat.lt_of_le_of_lt hle hid

/-- An older span around a span that is held was alive at the base. -/
theorem isAlive_of_mem (h : Within base stage own) (hbase : Grounded base) {inside : Option SpanId}
    (hchain : Lineage stage.spans.spans inside ids)
    (hinside : ∀ i, inside = some i → i < base.spans.spans.length → base.spans.isAlive i = true)
    (hmem : id ∈ ids) (hid : id < base.spans.spans.length) : base.spans.isAlive id = true := by
  induction hchain with
  | nothing => exact absurd hmem List.not_mem_nil
  | @span first s rest made around ih =>
    by_cases hfirst : first < base.spans.spans.length
    · have hbaseChain := hbase.rooted.lineage_upward hfirst hfirst
      have hids := (h.lineage hbase hfirst hbaseChain).unique (.span made around)
      rw [hids] at hbaseChain
      exact hbase.rooted.isAlive_of_mem hbaseChain (hinside first rfl hfirst) hmem
    · have hyoung := Nat.le_of_not_lt hfirst
      have hne : id ≠ first := fun heq ↦ hfirst (heq ▸ hid)
      refine ih (fun parent hparent ↦ h.younger first s parent hyoung made hparent) ?_
      exact List.mem_of_ne_of_mem hne hmem

/-- No older span dies and none is revived. -/
theorem isAlive_eq (h : Within base stage own) (hbase : Grounded base) (hstage : Grounded stage)
    (hid : id < base.spans.spans.length) : stage.spans.isAlive id = base.spans.isAlive id := by
  rw [Bool.eq_iff_iff]
  constructor
  · intro halive
    obtain ⟨other, s, hs, hheld, hmem⟩ := isAlive_iff.mp halive
    have hother := (List.getElem?_eq_some_iff.mp hs).1
    refine h.isAlive_of_mem hbase (hstage.rooted.lineage_upward hother hother) ?_ hmem hid
    rintro i hi hlt
    obtain rfl := Option.some.inj hi
    rw [h.older other hlt] at hs
    exact isAlive_of_held hs hheld
  · intro halive
    obtain ⟨other, s, hs, hheld, hmem⟩ := isAlive_iff.mp halive
    have hother := (List.getElem?_eq_some_iff.mp hs).1
    have hchain := h.lineage hbase hother (hbase.rooted.lineage_upward hother hother)
    refine hstage.rooted.isAlive_of_mem hchain ?_ hmem
    exact isAlive_of_held ((h.older other hother).trans hs) hheld

/-! ### Steps of a block -/

/-- A span of the block may change in anything but its parent. -/
theorem modify (h : Within base stage own) (hid : base.spans.spans.length ≤ id)
    {change : Span → Span} (hchange : ∀ s, (change s).parent = s.parent) :
    Within base ⟨⟨stage.spans.spans.modify id change, stage.spans.stack⟩, stage.handles⟩ own where
  length := by
    rw [List.length_modify]
    exact h.length
  older := by
    intro i hi
    rw [List.getElem?_modify_ne _ _ (Nat.ne_of_gt (Nat.lt_of_lt_of_le hi hid))]
    exact h.older i hi
  younger := by
    intro i s parent hi hs hparent
    rw [List.getElem?_modify, Option.map_eq_map, Option.map_eq_some_iff] at hs
    obtain ⟨old, hold, rfl⟩ := hs
    refine h.younger i old parent hi hold ?_
    split_ifs at hparent
    · rwa [← hchange]
    · exact hparent
  entries := h.entries

theorem close (h : Within base stage own) {handle : String}
    (hown : (stage.span? handle).all (base.spans.spans.length ≤ ·) = true) :
    Within base (stage.close handle) own := by
  rw [Stage.close, Stage.through]
  cases hspan : stage.span? handle with
  | none => exact ⟨h.length, h.older, h.younger, h.entries⟩
  | some id =>
    rw [hspan, Option.all_some, decide_eq_true_eq] at hown
    have hparent : ∀ s : Span, s.released.parent = s.parent := fun _ ↦ rfl
    obtain ⟨hlength, holder, hyounger, hentries⟩ := h.modify hown hparent
    exact ⟨hlength, holder, hyounger, hentries⟩

theorem assign (h : Within base stage own) {handle : String}
    (hown : (stage.span? handle).all (base.spans.spans.length ≤ ·) = true)
    (target : Option HandleTarget) : Within base (stage.assign handle target) own := by
  obtain ⟨hlength, holder, hyounger, hentries⟩ := h.close hown
  exact ⟨hlength, holder, hyounger, hentries⟩

/-- A span is made in a younger one than those of the base, in one that was alive there, or in
none. -/
theorem made (h : Within base stage own) {parent : Option SpanId}
    (hparent : ∀ i, parent = some i → i < base.spans.spans.length → base.spans.isAlive i = true)
    (fields : List Field) :
    Within base ⟨(stage.spans.create parent fields).1, stage.handles⟩ own := by
  refine ⟨?_, fun i hi ↦ ?_, fun i s around hi hs haround hlt ↦ ?_, h.entries⟩
  · rw [create_eq, List.length_append]
    exact Nat.le_add_right_of_le h.length
  · rw [create_eq, List.getElem?_append_left (Nat.lt_of_lt_of_le hi h.length)]
    exact h.older i hi
  · rw [create_eq, List.getElem?_append] at hs
    split_ifs at hs with hold
    · exact h.younger i s around hi hs haround hlt
    · rw [List.getElem?_singleton] at hs
      split_ifs at hs
      obtain rfl := Option.some.inj hs
      exact hparent around haround hlt

/-- A span is made in a living one, or in none. -/
theorem create (h : Within base stage own) (hbase : Grounded base) (hstage : Grounded stage)
    {handle : String} (hown : (stage.span? handle).all (base.spans.spans.length ≤ ·) = true)
    (fields : List Field) (around : Around) :
    Within base (stage.create handle fields around) own := by
  have hmade : Within base ⟨(stage.spans.create (stage.locate around) fields).1, stage.handles⟩ own :=
    h.made (fun i hlocate hlt ↦ by
      rw [← h.isAlive_eq hbase hstage hlt]
      exact hstage.isAlive_locate hlocate) fields
  exact hmade.assign hown _

theorem enter (h : Within base stage own) (id : SpanId) :
    Within base ⟨stage.spans.enter id, stage.handles⟩ (id :: own) := by
  obtain ⟨entries, hstack, hentries⟩ := h.entries
  refine ⟨h.length, h.older, h.younger,
    ⟨id, stage.spans.stack.any (·.span == id)⟩ :: entries, ?_, congrArg (id :: ·) hentries⟩
  dsimp only [SpanTree.enter]
  rw [hstack, List.cons_append]

/-- The entry that goes is one of the block, or there is none to go. -/
theorem exit (h : Within base stage own)
    (hown : id ∈ own ∨ stage.spans.stack.any (·.span == id) = false) :
    Within base ⟨stage.spans.exit id, stage.handles⟩ (own.erase id) := by
  obtain ⟨entries, hstack, hentries⟩ := h.entries
  rcases hown with hmem | hnone
  · obtain ⟨e, he, rfl⟩ := List.mem_map.mp (hentries ▸ hmem)
    refine ⟨h.length, h.older, h.younger, entries.eraseP (·.span == e.span), ?_, ?_⟩
    · dsimp only [SpanTree.exit]
      rw [hstack]
      exact List.eraseP_append_left (a := e) (beq_self_eq_true e.span) _ he
    · rw [← hentries, List.erase_eq_eraseP', List.eraseP_map]
      rfl
  · rw [List.any_eq_false] at hnone
    have hkept : stage.spans.stack.eraseP (·.span == id) = stage.spans.stack :=
      List.eraseP_of_forall_not hnone
    refine ⟨h.length, h.older, h.younger, entries, hkept.trans hstack, ?_⟩
    refine hentries.trans (List.erase_of_not_mem fun hmem ↦ ?_).symm
    obtain ⟨e, he, rfl⟩ := List.mem_map.mp (hentries ▸ hmem)
    refine hnone e ?_ (beq_self_eq_true e.span)
    rw [hstack]
    exact List.mem_append_left _ he

/-- A step of a block leaves what was there at its base. -/
theorem after (h : Within base stage own) (hbase : Grounded base) (hstage : Grounded stage)
    {step : Step} (hown : step.isOwn base.spans.spans.length stage own = true) (sinks : Nat) :
    Within base (stage.after sinks step) (step.entered stage own) := by
  cases step with
  | event _ _ _ => exact h
  | panic _ _ _ => exact h
  | span addressee handle fields around _ _ =>
    rcases addressee with _ | _ | n
    · exact h.assign hown none
    · exact h.create hbase hstage hown fields around
    · exact h
  | request addressee handle id =>
    rcases addressee with _ | _ | n
    · exact h.assign hown none
    · exact h.create hbase hstage hown _ .current
    · exact h
  | enter handle =>
    rw [Stage.after, Stage.through, Step.entered]
    cases stage.span? handle with
    | none => exact h
    | some id => exact h.enter id
  | exit handle =>
    rw [Stage.after, Stage.through, Step.entered]
    rw [Step.isOwn] at hown
    cases hspan : stage.span? handle with
    | none => exact h
    | some id =>
      rw [hspan, Option.all_some, Bool.or_eq_true, List.contains_iff_mem, Bool.not_eq_true'] at hown
      exact h.exit hown
  | record handle fields =>
    rw [Step.isOwn] at hown
    rw [Stage.after, Stage.through]
    cases hspan : stage.span? handle with
    | none => exact h
    | some id =>
      rw [hspan, Option.all_some, decide_eq_true_eq] at hown
      exact h.modify hown fun _ ↦ rfl
  | close handle => exact h.close hown

/-- Behind a block, the stack is what it was. -/
theorem afterAll (h : Within base stage own) (hbase : Grounded base) (hstage : Grounded stage)
    {sinks : Nat} {steps : List (Moment × Step)}
    (hsteps : stage.closes sinks base.spans.spans.length own steps = true) :
    Within base (stage.afterAll sinks steps) [] := by
  induction steps generalizing stage own with
  | nil =>
    rw [Stage.closes, List.isEmpty_iff] at hsteps
    exact hsteps ▸ h
  | cons p rest ih =>
    obtain ⟨now, step⟩ := p
    rw [Stage.closes, Bool.and_eq_true] at hsteps
    exact ih (h.after hbase hstage hsteps.1 sinks) (hstage.after sinks step) hsteps.2

/-- Where nothing of a block is entered any more, the current span is what it was at the base, and
so are the spans around it. -/
theorem scope_current (h : Within base stage []) (hbase : Grounded base) (hstage : Grounded stage) :
    stage.spans.current? = base.spans.current? ∧
      stage.spans.scope stage.spans.current? = base.spans.scope base.spans.current? := by
  obtain ⟨entries, hstack, hentries⟩ := h.entries
  obtain rfl := List.map_eq_nil_iff.mp hentries
  have hcurrent : stage.spans.current? = base.spans.current? := by
    rw [current?, current?, hstack, List.nil_append]
    cases hfind : base.spans.stack.find? fun e ↦ !e.repeated with
    | none => rfl
    | some e =>
      have he := hbase.entry e (List.mem_of_find?_eq_some hfind)
      dsimp only
      rw [h.isAlive_eq hbase hstage he]
  refine ⟨hcurrent, ?_⟩
  rw [hcurrent]
  cases hlocate : base.spans.current? with
  | none => rfl
  | some id =>
    have hlocate' : base.locate .current = some id := hlocate
    have hid : id < base.spans.spans.length := hbase.locate_lt hlocate'
    exact hbase.rooted.scope_congr hstage.rooted hid fun i hi ↦
      h.older i (Nat.lt_of_le_of_lt hi hid)

end Within

/-! ### An event around a block -/

/-- A session of one logger, of which an event that names no span makes the logger tell it with
these spans around it, if it is admitted. -/
structure Renders (s : Session) (l : Logger) (now : Moment) (e : Event) (scope : List Span) :
    Prop where
  logger : s.loggers = [l]
  told : ∃ l', (s.step now (.event (some 0) e .current)).1.loggers = [l'] ∧
    Told s.files l (admitted l.settings.level [(now, ⟨e, scope⟩)])
      (s.step now (.event (some 0) e .current)).1.files l'

variable {t t₀ : FileTree} {settings : LoggingSettings} {color : Bool} {origin : Origin}
  {l₀ : Logger} {history block : List (Moment × Step)}

theorem renders_session (stage : Stage) (files : FileTree) (l : Logger) (now : Moment) (e : Event) :
    Renders (stage.session files l) { l with spans := stage.spans } now e
      (stage.spans.scope stage.spans.current?) := by
  obtain ⟨files', l', hstep, htold⟩ :=
    told_of_step stage files l now (.event (some 0) e .current)
  refine ⟨rfl, { l' with spans := stage.spans }, congrArg Session.loggers hstep, ?_⟩
  rw [hstep]
  exact ⟨htold.settings, htold.color, htold.origin, htold.console, htold.noFile, htold.file⟩

/-- Right behind a block of steps, an event that names no span is told as it would have been right
before it: with the same spans around it, so that every sink is given the same text, but for what
that takes from its moment. Where no span is current, every sink is given what it would be given by
a logger that has just been made from these settings. -/
theorem renders_around_block (h : Logger.ofSettings t settings color origin = (t₀, .ok l₀))
    (hblock : (Stage.initial.afterAll l₀.structuredSinks history).isBlock l₀.structuredSinks block =
      true) (now now' : Moment) (e : Event) :
    ∃ l l' scope, Renders ((start t₀ [l₀]).run history) l now e scope ∧
      Renders ((start t₀ [l₀]).run (history ++ block)) l' now' e scope ∧
      l'.shows = l.shows ∧ l'.writes = l.writes ∧
      ShownBut settings.pretty now now' (l.shows (now, ⟨e, scope⟩)) (l.shows (now', ⟨e, scope⟩)) ∧
      (∃ line line', l.writes (now, ⟨e, scope⟩) = (now.stamp, line.toUTF8) ∧
        l.writes (now', ⟨e, scope⟩) = (now'.stamp, line'.toUTF8) ∧
        ShownBut false now now' line line') ∧
      (l.spans.current? = none → ∀ t' t₁ l₁,
        Logger.ofSettings t' settings color origin = (t₁, .ok l₁) →
          Renders (start t₁ [l₁]) l₁ now' e scope ∧ l₁.shows = l.shows ∧ l₁.writes = l.writes) := by
  set base := Stage.initial.afterAll l₀.structuredSinks history with hbase
  set later := base.afterAll l₀.structuredSinks block with hlater
  have hgrounded : Grounded base := Grounded.initial.afterAll _ history
  have hwithin : Within base later [] :=
    (Within.refl base).afterAll hgrounded hgrounded hblock
  obtain ⟨-, hscope⟩ := hwithin.scope_current hgrounded (hgrounded.afterAll _ block)
  obtain ⟨file, rfl, -⟩ := ofSettings_eq_ok h
  obtain ⟨files, l, hrun, htold⟩ :=
    told_of_run .initial t₀ (Logger.build settings color origin file) history
  obtain ⟨files', l', hrun', htold'⟩ :=
    told_of_run .initial t₀ (Logger.build settings color origin file) (history ++ block)
  have hsettings : l.settings = settings := htold.settings
  rw [show Stage.afterAll _ .initial (history ++ block) = later from List.foldl_append] at hrun'
  rw [show start t₀ [Logger.build settings color origin file] = Stage.initial.session t₀ _ from
    start_build .., hrun, hrun']
  refine ⟨{ l with spans := base.spans }, { l' with spans := later.spans },
    base.spans.scope base.spans.current?, renders_session base files l now e,
    ?_, ?_, ?_, ?_, ?_, ?_⟩
  · rw [← hscope]
    exact renders_session later files' l' now' e
  · exact htold'.shows_eq.trans htold.shows_eq.symm
  · exact htold'.writes_eq.trans htold.writes_eq.symm
  · rw [← hsettings]
    exact Logger.shownBut _ now now' _
  · exact ⟨_, _, rfl, rfl, Logger.shownBut_lineFor _ now now' ⟨e, _⟩⟩
  · intro hnone t' t₁ l₁ h₁
    obtain ⟨file₁, rfl, -⟩ := ofSettings_eq_ok h₁
    have hnone' : base.spans.current? = none := hnone
    rw [hnone']
    exact ⟨renders_session .initial t₁ (.build settings color origin file₁) now' e,
      htold.shows_eq.symm, htold.writes_eq.symm⟩

/-- A span that is entered. -/
def outerSteps (now : Moment) : List (Moment × Step) :=
  [(now, .span (some 0) "outer" [⟨"a", some (.bool true)⟩] .current), (now, .enter "outer")]

/-- A span is made inside another one, both are entered, and the inner one is left first. -/
def innerBlock (now : Moment) : List (Moment × Step) :=
  [(now, .span (some 0) "inner" [⟨"b", some (.bool true)⟩] .current), (now, .enter "inner"),
    (now, .enter "outer"), (now, .event (some 0) smallEvent .current), (now, .exit "inner"),
    (now, .record "inner" [⟨"b", some (.bool false)⟩]), (now, .exit "outer"), (now, .close "inner")]

/-- Behind the block, an error carries the field of the outer span, as before it, and no field of
the inner one. -/
theorem renders_around_block_inner :
    (Stage.initial.afterAll 2 (outerSteps smallMoment)).isBlock 2 (innerBlock smallMoment) = true ∧
      (∃ l l' scope,
        Renders ((start smallTree [smallLogger]).run (outerSteps smallMoment)) l
          smallMoment smallEvent
          scope ∧
        Renders ((start smallTree [smallLogger]).run
          (outerSteps smallMoment ++ innerBlock smallMoment)) l' smallMoment smallEvent scope ∧
        l'.shows = l.shows ∧ l'.writes = l.writes) ∧
      ((((start smallTree [smallLogger]).run
          (outerSteps smallMoment ++ innerBlock smallMoment)).step smallMoment
            (.event (some 0) smallEvent .current)).1.loggers.map fun l ↦ l.console.getLast?) =
        [some ("\x7b\"level\":true,\"time\":0,\"msg\":\"x\\ny\",\"hostname\":\"host\",\"pid\":0," ++
          "\"a\":true,\"stacktrace\":\"main\"\x7d\n")] := by
  have hblock : (Stage.initial.afterAll 2 (outerSteps smallMoment)).isBlock 2
      (innerBlock smallMoment) = true := by decide +kernel
  obtain ⟨l, l', scope, hbefore, hbehind, hshows, hwrites, -⟩ :=
    renders_around_block ofSettings_small hblock smallMoment smallMoment smallEvent
  exact ⟨hblock, ⟨l, l', scope, hbefore, hbehind, hshows, hwrites⟩, by decide +kernel⟩

end Session

end Logbook
