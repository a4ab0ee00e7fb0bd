import Logbook.Proofs.Json.RoundTrip
import Logbook.Span

/-!
# The fields of spans

What a span keeps has its keys in ascending order and flat values only (`Stored`). Making a span and
recording on it keep it so, however often and for however many sinks.

Stored fields are read back from their text without fail (`Stored.reread?_eq`), and this is what the
text reads as (`Stored.read?_text`): every value but a float reads back as itself. Where no value is
a float, recording the same fields for several sinks is therefore the same as recording them once
(`Exact.foldl_record`), and recording on a span whose names need no escapes is the same as having
made the span with those fields too (`record_ofFields`).
-/

set_option autoImplicit false
set_option relaxedAutoImplicit false

namespace Logbook

namespace Field

/-- The field has no float as its value. -/
def NoFloat (f : Field) : Prop :=
  ∀ x, f.value ≠ some (.float x)

/-- The name of the field needs no escape in JSON. -/
def PlainName (f : Field) : Prop :=
  ∀ c ∈ f.name.toList, Json.isPlainChar c = true

/-- The value given last under a name. -/
def lastValue? (name : String) (fields : List Field) : Option FieldValue :=
  (fields.filterMap fun f ↦ if f.name = name then f.value else none).getLast?

theorem lastValue?_append (name : String) (first second : List Field) :
    lastValue? name (first ++ second) =
      (lastValue? name second).or (lastValue? name first) := by
  rw [lastValue?, List.filterMap_append, List.getLast?_append]
  rfl

theorem lastValue?_eq_none {name : String} {fields : List Field}
    (h : ∀ f ∈ fields, f.name = name → f.value = none) : lastValue? name fields = none := by
  have hnone : (fields.filterMap fun f ↦ if f.name = name then f.value else none) = [] := by
    rw [List.filterMap_eq_nil_iff]
    intro f hf
    split_ifs with hname
    · exact h f hf hname
    · rfl
  rw [lastValue?, hnone, List.getLast?_nil]

theorem lastValue?_concat (name : String) (fields : List Field) (f : Field) :
    lastValue? name (fields ++ [f]) =
      if f.name = name then f.value.or (lastValue? name fields) else lastValue? name fields := by
  rw [lastValue?, lastValue?, List.filterMap_append]
  by_cases hname : f.name = name
  · rw [if_pos hname]
    cases hvalue : f.value with
    | none => simp [hname, hvalue]
    | some v => simp [hname, hvalue]
  · simp [hname]

end Field

namespace SpanFields

/-! ### Values -/

theorem isFlat_inSpan (v : FieldValue) : v.inSpan.isFlat = true := by
  cases v with
  | str s => rfl
  | bool b => rfl
  | integer n => rfl
  | shown s => rfl
  | float x =>
    rw [FieldValue.inSpan, Json.Value.ofFloat, Json.Value.ofFinite?]
    split_ifs <;> rfl
  | bytes b =>
    refine List.all_eq_true.mpr fun v hv ↦ ?_
    obtain ⟨n, -, rfl⟩ := List.mem_map.mp hv
    rfl

theorem isFlat_of_pair? {f : Field} {p : String × Json.Value} (h : pair? f = some p) :
    p.2.isFlat = true := by
  rw [pair?, Option.bind_eq_some_iff] at h
  obtain ⟨v, -, hp⟩ := h
  have hvalue : p.2 = v.inSpan := by
    split_ifs at hp
    all_goals rw [← Option.some.inj hp]
  rw [hvalue]
  exact isFlat_inSpan v

theorem isFloat_of_pair? {f : Field} {p : String × Json.Value} (h : pair? f = some p)
    (hf : f.NoFloat) : p.2.isFloat = false := by
  rw [pair?, Option.bind_eq_some_iff] at h
  obtain ⟨v, hv, hp⟩ := h
  have hvalue : p.2 = v.inSpan := by
    split_ifs at hp
    all_goals rw [← Option.some.inj hp]
  rw [hvalue]
  cases v with
  | float x => exact absurd hv (hf x)
  | _ => rfl

theorem plain_of_pair? {f : Field} {p : String × Json.Value} (h : pair? f = some p)
    (hf : f.PlainName) : p.1.toList.all Json.isPlainChar = true := by
  rw [pair?, Option.bind_eq_some_iff] at h
  obtain ⟨v, -, hp⟩ := h
  have hname : p.1.toList.Sublist f.name.toList := by
    split_ifs at hp
    · rw [← Option.some.inj hp]
    · rw [← Option.some.inj hp, String.toList_ofList]
      exact List.drop_sublist 2 _
    · rw [← Option.some.inj hp]
  exact List.all_eq_true.mpr fun c hc ↦ hf c (hname.subset hc)

/-- The text of a flat value can be read. -/
theorem rereadValue?_eq {v : Json.Value} (h : v.isFlat = true) :
    rereadValue? v = some v.readBack := by
  cases v with
  | null => rfl
  | bool b => rfl
  | string s => rfl
  | object members => exact absurd h Bool.false_ne_true
  | array items =>
    rw [Json.readBack_of_isFlat h rfl, rereadValue?]
    exact fun x hx ↦ absurd hx (by simp)
  | number n =>
    cases n with
    | integer n => rfl
    | float x =>
      rw [rereadValue?, Json.Value.readBack, Json.Number.readBack]
      split_ifs with hfinite
      · obtain ⟨y, hy⟩ := Json.Number.read?_float hfinite
        have hread := hy [] (by simp [Json.Ends])
        rw [List.append_nil] at hread
        rw [hread]
        rfl
      · rfl

/-! ### Stored fields -/

/-- Keys ascend, and no value nests further than an array of integers. -/
structure Stored (s : SpanFields) : Prop where
  ascending : Keyed.Ascending s
  flat : ∀ p ∈ s, p.2.isFlat = true

/-- The fields with the values their text stands for. -/
def readBack (s : SpanFields) : SpanFields :=
  s.map fun p ↦ (p.1, p.2.readBack)

theorem keys_readBack (s : SpanFields) : Keyed.keys s.readBack = Keyed.keys s := by
  rw [Keyed.keys, readBack, List.map_map]
  rfl

/-- Under every key there is the value its text stands for. -/
theorem get?_readBack (s : SpanFields) (key : String) :
    Keyed.get? s.readBack key = (Keyed.get? s key).map Json.Value.readBack := by
  induction s with
  | nil => rfl
  | cons p rest ih =>
    rw [readBack, List.map_cons, Keyed.get?_cons, ← readBack, ih, Keyed.get?_cons]
    split_ifs <;> rfl

theorem stored_nil : Stored [] :=
  ⟨Keyed.ascending_nil, by simp⟩

theorem stored_putAllSorted {s : SpanFields} (h : s.Stored) (fields : List Field) :
    Stored (Keyed.putAllSorted s (fields.filterMap pair?)) := by
  refine ⟨h.ascending.putAllSorted _, fun p hp ↦ ?_⟩
  rcases Keyed.exists_of_mem_putAllSorted hp with hnew | hold
  · obtain ⟨f, -, hf⟩ := List.mem_filterMap.mp hnew
    exact isFlat_of_pair? hf
  · exact h.flat p hold

theorem stored_ofFields (fields : List Field) : (ofFields fields).Stored :=
  stored_putAllSorted stored_nil fields

variable {s : SpanFields}

/-- The text of stored fields reads back with the same keys in the same order. -/
theorem Stored.read?_text (h : s.Stored) :
    Json.read? (Json.Value.object s).text = some (.object s.readBack) :=
  Json.read?_object h.flat h.ascending.nodup

/-- Reading stored fields back does not fail. -/
theorem Stored.reread?_eq (h : s.Stored) : s.reread? = some s.readBack := by
  have hflat := h.flat
  clear h
  rw [reread?, readBack]
  induction s with
  | nil => rfl
  | cons p rest ih =>
    obtain ⟨k, v⟩ := p
    rw [List.forall_mem_cons] at hflat
    simp only [List.mapM_cons, rereadValue?_eq hflat.1, ih hflat.2]
    rfl

theorem Stored.readBack (h : s.Stored) : s.readBack.Stored := by
  refine ⟨?_, fun p hp ↦ ?_⟩
  · rw [Keyed.Ascending, keys_readBack]
    exact h.ascending
  · obtain ⟨q, hq, rfl⟩ := List.mem_map.mp hp
    exact Json.isFlat_readBack (h.flat q hq)

theorem Stored.record (h : s.Stored) (fields : List Field) : (s.record fields).Stored := by
  rw [SpanFields.record]
  split_ifs
  · exact h
  · rw [h.reread?_eq]
    exact stored_putAllSorted h.readBack fields

/-- Recording for several sinks, one after the other. -/
theorem Stored.foldl_record (h : s.Stored) (sinks : Nat) (fields : List Field) :
    ((List.range sinks).foldl (fun (kept : SpanFields) _ ↦ kept.record fields) s).Stored := by
  induction sinks with
  | zero => exact h
  | succ n ih =>
    rw [List.range_succ, List.foldl_concat]
    exact ih.record fields

/-! ### Fields without floats -/

/-- Stored fields of which none is a float. -/
structure Exact (s : SpanFields) : Prop where
  stored : s.Stored
  noFloat : ∀ p ∈ s, p.2.isFloat = false

theorem Exact.readBack_eq (h : s.Exact) : s.readBack = s := by
  conv_rhs => rw [← List.map_id s]
  refine List.map_congr_left fun p hp ↦ ?_
  rw [Json.readBack_of_isFlat (h.stored.flat p hp) (h.noFloat p hp)]
  rfl

variable {fields : List Field}

theorem Exact.putAllSorted (h : s.Exact) (hfields : ∀ f ∈ fields, f.NoFloat) :
    Exact (Keyed.putAllSorted s (fields.filterMap pair?)) := by
  refine ⟨stored_putAllSorted h.stored fields, fun p hp ↦ ?_⟩
  rcases Keyed.exists_of_mem_putAllSorted hp with hnew | hold
  · obtain ⟨f, hf, hpair⟩ := List.mem_filterMap.mp hnew
    exact isFloat_of_pair? hpair (hfields f hf)
  · exact h.noFloat p hold

theorem exact_ofFields (hfields : ∀ f ∈ fields, f.NoFloat) : (ofFields fields).Exact :=
  Exact.putAllSorted ⟨stored_nil, by simp⟩ hfields

/-- What recording makes of fields without floats. -/
theorem Exact.record_eq (h : s.Exact) (fields : List Field) :
    s.record fields =
      if s.plainNames then Keyed.putAllSorted s (fields.filterMap pair?) else s := by
  rw [SpanFields.record, h.stored.reread?_eq, h.readBack_eq]
  by_cases hplain : s.plainNames = true
  · simp [hplain]
  · simp [hplain]

theorem Exact.record (h : s.Exact) (hfields : ∀ f ∈ fields, f.NoFloat) :
    (s.record fields).Exact := by
  rw [h.record_eq]
  split_ifs
  · exact h.putAllSorted hfields
  · exact h

theorem Exact.record_twice (h : s.Exact) (hfields : ∀ f ∈ fields, f.NoFloat) :
    (s.record fields).record fields = s.record fields := by
  rw [(h.record hfields).record_eq, h.record_eq]
  by_cases hplain : s.plainNames = true
  · rw [if_pos hplain, h.stored.ascending.putAllSorted_twice, ite_self]
  · rw [if_neg hplain, if_neg hplain]

/-- Recording for several sinks is recording once. -/
theorem Exact.foldl_record (h : s.Exact) (hfields : ∀ f ∈ fields, f.NoFloat) {sinks : Nat}
    (hsinks : 0 < sinks) :
    (List.range sinks).foldl (fun (kept : SpanFields) _ ↦ kept.record fields) s =
      s.record fields := by
  induction sinks, hsinks using Nat.le_induction with
  | base => rfl
  | succ n _ ih => rw [List.range_succ, List.foldl_concat, ih, h.record_twice hfields]

theorem plainNames_putAllSorted (h : s.plainNames = true) (hplain : ∀ f ∈ fields, f.PlainName) :
    plainNames (Keyed.putAllSorted s (fields.filterMap pair?)) = true := by
  refine List.all_eq_true.mpr fun p hp ↦ ?_
  rcases Keyed.exists_of_mem_putAllSorted hp with hnew | hold
  · obtain ⟨f, hf, hpair⟩ := List.mem_filterMap.mp hnew
    exact plain_of_pair? hpair (hplain f hf)
  · exact List.all_eq_true.mp h p hold

theorem plainNames_ofFields (hplain : ∀ f ∈ fields, f.PlainName) :
    (ofFields fields).plainNames = true :=
  plainNames_putAllSorted rfl hplain

/-- Fields that come later are given to the fields a span has. -/
theorem ofFields_append (fields more : List Field) :
    ofFields (fields ++ more) = Keyed.putAllSorted (ofFields fields) (more.filterMap pair?) := by
  rw [ofFields, ofFields, List.filterMap_append, Keyed.putAllSorted_append]

/-- Recording on a span is having made it with the recorded fields too. -/
theorem record_ofFields (hfields : ∀ f ∈ fields, f.NoFloat) (hplain : ∀ f ∈ fields, f.PlainName)
    (more : List Field) : (ofFields fields).record more = ofFields (fields ++ more) := by
  rw [(exact_ofFields hfields).record_eq, if_pos (plainNames_ofFields hplain), ofFields_append]

/-- What a field without marks in its name adds to its span. -/
theorem pair?_of_unmarked {f : Field} (hlog : f.name.startsWith "log." = false)
    (hraw : f.name.startsWith "r#" = false) :
    pair? f = f.value.map fun v ↦ (f.name, v.inSpan) := by
  rw [pair?, hlog, hraw]
  cases f.value with
  | none => rfl
  | some v => simp

theorem fst_of_pair? {f : Field} (hraw : f.name.startsWith "r#" = false)
    {p : String × Json.Value} (h : pair? f = some p) : p.1 = f.name := by
  rw [pair?, Option.bind_eq_some_iff, hraw] at h
  obtain ⟨v, -, hp⟩ := h
  split_ifs at hp with hshown hlog habsurd
  · rw [← Option.some.inj hp]
  · exact habsurd.elim
  · rw [← Option.some.inj hp]

/-- Of the values given to a span under a name, it has the last. -/
theorem get?_ofFields {name : String} (hlog : name.startsWith "log." = false)
    (hraw : ∀ f ∈ fields, f.name.startsWith "r#" = false) :
    Keyed.get? (ofFields fields) name = (Field.lastValue? name fields).map FieldValue.inSpan := by
  rw [ofFields, Keyed.get?_putAllSorted, Keyed.get?_nil, Option.or_none]
  induction fields using List.reverseRecOn with
  | nil => rfl
  | append_singleton fields f ih =>
    have hrest := ih fun g hg ↦ hraw g (List.mem_append_left _ hg)
    have hf := hraw f (List.mem_append_right _ List.mem_cons_self)
    rw [List.filterMap_append, Keyed.last?_append, hrest, Field.lastValue?_concat]
    by_cases hname : f.name = name
    · have hpair := pair?_of_unmarked (hname ▸ hlog) hf
      rw [if_pos hname, List.filterMap_cons, hpair]
      cases f.value with
      | none => rfl
      | some v => simp [Keyed.last?, hname]
    · have hnone : name ∉ ([f].filterMap pair?).map Prod.fst := by
        intro hmem
        obtain ⟨p, hp, rfl⟩ := List.mem_map.mp hmem
        obtain ⟨g, hg, hpair⟩ := List.mem_filterMap.mp hp
        rw [List.mem_singleton.mp hg] at hpair
        exact hname (fst_of_pair? hf hpair).symm
      rw [if_neg hname, Keyed.last?_eq_none hnone, Option.none_or]

end SpanFields

/-! ### Trees of spans -/

namespace SpanTree

/-- All spans have stored fields. -/
def AllStored (t : SpanTree) : Prop :=
  ∀ span ∈ t.spans, span.fields.Stored

variable {t : SpanTree}

theorem allStored_empty : empty.AllStored :=
  fun _ hspan ↦ absurd hspan List.not_mem_nil

/-- The spans around an event have stored fields. -/
theorem AllStored.scope (h : t.AllStored) (inside : Option SpanId) :
    ∀ span ∈ t.scope inside, span.fields.Stored := by
  intro span hspan
  cases inside with
  | none => exact absurd hspan List.not_mem_nil
  | some id =>
    obtain ⟨n, -, hn⟩ := List.mem_filterMap.mp hspan
    exact h span (List.mem_of_getElem? hn)

end SpanTree

end Logbook
