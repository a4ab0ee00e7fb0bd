import Logbook.Proofs.Json.OneLine
import Logbook.Proofs.Record.SpanFields

/-!
# Structured records

A record is built from its contributions by giving each key its value in turn, so a key stands where
it was first contributed and has the value that was contributed last (`keepsLast_record`). Where the
spans around an event have stored fields, none of them is skipped (`contributions_eq`). The last
value of the fields therefore is the record's, unless the record adds one of its own behind them
(`get?_record_fields`).

Every value of such a record is flat (`isFlat_of_mem_record`), so its line says what it says
(`legible_record`). Records of one event at two moments differ only in the time and the stack
that were taken at these moments (`sameBut_record`).
-/

set_option autoImplicit false
set_option relaxedAutoImplicit false

namespace Logbook.Structured

open SpanFields

variable {capture : Bool} {origin : List (String × Json.Value)} {now now' : Moment} {e : Event}
  {spans : List SpanFields}

/-! ### Contributions -/

theorem filterMap_reread? (hspans : ∀ s ∈ spans, s.Stored) :
    spans.filterMap reread? = spans.map readBack := by
  induction spans with
  | nil => rfl
  | cons s rest ih =>
    rw [List.forall_mem_cons] at hspans
    rw [List.filterMap_cons_some hspans.1.reread?_eq, ih hspans.2, List.map_cons]

/-- What goes into a record, in order, where every span contributes the values its text stands
for. -/
def sources (capture : Bool) (origin : List (String × Json.Value)) (now : Moment) (e : Event)
    (spans : List SpanFields) : List (String × Json.Value) :=
  [("level", .string e.severity.text), ("time", .number (.integer now.time))] ++
    (match capture, e.site.file, e.site.line with
      | true, some file, some line => [("caller", .string (file ++ ":" ++ toString line))]
      | _, _, _ => []) ++
    [("msg", .string "")] ++
    origin ++
    (spans.map readBack).flatten ++
    (match e.message? with
      | some m => [("msg", .string m.messageText)]
      | none => []) ++
    (e.pairs.map fun p ↦ (p.1, p.2.inEvent)) ++
    (if Severity.error ≤ e.severity then [("stacktrace", .string now.trace)] else [])

/-- No span around an event is skipped. -/
theorem contributions_eq (hspans : ∀ s ∈ spans, s.Stored) :
    contributions capture origin now e spans = sources capture origin now e spans := by
  have hcaller : (if capture then (e.site.text?.map fun s ↦ ("caller", Json.Value.string s)).toList
      else []) = match capture, e.site.file, e.site.line with
        | true, some file, some line => [("caller", .string (file ++ ":" ++ toString line))]
        | _, _, _ => [] := by
    unfold CallSite.text?
    cases capture <;> cases e.site.file <;> cases e.site.line <;> rfl
  have hmessage : (e.message?.map fun m ↦ ("msg", Json.Value.string m.messageText)).toList =
      match e.message? with
        | some m => [("msg", .string m.messageText)]
        | none => [] := by
    cases e.message? <;> rfl
  unfold contributions sources
  rw [filterMap_reread? hspans, hcaller, hmessage]
  rfl

/-- A record has the keys of what goes into it, in the order in which they first come and with the
values that come last. -/
theorem keepsLast_record (hspans : ∀ s ∈ spans, s.Stored) :
    (record capture origin now e spans).KeepsLast (sources capture origin now e spans) := by
  rw [← contributions_eq hspans]
  exact Keyed.keepsLast_putAll _

/-- All fields of the spans around an event are in its record. -/
theorem mem_keys_record_of_span (hspans : ∀ s ∈ spans, s.Stored) {s : SpanFields} (hs : s ∈ spans)
    {key : String} (hkey : key ∈ Keyed.keys s) :
    key ∈ (record capture origin now e spans).keys := by
  rw [(keepsLast_record hspans).keys, List.mem_eraseDups]
  have hmem : key ∈ ((spans.map readBack).flatten).map Prod.fst := by
    rw [← keys_readBack] at hkey
    obtain ⟨p, hp, rfl⟩ := List.mem_map.mp hkey
    refine List.mem_map_of_mem (List.mem_flatten.mpr ⟨s.readBack, ?_, hp⟩)
    exact List.mem_map_of_mem hs
  simp only [sources, List.map_append, List.mem_append]
  exact Or.inl (Or.inl (Or.inl (Or.inr hmem)))

/-- The keys that a record contributes of its own accord. -/
def ownKeys : List String :=
  ["level", "time", "caller", "msg", "stacktrace"]

/-- Those of them that may come behind a field of the same name. -/
def lateKeys : List String :=
  ["msg", "stacktrace"]

theorem notMem_lateKeys {key : String} (h : key ∉ ownKeys) : key ∉ lateKeys := by
  have hsubset : lateKeys ⊆ ownKeys := by decide
  exact fun hkey ↦ h (hsubset hkey)

/-- What a record contributes of its own accord before everything else. -/
def leading (capture : Bool) (now : Moment) (e : Event) : List (String × Json.Value) :=
  [("level", .string e.severity.text), ("time", .number (.integer now.time))] ++
    if capture then (e.site.text?.map fun s ↦ ("caller", Json.Value.string s)).toList else []

theorem mem_ownKeys_of_leading {p : String × Json.Value} (h : p ∈ leading capture now e) :
    p.1 ∈ ownKeys := by
  rw [leading, List.mem_append, List.mem_cons, List.mem_singleton] at h
  rcases h with (rfl | rfl) | h
  · simp [ownKeys]
  · simp [ownKeys]
  · split_ifs at h
    · obtain ⟨s, -, rfl⟩ := Option.map_eq_some_iff.mp (Option.mem_toList.mp h)
      simp [ownKeys]
    · exact absurd h List.not_mem_nil

theorem last?_eq_none_of_keys {keys : List String} {pairs : List (String × Json.Value)}
    (h : ∀ p ∈ pairs, p.1 ∈ keys) {key : String} (hkey : key ∉ keys) :
    Keyed.last? pairs key = none := by
  apply Keyed.last?_eq_none
  intro hmem
  obtain ⟨p, hp, rfl⟩ := List.mem_map.mp hmem
  exact hkey (h p hp)

/-- What goes into a record before the fields of the spans. -/
def opening (capture : Bool) (origin : List (String × Json.Value)) (now : Moment) (e : Event) :
    List (String × Json.Value) :=
  leading capture now e ++ [("msg", .string "")] ++ origin

/-- What goes into a record behind the fields of the spans. -/
def closing (now : Moment) (e : Event) : List (String × Json.Value) :=
  (e.message?.map fun m ↦ ("msg", Json.Value.string m.messageText)).toList ++
    e.pairs.map (fun p ↦ (p.1, p.2.inEvent)) ++
    if traceLevel ≤ e.severity then [("stacktrace", .string now.trace)] else []

theorem contributions_around (hspans : ∀ s ∈ spans, s.Stored) :
    contributions capture origin now e spans =
      opening capture origin now e ++ (spans.map readBack).flatten ++ closing now e := by
  rw [contributions, filterMap_reread? hspans, opening, leading, closing]
  simp only [List.append_assoc]

/-- Before the fields of the spans, only the process adds keys that are no record's own. -/
theorem last?_opening {key : String} (hlate : key ∉ lateKeys) (horigin : key ∉ origin.map Prod.fst) :
    Keyed.last? (opening capture origin now e) key = Keyed.last? (leading capture now e) key := by
  have hempty : Keyed.last? [("msg", Json.Value.string "")] key = none :=
    last?_eq_none_of_keys (by simp [lateKeys]) hlate
  rw [opening, Keyed.last?_append, Keyed.last?_append, Keyed.last?_eq_none horigin, hempty,
    Option.none_or, Option.none_or]

theorem last?_trace (now : Moment) (e : Event) {key : String} (hkey : key ≠ "stacktrace") :
    Keyed.last? (if traceLevel ≤ e.severity then
      [("stacktrace", Json.Value.string now.trace)] else []) key = none := by
  split_ifs
  · exact last?_eq_none_of_keys (List.forall_mem_singleton.mpr List.mem_cons_self)
      (mt List.mem_singleton.mp hkey)
  · rfl

/-- Behind the fields of the spans, all but the late keys come from the fields of the event. -/
theorem last?_closing {key : String} (hlate : key ∉ lateKeys) :
    Keyed.last? (closing now e) key = Keyed.last? (e.pairs.map fun p ↦ (p.1, p.2.inEvent)) key := by
  have hmessage : Keyed.last?
      (e.message?.map fun m ↦ ("msg", Json.Value.string m.messageText)).toList key = none := by
    refine last?_eq_none_of_keys (fun p hp ↦ ?_) hlate
    obtain ⟨m, -, rfl⟩ := Option.map_eq_some_iff.mp (Option.mem_toList.mp hp)
    simp [lateKeys]
  have hkey : key ≠ "stacktrace" := fun h ↦ hlate (by simp [h, lateKeys])
  rw [closing, Keyed.last?_append, Keyed.last?_append, hmessage, last?_trace now e hkey,
    Option.none_or, Option.or_none]

/-- What an event says under any name but that of the stack comes behind everything else. -/
theorem last?_closing_of_pairs {key : String} {value : Json.Value} (hkey : key ≠ "stacktrace")
    (hpairs : Keyed.last? (e.pairs.map fun p ↦ (p.1, p.2.inEvent)) key = some value) :
    Keyed.last? (closing now e) key = some value := by
  rw [closing, Keyed.last?_append, Keyed.last?_append, last?_trace now e hkey, hpairs]
  rfl

/-- The message of an event comes behind everything but fields of the event. -/
theorem last?_closing_msg {m : FieldValue} (hmessage : e.message? = some m)
    (hpairs : Keyed.last? (e.pairs.map fun p ↦ (p.1, p.2.inEvent)) "msg" = none) :
    Keyed.last? (closing now e) "msg" = some (.string m.messageText) := by
  rw [closing, Keyed.last?_append, Keyed.last?_append, last?_trace now e (by decide), hpairs,
    hmessage]
  rfl

/-- The stack comes behind everything. -/
theorem last?_closing_stacktrace (h : traceLevel ≤ e.severity) :
    Keyed.last? (closing now e) "stacktrace" = some (.string now.trace) := by
  rw [closing, if_pos h, Keyed.last?_append]
  rfl

/-- Before the fields of the spans, the severity is that of the event. -/
theorem last?_leading_level :
    Keyed.last? (leading capture now e) "level" = some (.string e.severity.text) := by
  have hcaller : ∀ p ∈ (if capture then
      (e.site.text?.map fun s ↦ ("caller", Json.Value.string s)).toList else []),
        p.1 ∈ ["caller"] := by
    intro p hp
    split_ifs at hp
    · obtain ⟨s, -, rfl⟩ := Option.map_eq_some_iff.mp (Option.mem_toList.mp hp)
      exact List.mem_singleton.mpr rfl
    · exact absurd hp List.not_mem_nil
  rw [leading, Keyed.last?_append, last?_eq_none_of_keys hcaller (by decide)]
  rfl

/-- The fields of an event contribute the last of their values. -/
theorem last?_pairs {name : String} (hname : name ≠ Field.messageName) :
    Keyed.last? (e.pairs.map fun p ↦ (p.1, p.2.inEvent)) name =
      (Field.lastValue? name e.fields).map FieldValue.inEvent := by
  rw [Event.pairs]
  induction e.fields using List.reverseRecOn with
  | nil => rfl
  | append_singleton fields f ih =>
    rw [List.filterMap_append, List.map_append, Keyed.last?_append, ih, Field.lastValue?_append,
      Option.map_or]
    congr 1
    by_cases hf : f.name = name
    · have hmessage : f.isMessage = false := by
        rw [Field.isMessage, hf]
        exact beq_eq_false_iff_ne.mpr hname
      cases hvalue : f.value <;> simp [Field.lastValue?, Keyed.last?, hmessage, hvalue, hf]
    · cases hvalue : f.value <;> by_cases hmessage : f.isMessage = true <;>
        simp [Field.lastValue?, Keyed.last?, hmessage, hvalue, hf]

/-- Under any key but the late ones, a record has the last value of the fields: those of the spans,
from the outermost on, and then those of the event. A key that is no field's has what the record
began with. -/
theorem get?_record_fields (hspans : ∀ s ∈ spans, s.Stored) {key : String} (hlate : key ∉ lateKeys)
    (horigin : key ∉ origin.map Prod.fst) :
    (record capture origin now e spans).get? key =
      (Keyed.last? ((spans.map readBack).flatten ++ e.pairs.map fun p ↦ (p.1, p.2.inEvent)) key).or
        (Keyed.last? (leading capture now e) key) := by
  rw [record, Keyed.get?_putAll, contributions_around hspans, Keyed.last?_append,
    Keyed.last?_append, last?_opening hlate horigin, last?_closing hlate, Keyed.last?_append,
    Option.or_assoc]

/-- Under every key, a record has the last value of what comes behind the fields of the spans, and
else that of the innermost span that has one, and else the last of what comes before them. -/
theorem get?_record_around (hspans : ∀ s ∈ spans, s.Stored) (key : String) :
    (record capture origin now e spans).get? key =
      ((Keyed.last? (closing now e) key).or
        (spans.reverse.findSome? fun s ↦ Keyed.get? s.readBack key)).or
          (Keyed.last? (opening capture origin now e) key) := by
  have hspansLast : Keyed.last? (spans.map readBack).flatten key =
      spans.reverse.findSome? fun s ↦ Keyed.get? s.readBack key := by
    rw [Keyed.last?_flatten, ← List.map_reverse, List.findSome?_map]
    · rfl
    · intro m hm
      obtain ⟨s, hs, rfl⟩ := List.mem_map.mp hm
      exact (hspans s hs).readBack.ascending.nodup
  rw [record, Keyed.get?_putAll, contributions_around hspans, Keyed.last?_append,
    Keyed.last?_append, hspansLast, Option.or_assoc]

/-- Under any other key than its own, a record has the last value of the event, and else that of the
innermost span that has one. -/
theorem get?_record (hspans : ∀ s ∈ spans, s.Stored) {key : String} (hown : key ∉ ownKeys)
    (horigin : key ∉ origin.map Prod.fst) :
    (record capture origin now e spans).get? key =
      (Keyed.last? (e.pairs.map fun p ↦ (p.1, p.2.inEvent)) key).or
        (spans.reverse.findSome? fun s ↦ Keyed.get? s.readBack key) := by
  have hlate := notMem_lateKeys hown
  rw [get?_record_around hspans, last?_closing hlate, last?_opening hlate horigin,
    last?_eq_none_of_keys (fun _ ↦ mem_ownKeys_of_leading) hown, Option.or_none]

theorem isFlat_inEvent (v : FieldValue) : v.inEvent.isFlat = true := by
  cases v with
  | str s => rfl
  | bool b => rfl
  | integer n => rfl
  | shown s => rfl
  | bytes b => rfl
  | float x =>
    rw [FieldValue.inEvent, Json.Value.ofFinite?]
    split_ifs <;> rfl

/-- All values that are contributed are flat if those of the process are. -/
theorem isFlat_of_mem_contributions (horigin : ∀ p ∈ origin, p.2.isFlat = true)
    (hspans : ∀ s ∈ spans, s.Stored) :
    ∀ p ∈ contributions capture origin now e spans, p.2.isFlat = true := by
  intro p hp
  rw [contributions, filterMap_reread? hspans] at hp
  simp only [List.mem_append] at hp
  rcases hp with ((((((hp | hp) | hp) | hp) | hp) | hp) | hp) | hp
  · rw [List.mem_cons, List.mem_singleton] at hp
    rcases hp with rfl | rfl <;> rfl
  · split_ifs at hp
    · rw [Option.mem_toList, Option.map_eq_some_iff] at hp
      obtain ⟨s, -, rfl⟩ := hp
      rfl
    · exact absurd hp List.not_mem_nil
  · rw [List.mem_singleton] at hp
    rw [hp]
    rfl
  · exact horigin p hp
  · obtain ⟨fields, hfields, hp⟩ := List.mem_flatten.mp hp
    obtain ⟨s, hs, rfl⟩ := List.mem_map.mp hfields
    exact (hspans s hs).readBack.flat p hp
  · rw [Option.mem_toList, Option.map_eq_some_iff] at hp
    obtain ⟨m, -, rfl⟩ := hp
    rfl
  · obtain ⟨q, -, rfl⟩ := List.mem_map.mp hp
    exact isFlat_inEvent q.2
  · split_ifs at hp
    · rw [List.mem_singleton.mp hp]
      rfl
    · exact absurd hp List.not_mem_nil

theorem isFlat_of_mem_record (horigin : ∀ p ∈ origin, p.2.isFlat = true)
    (hspans : ∀ s ∈ spans, s.Stored) :
    ∀ p ∈ record capture origin now e spans, p.2.isFlat = true :=
  fun p hp ↦ isFlat_of_mem_contributions horigin hspans p (Keyed.mem_of_mem_putAll hp)

theorem nodup_keys_record : (record capture origin now e spans).keys.Nodup :=
  Keyed.nodup_keys_putAll [] _ List.nodup_nil

/-- The text of a record reads back with its keys in order, and every value but a float as
itself. -/
theorem read?_record (horigin : ∀ p ∈ origin, p.2.isFlat = true)
    (hspans : ∀ s ∈ spans, s.Stored) :
    Json.read? (Json.Value.object (record capture origin now e spans)).text =
      some (.object ((record capture origin now e spans).map fun p ↦ (p.1, p.2.readBack))) :=
  Json.read?_object (isFlat_of_mem_record horigin hspans) nodup_keys_record

/-! ### Lines -/

/-- A record on a line of its own. -/
def lineOf (r : Json.Object) : String :=
  String.ofList ((Json.Value.object r).chars ++ ['\n'])

theorem line_eq : line capture origin now e spans = lineOf (record capture origin now e spans) :=
  rfl

theorem toList_lineOf (r : Json.Object) :
    (lineOf r).toList = (Json.Value.object r).chars ++ ['\n'] :=
  String.toList_ofList

/-- The bytes of a line are never none. -/
theorem size_lineOf (r : Json.Object) : (lineOf r).toUTF8.size ≠ 0 := by
  intro hsize
  have hempty : lineOf r = "" := by
    rw [← String.utf8ByteSize_eq_zero_iff]
    exact hsize
  have htext := toList_lineOf r
  rw [hempty] at htext
  simp at htext

/-- The line of a record says what the record says: it is one line, no key stands in it twice, and
it reads back with the keys in order and every value but a float as itself. -/
structure Legible (r : Json.Object) : Prop where
  distinct : r.keys.Nodup
  printable : Json.Printable (Json.Value.object r).chars
  reads : Json.read? (Json.Value.object r).text =
    some (.object (r.map fun p ↦ (p.1, p.2.readBack)))
  exact : ∀ p ∈ r, p.2.isFloat = false → p.2.readBack = p.2

theorem legible_record (horigin : ∀ p ∈ origin, p.2.isFlat = true)
    (hspans : ∀ s ∈ spans, s.Stored) : Legible (record capture origin now e spans) where
  distinct := nodup_keys_record
  printable := Json.printable_chars _
  reads := read?_record horigin hspans
  exact := fun p hp ↦ Json.readBack_of_isFlat (isFlat_of_mem_record horigin hspans p hp)

/-! ### Two moments -/

/-- Two values under a key are equal, or were both taken from the moment of their record. -/
def Taken (now now' : Moment) (key : String) (v w : Json.Value) : Prop :=
  v = w ∨
    key = "time" ∧ v = .number (.integer now.time) ∧ w = .number (.integer now'.time) ∨
    key = "stacktrace" ∧ v = .string now.trace ∧ w = .string now'.trace

/-- Two records have the same keys in the same order, and the same values but for those taken from
the moments of the records. -/
def SameBut (now now' : Moment) (r r' : Json.Object) : Prop :=
  List.Forall₂ (fun p q ↦ p.1 = q.1 ∧ Taken now now' p.1 p.2 q.2) r r'

theorem SameBut.put {r r' : Json.Object} (h : SameBut now now' r r') {key : String}
    {v w : Json.Value} (hvw : Taken now now' key v w) :
    SameBut now now' (r.put key v) (r'.put key w) := by
  induction h with
  | nil => exact List.Forall₂.cons ⟨rfl, hvw⟩ List.Forall₂.nil
  | @cons p q rest rest' hpq hrest ih =>
    obtain ⟨k, a⟩ := p
    obtain ⟨k', b⟩ := q
    obtain ⟨hkey, hab⟩ := hpq
    obtain rfl : k = k' := hkey
    rw [Keyed.put, Keyed.put]
    split_ifs with hk
    · exact List.Forall₂.cons ⟨rfl, hk ▸ hvw⟩ hrest
    · exact List.Forall₂.cons ⟨rfl, hab⟩ ih

theorem SameBut.putAll {r r' : Json.Object} (h : SameBut now now' r r')
    {pairs pairs' : List (String × Json.Value)} (hpairs : SameBut now now' pairs pairs') :
    SameBut now now' (r.putAll pairs) (r'.putAll pairs') := by
  induction hpairs generalizing r r' with
  | nil => exact h
  | @cons p q rest rest' hpq _ ih =>
    obtain ⟨k, a⟩ := p
    obtain ⟨k', b⟩ := q
    obtain ⟨hkey, hab⟩ := hpq
    obtain rfl : k = k' := hkey
    rw [Keyed.putAll_cons, Keyed.putAll_cons]
    exact ih (h.put hab)

theorem sameBut_refl (pairs : List (String × Json.Value)) : SameBut now now' pairs pairs :=
  List.forall₂_same.mpr fun _ _ ↦ ⟨rfl, Or.inl rfl⟩

/-- Records of one event at two moments differ only in what was taken at these moments. -/
theorem sameBut_record : SameBut now now' (record capture origin now e spans)
    (record capture origin now' e spans) := by
  refine SameBut.putAll List.Forall₂.nil ?_
  have htime : SameBut now now'
      [("level", .string e.severity.text), ("time", .number (.integer now.time))]
      [("level", .string e.severity.text), ("time", .number (.integer now'.time))] :=
    .cons ⟨rfl, Or.inl rfl⟩ (.cons ⟨rfl, Or.inr (Or.inl ⟨rfl, rfl, rfl⟩)⟩ .nil)
  have htrace : SameBut now now'
      (if traceLevel ≤ e.severity then [("stacktrace", .string now.trace)] else [])
      (if traceLevel ≤ e.severity then [("stacktrace", .string now'.trace)] else []) := by
    split_ifs
    · exact .cons ⟨rfl, Or.inr (Or.inr ⟨rfl, rfl, rfl⟩)⟩ .nil
    · exact .nil
  rw [contributions, contributions]
  exact List.rel_append (List.rel_append (List.rel_append (List.rel_append (List.rel_append
    (List.rel_append (List.rel_append htime (sameBut_refl _)) (sameBut_refl _)) (sameBut_refl _))
    (sameBut_refl _)) (sameBut_refl _)) (sameBut_refl _)) htrace

end Logbook.Structured
