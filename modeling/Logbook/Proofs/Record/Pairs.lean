import Logbook.Proofs.Record.Console
import Logbook.Proofs.Text.Quoted

/-!
# Pairs are read back

A reader of pairs goes through a text from character to character (`Reading.step`). The first equals
sign ends a name; a value that starts with a quote ends with its closing quote, and any other value
with a space. What console records show of fields is read back as the names and the values that were
shown (`reads_pairsText`, `reads_tail`), whatever the values hold: a value that a reader could take
for something else stands between quotes.
-/

set_option autoImplicit false
set_option relaxedAutoImplicit false

namespace Logbook.Console

/-! ### The reader -/

/-- Where a reader of pairs stands: between pairs, in a name, behind an equals sign, or in a value,
bare or quoted. -/
inductive Reading where
  | between
  | name (read : List Char)
  | value (key : String)
  | bare (key : String) (read : List Char)
  | quoted (key : String) (read : List Char) (mark : Text.Mark)

namespace Reading

/-- Where the reader stands behind one more character of a name. -/
def inName (read : List Char) (c : Char) : Reading :=
  if c = '=' then .value (String.ofList read) else .name (read ++ [c])

/-- The pair that ends with a character of a bare value, if it does, and where the reader stands
then. -/
def inBare (key : String) (read : List Char) (c : Char) : Option (String × String) × Reading :=
  if c = ' ' then (some (key, String.ofList read), .between) else (none, .bare key (read ++ [c]))

/-- The pair that ends with a character, if one does, and where the reader stands then. -/
def step : Reading → Char → Option (String × String) × Reading
  | .between, c => (none, if c = ' ' then .between else inName [] c)
  | .name read, c => (none, inName read c)
  | .value key, c => if c = '"' then (none, .quoted key [] .plain) else inBare key [] c
  | .bare key read, c => inBare key read c
  | .quoted key read mark, c =>
    match Text.unquoteStep mark c with
    | none => (some (key, String.ofList read), .between)
    | some (more, next) => (none, .quoted key (read ++ more) next)

/-- The pair that the end of the text ends, if it does. -/
def last? : Reading → Option (String × String)
  | .value key => some (key, "")
  | .bare key read => some (key, String.ofList read)
  | .between | .name _ | .quoted _ _ _ => none

end Reading

/-- The pairs a reader finds in a text. -/
def pairsFrom (reading : Reading) : List Char → List (String × String)
  | [] => reading.last?.toList
  | c :: rest => (reading.step c).1.toList ++ pairsFrom (reading.step c).2 rest

/-- The pairs of a text. -/
def readPairs (text : String) : List (String × String) :=
  pairsFrom .between text.toList

/-! ### One pair -/

variable {name value : String} {chars rest read : List Char}

theorem pairsFrom_name (h : ∀ c ∈ chars, c ≠ '=') :
    pairsFrom (.name read) (chars ++ '=' :: rest) =
      pairsFrom (.value (String.ofList (read ++ chars))) rest := by
  induction chars generalizing read with
  | nil => rw [List.append_nil]; rfl
  | cons c chars ih =>
    rw [List.forall_mem_cons] at h
    rw [List.cons_append, pairsFrom, Reading.step, Reading.inName, if_neg h.1]
    dsimp only [Option.toList_none]
    rw [List.nil_append, ih h.2, List.append_assoc, List.singleton_append]

/-- A name in which nothing ends it is read up to its equals sign. -/
theorem pairsFrom_between (h : ∀ c ∈ chars, c ≠ ' ' ∧ c ≠ '=') :
    pairsFrom .between (chars ++ '=' :: rest) = pairsFrom (.value (String.ofList chars)) rest := by
  cases chars with
  | nil => rfl
  | cons c chars =>
    rw [List.forall_mem_cons] at h
    rw [List.cons_append, pairsFrom, Reading.step, if_neg h.1.1, Reading.inName, if_neg h.1.2]
    exact pairsFrom_name fun c hc ↦ (h.2 c hc).2

/-- A text after which a bare value ends. -/
def Breaks (rest : List Char) : Prop :=
  ∀ c ∈ rest.head?, c = ' '

theorem breaks_nil : Breaks [] := by
  simp [Breaks]

theorem breaks_space (rest : List Char) : Breaks (' ' :: rest) := by
  simp [Breaks]

theorem pairsFrom_bare (h : ∀ c ∈ chars, c ≠ ' ') (hrest : Breaks rest) :
    pairsFrom (.bare name read) (chars ++ rest) =
      (name, String.ofList (read ++ chars)) :: pairsFrom .between rest := by
  induction chars generalizing read with
  | nil =>
    rw [List.nil_append, List.append_nil]
    cases rest with
    | nil => rfl
    | cons c rest =>
      obtain rfl : c = ' ' := hrest c rfl
      rfl
  | cons c chars ih =>
    rw [List.forall_mem_cons] at h
    rw [List.cons_append, pairsFrom, Reading.step, Reading.inBare, if_neg h.1]
    dsimp only [Option.toList_none]
    rw [List.nil_append, ih h.2, List.append_assoc, List.singleton_append]

/-- A quoted value is read as the text that its characters stand for. -/
theorem pairsFrom_quoted {mark : Text.Mark} {s : List Char}
    (h : Text.unquote mark chars = some (s, rest)) :
    pairsFrom (.quoted name read mark) chars =
      (name, String.ofList (read ++ s)) :: pairsFrom .between rest := by
  induction chars generalizing mark read s with
  | nil => exact absurd h (by simp [Text.unquote])
  | cons c chars ih =>
    rw [Text.unquote] at h
    rw [pairsFrom, Reading.step]
    cases hstep : Text.unquoteStep mark c with
    | none =>
      rw [hstep] at h
      simp only [Option.some.injEq, Prod.mk.injEq] at h
      obtain ⟨rfl, rfl⟩ := h
      rw [List.append_nil]
      rfl
    | some p =>
      obtain ⟨more, next⟩ := p
      rw [hstep] at h
      obtain ⟨⟨s', rest'⟩, hrest, heq⟩ := Option.map_eq_some_iff.mp h
      simp only [Prod.mk.injEq] at heq
      obtain ⟨rfl, rfl⟩ := heq
      dsimp only [Option.toList_none]
      rw [List.nil_append, ih hrest, List.append_assoc]

/-- A value is read as it was before it was quoted by need. -/
theorem pairsFrom_value (hrest : Breaks rest) :
    pairsFrom (.value name) ((valueText value).toList ++ rest) =
      (name, value) :: pairsFrom .between rest := by
  rw [valueText]
  by_cases hneeds : needsQuotes value = true
  · obtain ⟨tail, htail, hunquote⟩ := Text.unquote_quotedChars value.toList rest
    rw [if_pos hneeds, Text.quoted, String.toList_ofList, htail, pairsFrom, Reading.step, if_pos rfl]
    dsimp only [Option.toList_none]
    rw [List.nil_append, pairsFrom_quoted hunquote, List.nil_append, String.ofList_toList]
  · rw [if_neg hneeds]
    rw [needsQuotes, Bool.or_eq_true, not_or, String.isEmpty_iff, List.any_eq_true] at hneeds
    obtain ⟨hempty, hchars⟩ := hneeds
    have hbare : ∀ c ∈ value.toList, c ≠ ' ' ∧ c ≠ '"' := by
      intro c hc
      constructor <;> rintro rfl <;> exact hchars ⟨_, hc, rfl⟩
    obtain ⟨c, chars, hvalue⟩ :=
      List.exists_cons_of_ne_nil fun h ↦ hempty (String.toList_eq_nil_iff.mp h)
    rw [hvalue, List.forall_mem_cons] at hbare
    rw [hvalue, List.cons_append, pairsFrom, Reading.step, if_neg hbare.1.2, Reading.inBare,
      if_neg hbare.1.1]
    dsimp only [Option.toList_none]
    rw [List.nil_append, pairsFrom_bare (fun c hc ↦ (hbare.2 c hc).1) hrest, List.nil_append,
      List.singleton_append, ← hvalue, String.ofList_toList]

/-! ### Texts of pairs -/

/-- A text reads as pairs, whatever follows behind a space. -/
def Reads (text : String) (ps : List (String × String)) : Prop :=
  ∀ rest, Breaks rest → pairsFrom .between (text.toList ++ rest) = ps ++ pairsFrom .between rest

namespace Reads

variable {text text' : String} {ps ps' : List (String × String)}

theorem empty : Reads "" [] :=
  fun _ _ ↦ rfl

theorem eq_readPairs (h : Reads text ps) : readPairs text = ps := by
  have hread := h [] breaks_nil
  rw [List.append_nil] at hread
  rw [readPairs, hread]
  exact List.append_nil ps

theorem space (h : Reads text ps) : Reads (" " ++ text) ps := by
  intro rest hrest
  rw [String.toList_append]
  exact h rest hrest

theorem append (h : Reads text ps) (h' : Reads text' ps') (hbreaks : Breaks text'.toList) :
    Reads (text ++ text') (ps ++ ps') := by
  intro rest hrest
  have hbehind : Breaks (text'.toList ++ rest) := by
    cases hchars : text'.toList with
    | nil => exact hrest
    | cons c chars =>
      rw [hchars] at hbreaks
      exact hbreaks
  rw [String.toList_append, List.append_assoc, h _ hbehind, h' rest hrest, List.append_assoc]

theorem append_space (h : Reads text ps) (h' : Reads text' ps') :
    Reads (text ++ " " ++ text') (ps ++ ps') := by
  rw [String.append_assoc]
  refine h.append h'.space ?_
  rw [String.toList_append]
  exact breaks_space _

/-- Texts one after the other, each behind a space. -/
theorem join {texts : List String} {pss : List (List (String × String))}
    (h : List.Forall₂ Reads texts pss) :
    Reads (String.join (texts.map (" " ++ ·))) pss.flatten ∧
      Breaks (String.join (texts.map (" " ++ ·))).toList := by
  induction h with
  | nil => exact ⟨empty, breaks_nil⟩
  | @cons text ps texts pss htext _ ih =>
    rw [List.map_cons, String.join_cons, List.flatten_cons]
    refine ⟨htext.space.append ih.1 ih.2, ?_⟩
    rw [String.toList_append, String.toList_append]
    exact breaks_space _

/-- Texts with a space between them. -/
theorem intercalate {texts : List String} {pss : List (List (String × String))}
    (h : List.Forall₂ Reads texts pss) : Reads (" ".intercalate texts) pss.flatten := by
  induction h with
  | nil => exact empty
  | @cons text ps texts pss htext hrest ih =>
    by_cases hnil : texts = []
    · subst hnil
      obtain rfl : pss = [] := List.forall₂_nil_left_iff.mp hrest
      rw [String.intercalate_singleton, List.flatten_singleton]
      exact htext
    · rw [String.intercalate_cons_of_ne_nil hnil, List.flatten_cons]
      exact htext.append_space ih

end Reads

theorem reads_pair (hname : ∀ c ∈ name.toList, c ≠ ' ' ∧ c ≠ '=') (value : FieldValue) :
    Reads (pair name value) [(name, value.text)] := by
  intro rest hrest
  have hchars : (pair name value).toList ++ rest =
      name.toList ++ '=' :: ((valueText value.text).toList ++ rest) := by
    simp [pair]
  rw [hchars, pairsFrom_between hname, pairsFrom_value hrest, String.ofList_toList]
  rfl

/-! ### Fields -/

/-- What a field shows on the console: its name and the text of its value. A message shows no
pair. -/
def shown? (f : Field) : Option (String × String) :=
  if f.isMessage then none else f.value.map fun v ↦ (f.name, v.text)

variable {fields : List Field}

theorem forall₂_pairs (h : ∀ f ∈ fields, ∀ c ∈ f.name.toList, c ≠ ' ' ∧ c ≠ '=') :
    List.Forall₂ Reads (pairs fields) ((fields.filterMap shown?).map fun p ↦ [p]) := by
  induction fields with
  | nil => exact List.Forall₂.nil
  | cons f fields ih =>
    rw [List.forall_mem_cons] at h
    have hrest := ih h.2
    rw [pairs] at hrest
    rw [pairs, List.filterMap_cons, List.filterMap_cons, shown?]
    by_cases hmessage : f.isMessage = true
    · rwa [if_pos hmessage, if_pos hmessage]
    · rw [if_neg hmessage, if_neg hmessage]
      cases f.value with
      | none => exact hrest
      | some v => exact List.Forall₂.cons (reads_pair h.1 v) hrest

/-- The pairs of fields are read back as what the fields show. -/
theorem reads_pairsText (h : ∀ f ∈ fields, ∀ c ∈ f.name.toList, c ≠ ' ' ∧ c ≠ '=') :
    Reads (pairsText fields) (fields.filterMap shown?) := by
  have hread := Reads.intercalate (forall₂_pairs h)
  rwa [← List.flatMap_def, List.flatMap_singleton'] at hread

/-- What is recorded on a span is read behind what the span had. -/
theorem reads_recordText {text : String} {ps : List (String × String)} (htext : Reads text ps)
    (h : ∀ f ∈ fields, ∀ c ∈ f.name.toList, c ≠ ' ' ∧ c ≠ '=') :
    Reads (recordText text fields) (ps ++ fields.filterMap shown?) := by
  rw [recordText]
  by_cases hempty : text.isEmpty = true
  · rw [if_pos hempty]
    obtain rfl := String.isEmpty_iff.mp hempty
    have hps : ps = [] := htext.eq_readPairs.symm
    rw [hps, List.nil_append, String.empty_append]
    exact reads_pairsText h
  · rw [if_neg hempty]
    exact htext.append_space (reads_pairsText h)

/-- The pairs of a record are read back as those of the spans, from the outermost on, and then
those of the event. -/
theorem reads_tail {e : Event} {spans : List String} {pss : List (List (String × String))}
    (hspans : List.Forall₂ Reads spans pss)
    (h : ∀ f ∈ e.fields, ∀ c ∈ f.name.toList, c ≠ ' ' ∧ c ≠ '=') :
    Reads (tail e spans) (pss.flatten ++ e.fields.filterMap shown?) := by
  -- A span whose text is empty is left out of the record, and reads as no pairs.
  have hshown : ∃ pss', List.Forall₂ Reads (spans.filter (!·.isEmpty)) pss' ∧
      pss'.flatten = pss.flatten := by
    induction hspans with
    | nil => exact ⟨[], List.Forall₂.nil, rfl⟩
    | @cons text ps spans pss htext _ ih =>
      obtain ⟨pss', hforall, hflatten⟩ := ih
      by_cases hempty : text.isEmpty = true
      · have hps : ps = [] := by
          rw [← htext.eq_readPairs, String.isEmpty_iff.mp hempty]
          rfl
        refine ⟨pss', ?_, by rw [hps, hflatten]; rfl⟩
        rwa [List.filter_cons_of_neg (by simp [hempty])]
      · refine ⟨ps :: pss', ?_, by rw [List.flatten_cons, List.flatten_cons, hflatten]⟩
        rw [List.filter_cons_of_pos (by simp [hempty])]
        exact List.Forall₂.cons htext hforall
  obtain ⟨pss', hforall, hflatten⟩ := hshown
  obtain ⟨hevent, hbreaks⟩ := Reads.join (forall₂_pairs h)
  rw [← List.flatMap_def, List.flatMap_singleton'] at hevent
  rw [tail, ← hflatten]
  exact (Reads.join hforall).1.append hevent hbreaks

end Logbook.Console
