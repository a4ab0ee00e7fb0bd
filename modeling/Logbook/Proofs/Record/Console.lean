import Logbook.Proofs.Record.Structured
import Logbook.Record.Console

/-!
# Console records

A console record is a time, a body and a stack, and only the time and the stack are taken from the
moment it is written at. Records of one event at two moments therefore have one body
(`sameBut_record`).
-/

set_option autoImplicit false
set_option relaxedAutoImplicit false

namespace Logbook

namespace Console

variable {color capture : Bool} {now now' : Moment} {e : Event} {spans : List String}

/-- What a record shows of the call site: file and line behind a space, if call sites are captured
and both are known. -/
def siteText (capture : Bool) (e : Event) : String :=
  if capture then (e.site.text?.map (" " ++ ·)).getD "" else ""

/-- What a record shows of the message. -/
def messageText (e : Event) : String :=
  (e.message?.map FieldValue.text).getD ""

/-- What the head of a record shows after the time: the label, the call site and the message. -/
def title (color capture : Bool) (e : Event) : String :=
  " " ++ label color e.severity ++
    (if capture then (e.site.text?.map (" " ++ ·)).getD "" else "") ++
    " " ++ (e.message?.map FieldValue.text).getD ""

theorem title_eq (color capture : Bool) (e : Event) :
    title color capture e =
      " " ++ label color e.severity ++ siteText capture e ++ " " ++ messageText e :=
  rfl

/-- The pairs of a record, each text behind a space: those of the spans and those of the event. -/
def tail (e : Event) (spans : List String) : String :=
  String.join ((spans.filter (!·.isEmpty)).map (" " ++ ·)) ++
    String.join ((pairs e.fields).map (" " ++ ·))

/-- The stack of a moment, on lines of its own. -/
def stack (now : Moment) : String :=
  String.ofList (Text.trimEnd now.trace.toList) ++ "\n"

theorem record_eq (color capture : Bool) (now : Moment) (e : Event) (spans : List String) :
    record color capture now e spans =
      now.clock.text ++ title color capture e ++ tail e spans ++ "\n" ++
        (if Structured.traceLevel ≤ e.severity then stack now else "") := by
  simp only [record, title, tail, stack, String.append_assoc]

/-- The text of every span around an event is in its record. -/
theorem exists_around_span (color capture : Bool) (now : Moment) (e : Event) {text : String}
    (hmem : text ∈ spans) (htext : text ≠ "") :
    ∃ before after, record color capture now e spans = before ++ " " ++ text ++ after := by
  have hshown : " " ++ text ∈ (spans.filter (!·.isEmpty)).map (" " ++ ·) := by
    refine List.mem_map_of_mem (List.mem_filter.mpr ⟨hmem, ?_⟩)
    simpa using htext
  obtain ⟨first, second, hsplit⟩ := List.append_of_mem hshown
  refine ⟨now.clock.text ++ title color capture e ++ String.join first,
    String.join second ++ String.join ((pairs e.fields).map (" " ++ ·)) ++ "\n" ++
      (if Structured.traceLevel ≤ e.severity then stack now else ""), ?_⟩
  rw [record_eq, tail, hsplit]
  simp only [String.join_append, String.join_cons, String.append_assoc]

/-- Two records have the same body, and a stack both or neither. -/
def SameBut (now now' : Moment) (r r' : String) : Prop :=
  ∃ (body : String) (traced : Bool),
    r = now.clock.text ++ body ++ (if traced then stack now else "") ∧
      r' = now'.clock.text ++ body ++ (if traced then stack now' else "")

theorem sameBut_record (color capture : Bool) (now now' : Moment) (e : Event)
    (spans : List String) :
    SameBut now now' (record color capture now e spans) (record color capture now' e spans) := by
  refine ⟨title color capture e ++ tail e spans ++ "\n",
    decide (Structured.traceLevel ≤ e.severity), ?_, ?_⟩
  · simp only [record_eq, String.append_assoc, decide_eq_true_eq]
  · simp only [record_eq, String.append_assoc, decide_eq_true_eq]

end Console

/-! ### Either form -/

/-- Two texts show one record, but for what each takes from its moment: the time, and the stack. -/
def ShownBut (pretty : Bool) (now now' : Moment) (text text' : String) : Prop :=
  if pretty then Console.SameBut now now' text text'
  else ∃ r r', text = Structured.lineOf r ∧ text' = Structured.lineOf r' ∧
    Structured.SameBut now now' r r'

end Logbook
