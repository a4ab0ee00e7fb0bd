import Logbook.Proofs.Sinks.ConsoleLines

/-!
# Last words

Before a program panics, it hands its logger one event: the message of the panic under a reserved
target, and the fields that are given with it (`LastWords.event`). No minimum keeps it out
(`admits_panicEvent`), so every sink is told by one record (`TellsLastWords`, `lastWords_of_run`), a
line for people (`lastLine`) or a structured one, which has the message as the panic has it
(`SaysLastWords`).

The severity stands at the beginning of a record and so gives way to a field of the same name, of a
span around the panic as of the panic itself (`span_hides_severity`). On a line for people it is the
label, which nothing hides.
-/

set_option autoImplicit false
set_option relaxedAutoImplicit false

namespace Logbook

open Structured

/-! ### The event -/

namespace LastWords

/-- What a line shows of the given fields: a pair for each, unless it is named like a message. -/
def pairs (words : LastWords) : List String :=
  (words.fields.filter fun p ↦ p.1 ≠ Field.messageName).map fun p ↦ Console.pair p.1 p.2

variable (words : LastWords) (target : String) (site : CallSite)

theorem fields_event : (words.event target site).fields =
    ⟨Field.messageName, some (.shown words.message)⟩ ::
      words.fields.map fun p ↦ ⟨p.1, some p.2⟩ :=
  rfl

theorem isMessage_message (value : Option FieldValue) :
    Field.isMessage ⟨Field.messageName, value⟩ = true :=
  beq_self_eq_true _

/-- What an event says of its own is what the last words say, but for what they say under the name
of a message. -/
theorem pairs_event :
    (words.event target site).pairs = words.fields.filter fun p ↦ p.1 ≠ Field.messageName := by
  simp only [Event.pairs, fields_event, List.filterMap_cons, isMessage_message, if_true,
    List.filterMap_map]
  induction words.fields with
  | nil => rfl
  | cons p rest ih =>
    by_cases hname : p.1 = Field.messageName
    · rw [List.filterMap_cons_none (by simp [Field.isMessage, hname]), ih,
        List.filter_cons_of_neg (by simp [hname])]
    · rw [List.filterMap_cons_some (b := p) (by simp [Field.isMessage, hname]), ih,
        List.filter_cons_of_pos (by simp [hname])]

/-- Under any name but that of a message, an event has the value that the last words give last. -/
theorem last?_pairs_event {name : String} (hname : name ≠ Field.messageName) :
    Keyed.last? ((words.event target site).pairs.map fun p ↦ (p.1, p.2.inEvent)) name =
      (Keyed.last? words.fields name).map FieldValue.inEvent := by
  have hfilter : (words.fields.filter fun p ↦ p.1 ≠ Field.messageName).filter
      (fun p ↦ p.1 = name) = words.fields.filter fun p ↦ p.1 = name := by
    rw [List.filter_filter]
    refine List.filter_congr fun p _ ↦ ?_
    by_cases hp : p.1 = name <;> simp [hp, hname]
  rw [Keyed.last?_map, pairs_event, Keyed.last?, hfilter]
  rfl

theorem console_pairs_event : Console.pairs (words.event target site).fields = words.pairs := by
  rw [pairs, ← pairs_event words target site, Event.pairs, Console.pairs, List.map_filterMap]
  refine List.filterMap_congr fun f _ ↦ ?_
  split_ifs
  · rfl
  · cases f.value <;> rfl

/-- The message of the event is that of the last words, unless a field is named like a message. -/
theorem message?_event (hnames : ∀ p ∈ words.fields, p.1 ≠ Field.messageName) :
    (words.event target site).message? = some (.shown words.message) := by
  have hrest : (words.fields.map fun p ↦ Field.mk p.1 (some p.2)).filterMap
      (fun f ↦ if f.isMessage then f.value else none) = [] := by
    rw [List.filterMap_map, List.filterMap_eq_nil_iff]
    intro p hp
    simp [Field.isMessage, hnames p hp]
  simp only [Event.message?, fields_event, List.filterMap_cons, isMessage_message, if_true, hrest]
  rfl

theorem severity_panicEvent : (words.panicEvent site).severity = .panic := by
  have htarget : Severity.ofEvent .error Severity.panicTarget = .panic := by decide
  exact htarget

/-- No minimum keeps out what precedes a panic. -/
theorem admits_panicEvent (min : Severity) : min ≤ (words.panicEvent site).severity := by
  rw [severity_panicEvent]
  cases min <;> decide

end LastWords

theorem Logger.level_not_mem_originFields (settings : LoggingSettings) (origin : Origin) :
    "level" ∉ (originFields settings origin).map Prod.fst := by
  rw [originFields]
  split_ifs
  · exact List.not_mem_nil
  · simp [Origin.fields]

namespace Session

open Console Text

variable {s : Session} {now : Moment} {step : Step} {r : Json.Object}

/-- A step writes one text to the log file, if there is one: behind what is in the file or, if that
is beyond the limit, into a new file at its place. -/
def Appends (s : Session) (now : Moment) (step : Step) (text : String) : Prop :=
  ∃ l, s.loggers = [l] ∧
    (l.file = none → (s.step now step).1.files = s.files) ∧
    ∀ f, l.file = some f → ∃ content, s.files.content? f.place = some content ∧
      (s.step now step).1.files.content? f.place = some (f.base content ++ text.toUTF8)

variable {t t₀ : FileTree} {settings : LoggingSettings} {color : Bool} {origin : Origin}
  {l₀ : Logger}

/-- A record that is distributed is what a console of structured records shows. -/
theorem Distributes.shows (h : Logger.ofSettings t settings color origin = (t₀, .ok l₀))
    {before : List (Moment × Step)}
    (hdistributes : ((start t₀ [l₀]).run before).Distributes now step r)
    (hpretty : settings.pretty = false) :
    ((start t₀ [l₀]).run before).Shows now step (lineOf r) := by
  obtain ⟨l, l', hl, hl', hconsole, -⟩ := hdistributes
  obtain ⟨l'', hl'', -, htold⟩ := told_of_start h before
  obtain rfl := List.singleton_inj.mp (hl.symm.trans hl'')
  obtain ⟨file, rfl, -⟩ := ofSettings_eq_ok h
  refine ⟨l, l', hl, hl', hconsole ?_⟩
  rw [htold.settings]
  exact hpretty

/-- A record that is distributed is written to the log file, if no write has failed. -/
theorem Distributes.appends (ht : t.WellFormed)
    (h : Logger.ofSettings t settings color origin = (t₀, .ok l₀)) {before : List (Moment × Step)}
    (hdistributes : ((start t₀ [l₀]).run before).Distributes now step r)
    (hfailures : ∀ l ∈ (((start t₀ [l₀]).run before).step now step).1.loggers, l.failures = []) :
    ((start t₀ [l₀]).run before).Appends now step (lineOf r) := by
  obtain ⟨l, l', hl, hl', -, hnone, hfile⟩ := hdistributes
  refine ⟨l, hl, hnone, fun f hf ↦ ?_⟩
  obtain ⟨f', failed, hwrite, -, hfailed⟩ := hfile f hf
  rw [hfailures l' (hl' ▸ List.mem_singleton_self l'), eq_comm, List.append_eq_nil_iff,
    Option.toList_eq_nil_iff] at hfailed
  obtain ⟨hold, rfl⟩ := hfailed
  obtain ⟨l'', hl'', -, htold⟩ := told_of_start h before
  obtain rfl := List.singleton_inj.mp (hl.symm.trans hl'')
  cases hfirst : l₀.file with
  | none => exact absurd ((htold.noFile hfirst).2.1.symm.trans hf) (by simp)
  | some f₀ =>
    -- no write before this one has failed, so the file still stands open
    obtain ⟨g, id, content, hg, -, hopen, -⟩ := isOpen_of_told ht h hfirst htold hold
    obtain rfl := Option.some.inj (hf.symm.trans hg)
    obtain ⟨next, hopen', hplace⟩ := hopen.exists_ends (size_lineOf r) hwrite
    refine ⟨content, hopen.stands.content?_eq, ?_⟩
    rw [← hplace]
    exact hopen'.stands.content?_eq

/-- Last words for people: the label of the severity, the message, the words of the spans around,
the given fields, and the stack. -/
def lastLine (settings : LoggingSettings) (color : Bool) (words : LastWords) (site : CallSite)
    (now : Moment) (around : List String) : String :=
  let e := words.panicEvent site
  now.clock.text ++ " " ++ label color .panic ++ siteText settings.debug e ++ " " ++ messageText e ++
    String.join ((around ++ words.pairs).map (" " ++ ·)) ++ "\n" ++ stack now

/-- What a structured record says of last words, inside the spans `ids`. -/
structure SaysLastWords (s : Session) (ids : List SpanId) (words : LastWords) (now : Moment)
    (r : Json.Object) : Prop where
  legible : Legible r
  /-- The message is as the panic has it, unless a given field is named like it. -/
  message : (∀ p ∈ words.fields, p.1 ≠ Field.messageName) → (∀ p ∈ words.fields, p.1 ≠ "msg") →
    r.get? "msg" = some (.string words.message)
  stack : r.get? "stacktrace" = some (.string now.trace)
  /-- Every given field is there under its name, if that is not the message's or the stack's. -/
  fields : ∀ name value, name ≠ Field.messageName → name ≠ "stacktrace" →
    Keyed.last? words.fields name = some value → r.get? name = some value.inEvent
  /-- The severity gives way to a given field and to a field of a span around the panic. -/
  severity : r.get? "level" = (((Keyed.last? words.fields "level").map FieldValue.inEvent).or
    (ids.findSome? fun id ↦ Keyed.get? (s.fieldsOf id).readBack "level")).or
      (some (.string Severity.panic.text))

/-- How the sinks of a logger with these settings are told last words: by one record, `r` where it
is structured, with the words of the spans `around` it. -/
structure TellsLastWords (s : Session) (settings : LoggingSettings) (color : Bool)
    (words : LastWords) (site : CallSite) (now : Moment) (around : List String) (r : Json.Object) :
    Prop where
  structured : settings.pretty = false → s.Shows now (.panic (some 0) words site) (lineOf r)
  people : settings.pretty = true → s.Shows now (.panic (some 0) words site)
    (lastLine settings color words site now around)
  /-- On a line for people the message is as the panic has it, unless a given field is named so. -/
  message : (∀ p ∈ words.fields, p.1 ≠ Field.messageName) →
    messageText (words.panicEvent site) = words.message
  file : (∀ l ∈ (s.step now (.panic (some 0) words site)).1.loggers, l.failures = []) →
    s.Appends now (.panic (some 0) words site) (lineOf r)

/-- Last words are told to every sink by one record, and then the program panics with their message.
Where there is no logger, nothing is told, and the program panics with the same message. -/
theorem lastWords_of_run (ht : t.WellFormed)
    (h : Logger.ofSettings t settings color origin = (t₀, .ok l₀)) (before : List (Moment × Step))
    (words : LastWords) (site : CallSite) (now : Moment) :
    let s := (start t₀ [l₀]).run before
    (s.step now (.panic (some 0) words site)).2 = .panicked words.message ∧
      (∀ s' : Session, s'.step now (.panic none words site) = (s', .panicked words.message)) ∧
      ∃ ids r, s.Inside .current ids ∧ s.SaysLastWords ids words now r ∧
        s.TellsLastWords settings color words site now
          (ids.reverse.flatMap fun id ↦ Console.words
            (history (Stage.initial.allBatches l₀.structuredSinks before) id)) r := by
  intro s
  set e := words.panicEvent site
  have hevent : (Step.panic (some 0) words site).event? 0 = some (e, .current) := rfl
  have hadmits := words.admits_panicEvent site
  have hpairs : ∀ name, name ≠ Field.messageName →
      Keyed.last? (e.pairs.map fun p ↦ (p.1, p.2.inEvent)) name =
        (Keyed.last? words.fields name).map FieldValue.inEvent :=
    fun _ ↦ words.last?_pairs_event _ site
  have hmessage : (∀ p ∈ words.fields, p.1 ≠ Field.messageName) →
      e.message? = some (.shown words.message) :=
    words.message?_event Severity.panicTarget site
  obtain ⟨ids, r, hinside, hdistributes, hlegible, hvalues⟩ :=
    exists_distributed h before hevent (hadmits _) now
  refine ⟨rfl, fun _ ↦ rfl, ids, r, hinside, ?_, ?_⟩
  · refine ⟨hlegible, fun hnames hmsg ↦ ?_, ?_, fun name value hname hstack hvalue ↦ ?_, ?_⟩
    · have hnone : Keyed.last? words.fields "msg" = none := by
        refine Keyed.last?_eq_none fun hmem ↦ ?_
        obtain ⟨p, hp, hname⟩ := List.mem_map.mp hmem
        exact hmsg p hp hname
      rw [hvalues, last?_closing_msg (hmessage hnames) (by rw [hpairs _ (by decide), hnone]; rfl)]
      rfl
    · rw [hvalues, last?_closing_stacktrace (hadmits _)]
      rfl
    · rw [hvalues, last?_closing_of_pairs hstack (by rw [hpairs _ hname, hvalue]; rfl)]
      rfl
    · rw [hvalues, last?_closing (by decide), hpairs _ (by decide),
        last?_opening (by decide) (Logger.level_not_mem_originFields settings origin),
        last?_leading_level, words.severity_panicEvent site]
  · refine ⟨hdistributes.shows h, fun hpretty ↦ ?_, fun hnames ↦ ?_, hdistributes.appends ht h⟩
    · obtain ⟨ids', hinside', hshows⟩ := exists_shown h hpretty before hevent (hadmits _) now
      obtain rfl := hinside.unique hinside'
      have hgiven : Console.pairs e.fields = words.pairs := words.console_pairs_event _ site
      rw [Console.record_eq, title_eq, ← Function.comp_def, ← List.map_map, tail_eq,
        List.flatMap_map, if_pos (hadmits _), words.severity_panicEvent site, hgiven] at hshows
      simpa only [lastLine, String.append_assoc] using hshows
    · rw [messageText, hmessage hnames]
      rfl

/-- A span with fields under names that a panic uses itself. -/
def rivalSteps : List (Moment × Step) :=
  [(smallMoment, .span (some 0) "span" [⟨"level", some (.str "calm")⟩, ⟨"msg", some (.str "fine")⟩,
      ⟨"code", some (.bool true)⟩] .current),
    (smallMoment, .enter "span")]

/-- Last words with a text between quotes, and with a field. -/
def rivalWords : LastWords :=
  ⟨[("code", .integer default)], "invariant broken: \"a\\n\""⟩

/-- Of what the span has, only the severity shows in the record. -/
theorem lastWords_of_run_rivals :
    let s := (start smallTree [prettyLogger]).run rivalSteps
    let step : Step := .panic (some 0) rivalWords .unknown
    (s.step smallMoment step).2 = .panicked "invariant broken: \"a\\n\"" ∧
      s.Shows smallMoment step ("00:00:00 AM PANIC invariant broken: \"a\\n\"" ++
        " level=calm msg=fine code=true code=0\nmain\n") ∧
      ∃ r, s.Appends smallMoment step (lineOf r) ∧
        r.get? "msg" = some (.string "invariant broken: \"a\\n\"") ∧
        r.get? "code" = some (.number (.integer default)) ∧
        r.get? "level" = some (.string "calm") := by
  intro s step
  obtain ⟨hreply, -, ids, r, hinside, hsays, htells⟩ :=
    lastWords_of_run FileTree.wellFormed_empty ofSettings_pretty rivalSteps rivalWords .unknown
      smallMoment
  obtain rfl : ids = [0] := hinside.unique ⟨_, rfl, .span rfl .nothing⟩
  have htext : lastLine prettySettings false rivalWords .unknown smallMoment
      (([0] : List SpanId).reverse.flatMap fun id ↦ Console.words
        (history (Stage.initial.allBatches prettyLogger.structuredSinks rivalSteps) id)) =
      "00:00:00 AM PANIC invariant broken: \"a\\n\"" ++
        " level=calm msg=fine code=true code=0\nmain\n" := by
    decide +kernel
  have hfailures : (s.step smallMoment step).1.loggers.map Logger.failures = [[]] := by
    decide +kernel
  refine ⟨hreply, htext ▸ htells.people rfl, r, htells.file fun l hl ↦ ?_,
    hsays.message (by decide) (by decide), hsays.fields "code" _ (by decide) (by decide) rfl,
    hsays.severity.trans rfl⟩
  exact List.mem_singleton.mp (hfailures ▸ List.mem_map_of_mem hl)

/-- A record does not always have the severity and the message of the panic. A field of a span can
stand in place of the one, and a field of the panic in place of the other. -/
theorem span_hides_severity :
    let shown := fun (before : List (Moment × Step)) (words : LastWords) ↦
      ((start smallTree [smallLogger]).run
        (before ++ [(smallMoment, .panic (some 0) words .unknown)])).loggers.map
          fun l ↦ l.console.getLast?
    Severity.panic.text = "panic" ∧
      shown rivalSteps ⟨[], "invariant broken"⟩ =
        [some ("\x7b\"level\":\"calm\",\"time\":0,\"msg\":\"invariant broken\"," ++
          "\"hostname\":\"host\",\"pid\":0,\"code\":true,\"stacktrace\":\"main\"\x7d\n")] ∧
      shown [] ⟨[("msg", .str "fine")], "invariant broken"⟩ =
        [some ("\x7b\"level\":\"panic\",\"time\":0,\"msg\":\"fine\"," ++
          "\"hostname\":\"host\",\"pid\":0,\"stacktrace\":\"main\"\x7d\n")] :=
  ⟨rfl, by decide +kernel, by decide +kernel⟩

end Session

end Logbook
