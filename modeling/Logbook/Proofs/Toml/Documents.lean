import Logbook.Proofs.Keyed
import Logbook.Proofs.Toml.Spelling

/-!
# Documents of plain lines

A document may be written as lines that are each a header or a pair, with keys that need no quotes
(`Line`). Reading such a document does what its lines say, one after the other
(`read?_documentText`): a header opens a table and a pair adds a value to it (`Line.add`).
-/

set_option autoImplicit false
set_option relaxedAutoImplicit false

namespace Logbook.Toml

/-! ### Lines -/

/-- A name that may stand in a key without quotes. -/
def IsBareKey (k : String) : Prop :=
  k.toList ≠ [] ∧ ∀ c ∈ k.toList, isBareKeyChar c = true

instance (k : String) : Decidable (IsBareKey k) := inferInstanceAs (Decidable (_ ∧ _))

/-- Names with points between them. -/
def dotted : List String → List Char
  | [] => []
  | [k] => k.toList
  | k :: names => k.toList ++ '.' :: dotted names

/-- A line of a document: a header, or a pair whose value has a spelling. -/
inductive Line where
  | header (path : List String)
  | pair (key : String) (v : Value) (spelling : List Char)

@[simp] theorem dotted_cons_cons (k k' : String) (names : List String) :
    dotted (k :: k' :: names) = k.toList ++ '.' :: dotted (k' :: names) := rfl

namespace Line

/-- The characters of a line. -/
def text : Line → List Char
  | header path => '[' :: (dotted path ++ [']', '\n'])
  | pair key _ spelling => key.toList ++ ' ' :: '=' :: ' ' :: (spelling ++ ['\n'])

/-- What a line adds to a document. -/
def add (a : Assembly) : Line → Option Assembly
  | header path => a.header path
  | pair key v _ => a.pair [] key v

/-- The names of a line need no quotes, and its value is spelled as one that can be read. -/
def WellSpelled : Line → Prop
  | header path => path ≠ [] ∧ path.length < depthLimit ∧ ∀ k ∈ path, IsBareKey k
  | pair key v spelling => IsBareKey key ∧ SpelledValue v spelling ∧ v.Fits

end Line

/-- The text of a document. -/
def documentText (lines : List Line) : String :=
  String.ofList (lines.flatMap Line.text)

/-! ### Keys -/

/-- A character of a key is none that ends one or that begins another line. -/
theorem ne_of_isBareKeyChar {c d : Char} (hc : isBareKeyChar c = true)
    (hd : isBareKeyChar d = false) : c ≠ d := by
  rintro rfl
  rw [hc] at hd
  exact Bool.noConfusion hd

theorem isBlank_of_isBareKeyChar {c : Char} (hc : isBareKeyChar c = true) : isBlank c = false := by
  rw [isBlank, Bool.or_eq_false_iff, beq_eq_false_iff_ne, beq_eq_false_iff_ne]
  exact ⟨ne_of_isBareKeyChar hc rfl, ne_of_isBareKeyChar hc rfl⟩

variable {k : String} {stop rest : List Char}

theorem IsBareKey.exists_cons (hk : IsBareKey k) :
    ∃ c cs, k.toList = c :: cs ∧ isBareKeyChar c = true := by
  obtain ⟨c, cs, heq⟩ := List.exists_cons_of_ne_nil hk.1
  exact ⟨c, cs, heq, hk.2 c (heq ▸ List.mem_cons_self)⟩

theorem IsBareKey.skipBlanks (hk : IsBareKey k) :
    skipBlanks (k.toList ++ stop) = k.toList ++ stop := by
  obtain ⟨c, cs, heq, hc⟩ := hk.exists_cons
  rw [heq, List.cons_append, Toml.skipBlanks, List.dropWhile_cons_of_neg]
  rw [isBlank_of_isBareKeyChar hc]
  exact Bool.false_ne_true

/-- A name is taken as a whole if nothing that follows would go on with it. -/
theorem keyPart?_bare (hk : IsBareKey k) (hstop : ∀ c ∈ stop.head?, isBareKeyChar c = false)
    (fuel : Nat) : keyPart? fuel (k.toList ++ stop) = some (k, stop) := by
  have htake : (k.toList ++ stop).takeWhile isBareKeyChar = k.toList := by
    rw [List.takeWhile_append_of_pos hk.2]
    cases stop with
    | nil => rw [List.takeWhile_nil, List.append_nil]
    | cons c stop =>
      rw [List.takeWhile_cons_of_neg (by simp [hstop c rfl]), List.append_nil]
  have hne : k.toList.isEmpty = false := List.isEmpty_eq_false_iff.mpr hk.1
  obtain ⟨c, cs, heq, hc⟩ := hk.exists_cons
  rw [keyPart?]
  · simp only [htake, hne, Bool.false_eq_true, if_false, List.drop_left, String.ofList_toList]
  · intro more hmore
    rw [heq, List.cons_append, List.cons.injEq] at hmore
    exact ne_of_isBareKeyChar hc rfl hmore.1
  · intro more hmore
    rw [heq, List.cons_append, List.cons.injEq] at hmore
    exact ne_of_isBareKeyChar hc rfl hmore.1

/-- Names with points between them are taken one after the other, up to what ends the key. -/
theorem keyParts?_dotted {c : Char} (hstop : ∀ c ∈ stop.head?, isBareKeyChar c = false)
    (hend : skipBlanks stop = c :: rest) (hpoint : c ≠ '.') {names : List String}
    (hne : names ≠ []) (hnames : ∀ k ∈ names, IsBareKey k) (fuel : Nat) {parts : Nat}
    (hparts : names.length ≤ parts) (done : List String) :
    keyParts? fuel parts done (dotted names ++ stop) = some (done.reverse ++ names, c :: rest) := by
  induction names generalizing parts done with
  | nil => exact absurd rfl hne
  | cons k names ih =>
    obtain ⟨parts, rfl⟩ : ∃ n, parts = n + 1 :=
      Nat.exists_eq_succ_of_ne_zero (Nat.ne_zero_of_lt hparts)
    have hlength : names.length ≤ parts := Nat.le_of_succ_le_succ hparts
    rw [List.forall_mem_cons] at hnames
    cases names with
    | nil =>
      rw [dotted, keyParts?, hnames.1.skipBlanks, keyPart?_bare hnames.1 hstop]
      simp only [hend]
      split
      · next heq => exact absurd (List.cons.inj heq).1 hpoint
      · rw [List.reverse_cons]
    | cons k' names =>
      have hpart : keyPart? fuel (k.toList ++ '.' :: (dotted (k' :: names) ++ stop)) =
          some (k, '.' :: (dotted (k' :: names) ++ stop)) :=
        keyPart?_bare hnames.1 (fun c hc ↦ by rw [← Option.some.inj hc]; rfl) fuel
      rw [dotted_cons_cons, List.append_assoc, List.cons_append, keyParts?, hnames.1.skipBlanks,
        hpart]
      change keyParts? fuel parts (k :: done) (dotted (k' :: names) ++ stop) = _
      rw [ih (List.cons_ne_nil k' names) hnames.2 hlength, List.reverse_cons, List.append_assoc,
        List.singleton_append]

/-- A key of names that need no quotes is read up to what ends it. -/
theorem key?_dotted {c : Char} (hstop : ∀ c ∈ stop.head?, isBareKeyChar c = false)
    (hend : skipBlanks stop = c :: rest) (hpoint : c ≠ '.') {names : List String}
    (hne : names ≠ []) (hnames : ∀ k ∈ names, IsBareKey k) (hlength : names.length < depthLimit)
    (fuel : Nat) :
    key? fuel (dotted names ++ stop) = some (names.dropLast, names.getLast hne, c :: rest) := by
  have hparts := keyParts?_dotted hstop hend hpoint hne hnames fuel (Nat.le_pred_of_lt hlength) []
  rw [List.reverse_nil, List.nil_append] at hparts
  rw [key?, ← Nat.pred_eq_sub_one, hparts]
  simp only [List.getLast?_eq_some_getLast hne, Option.map_some]

/-! ### One line -/

theorem dotted_eq_cons {names : List String} (hne : names ≠ [])
    (hnames : ∀ k ∈ names, IsBareKey k) :
    ∃ c cs, dotted names = c :: cs ∧ isBareKeyChar c = true := by
  cases names with
  | nil => exact absurd rfl hne
  | cons k names =>
    obtain ⟨c, cs, heq, hc⟩ := (hnames k List.mem_cons_self).exists_cons
    cases names with
    | nil => exact ⟨c, cs, heq, hc⟩
    | cons k' names => exact ⟨c, _, by rw [dotted_cons_cons, heq, List.cons_append], hc⟩

theorem lineEnd?_feed : lineEnd? ('\n' :: rest) = some rest := rfl

/-- A header is read as the table it opens. -/
theorem header?_dotted {path : List String} (hne : path ≠ []) (hpath : ∀ k ∈ path, IsBareKey k)
    (hlength : path.length < depthLimit) (fuel : Nat) (a : Assembly) (rest : List Char) :
    header? fuel a (dotted path ++ ']' :: '\n' :: rest) = (a.header path).map (·, rest) := by
  have hkey : key? fuel (dotted path ++ ']' :: '\n' :: rest) =
      some (path.dropLast, path.getLast hne, ']' :: '\n' :: rest) :=
    key?_dotted (fun c hc ↦ by rw [← Option.some.inj hc]; rfl) rfl (by decide) hne hpath hlength fuel
  rw [header?]
  · simp only [hkey, symbol?, lineEnd?_feed, Option.bind_eq_bind, Option.bind_some, if_pos,
      List.dropLast_append_getLast]
    cases a.header path <;> rfl
  · obtain ⟨c, cs, heq, hc⟩ := dotted_eq_cons hne hpath
    intro more hmore
    rw [heq, List.cons_append, List.cons.injEq] at hmore
    exact ne_of_isBareKeyChar hc rfl hmore.1

/-- A pair is read as the value it gives its key. -/
theorem pair?_bare {v : Value} {spelling : List Char} (hk : IsBareKey k)
    (hv : SpelledValue v spelling) (hfits : v.Fits) {fuel : Nat}
    (hfuel : spelling.length + 1 < fuel) (a : Assembly) (rest : List Char) :
    pair? fuel a (k.toList ++ ' ' :: '=' :: ' ' :: (spelling ++ '\n' :: rest)) =
      (a.pair [] k v).map (·, rest) := by
  have hkey : key? fuel (dotted [k] ++ ' ' :: '=' :: ' ' :: (spelling ++ '\n' :: rest)) =
      some ([], k, '=' :: ' ' :: (spelling ++ '\n' :: rest)) :=
    key?_dotted (fun c hc ↦ by rw [← Option.some.inj hc]; rfl) rfl (by decide)
      (List.cons_ne_nil k []) (by simpa using hk) (Nat.lt_of_succ_lt (by decide : 2 < depthLimit))
      fuel
  obtain ⟨fuel, rfl⟩ : ∃ n, fuel = n + 1 := Nat.exists_eq_succ_of_ne_zero (Nat.ne_zero_of_lt hfuel)
  have hvalue := value?_spelled hv hfits (Nat.lt_of_succ_lt_succ hfuel) (depthLimit - 1) rest
  rw [dotted] at hkey
  rw [pair?]
  simp only [hkey, symbol?, hv.skipBlanks, hvalue, lineEnd?_feed, Option.bind_eq_bind,
    Option.bind_some, if_pos]
  cases a.pair [] k v <;> rfl

theorem newline?_bare {c : Char} (hc : isBareKeyChar c = true) : newline? (c :: rest) = none := by
  unfold newline?
  split
  · next heq => exact absurd (List.cons.inj heq).1 (ne_of_isBareKeyChar hc rfl)
  · next heq => exact absurd (List.cons.inj heq).1 (ne_of_isBareKeyChar hc rfl)
  · rfl

/-! ### All lines -/

variable {line : Line} {lines : List Line} {fuel n : Nat}

/-- The first line of a document is taken as what it says. -/
theorem document?_line (hline : line.WellSpelled) (hfuel : line.text.length < fuel) (a : Assembly) :
    document? fuel (n + 1) a (line.text ++ rest) =
      (line.add a).bind fun b ↦ document? fuel n b rest := by
  cases line with
  | header path =>
    obtain ⟨hne, hlength, hpath⟩ := hline
    have hheader := header?_dotted hne hpath hlength fuel a rest
    have htext : (Line.header path).text ++ rest = '[' :: (dotted path ++ ']' :: '\n' :: rest) := by
      simp [Line.text]
    have hblanks : skipBlanks ('[' :: (dotted path ++ ']' :: '\n' :: rest)) =
        '[' :: (dotted path ++ ']' :: '\n' :: rest) := rfl
    rw [htext, document?, hblanks]
    simp only [hheader, Line.add]
    cases a.header path <;> rfl
  | pair key v spelling =>
    obtain ⟨hkey, hv, hfits⟩ := hline
    have hspelling : spelling.length + 1 < fuel := by
      simp only [Line.text, List.length_append, List.length_cons] at hfuel
      omega
    have hpair := pair?_bare hkey hv hfits hspelling a rest
    have htext : (Line.pair key v spelling).text ++ rest =
        key.toList ++ ' ' :: '=' :: ' ' :: (spelling ++ '\n' :: rest) := by
      simp [Line.text]
    obtain ⟨c, cs, heq, hc⟩ := hkey.exists_cons
    rw [htext, document?, hkey.skipBlanks]
    rw [heq, List.cons_append] at hpair ⊢
    split
    · next hstart => exact absurd hstart (List.cons_ne_nil _ _)
    · next hstart => exact absurd (List.cons.inj hstart).1 (ne_of_isBareKeyChar hc rfl)
    · next hstart => exact absurd (List.cons.inj hstart).1 (ne_of_isBareKeyChar hc rfl)
    · simp only [newline?_bare hc, hpair, Line.add]
      cases a.pair [] key v <;> rfl

/-- The lines of a document are taken one after the other. -/
theorem document?_lines (hlines : ∀ line ∈ lines, line.WellSpelled)
    (hfuel : (lines.flatMap Line.text).length < fuel) (hn : lines.length < n) (a : Assembly) :
    document? fuel n a (lines.flatMap Line.text) =
      (lines.foldlM Line.add a).bind Assembly.finish := by
  induction lines generalizing n a with
  | nil =>
    obtain ⟨n, rfl⟩ : ∃ m, n = m + 1 := Nat.exists_eq_succ_of_ne_zero (Nat.ne_zero_of_lt hn)
    rfl
  | cons line lines ih =>
    obtain ⟨n, rfl⟩ : ∃ m, n = m + 1 := Nat.exists_eq_succ_of_ne_zero (Nat.ne_zero_of_lt hn)
    rw [List.forall_mem_cons] at hlines
    rw [List.flatMap_cons, List.length_append] at hfuel
    rw [List.flatMap_cons, document?_line hlines.1 (by omega), List.foldlM_cons,
      Option.bind_eq_bind, Option.bind_assoc]
    congr 1
    funext b
    exact ih hlines.2 (by omega) (Nat.lt_of_succ_lt_succ hn) b

theorem Line.text_ne_nil (line : Line) : line.text ≠ [] := by
  cases line <;> simp [Line.text]

theorem length_le_flatMap (lines : List Line) :
    lines.length ≤ (lines.flatMap Line.text).length := by
  induction lines with
  | nil => exact le_rfl
  | cons line lines ih =>
    have hline := List.length_pos_iff.mpr line.text_ne_nil
    rw [List.flatMap_cons, List.length_append, List.length_cons]
    omega

/-- No line begins with a byte order mark. -/
theorem Line.head?_text (hline : line.WellSpelled) : line.text.head? ≠ some '\ufeff' := by
  cases line with
  | header path => simp [Line.text]
  | pair key v spelling =>
    obtain ⟨c, cs, heq, hc⟩ := hline.1.exists_cons
    simpa [Line.text, heq] using ne_of_isBareKeyChar hc (d := '\ufeff') rfl

/-- A document of plain lines is read as what its lines say. -/
theorem read?_documentText (hlines : ∀ line ∈ lines, line.WellSpelled) :
    read? (documentText lines) = (lines.foldlM Line.add .start).bind Assembly.finish := by
  have hmark : ∀ rest, lines.flatMap Line.text ≠ '\ufeff' :: rest := by
    intro rest heq
    cases lines with
    | nil => exact absurd heq.symm (List.cons_ne_nil _ _)
    | cons line lines =>
      have hhead := Line.head?_text (hlines line List.mem_cons_self)
      obtain ⟨c, cs, htext⟩ := List.exists_cons_of_ne_nil line.text_ne_nil
      rw [List.flatMap_cons, htext, List.cons_append, List.cons.injEq] at heq
      rw [htext, heq.1] at hhead
      exact hhead rfl
  have hlength := length_le_flatMap lines
  rw [read?, documentText, String.toList_ofList]
  split
  · next rest heq => exact absurd heq (hmark rest)
  · exact document?_lines hlines (by omega) (by omega) .start

/-! ### Tables -/

variable {a : Assembly} {root inner held current : Entries} {origin : Origin} {outer key : String}

theorem pair_of_notMem {v : Value} (h : key ∉ a.current.keys) :
    a.pair [] key v = some { a with current := a.current ++ [(key, .value v)] } := by
  have hhas : a.current.has key = false := by
    rw [Keyed.has, Keyed.get?_eq_none_iff.mpr h]
    rfl
  simp [Assembly.pair, addPair, changeAt, addValue, hhas, Keyed.put_of_notMem h]

/-- Pairs with new keys are added behind the others. -/
theorem foldlM_pairs {ι : Type} {key : ι → String} (value : ι → Value) (spelling : ι → List Char)
    {l : List ι} (h : (a.current.keys ++ l.map key).Nodup) :
    (l.map fun i ↦ Line.pair (key i) (value i) (spelling i)).foldlM Line.add a =
      some { a with current := a.current ++ l.map fun i ↦ (key i, .value (value i)) } := by
  induction l generalizing a with
  | nil => simp
  | cons i l ih =>
    have hnew : key i ∉ a.current.keys := by
      rw [List.nodup_append] at h
      exact fun hk ↦ h.2.2 _ hk (key i) List.mem_cons_self rfl
    rw [List.map_cons, List.append_cons] at h
    rw [List.map_cons, List.foldlM_cons, Line.add, pair_of_notMem hnew, Option.bind_eq_bind,
      Option.bind_some, ih (by rwa [Keyed.keys_append]), List.map_cons, List.append_assoc,
      List.singleton_append]

namespace Assembly

/-- A header of a table that stands alone takes over what an implied table of its name holds. -/
theorem header_top (ha : a.settle = some root) (hheld : implied? root key = some held) :
    a.header [key] = some ⟨root.erase key, held, [key], false⟩ := by
  simp [header, header.heldAt, changeAt, ha, hheld]

theorem settle_top : settle ⟨root, current, [key], false⟩ =
    some (root.put key (.table .explicit current)) := rfl

/-- A header of a table in another makes the other where it is missing. -/
theorem header_sub (ha : a.settle = some root) (hget : root.get? outer = none) :
    a.header [outer, key] =
      some ⟨root.put outer (.table .implied []), [], [outer, key], false⟩ := by
  simp [header, header.heldAt, changeAt, ha, hget, Keyed.erase]

theorem header_sub_of_table (ha : a.settle = some root)
    (hget : root.get? outer = some (.table origin inner)) (hheld : implied? inner key = some held) :
    a.header [outer, key] =
      some ⟨root.put outer (.table origin (inner.erase key)), held, [outer, key], false⟩ := by
  simp [header, header.heldAt, changeAt, ha, hget, hheld]

theorem settle_sub (hget : root.get? outer = some (.table origin inner)) :
    settle ⟨root, current, [outer, key], false⟩ =
      some (root.put outer (.table origin (inner.put key (.table .explicit current)))) := by
  simp [settle, changeAt, hget]

end Assembly

end Logbook.Toml
