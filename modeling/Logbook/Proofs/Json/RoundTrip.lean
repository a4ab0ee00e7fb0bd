import Logbook.Proofs.Json.Numbers
import Logbook.Proofs.Json.Spelling
import Logbook.Proofs.Keyed

/-!
# JSON text reads back

The text of a value reads back (`read?_text`): as the value itself, but for floats, which read back
as some float or as `null`, and for members of an object under one key, of which the last one stays
(`Value.readBack`).

The values of fields are flat: they nest no further than an array of integers. A flat value that is
no float reads back as itself (`readBack_of_isFlat`).
-/

set_option autoImplicit false
set_option relaxedAutoImplicit false

namespace Logbook.Json

/-! ### What reading gives -/

/-- What the text of a number reads back as. -/
def Number.readBack : Number → Value
  | .integer n => .number (.integer n)
  | .float x =>
    if x.isFinite then
      match Number.read? (Number.float x).chars with
      | some (n, _) => .number n
      | none => .null
    else .null

mutual

/-- What the text of a value reads back as. -/
def Value.readBack : Value → Value
  | .null => .null
  | .bool b => .bool b
  | .number n => n.readBack
  | .string s => .string s
  | .array items => .array (itemsReadBack items)
  | .object members => .object (Keyed.putAll [] (membersReadBack members))

/-- What the texts of several values read back as. -/
def itemsReadBack : List Value → List Value
  | [] => []
  | v :: rest => v.readBack :: itemsReadBack rest

/-- What the texts of members read back as, before those under one key come together. -/
def membersReadBack : List (String × Value) → List (String × Value)
  | [] => []
  | (k, v) :: rest => (k, v.readBack) :: membersReadBack rest

end

theorem membersReadBack_eq (members : List (String × Value)) :
    membersReadBack members = members.map fun p ↦ (p.1, p.2.readBack) := by
  induction members with
  | nil => rfl
  | cons p rest ih =>
    obtain ⟨k, v⟩ := p
    rw [membersReadBack, ih]
    rfl

mutual

/-- How deep a value nests. -/
def Value.depth : Value → Nat
  | .array items => itemsDepth items + 1
  | .object members => membersDepth members + 1
  | _ => 0

/-- How deep the items of an array nest. -/
def itemsDepth : List Value → Nat
  | [] => 0
  | v :: rest => max v.depth (itemsDepth rest)

/-- How deep the members of an object nest. -/
def membersDepth : List (String × Value) → Nat
  | [] => 0
  | (_, v) :: rest => max v.depth (membersDepth rest)

end

/-! ### The start of a text -/

/-- The text starts with something that neither is a blank nor closes an array. -/
def Starts (cs : List Char) : Prop :=
  ∃ c tail, cs = c :: tail ∧ isSpace c = false ∧ c ≠ ']'

theorem Starts.append {cs : List Char} (h : Starts cs) (rest : List Char) : Starts (cs ++ rest) := by
  obtain ⟨c, tail, rfl, hspace, hclose⟩ := h
  exact ⟨c, tail ++ rest, rfl, hspace, hclose⟩

theorem skipSpace_of_starts {cs : List Char} (h : Starts cs) : skipSpace cs = cs := by
  obtain ⟨c, tail, rfl, hspace, -⟩ := h
  rw [skipSpace, List.dropWhile_cons_of_neg (by simp [hspace])]

theorem skipSpace_cons {c : Char} (h : isSpace c = false) (cs : List Char) :
    skipSpace (c :: cs) = c :: cs := by
  rw [skipSpace, List.dropWhile_cons_of_neg (by simp [h])]

/-- What reads as a number starts with a minus or a digit. -/
theorem exists_of_read?_number {cs : List Char} {r : Number × List Char}
    (h : Number.read? cs = some r) :
    ∃ c tail, cs = c :: tail ∧ (c = '-' ∨ Decimal.isDigit c = true) := by
  cases cs with
  | nil => exact absurd h (by simp [Number.read?, Number.unsigned?, Decimal.digitRun])
  | cons c tail =>
    refine ⟨c, tail, rfl, ?_⟩
    by_contra hneither
    rw [not_or, Bool.not_eq_true] at hneither
    rw [Number.read?] at h
    · exact absurd h (by simp [Number.unsigned?, Decimal.digitRun, hneither.2])
    · rintro rest hrest
      exact hneither.1 (List.cons.inj hrest).1

/-- What starts with a minus or a digit is read as a number. -/
theorem value?_number {c : Char} (h : c = '-' ∨ Decimal.isDigit c = true) (tail : List Char)
    (fuel depth : Nat) :
    value? (fuel + 1) depth (c :: tail) =
      (Number.read? (c :: tail)).map fun (n, t) ↦ (.number n, t) := by
  have hother : ∀ d : Char, Decimal.isDigit d = false → d ≠ '-' → c ≠ d := by
    rintro d hdigit hminus rfl
    rcases h with h | h
    · exact hminus h
    · rw [h] at hdigit
      exact absurd hdigit (by simp)
  have hspace : isSpace c = false := by
    simp [isSpace, hother ' ' (by decide) (by decide), hother '\n' (by decide) (by decide),
      hother '\t' (by decide) (by decide), hother '\r' (by decide) (by decide)]
  rw [value?, skipSpace_cons hspace]
  split
  · next hnil => exact absurd hnil (by simp)
  · next heq => exact absurd (List.cons.inj heq).1 (hother _ (by decide) (by decide))
  · next heq => exact absurd (List.cons.inj heq).1 (hother _ (by decide) (by decide))
  · next heq => exact absurd (List.cons.inj heq).1 (hother _ (by decide) (by decide))
  · next heq => exact absurd (List.cons.inj heq).1 (hother _ (by decide) (by decide))
  · next heq => exact absurd (List.cons.inj heq).1 (hother _ (by decide) (by decide))
  · next heq => exact absurd (List.cons.inj heq).1 (hother _ (by decide) (by decide))
  · next heq =>
    obtain ⟨rfl, rfl⟩ := List.cons.inj heq
    rfl

/-- A number that is written as one reads back. -/
theorem value?_number_chars (n : Number) {rest : List Char} (hrest : Ends rest)
    (fuel depth : Nat) : value? (fuel + 1) depth (n.chars ++ rest) = some (n.readBack, rest) := by
  have hread : ∀ m : Number, Number.read? (n.chars ++ rest) = some (m, rest) →
      value? (fuel + 1) depth (n.chars ++ rest) = some (.number m, rest) := by
    intro m hm
    obtain ⟨c, tail, hcs, hc⟩ := exists_of_read?_number hm
    rw [hcs] at hm ⊢
    rw [value?_number hc, hm]
    rfl
  cases n with
  | integer i => exact hread _ (Number.read?_integer i hrest)
  | float x =>
    by_cases hfinite : x.isFinite = true
    · obtain ⟨y, hy⟩ := Number.read?_float hfinite
      have halone := hy [] (by simp [Ends])
      rw [List.append_nil] at halone
      rw [Number.readBack, if_pos hfinite, halone]
      exact hread _ (hy rest hrest)
    · rw [Number.readBack, if_neg hfinite, Number.chars, if_neg hfinite]
      simp [value?, skipSpace, isSpace, expect?]

theorem starts_number (n : Number) : Starts n.chars := by
  have hmark : ∀ {c : Char}, c = '-' ∨ Decimal.isDigit c = true → isSpace c = false ∧ c ≠ ']' := by
    rintro c (rfl | hdigit)
    · decide
    · have hother : ∀ d : Char, Decimal.isDigit d = false → c ≠ d := by
        rintro d hd rfl
        rw [hdigit] at hd
        exact absurd hd (by simp)
      refine ⟨?_, hother _ (by decide)⟩
      simp [isSpace, hother ' ' (by decide), hother '\n' (by decide), hother '\t' (by decide),
        hother '\r' (by decide)]
  have hread : ∀ {r}, Number.read? n.chars = some r → Starts n.chars := by
    intro r hr
    obtain ⟨c, tail, hcs, hc⟩ := exists_of_read?_number hr
    exact ⟨c, tail, hcs, hmark hc⟩
  cases n with
  | integer i =>
    have hi : Number.read? (intChars i.val ++ []) = some (.integer i, []) :=
      Number.read?_integer i (by simp [Ends])
    rw [List.append_nil] at hi
    exact hread hi
  | float x =>
    by_cases hfinite : x.isFinite = true
    · obtain ⟨y, hy⟩ := Number.read?_float hfinite
      have halone := hy [] (by simp [Ends])
      rw [List.append_nil] at halone
      exact hread halone
    · rw [Number.chars, if_neg hfinite]
      exact ⟨'n', _, rfl, by decide, by decide⟩

theorem starts_chars (v : Value) : Starts v.chars := by
  cases v with
  | null => exact ⟨_, _, rfl, by decide, by decide⟩
  | bool b => cases b <;> exact ⟨_, _, rfl, by decide, by decide⟩
  | number n =>
    rw [Value.chars]
    exact starts_number n
  | string s => exact ⟨_, _, rfl, by decide, by decide⟩
  | array items => exact ⟨_, _, rfl, by decide, by decide⟩
  | object members => exact ⟨_, _, rfl, by decide, by decide⟩

/-! ### Around a value -/

theorem ends_cons {c : Char} (h : c = ',' ∨ c = ']' ∨ c = '\x7d') (rest : List Char) :
    Ends (c :: rest) := by
  intro d hd
  obtain rfl : c = d := by simpa using hd
  rcases h with rfl | rfl | rfl <;> decide

theorem value?_array (fuel depth : Nat) (rest : List Char) :
    value? (fuel + 1) (depth + 1) ('[' :: rest) =
      match skipSpace rest with
      | ']' :: t => some (.array [], t)
      | _ => items? fuel depth [] rest := by
  rw [value?, skipSpace_cons (by decide)]
  rfl

theorem value?_object (fuel depth : Nat) (rest : List Char) :
    value? (fuel + 1) (depth + 1) ('\x7b' :: rest) =
      match skipSpace rest with
      | '\x7d' :: t => some (.object [], t)
      | _ => members? fuel depth [] rest := by
  rw [value?, skipSpace_cons (by decide)]
  rfl

/-! ### One step of a list -/

variable {fuel depth : Nat} {cs t : List Char} {v : Value}

theorem items?_more (done : List Value) (h : value? fuel depth cs = some (v, ',' :: t)) :
    items? (fuel + 1) depth done cs = items? fuel depth (v :: done) t := by
  simp only [items?, h, skipSpace_cons (show isSpace ',' = false by decide)]

theorem items?_last (done : List Value) (h : value? fuel depth cs = some (v, ']' :: t)) :
    items? (fuel + 1) depth done cs = some (.array (v :: done).reverse, t) := by
  simp only [items?, h, skipSpace_cons (show isSpace ']' = false by decide)]

theorem members?_more (k : String) (done : Object) (h : value? fuel depth cs = some (v, ',' :: t)) :
    members? (fuel + 1) depth done (stringChars k.toList ++ ':' :: cs) =
      members? fuel depth (done.put k v) t := by
  obtain ⟨tail, htext, hread⟩ := exists_stringChars k.toList (':' :: cs)
  simp only [htext, members?, skipSpace_cons (show isSpace '"' = false by decide), hread,
    skipSpace_cons (show isSpace ':' = false by decide), h,
    skipSpace_cons (show isSpace ',' = false by decide), String.ofList_toList]

theorem members?_last (k : String) (done : Object)
    (h : value? fuel depth cs = some (v, '\x7d' :: t)) :
    members? (fuel + 1) depth done (stringChars k.toList ++ ':' :: cs) =
      some (.object (done.put k v), t) := by
  obtain ⟨tail, htext, hread⟩ := exists_stringChars k.toList (':' :: cs)
  simp only [htext, members?, skipSpace_cons (show isSpace '"' = false by decide), hread,
    skipSpace_cons (show isSpace ':' = false by decide), h,
    skipSpace_cons (show isSpace '\x7d' = false by decide), String.ofList_toList]

/-! ### Values -/

/-- The text of the value reads back with enough steps, where values may nest as deep as it does. -/
def Value.ReadsBack (v : Value) : Prop :=
  ∀ (fuel depth : Nat) (rest : List Char), v.chars.length < fuel → v.depth ≤ depth → Ends rest →
    value? fuel depth (v.chars ++ rest) = some (v.readBack, rest)

/-- The texts of items read back, behind earlier items. -/
theorem items?_chars (vs : List Value) (v : Value) (done : List Value)
    (h : ∀ w ∈ v :: vs, w.ReadsBack) {fuel depth : Nat} {rest : List Char}
    (hfuel : (itemsChars (v :: vs)).length + 1 < fuel) (hdepth : itemsDepth (v :: vs) ≤ depth) :
    items? fuel depth done (itemsChars (v :: vs) ++ ']' :: rest) =
      some (.array (done.reverse ++ itemsReadBack (v :: vs)), rest) := by
  induction vs generalizing v done fuel with
  | nil =>
    obtain ⟨fuel, rfl⟩ : ∃ n, fuel = n + 1 := ⟨fuel - 1, by omega⟩
    rw [itemsDepth] at hdepth
    rw [itemsChars] at hfuel ⊢
    have hv := h v List.mem_cons_self fuel depth (']' :: rest) (by omega) (by omega)
      (ends_cons (by simp) rest)
    rw [items?_last done hv]
    simp [itemsReadBack]
  | cons w ws ih =>
    obtain ⟨fuel, rfl⟩ : ∃ n, fuel = n + 1 := ⟨fuel - 1, by omega⟩
    rw [itemsDepth] at hdepth
    rw [itemsChars, List.length_append, List.length_cons] at hfuel
    have hv := h v List.mem_cons_self fuel depth (',' :: (itemsChars (w :: ws) ++ ']' :: rest))
      (by omega) (by omega) (ends_cons (by simp) _)
    rw [itemsChars, List.append_assoc, List.cons_append, items?_more done hv,
      ih w (v.readBack :: done) (fun u hu ↦ h u (List.mem_cons_of_mem v hu)) (by omega) (by omega)]
    simp [itemsReadBack]

/-- The texts of members read back, behind earlier members. -/
theorem members?_chars (ms : List (String × Value)) (k : String) (v : Value) (done : Object)
    (h : ∀ m ∈ (k, v) :: ms, m.2.ReadsBack) {fuel depth : Nat} {rest : List Char}
    (hfuel : (membersChars ((k, v) :: ms)).length + 1 < fuel)
    (hdepth : membersDepth ((k, v) :: ms) ≤ depth) :
    members? fuel depth done (membersChars ((k, v) :: ms) ++ '\x7d' :: rest) =
      some (.object (done.putAll (membersReadBack ((k, v) :: ms))), rest) := by
  induction ms generalizing k v done fuel with
  | nil =>
    obtain ⟨fuel, rfl⟩ : ∃ n, fuel = n + 1 := ⟨fuel - 1, by omega⟩
    rw [membersDepth] at hdepth
    rw [membersChars, List.length_append, List.length_cons] at hfuel
    have hv : value? fuel depth (v.chars ++ '\x7d' :: rest) = some (v.readBack, '\x7d' :: rest) :=
      h (k, v) List.mem_cons_self fuel depth _ (by dsimp only; omega) (by dsimp only; omega)
        (ends_cons (by simp) rest)
    rw [membersChars, List.append_assoc, List.cons_append, members?_last k done hv]
    rfl
  | cons m ms ih =>
    obtain ⟨j, w⟩ := m
    obtain ⟨fuel, rfl⟩ : ∃ n, fuel = n + 1 := ⟨fuel - 1, by omega⟩
    rw [membersDepth] at hdepth
    rw [membersChars, List.length_append, List.length_cons, List.length_append,
      List.length_cons] at hfuel
    have hv : value? fuel depth (v.chars ++ ',' :: (membersChars ((j, w) :: ms) ++ '\x7d' :: rest)) =
        some (v.readBack, ',' :: (membersChars ((j, w) :: ms) ++ '\x7d' :: rest)) :=
      h (k, v) List.mem_cons_self fuel depth _ (by dsimp only; omega) (by dsimp only; omega)
        (ends_cons (by simp) _)
    rw [membersChars, List.append_assoc, List.cons_append, List.append_assoc, List.cons_append,
      members?_more k done hv,
      ih j w _ (fun m hm ↦ h m (List.mem_cons_of_mem _ hm)) (by omega) (by omega)]
    rfl

/-- An array reads back if its items do. -/
theorem readsBack_array {items : List Value} (h : ∀ v ∈ items, v.ReadsBack) :
    (Value.array items).ReadsBack := by
  intro fuel depth rest hfuel hdepth hrest
  rw [Value.depth] at hdepth
  obtain ⟨fuel, rfl⟩ : ∃ n, fuel = n + 1 := ⟨fuel - 1, by omega⟩
  obtain ⟨depth, rfl⟩ : ∃ n, depth = n + 1 := ⟨depth - 1, by omega⟩
  rw [Value.chars, List.length_cons, List.length_append, List.length_singleton] at hfuel
  rw [Value.chars, Value.readBack, List.cons_append, List.append_assoc, List.singleton_append,
    value?_array]
  cases items with
  | nil =>
    rw [itemsChars, List.nil_append, skipSpace_cons (by decide)]
    rfl
  | cons v vs =>
    have hstart : Starts (itemsChars (v :: vs) ++ ']' :: rest) := by
      cases vs with
      | nil =>
        rw [itemsChars]
        exact (starts_chars v).append _
      | cons w ws =>
        rw [itemsChars, List.append_assoc]
        exact (starts_chars v).append _
    rw [skipSpace_of_starts hstart]
    obtain ⟨c, tail, hc, -, hclose⟩ := hstart
    rw [hc]
    split
    · next heq => exact absurd (List.cons.inj heq).1 hclose
    · rw [← hc, items?_chars vs v [] h (by omega) (by omega)]
      rfl

/-- An object reads back if its values do. -/
theorem readsBack_object {members : List (String × Value)} (h : ∀ m ∈ members, m.2.ReadsBack) :
    (Value.object members).ReadsBack := by
  intro fuel depth rest hfuel hdepth hrest
  rw [Value.depth] at hdepth
  obtain ⟨fuel, rfl⟩ : ∃ n, fuel = n + 1 := ⟨fuel - 1, by omega⟩
  obtain ⟨depth, rfl⟩ : ∃ n, depth = n + 1 := ⟨depth - 1, by omega⟩
  rw [Value.chars, List.length_cons, List.length_append, List.length_singleton] at hfuel
  rw [Value.chars, Value.readBack, List.cons_append, List.append_assoc, List.singleton_append,
    value?_object]
  cases members with
  | nil =>
    rw [membersChars, List.nil_append, skipSpace_cons (by decide)]
    rfl
  | cons m ms =>
    obtain ⟨k, v⟩ := m
    obtain ⟨tail, htail⟩ : ∃ tail, membersChars ((k, v) :: ms) ++ '\x7d' :: rest = '"' :: tail := by
      cases ms with
      | nil => exact ⟨_, rfl⟩
      | cons m ms => exact ⟨_, rfl⟩
    rw [htail, skipSpace_cons (by decide)]
    split
    · next heq => exact absurd (List.cons.inj heq).1 (by decide)
    · rw [← htail, members?_chars ms k v [] h (by omega) (by omega)]

/-- The text of every value reads back. -/
theorem readsBack : ∀ v : Value, v.ReadsBack
  | .null => by
    intro fuel depth rest hfuel _ _
    obtain ⟨fuel, rfl⟩ : ∃ n, fuel = n + 1 := ⟨fuel - 1, by omega⟩
    simp [Value.chars, Value.readBack, value?, skipSpace, isSpace, expect?]
  | .bool b => by
    intro fuel depth rest hfuel _ _
    obtain ⟨fuel, rfl⟩ : ∃ n, fuel = n + 1 := ⟨fuel - 1, by omega⟩
    cases b <;> simp [Value.chars, Value.readBack, value?, skipSpace, isSpace, expect?]
  | .number n => by
    intro fuel depth rest hfuel _ hrest
    obtain ⟨fuel, rfl⟩ : ∃ n, fuel = n + 1 := ⟨fuel - 1, by omega⟩
    rw [Value.chars, Value.readBack]
    exact value?_number_chars n hrest fuel depth
  | .string s => by
    intro fuel depth rest hfuel _ _
    obtain ⟨fuel, rfl⟩ : ∃ n, fuel = n + 1 := ⟨fuel - 1, by omega⟩
    obtain ⟨tail, htext, hread⟩ := exists_stringChars s.toList rest
    rw [Value.chars, Value.readBack, htext, value?, skipSpace_cons (by decide)]
    simp only [hread, Option.map_some, String.ofList_toList]
  | .array items => readsBack_array fun v hv ↦ readsBack v
  | .object members => readsBack_object fun m hm ↦ readsBack m.2
termination_by v => sizeOf v
decreasing_by
  · have hless := List.sizeOf_lt_of_mem hv
    simp only [Value.array.sizeOf_spec]
    omega
  · have hless := List.sizeOf_lt_of_mem hm
    obtain ⟨k, w⟩ := m
    simp only [Value.object.sizeOf_spec, Prod.mk.sizeOf_spec] at hless ⊢
    omega

/-- The text of a value that does not nest too deep reads back as a whole. -/
theorem read?_text {v : Value} (h : v.depth ≤ maxDepth) : read? v.text = some v.readBack := by
  have hread := readsBack v _ _ [] (Nat.lt_succ_self v.chars.length) h (by simp [Ends])
  rw [List.append_nil] at hread
  rw [read?, Value.text, String.toList_ofList, hread]
  rfl

/-! ### Flat values -/

/-- Whether a value is an integer. -/
def Value.isInteger : Value → Bool
  | .number (.integer _) => true
  | _ => false

/-- Whether a value is a float. -/
def Value.isFloat : Value → Bool
  | .number (.float _) => true
  | _ => false

/-- Whether a value nests no further than an array of integers. -/
def Value.isFlat : Value → Bool
  | .array items => items.all Value.isInteger
  | .object _ => false
  | _ => true

theorem exists_of_isInteger {v : Value} (h : v.isInteger = true) :
    ∃ n, v = .number (.integer n) := by
  unfold Value.isInteger at h
  split at h
  · exact ⟨_, rfl⟩
  · exact absurd h Bool.false_ne_true

theorem itemsReadBack_eq_self {items : List Value} (h : ∀ v ∈ items, v.isInteger = true) :
    itemsReadBack items = items := by
  induction items with
  | nil => rfl
  | cons v rest ih =>
    rw [List.forall_mem_cons] at h
    obtain ⟨n, rfl⟩ := exists_of_isInteger h.1
    rw [itemsReadBack, ih h.2]
    rfl

theorem itemsDepth_eq_zero {items : List Value} (h : ∀ v ∈ items, v.isInteger = true) :
    itemsDepth items = 0 := by
  induction items with
  | nil => rfl
  | cons v rest ih =>
    rw [List.forall_mem_cons] at h
    obtain ⟨n, rfl⟩ := exists_of_isInteger h.1
    rw [itemsDepth, ih h.2]
    rfl

/-- A flat value that is no float reads back as itself. -/
theorem readBack_of_isFlat {v : Value} (hflat : v.isFlat = true) (hfloat : v.isFloat = false) :
    v.readBack = v := by
  cases v with
  | null => rfl
  | bool b => rfl
  | string s => rfl
  | object members => exact absurd hflat Bool.false_ne_true
  | array items => rw [Value.readBack, itemsReadBack_eq_self (List.all_eq_true.mp hflat)]
  | number n =>
    cases n with
    | integer n => rfl
    | float x => exact absurd hfloat (by simp [Value.isFloat])

/-- What a flat value reads back as is flat again. -/
theorem isFlat_readBack {v : Value} (h : v.isFlat = true) : v.readBack.isFlat = true := by
  by_cases hfloat : v.isFloat = true
  · obtain ⟨x, rfl⟩ : ∃ x, v = .number (.float x) := by
      unfold Value.isFloat at hfloat
      split at hfloat
      · exact ⟨_, rfl⟩
      · exact absurd hfloat Bool.false_ne_true
    rw [Value.readBack, Number.readBack]
    split_ifs
    · split <;> rfl
    · rfl
  · rwa [readBack_of_isFlat h (Bool.eq_false_iff.mpr hfloat)]

theorem depth_le_of_isFlat {v : Value} (h : v.isFlat = true) : v.depth ≤ 1 := by
  cases v with
  | null => exact Nat.zero_le 1
  | bool b => exact Nat.zero_le 1
  | string s => exact Nat.zero_le 1
  | number n => exact Nat.zero_le 1
  | object members => exact absurd h Bool.false_ne_true
  | array items => rw [Value.depth, itemsDepth_eq_zero (List.all_eq_true.mp h)]

theorem membersDepth_le {members : List (String × Value)} {n : Nat}
    (h : ∀ m ∈ members, m.2.depth ≤ n) : membersDepth members ≤ n := by
  induction members with
  | nil => exact Nat.zero_le n
  | cons m rest ih =>
    obtain ⟨k, v⟩ := m
    rw [List.forall_mem_cons] at h
    rw [membersDepth]
    exact max_le h.1 (ih h.2)

/-- An object of flat values with distinct keys reads back with its keys and values in order. -/
theorem read?_object {members : Object} (hflat : ∀ m ∈ members, m.2.isFlat = true)
    (hdistinct : members.keys.Nodup) :
    read? (Value.object members).text =
      some (.object (members.map fun m ↦ (m.1, m.2.readBack))) := by
  have hdepth : (Value.object members).depth ≤ maxDepth := by
    have hmembers := membersDepth_le fun m hm ↦ depth_le_of_isFlat (hflat m hm)
    rw [Value.depth, maxDepth]
    omega
  have hkeys : (members.map fun m ↦ (m.1, m.2.readBack)).map Prod.fst = members.keys := by
    rw [List.map_map]
    rfl
  rw [read?_text hdepth, Value.readBack, membersReadBack_eq, Keyed.putAll_of_nodup]
  rw [Keyed.keys, hkeys]
  exact hdistinct

end Logbook.Json
