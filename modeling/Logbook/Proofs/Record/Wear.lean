import Logbook.Proofs.Record.SpanFields

/-!
# What spans keep of what they are given

A span is given fields in batches: some when it is made, and more by every recording on it.
Recording reads the older fields back from their text first, which has two consequences.

Where a stored name has to be escaped in JSON, a recording is given up, and so is every later one.
The fields a span goes by are therefore not all that it was given but those it has learned
(`learned`): everything, as long as the names need no escapes (`learned_eq_flatten`), and nothing
more from the first one on that does (`learned_append_of_escaped`).

A float that is read back need not be the number that was written. What a span keeps are the fields
it has learned, each value read back any number of times (`Wears`), for any number of sinks that
record (`Wears.foldl_record`). Values that are no floats are kept as they are (`Wears.eq`).
-/

set_option autoImplicit false
set_option relaxedAutoImplicit false

namespace Logbook

/-! ### Values read back again and again -/

namespace Json

/-- A value whose text has been read back, any number of times. -/
inductive Worn (v : Value) : Value → Prop
  | fresh : Worn v v
  | again {w : Value} (earlier : Worn v w) : Worn v w.readBack

variable {v w : Value}

/-- What reads back as itself stays as it is. -/
theorem Worn.eq (h : Worn v w) (hread : v.readBack = v) : w = v := by
  induction h with
  | fresh => rfl
  | again _ ih => rw [ih, hread]

end Json

namespace SpanFields

open Json (Worn)

variable {s s' : SpanFields} {known more : List Field}

/-- The second fields are the first ones, each with its value read back any number of times. -/
def Wears (s s' : SpanFields) : Prop :=
  List.Forall₂ (fun p q ↦ p.1 = q.1 ∧ Worn p.2 q.2) s s'

namespace Wears

theorem refl (s : SpanFields) : Wears s s :=
  List.forall₂_same.mpr fun _ _ ↦ ⟨rfl, .fresh⟩

theorem readBack (h : Wears s s') : Wears s s'.readBack := by
  rw [Wears, SpanFields.readBack, List.forall₂_map_right_iff]
  exact h.imp fun _ _ hpq ↦ ⟨hpq.1, .again hpq.2⟩

theorem keys_eq (h : Wears s s') : Keyed.keys s' = Keyed.keys s := by
  induction h with
  | nil => rfl
  | cons hpq _ ih => rw [Keyed.keys_cons, Keyed.keys_cons, hpq.1, ih]

theorem plainNames_eq (h : Wears s s') : s'.plainNames = s.plainNames := by
  have hkeys : ∀ s : SpanFields,
      s.plainNames = (Keyed.keys s).all fun k ↦ k.toList.all Json.isPlainChar := by
    intro s
    rw [plainNames, Keyed.keys, List.all_map]
    rfl
  rw [hkeys, hkeys, h.keys_eq]

theorem putSorted (h : Wears s s') (key : String) (value : Json.Value) :
    Wears (Keyed.putSorted s key value) (Keyed.putSorted s' key value) := by
  induction h with
  | nil => exact List.Forall₂.cons ⟨rfl, .fresh⟩ List.Forall₂.nil
  | @cons p q rest rest' hpq hrest ih =>
    obtain ⟨k, v⟩ := p
    obtain ⟨k', w⟩ := q
    obtain ⟨hkey, hvw⟩ := hpq
    obtain rfl : k = k' := hkey
    unfold Keyed.putSorted
    split_ifs
    · exact List.Forall₂.cons ⟨rfl, .fresh⟩ hrest
    · exact List.Forall₂.cons ⟨rfl, .fresh⟩ (List.Forall₂.cons ⟨rfl, hvw⟩ hrest)
    · exact List.Forall₂.cons ⟨rfl, hvw⟩ ih

theorem putAllSorted (h : Wears s s') (pairs : List (String × Json.Value)) :
    Wears (Keyed.putAllSorted s pairs) (Keyed.putAllSorted s' pairs) := by
  induction pairs using List.reverseRecOn with
  | nil => exact h
  | append_singleton pairs p ih =>
    rw [Keyed.putAllSorted_concat, Keyed.putAllSorted_concat]
    exact ih.putSorted p.1 p.2

/-- Under every key there is the same value, read back any number of times. -/
theorem get? (h : Wears s s') (key : String) :
    Option.Rel Worn (Keyed.get? s key) (Keyed.get? s' key) := by
  induction h with
  | nil => exact .none
  | @cons p q rest rest' hpq _ ih =>
    obtain ⟨k, v⟩ := p
    obtain ⟨k', w⟩ := q
    obtain ⟨hkey, hvw⟩ := hpq
    obtain rfl : k = k' := hkey
    rw [Keyed.get?_cons, Keyed.get?_cons]
    split_ifs
    · exact .some hvw
    · exact ih

/-- Fields without floats stay as they are. -/
theorem eq (h : Wears s s') (hs : s.Exact) : s' = s := by
  obtain ⟨⟨-, hflat⟩, hfloat⟩ := hs
  induction h with
  | nil => rfl
  | @cons p q rest rest' hpq _ ih =>
    rw [List.forall_mem_cons] at hflat hfloat
    have hread := Json.readBack_of_isFlat hflat.1 hfloat.1
    rw [ih hfloat.2 hflat.2, Prod.ext hpq.1 (hpq.2.eq hread).symm]

end Wears

/-! ### Batches -/

/-- What a span goes by once more fields were given to it: they are lost where a name it has has to
be escaped. -/
def learn (known more : List Field) : List Field :=
  if (ofFields known).plainNames then known ++ more else known

/-- What a span goes by that was given its fields in batches. -/
def learned (batches : List (List Field)) : List Field :=
  batches.foldl learn []

theorem learned_concat (batches : List (List Field)) (more : List Field) :
    learned (batches ++ [more]) = learn (learned batches) more :=
  List.foldl_concat ..

/-- A first batch is learned. -/
theorem learned_singleton (fields : List Field) : learned [fields] = fields := by
  show learn [] fields = fields
  rw [learn]
  exact if_pos rfl

/-- An empty batch changes nothing. -/
theorem learn_nil (known : List Field) : learn known [] = known := by
  rw [learn, List.append_nil, ite_self]

/-- Nothing is learned but what was given. -/
theorem mem_of_mem_learned {batches : List (List Field)} {f : Field} (h : f ∈ learned batches) :
    f ∈ batches.flatten := by
  induction batches using List.reverseRecOn with
  | nil => exact h
  | append_singleton batches more ih =>
    rw [learned_concat, learn] at h
    rw [List.flatten_append, List.flatten_singleton]
    split_ifs at h
    · exact (List.mem_append.mp h).elim (fun h ↦ List.mem_append_left _ (ih h))
        (List.mem_append_right _)
    · exact List.mem_append_left _ (ih h)

theorem learned_eq_nil {batches : List (List Field)} (hnone : batches.flatten = []) :
    learned batches = [] := by
  refine List.eq_nil_iff_forall_not_mem.mpr fun f hf ↦ ?_
  have hmem := mem_of_mem_learned hf
  rw [hnone] at hmem
  exact List.not_mem_nil hmem

/-- As long as the names need no escapes, nothing is lost. -/
theorem learned_eq_flatten {batches : List (List Field)}
    (hplain : ∀ f ∈ batches.flatten, f.PlainName) : learned batches = batches.flatten := by
  induction batches using List.reverseRecOn with
  | nil => rfl
  | append_singleton batches more ih =>
    rw [List.flatten_append, List.flatten_singleton] at hplain ⊢
    have hrest := ih fun f hf ↦ hplain f (List.mem_append_left _ hf)
    rw [learned_concat, learn, hrest,
      if_pos (plainNames_ofFields fun f hf ↦ hplain f (List.mem_append_left _ hf))]

/-- Once a name has to be escaped, everything later is lost. -/
theorem learned_append_of_escaped {batches : List (List Field)}
    (hescaped : (ofFields (learned batches)).plainNames = false) (later : List (List Field)) :
    learned (batches ++ later) = learned batches := by
  induction later using List.reverseRecOn with
  | nil => rw [List.append_nil]
  | append_singleton later more ih =>
    rw [← List.append_assoc, learned_concat, ih, learn, if_neg (by simp [hescaped])]

/-- Batches with nothing in them change nothing. -/
theorem learned_append_of_flatten_eq_nil {later : List (List Field)} (hnone : later.flatten = [])
    (batches : List (List Field)) : learned (batches ++ later) = learned batches := by
  induction later using List.reverseRecOn with
  | nil => rw [List.append_nil]
  | append_singleton later more ih =>
    rw [List.flatten_append, List.flatten_singleton, List.append_eq_nil_iff] at hnone
    rw [← List.append_assoc, learned_concat, ih hnone.1, hnone.2, learn_nil]

/-- Learning the same again changes nothing. -/
theorem ofFields_learn_twice (known more : List Field) :
    ofFields (learn (learn known more) more) = ofFields (learn known more) := by
  by_cases hplain : (ofFields known).plainNames = true
  · rw [learn, learn, if_pos hplain]
    split_ifs
    · rw [ofFields_append, ofFields_append, (stored_ofFields known).ascending.putAllSorted_twice]
    · rfl
  · rw [learn, learn, if_neg hplain, if_neg hplain]

/-- What is recorded on a span is learned. -/
theorem Wears.record (h : Wears (ofFields known) s) (hs : s.Stored) (more : List Field) :
    Wears (ofFields (learn known more)) (s.record more) := by
  rw [SpanFields.record, learn, h.plainNames_eq, hs.reread?_eq]
  cases hplain : (ofFields known).plainNames with
  | false => exact h
  | true =>
    rw [if_pos rfl, ofFields_append]
    exact h.readBack.putAllSorted _

/-- What is recorded for several sinks, one after the other, is learned once. -/
theorem Wears.foldl_record (h : Wears (ofFields known) s) (hs : s.Stored) (more : List Field)
    {sinks : Nat} (hsinks : 0 < sinks) :
    Wears (ofFields (learn known more))
      ((List.range sinks).foldl (fun (kept : SpanFields) _ ↦ kept.record more) s) := by
  induction sinks, hsinks using Nat.le_induction with
  | base => exact h.record hs more
  | succ n _ ih =>
    rw [List.range_succ, List.foldl_concat, ← ofFields_learn_twice]
    exact ih.record (hs.foldl_record n more) more

end SpanFields

end Logbook
