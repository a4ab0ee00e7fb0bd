import Logbook.Keyed
import Mathlib.Tactic

/-!
# What is given last stays

Several values given one after the other leave every key at the place of its first value
(`keys_putAll`) and with its last value (`get?_putAll`), which is what `KeepsLast` says. Pairs whose
keys are distinct are left as they are (`putAll_of_nodup`).

A collection in ascending order stays in that order (`Ascending.putAllSorted`), so its keys are
distinct, and it is known by its values (`Ascending.ext`). Giving it the same values again changes
nothing (`Ascending.putAllSorted_twice`).
-/

set_option autoImplicit false
set_option relaxedAutoImplicit false

namespace Logbook.Keyed

variable {α : Type} {m : Keyed α} {key : String} {value : α}

@[simp] theorem keys_nil : keys ([] : Keyed α) = [] := rfl

@[simp] theorem keys_cons (p : String × α) (rest : Keyed α) : keys (p :: rest) = p.1 :: rest.keys :=
  rfl

theorem keys_append (first second : Keyed α) : keys (first ++ second) = first.keys ++ second.keys :=
  List.map_append

/-! ### Distinct keys -/

/-- A key without a value goes to the end. -/
theorem put_of_notMem (h : key ∉ m.keys) : m.put key value = m ++ [(key, value)] := by
  induction m with
  | nil => rfl
  | cons p rest ih =>
    obtain ⟨k, v⟩ := p
    rw [keys_cons, List.mem_cons, not_or] at h
    rw [put, if_neg (fun heq ↦ h.1 heq.symm), ih h.2, List.cons_append]

theorem putAll_of_nodup_append {pairs : List (String × α)} (h : (keys (m ++ pairs)).Nodup) :
    m.putAll pairs = m ++ pairs := by
  induction pairs generalizing m with
  | nil => rw [putAll_nil, List.append_nil]
  | cons p rest ih =>
    obtain ⟨k, v⟩ := p
    have hnew : k ∉ m.keys := by
      rw [keys_append, List.nodup_append] at h
      exact fun hk ↦ h.2.2 k hk k List.mem_cons_self rfl
    rw [List.append_cons] at h
    rw [putAll_cons, put_of_notMem hnew, ih h, ← List.append_cons]

/-- Pairs with distinct keys make the collection of these pairs. -/
theorem putAll_of_nodup {pairs : Keyed α} (h : pairs.keys.Nodup) : putAll [] pairs = pairs :=
  putAll_of_nodup_append h

/-! ### Keys taken out -/

@[simp] theorem get?_erase (m : Keyed α) (key other : String) :
    (m.erase key).get? other = if key = other then none else m.get? other := by
  induction m with
  | nil => simp [erase]
  | cons p rest ih =>
    obtain ⟨k, v⟩ := p
    have herase : erase ((k, v) :: rest) key =
        if k = key then erase rest key else (k, v) :: erase rest key := by
      by_cases hk : k = key <;> simp [erase, hk]
    rw [herase]
    by_cases hk : k = key
    · subst hk
      rw [if_pos rfl, ih, get?_cons]
      by_cases ho : k = other <;> simp [ho]
    · rw [if_neg hk, get?_cons, get?_cons, ih]
      by_cases ho : k = other
      · subst ho
        rw [if_pos rfl, if_neg (Ne.symm hk), if_pos rfl]
      · rw [if_neg ho, if_neg ho]

theorem erase_of_notMem (h : key ∉ m.keys) : m.erase key = m := by
  rw [erase, List.filter_eq_self]
  intro p hp
  exact decide_eq_true fun heq : p.1 = key ↦ h (heq ▸ List.mem_map_of_mem hp)

/-- Keys stay distinct. -/
theorem nodup_keys_erase (key : String) (h : m.keys.Nodup) : (m.erase key).keys.Nodup :=
  List.Nodup.sublist (List.Sublist.map Prod.fst List.filter_sublist) h

/-! ### First place, last value -/

theorem putAll_concat (m : Keyed α) (pairs : List (String × α)) (p : String × α) :
    m.putAll (pairs ++ [p]) = (m.putAll pairs).put p.1 p.2 :=
  List.foldl_concat ..

/-- The keys of values given one after the other stand in the order of their first values. -/
theorem keys_putAll (pairs : List (String × α)) :
    (putAll [] pairs).keys = (pairs.map Prod.fst).eraseDups := by
  induction pairs using List.reverseRecOn with
  | nil => rfl
  | append_singleton pairs p ih =>
    rw [putAll_concat, keys_put, ih, List.map_append, List.map_singleton, List.eraseDups_append]
    by_cases hmem : p.1 ∈ pairs.map Prod.fst
    · simp [hmem, List.removeAll]
    · simp [hmem, List.removeAll, List.eraseDups_cons]

/-- The value given last to a key. -/
def last? (pairs : List (String × α)) (key : String) : Option α :=
  (pairs.filter fun p ↦ p.1 = key).getLast?.map Prod.snd

theorem last?_concat (pairs : List (String × α)) (p : String × α) (key : String) :
    last? (pairs ++ [p]) key = if p.1 = key then some p.2 else last? pairs key := by
  unfold last?
  rw [List.filter_append]
  split_ifs with hkey
  · rw [List.filter_singleton, decide_eq_true hkey, cond_true, List.getLast?_concat]
    rfl
  · rw [List.filter_singleton, decide_eq_false hkey, cond_false, List.append_nil]

/-- Of the values given to a key one after the other, the last one stays. -/
theorem get?_putAll (pairs : List (String × α)) (key : String) :
    (putAll [] pairs).get? key = last? pairs key := by
  induction pairs using List.reverseRecOn with
  | nil => rfl
  | append_singleton pairs p ih => rw [putAll_concat, get?_put, last?_concat, ih]

theorem last?_append (first second : List (String × α)) (key : String) :
    last? (first ++ second) key = (last? second key).or (last? first key) := by
  induction second using List.reverseRecOn with
  | nil => rw [List.append_nil]; rfl
  | append_singleton second p ih =>
    rw [← List.append_assoc, last?_concat, last?_concat, ih]
    split_ifs <;> rfl

theorem last?_eq_none {pairs : List (String × α)} (h : key ∉ pairs.map Prod.fst) :
    last? pairs key = none := by
  have hfilter : (pairs.filter fun p ↦ decide (p.1 = key)) = [] := by
    rw [List.filter_eq_nil_iff]
    intro p hp hkey
    exact h (List.mem_map.mpr ⟨p, hp, of_decide_eq_true hkey⟩)
  rw [last?, hfilter]
  rfl

/-- A value that was given last was given. -/
theorem exists_of_last? {pairs : List (String × α)} (h : last? pairs key = some value) :
    ∃ p ∈ pairs, p.1 = key := by
  by_contra hnone
  have hkey : key ∉ pairs.map Prod.fst := by
    intro hmem
    obtain ⟨p, hp, hfst⟩ := List.mem_map.mp hmem
    exact hnone ⟨p, hp, hfst⟩
  rw [last?_eq_none hkey] at h
  exact absurd h (by simp)

theorem last?_map {β : Type} (g : α → β) (pairs : List (String × α)) (key : String) :
    last? (pairs.map fun p ↦ (p.1, g p.2)) key = (last? pairs key).map g := by
  induction pairs using List.reverseRecOn with
  | nil => rfl
  | append_singleton pairs p ih =>
    rw [List.map_append, List.map_singleton, last?_concat, last?_concat, ih]
    split_ifs <;> rfl

/-- Lists of pairs in which the same is given last have the same given last one after the other. -/
theorem last?_flatten_congr {β : Type} {g : α → β} {ms : List (List (String × α))}
    {ms' : List (List (String × β))}
    (h : List.Forall₂ (fun m m' ↦ ∀ key, (last? m key).map g = last? m' key) ms ms') (key : String) :
    (last? ms.flatten key).map g = last? ms'.flatten key := by
  induction h with
  | nil => rfl
  | @cons m m' ms ms' hm _ ih =>
    rw [List.flatten_cons, List.flatten_cons, last?_append, last?_append, ← ih, ← hm key,
      Option.map_or]

/-- A collection with distinct keys has one value under a key, which is its last. -/
theorem last?_of_nodup (h : m.keys.Nodup) (key : String) : last? m key = m.get? key := by
  rw [← get?_putAll, putAll_of_nodup h]

/-- Of several collections one after the other, the last that has a value under a key decides. -/
theorem last?_flatten {ms : List (Keyed α)} (h : ∀ m ∈ ms, m.keys.Nodup) (key : String) :
    last? ms.flatten key = ms.reverse.findSome? fun m ↦ m.get? key := by
  induction ms using List.reverseRecOn with
  | nil => rfl
  | append_singleton ms m ih =>
    have hrest := ih fun m' hm' ↦ h m' (List.mem_append_left _ hm')
    have hm := last?_of_nodup (h m (List.mem_append_right _ List.mem_cons_self)) key
    rw [List.flatten_append, List.flatten_singleton, last?_append, hrest, hm, List.reverse_append,
      List.reverse_singleton, List.singleton_append, List.findSome?_cons]
    cases m.get? key <;> rfl

/-- A collection has the keys of contributions, each once, in the order in which they first come and
with the value that comes last. -/
structure KeepsLast (m : Keyed α) (contributions : List (String × α)) : Prop where
  keys : m.keys = (contributions.map Prod.fst).eraseDups
  distinct : m.keys.Nodup
  values : ∀ key, m.get? key = last? contributions key

theorem keepsLast_putAll (pairs : List (String × α)) : (putAll [] pairs).KeepsLast pairs :=
  ⟨keys_putAll pairs, nodup_keys_putAll [] pairs List.nodup_nil, get?_putAll pairs⟩

theorem exists_of_mem_put {p : String × α} (h : p ∈ m.put key value) :
    p = (key, value) ∨ p ∈ m := by
  induction m with
  | nil => exact Or.inl (List.mem_singleton.mp h)
  | cons q rest ih =>
    obtain ⟨k, v⟩ := q
    unfold put at h
    split_ifs at h with hk
    · rcases List.mem_cons.mp h with rfl | h
      · exact Or.inl (by rw [hk])
      · exact Or.inr (List.mem_cons_of_mem _ h)
    · rcases List.mem_cons.mp h with rfl | h
      · exact Or.inr List.mem_cons_self
      · exact (ih h).imp_right (List.mem_cons_of_mem _)

/-- Every pair that stays was given. -/
theorem mem_of_mem_putAll {pairs : List (String × α)} {p : String × α}
    (h : p ∈ putAll [] pairs) : p ∈ pairs := by
  induction pairs using List.reverseRecOn with
  | nil => exact h
  | append_singleton pairs q ih =>
    rw [putAll_concat] at h
    rcases exists_of_mem_put h with rfl | h
    · exact List.mem_append_right _ List.mem_cons_self
    · exact List.mem_append_left _ (ih h)

/-! ### Ascending keys -/

/-- The keys ascend. -/
def Ascending (m : Keyed α) : Prop :=
  m.keys.Pairwise (· < ·)

theorem ascending_nil : Ascending ([] : Keyed α) :=
  List.Pairwise.nil

theorem get?_eq_none_iff : m.get? key = none ↔ key ∉ m.keys := by
  induction m with
  | nil => simp
  | cons p rest ih =>
    obtain ⟨k, v⟩ := p
    rw [get?_cons, keys_cons, List.mem_cons, not_or, ← ih]
    by_cases hk : k = key
    · simp [hk]
    · simp [hk, Ne.symm hk]

/-- A pair of a collection with distinct keys is what its key has. -/
theorem get?_of_mem {p : String × α} (hnodup : m.keys.Nodup) (h : p ∈ m) :
    m.get? p.1 = some p.2 := by
  induction m with
  | nil => exact absurd h List.not_mem_nil
  | cons q rest ih =>
    obtain ⟨k, v⟩ := q
    rw [keys_cons, List.nodup_cons] at hnodup
    rcases List.mem_cons.mp h with rfl | hrest
    · rw [get?_cons, if_pos rfl]
    · have hkey : p.1 ∈ keys rest := List.mem_map_of_mem hrest
      rw [get?_cons, if_neg (fun heq : k = p.1 ↦ hnodup.1 (heq ▸ hkey)), ih hnodup.2 hrest]

/-- What a key has is a pair of the collection. -/
theorem mem_of_get? (h : m.get? key = some value) : (key, value) ∈ m := by
  induction m with
  | nil => exact absurd h (by simp)
  | cons p rest ih =>
    obtain ⟨k, v⟩ := p
    rw [get?_cons] at h
    split_ifs at h with hk
    · rw [← Option.some.inj h, hk]
      exact List.mem_cons_self
    · exact List.mem_cons_of_mem _ (ih h)

/-- A collection with distinct keys is known by its keys and the values under them. -/
theorem ext_of_keys {m' : Keyed α} (hkeys : m.keys = m'.keys) (hnodup : m.keys.Nodup)
    (hvalues : ∀ key, m.get? key = m'.get? key) : m = m' := by
  induction m generalizing m' with
  | nil => exact (List.map_eq_nil_iff.mp hkeys.symm).symm
  | cons p rest ih =>
    obtain ⟨⟨k, v'⟩, rest', rfl, hk, hrest⟩ := List.map_eq_cons_iff.mp hkeys.symm
    obtain ⟨k', v⟩ := p
    obtain rfl : k = k' := hk
    have hvalue : v = v' := by
      have hget := hvalues k
      rw [get?_cons, get?_cons, if_pos rfl, if_pos rfl] at hget
      exact Option.some.inj hget
    rw [keys_cons, List.nodup_cons] at hnodup
    rw [hvalue, ih hrest.symm hnodup.2 fun key ↦ ?_]
    by_cases hk : k = key
    · have hnone : key ∉ keys rest := hk ▸ hnodup.1
      have hnone' : key ∉ keys rest' := by rwa [keys, hrest]
      rw [get?_eq_none_iff.mpr hnone, get?_eq_none_iff.mpr hnone']
    · have hget := hvalues key
      rwa [get?_cons, get?_cons, if_neg hk, if_neg hk] at hget

theorem Ascending.nodup (h : m.Ascending) : m.keys.Nodup :=
  List.Pairwise.imp String.ne_of_lt h

/-- A collection in ascending order is known by the values under its keys. -/
theorem Ascending.ext {m' : Keyed α} (h : m.Ascending) (h' : m'.Ascending)
    (hvalues : ∀ key, m.get? key = m'.get? key) : m = m' := by
  have hmem : ∀ key, key ∈ m.keys ↔ key ∈ m'.keys := by
    intro key
    rw [← not_iff_not, ← get?_eq_none_iff, ← get?_eq_none_iff, hvalues]
  have hperm : m.keys.Perm m'.keys := (List.perm_ext_iff_of_nodup h.nodup h'.nodup).mpr hmem
  refine ext_of_keys (hperm.eq_of_pairwise (fun a b _ _ hab hba ↦ ?_) h h') h.nodup hvalues
  exact absurd (String.lt_trans hab hba) (String.lt_irrefl a)

theorem exists_of_mem_putSorted {p : String × α} (h : p ∈ m.putSorted key value) :
    p = (key, value) ∨ p ∈ m := by
  induction m with
  | nil => exact Or.inl (List.mem_singleton.mp h)
  | cons q rest ih =>
    obtain ⟨k, v⟩ := q
    unfold putSorted at h
    split_ifs at h with hk hless
    · rcases List.mem_cons.mp h with rfl | h
      · exact Or.inl (by rw [hk])
      · exact Or.inr (List.mem_cons_of_mem _ h)
    · exact List.mem_cons.mp h
    · rcases List.mem_cons.mp h with rfl | h
      · exact Or.inr List.mem_cons_self
      · exact (ih h).imp_right (List.mem_cons_of_mem _)

theorem exists_of_mem_keys_putSorted {k : String} (h : k ∈ (m.putSorted key value).keys) :
    k = key ∨ k ∈ m.keys := by
  obtain ⟨p, hp, rfl⟩ := List.mem_map.mp h
  rcases exists_of_mem_putSorted hp with rfl | hp
  · exact Or.inl rfl
  · exact Or.inr (List.mem_map_of_mem hp)

theorem Ascending.putSorted (h : m.Ascending) (key : String) (value : α) :
    (m.putSorted key value).Ascending := by
  induction m with
  | nil => exact List.pairwise_singleton _ _
  | cons p rest ih =>
    obtain ⟨k, v⟩ := p
    rw [Ascending, keys_cons, List.pairwise_cons] at h
    obtain ⟨hfirst, hrest⟩ := h
    unfold Keyed.putSorted
    split_ifs with hk hless
    · exact List.pairwise_cons.mpr ⟨hfirst, hrest⟩
    · refine List.pairwise_cons.mpr ⟨fun j hj ↦ ?_, List.pairwise_cons.mpr ⟨hfirst, hrest⟩⟩
      rcases List.mem_cons.mp hj with rfl | hj
      · exact hless
      · exact String.lt_trans hless (hfirst j hj)
    · refine List.pairwise_cons.mpr ⟨fun j hj ↦ ?_, ih hrest⟩
      rcases exists_of_mem_keys_putSorted hj with rfl | hj
      · exact Std.lt_of_le_of_ne (String.not_lt.mp hless) hk
      · exact hfirst j hj

theorem putAllSorted_concat (m : Keyed α) (pairs : List (String × α)) (p : String × α) :
    m.putAllSorted (pairs ++ [p]) = (m.putAllSorted pairs).putSorted p.1 p.2 :=
  List.foldl_concat ..

theorem Ascending.putAllSorted (h : m.Ascending) (pairs : List (String × α)) :
    (m.putAllSorted pairs).Ascending := by
  induction pairs using List.reverseRecOn with
  | nil => exact h
  | append_singleton pairs p ih =>
    rw [putAllSorted_concat]
    exact ih.putSorted p.1 p.2

theorem putAllSorted_append (m : Keyed α) (first second : List (String × α)) :
    m.putAllSorted (first ++ second) = (m.putAllSorted first).putAllSorted second :=
  List.foldl_append

theorem get?_putAllSorted (m : Keyed α) (pairs : List (String × α)) (key : String) :
    (m.putAllSorted pairs).get? key = (last? pairs key).or (m.get? key) := by
  induction pairs using List.reverseRecOn with
  | nil => rfl
  | append_singleton pairs p ih =>
    rw [putAllSorted_concat, get?_putSorted, last?_concat, ih]
    split_ifs <;> rfl

/-- Giving the same values again changes nothing. -/
theorem Ascending.putAllSorted_twice (h : m.Ascending) (pairs : List (String × α)) :
    (m.putAllSorted pairs).putAllSorted pairs = m.putAllSorted pairs := by
  refine Ascending.ext ((h.putAllSorted pairs).putAllSorted pairs) (h.putAllSorted pairs)
    fun key ↦ ?_
  rw [get?_putAllSorted, get?_putAllSorted, ← Option.or_assoc, Option.or_self]

/-- Every pair was there or has been given. -/
theorem exists_of_mem_putAllSorted {pairs : List (String × α)} {p : String × α}
    (h : p ∈ m.putAllSorted pairs) : p ∈ pairs ∨ p ∈ m := by
  induction pairs using List.reverseRecOn with
  | nil => exact Or.inr h
  | append_singleton pairs q ih =>
    rw [putAllSorted_concat] at h
    rcases exists_of_mem_putSorted h with rfl | h
    · exact Or.inl (List.mem_append_right _ List.mem_cons_self)
    · exact (ih h).imp_left (List.mem_append_left _)

end Logbook.Keyed
