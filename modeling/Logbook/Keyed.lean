/-!
# Ordered collections of keyed values

A list of pairs in which a key keeps the place where it was first given and takes the value it was
last given (`put`). The views are the list of keys and the look-up `get?`; each operation has one
lemma for each view. `putSorted` keeps the keys in ascending order instead.
-/

set_option autoImplicit false
set_option relaxedAutoImplicit false

namespace Logbook

/-- Values under keys, in order. -/
abbrev Keyed (α : Type) := List (String × α)

namespace Keyed

variable {α : Type}

/-- The keys in order. -/
def keys (m : Keyed α) : List String :=
  m.map Prod.fst

/-- The value under a key. -/
def get? : Keyed α → String → Option α
  | [], _ => none
  | (k, v) :: rest, key => if k = key then some v else get? rest key

/-- Whether a key has a value. -/
def has (m : Keyed α) (key : String) : Bool :=
  (m.get? key).isSome

/-- Gives a key a value. A key that has one keeps its place; a new key goes to the end. -/
def put : Keyed α → String → α → Keyed α
  | [], key, value => [(key, value)]
  | (k, v) :: rest, key, value =>
    if k = key then (k, value) :: rest else (k, v) :: put rest key value

/-- Gives several keys their values, one after the other. -/
def putAll (m : Keyed α) (pairs : List (String × α)) : Keyed α :=
  pairs.foldl (fun m p ↦ m.put p.1 p.2) m

/-- Takes a key and its value out. -/
def erase (m : Keyed α) (key : String) : Keyed α :=
  m.filter fun p ↦ p.1 ≠ key

/-- Gives a key a value in a collection whose keys ascend. -/
def putSorted : Keyed α → String → α → Keyed α
  | [], key, value => [(key, value)]
  | (k, v) :: rest, key, value =>
    if k = key then (k, value) :: rest
    else if key < k then (key, value) :: (k, v) :: rest
    else (k, v) :: putSorted rest key value

/-- Gives several keys their values in a collection whose keys ascend. -/
def putAllSorted (m : Keyed α) (pairs : List (String × α)) : Keyed α :=
  pairs.foldl (fun m p ↦ m.putSorted p.1 p.2) m

/-! ### What the views see -/

@[simp] theorem get?_nil (key : String) : get? ([] : Keyed α) key = none := rfl

theorem get?_cons (k : String) (v : α) (rest : Keyed α) (key : String) :
    get? ((k, v) :: rest) key = if k = key then some v else get? rest key := rfl

@[simp] theorem get?_put (m : Keyed α) (key : String) (value : α) (other : String) :
    (m.put key value).get? other = if key = other then some value else m.get? other := by
  induction m with
  | nil => simp [put, get?_cons]
  | cons p rest ih =>
    obtain ⟨k, v⟩ := p
    by_cases hk : k = key <;> by_cases ho : k = other <;> by_cases h : key = other <;>
      simp_all [put, get?_cons]

@[simp] theorem get?_putSorted (m : Keyed α) (key : String) (value : α) (other : String) :
    (m.putSorted key value).get? other = if key = other then some value else m.get? other := by
  induction m with
  | nil => simp [putSorted, get?_cons]
  | cons p rest ih =>
    obtain ⟨k, v⟩ := p
    unfold putSorted
    split
    · by_cases ho : k = other <;> simp_all [get?_cons]
    · split
      · simp [get?_cons]
      · simp only [get?_cons, ih]
        by_cases ho : k = other <;> by_cases h : key = other <;> simp_all

theorem keys_put (m : Keyed α) (key : String) (value : α) :
    (m.put key value).keys = if key ∈ m.keys then m.keys else m.keys ++ [key] := by
  induction m with
  | nil => simp [put, keys]
  | cons p rest ih =>
    obtain ⟨k, v⟩ := p
    by_cases hk : k = key
    · subst hk
      simp [put, keys]
    · have hk' : ¬ key = k := fun h ↦ hk h.symm
      simp only [keys] at ih
      by_cases hm : key ∈ rest.map Prod.fst <;> simp_all [put, keys]

/-- Keys stay distinct. -/
theorem nodup_keys_put (m : Keyed α) (key : String) (value : α) (h : m.keys.Nodup) :
    (m.put key value).keys.Nodup := by
  rw [keys_put]
  split
  · exact h
  · next hm =>
    refine List.nodup_append.2 ⟨h, by simp, fun a ha b hb ↦ ?_⟩
    simp only [List.mem_singleton] at hb
    exact fun hab ↦ hm (hb ▸ hab ▸ ha)

@[simp] theorem putAll_nil (m : Keyed α) : m.putAll [] = m := rfl

@[simp] theorem putAll_cons (m : Keyed α) (key : String) (value : α)
    (pairs : List (String × α)) :
    m.putAll ((key, value) :: pairs) = (m.put key value).putAll pairs := rfl

theorem nodup_keys_putAll (m : Keyed α) (pairs : List (String × α)) (h : m.keys.Nodup) :
    (m.putAll pairs).keys.Nodup := by
  induction pairs generalizing m with
  | nil => simpa using h
  | cons p rest ih =>
    obtain ⟨k, v⟩ := p
    simpa using ih (m.put k v) (nodup_keys_put m k v h)

end Keyed

end Logbook
