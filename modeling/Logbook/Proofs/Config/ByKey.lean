import Logbook.Proofs.Config.Fields
import Logbook.Proofs.Toml.DistinctKeys

/-!
# Groups are read by their keys

The members of a table are taken in their order, but where every setter sets something of its own
(`Independent`) the order decides only which member fails first. Up to that, reading a table with
distinct keys is looking up the key of every setting in turn (`toOption_toGroup_table`).

Two values are the same for a group (`SameGroup`) if its settings find the same in them: in tables
under their keys, in arrays at their places. Reading a group from values that are the same for it
gives the same settings, or fails for both (`toGroup_congr`).
-/

set_option autoImplicit false
set_option relaxedAutoImplicit false

namespace Logbook.Toml.Value

variable {α β γ ε : Type}

/-! ### Reading up to the error -/

theorem toOption_eq_some_iff {x : Except ε β} {b : β} : x.toOption = some b ↔ x = .ok b := by
  cases x <;> simp [Except.toOption]

theorem toOption_bind_pure (f : β → γ) (x : Except ε β) :
    (do return f (← x) : Except ε γ).toOption = x.toOption.map f := by
  cases x <;> rfl

/-- A fold that can fail, up to its error. -/
theorem toOption_foldlM (step : α → β → Except ε α) (items : List β) (a : α) :
    (items.foldlM step a).toOption =
      items.foldl (fun o b ↦ o.bind fun a ↦ (step a b).toOption) (some a) := by
  have hnone : ∀ items : List β,
      items.foldl (fun o b ↦ o.bind fun a ↦ (step a b).toOption) none = none := by
    intro items
    induction items with
    | nil => rfl
    | cons b rest ih => exact ih
  induction items generalizing a with
  | nil => rfl
  | cons b rest ih =>
    rw [List.foldlM_cons, List.foldl_cons, Option.bind_some]
    cases hstep : step a b with
    | error e => exact (hnone rest).symm
    | ok next => exact ih next

/-! ### Setters -/

/-- Two setters whose order does not matter, up to which of them fails first. -/
def Independent (set set' : α → Value → Except ShapeError α) : Prop :=
  ∀ settings v w, ((set settings v).toOption.bind fun s ↦ (set' s w).toOption) =
    (set' settings w).toOption.bind fun s ↦ (set s v).toOption

theorem Independent.symm {set set' : α → Value → Except ShapeError α} (h : Independent set set') :
    Independent set' set :=
  fun settings v w ↦ (h settings w v).symm

/-- Setters that set different things are independent. -/
theorem independent_of_puts {read : Value → Except ShapeError β}
    {read' : Value → Except ShapeError γ} {put : α → β → α} {put' : α → γ → α}
    (h : ∀ settings x y, put' (put settings x) y = put (put' settings y) x) :
    Independent (fun settings v ↦ do return put settings (← read v))
      fun settings v ↦ do return put' settings (← read' v) := by
  intro settings v w
  simp only [toOption_bind_pure]
  cases (read v).toOption with
  | none =>
    cases (read' w).toOption <;> rfl
  | some x =>
    cases (read' w).toOption with
    | none => rfl
    | some y => exact congrArg some (h settings x y)

/-- The setters of a group have different keys and set different things. -/
structure Setters.Apart (setters : Setters α) : Prop where
  keys : (setters.map Prod.fst).Nodup
  independent : setters.Pairwise fun p q ↦ Independent p.2 q.2

variable {setters : Setters α} {members members' : Table} {o : Option α} {k k' name : String}
  {v w : Value} {set set' : α → Value → Except ShapeError α} {defaults : α}

/-- Sets a member where nothing has failed yet. -/
def setIn (setters : Setters α) (o : Option α) (member : String × Value) : Option α :=
  o.bind fun settings ↦ (setMember setters settings member).toOption

/-- What a setter makes of settings, given a value or none. -/
def setTo (set : α → Value → Except ShapeError α) (o : Option α) (given : Option Value) :
    Option α :=
  given.elim o fun v ↦ o.bind fun settings ↦ (set settings v).toOption

theorem setIn_of_lookup (h : setters.lookup k = some set) (o : Option α) (v : Value) :
    setIn setters o (k, v) = setTo set o (some v) := by
  simp only [setIn, setTo, setMember, h, Option.elim_some]

theorem setIn_of_unknown (h : setters.lookup k = none) (o : Option α) (v : Value) :
    setIn setters o (k, v) = o := by
  simp only [setIn, setMember, h]
  cases o <;> rfl

theorem Setters.Apart.lookup (h : setters.Apart) {p : String × (α → Value → Except ShapeError α)}
    (hp : p ∈ setters) : setters.lookup p.1 = some p.2 := by
  obtain ⟨before, after, rfl⟩ := List.append_of_mem hp
  have hkeys := h.keys
  rw [List.map_append, List.nodup_append] at hkeys
  rw [List.lookup_eq_some_iff]
  refine ⟨before, after, rfl, fun q hq ↦ ?_⟩
  exact bne_iff_ne.mpr (hkeys.2.2 q.1 (List.mem_map_of_mem hq) p.1 List.mem_cons_self).symm

/-- Members under different keys can be set in either order. -/
theorem Setters.Apart.setIn_comm (h : setters.Apart) (hk : k ≠ k') (o : Option α) (v w : Value) :
    setIn setters (setIn setters o (k, v)) (k', w) =
      setIn setters (setIn setters o (k', w)) (k, v) := by
  cases hlookup : setters.lookup k with
  | none => rw [setIn_of_unknown hlookup, setIn_of_unknown hlookup]
  | some set =>
    cases hlookup' : setters.lookup k' with
    | none => rw [setIn_of_unknown hlookup', setIn_of_unknown hlookup']
    | some set' =>
      have hsymm : Std.Symm fun p q : String × (α → Value → Except ShapeError α) ↦
          Independent p.2 q.2 := ⟨fun _ _ h ↦ h.symm⟩
      have hindependent : Independent set set' := h.independent.forall (mem_of_lookup hlookup)
        (mem_of_lookup hlookup') fun heq ↦ hk (congrArg Prod.fst heq)
      cases o with
      | none => rfl
      | some settings =>
        simp only [setIn_of_lookup hlookup, setIn_of_lookup hlookup', setTo, Option.elim_some,
          Option.bind_some]
        exact hindependent settings v w

/-! ### Tables -/

/-- The members of a table under these keys, in the order of the keys. -/
def inOrder (keys : List String) (members : Table) : List (String × Value) :=
  keys.filterMap fun k ↦ (members.get? k).map fun v ↦ (k, v)

theorem mem_inOrder {keys : List String} {p : String × Value} :
    p ∈ inOrder keys members ↔ p.1 ∈ keys ∧ members.get? p.1 = some p.2 := by
  rw [inOrder, List.mem_filterMap]
  constructor
  · rintro ⟨k, hk, hp⟩
    obtain ⟨v, hv, rfl⟩ := Option.map_eq_some_iff.mp hp
    exact ⟨hk, hv⟩
  · rintro ⟨hk, hv⟩
    exact ⟨p.1, hk, by rw [hv, Option.map_some]⟩

/-- Members that are no settings can be left out. -/
theorem foldl_setIn_filter (setters : Setters α) (members : List (String × Value)) (o : Option α) :
    members.foldl (setIn setters) o =
      (members.filter fun p ↦ p.1 ∈ setters.map Prod.fst).foldl (setIn setters) o := by
  induction members generalizing o with
  | nil => rfl
  | cons p rest ih =>
    by_cases hp : p.1 ∈ setters.map Prod.fst
    · rw [List.filter_cons_of_pos (by simpa using hp), List.foldl_cons, List.foldl_cons, ih]
    · have hunknown : setters.lookup p.1 = none := by
        rw [List.lookup_eq_none_iff]
        intro q hq
        exact bne_iff_ne.mpr fun heq ↦ hp (heq ▸ List.mem_map_of_mem hq)
      have hset : setIn setters o p = o := setIn_of_unknown hunknown o p.2
      rw [List.filter_cons_of_neg (by simpa using hp), List.foldl_cons, hset, ih]

/-- The settings among the members of a table, in the order of the settings. -/
theorem perm_inOrder (hmembers : members.keys.Nodup) {keys : List String} (hkeys : keys.Nodup) :
    (members.filter fun p ↦ p.1 ∈ keys).Perm (inOrder keys members) := by
  rw [List.perm_ext_iff_of_nodup]
  · intro p
    rw [mem_inOrder, List.mem_filter, decide_eq_true_iff, and_comm]
    exact and_congr_right fun _ ↦ ⟨Keyed.get?_of_mem hmembers, Keyed.mem_of_get?⟩
  · exact (List.Nodup.of_map Prod.fst hmembers).filter _
  · refine hkeys.filterMap fun k k' p hp hp' ↦ ?_
    obtain ⟨v, -, rfl⟩ := Option.map_eq_some_iff.mp hp
    obtain ⟨v', -, hv'⟩ := Option.map_eq_some_iff.mp hp'
    exact (Prod.mk.inj hv').1.symm

/-- Up to its error, reading a table is looking up the key of every setting in turn. -/
theorem toOption_toGroup_table (h : setters.Apart) (hmembers : members.keys.Nodup) :
    (toGroup name setters defaults (.table members)).toOption =
      setters.foldl (fun o p ↦ setTo p.2 o (members.get? p.1)) (some defaults) := by
  have hcomm : ∀ p ∈ members.filter (fun p ↦ p.1 ∈ setters.map Prod.fst),
      ∀ q ∈ members.filter (fun p ↦ p.1 ∈ setters.map Prod.fst), ∀ o,
        setIn setters (setIn setters o p) q = setIn setters (setIn setters o q) p := by
    intro p hp q hq o
    by_cases hk : p.1 = q.1
    · have hsame : some p.2 = some q.2 := by
        rw [← Keyed.get?_of_mem hmembers (List.mem_of_mem_filter hp), hk,
          Keyed.get?_of_mem hmembers (List.mem_of_mem_filter hq)]
      rw [Prod.ext hk (Option.some.inj hsame)]
    · exact h.setIn_comm hk o p.2 q.2
  calc (toGroup name setters defaults (.table members)).toOption
      = members.foldl (setIn setters) (some defaults) := toOption_foldlM _ _ _
    _ = (members.filter fun p ↦ p.1 ∈ setters.map Prod.fst).foldl (setIn setters)
          (some defaults) := foldl_setIn_filter _ _ _
    _ = (inOrder (setters.map Prod.fst) members).foldl (setIn setters) (some defaults) :=
        (perm_inOrder hmembers h.keys).foldl_eq' hcomm _
    _ = setters.foldl (fun o p ↦ setTo p.2 o (members.get? p.1)) (some defaults) := by
        rw [inOrder, List.foldl_filterMap, List.foldl_map]
        refine List.foldl_ext _ _ _ fun o p hp ↦ ?_
        cases members.get? p.1 with
        | none => rfl
        | some v => exact setIn_of_lookup (h.lookup hp) o v

/-! ### Values that are the same for a group -/

/-- What there is to say of two values that are given for the settings of a group, by the keys of
the settings and in their order. -/
abbrev Parts := List (String × (Value → Value → Prop))

/-- Two values are the same for a group: they are equal, or tables in which the settings find the
same under their keys, or arrays in which they find the same at their places. Whatever else the two
hold and in which order is left open. -/
inductive SameGroup (parts : Parts) : Value → Value → Prop
  | same (v : Value) : SameGroup parts v v
  | table {members members' : Table}
      (h : ∀ part ∈ parts, Option.Rel part.2 (members.get? part.1) (members'.get? part.1)) :
      SameGroup parts (.table members) (.table members')
  | array {items items' : List Value}
      (h : ∀ i : Nat, ∀ part ∈ parts[i]?, Option.Rel part.2 items[i]? items'[i]?) :
      SameGroup parts (.array items) (.array items')

/-- Two values are the same for a single setting, which is no table and no array. -/
abbrev SameSetting : Value → Value → Prop :=
  SameGroup []

variable {parts : Parts} {R : Value → Value → Prop} {read : Value → Except ShapeError β}
  {given given' : Option Value} {items items' : List Value}

theorem rel_of_refl (hrefl : ∀ v, R v v) (given : Option Value) : Option.Rel R given given := by
  cases given with
  | none => exact .none
  | some v => exact .some (hrefl v)

/-- Tables whose members under the keys of the settings are the same, in any order, are the same for
the group, whatever their other members are. -/
theorem SameGroup.of_perm (hrefl : ∀ part ∈ parts, ∀ v, part.2 v v) (hmembers : members.keys.Nodup)
    (hmembers' : members'.keys.Nodup)
    (h : (members.filter fun p ↦ p.1 ∈ parts.map Prod.fst).Perm
      (members'.filter fun p ↦ p.1 ∈ parts.map Prod.fst)) :
    SameGroup parts (.table members) (.table members') := by
  refine .table fun part hpart ↦ ?_
  have hkey : part.1 ∈ parts.map Prod.fst := List.mem_map_of_mem hpart
  have hget : members.get? part.1 = members'.get? part.1 := by
    refine Option.ext fun v ↦ ?_
    have hmem := h.mem_iff (a := (part.1, v))
    rw [List.mem_filter, List.mem_filter, decide_eq_true hkey, and_iff_left rfl, and_iff_left rfl]
      at hmem
    exact ⟨fun hv ↦ Keyed.get?_of_mem hmembers' (hmem.mp (Keyed.mem_of_get? hv)),
      fun hv ↦ Keyed.get?_of_mem hmembers (hmem.mpr (Keyed.mem_of_get? hv))⟩
  rw [hget]
  exact rel_of_refl (hrefl part hpart) _

/-! ### Reading values that are the same -/

/-- Related values are read as the same, or not at all. -/
def ReadsAlike (read : Value → Except ShapeError β) (R : Value → Value → Prop) : Prop :=
  ∀ v w, v.Distinct → w.Distinct → R v w → (read v).toOption = (read w).toOption

/-- Related values make the same of settings, or nothing. -/
def SetsAlike (set : α → Value → Except ShapeError α) (R : Value → Value → Prop) : Prop :=
  ∀ settings v w, v.Distinct → w.Distinct → R v w →
    (set settings v).toOption = (set settings w).toOption

theorem ReadsAlike.setsAlike (h : ReadsAlike read R) (put : α → β → α) :
    SetsAlike (fun settings v ↦ do return put settings (← read v)) R := by
  intro settings v w hv hw hR
  rw [toOption_bind_pure, toOption_bind_pure, h v w hv hw hR]

/-- A single setting that is read from no table and from no array is read from related values as the
same. -/
theorem readsAlike_of_single (htable : ∀ members, (read (.table members)).toOption = none)
    (harray : ∀ items, (read (.array items)).toOption = none) : ReadsAlike read SameSetting := by
  intro v w _ _ h
  cases h with
  | same => rfl
  | table _ => rw [htable, htable]
  | array _ => rw [harray, harray]

theorem SetsAlike.setTo_eq (h : SetsAlike set R) (hgiven : ∀ v ∈ given, v.Distinct)
    (hgiven' : ∀ v ∈ given', v.Distinct) (hR : Option.Rel R given given') (o : Option α) :
    setTo set o given = setTo set o given' := by
  cases hR with
  | none => rfl
  | some hvw =>
    have hset := fun settings ↦ h settings _ _ (hgiven _ rfl) (hgiven' _ rfl) hvw
    simp only [setTo, Option.elim_some, hset]

theorem Distinct.of_get? (h : (Value.table members).Distinct) (hget : members.get? k = some v) :
    v.Distinct := by
  cases h with
  | table _ inside => exact inside _ (Keyed.mem_of_get? hget)

theorem Distinct.keys (h : (Value.table members).Distinct) : members.keys.Nodup := by
  cases h with
  | table keys _ => exact keys

theorem Distinct.of_mem (h : (Value.array items).Distinct) (hv : v ∈ items) : v.Distinct := by
  cases h with
  | array inside => exact inside v hv

/-- The setters of a group make the same of values that are related as its parts say. -/
def Setters.Alike (setters : Setters α) (parts : Parts) : Prop :=
  List.Forall₂ (fun p part ↦ p.1 = part.1 ∧ SetsAlike p.2 part.2) setters parts

theorem Setters.Alike.foldl_table (h : setters.Alike parts) (hv : (Value.table members).Distinct)
    (hw : (Value.table members').Distinct)
    (hsame : ∀ part ∈ parts, Option.Rel part.2 (members.get? part.1) (members'.get? part.1))
    (o : Option α) : setters.foldl (fun o p ↦ setTo p.2 o (members.get? p.1)) o =
      setters.foldl (fun o p ↦ setTo p.2 o (members'.get? p.1)) o := by
  induction h generalizing o with
  | nil => rfl
  | @cons p part setters parts hp _ ih =>
    rw [List.forall_mem_cons] at hsame
    have hstep := hp.2.setTo_eq (fun v ↦ hv.of_get?) (fun v ↦ hw.of_get?) hsame.1 o
    rw [← hp.1] at hstep
    rw [List.foldl_cons, List.foldl_cons, hstep]
    exact ih hsame.2 _

theorem Setters.Alike.foldl_array (h : setters.Alike parts) (hv : ∀ v ∈ items, v.Distinct)
    (hw : ∀ v ∈ items', v.Distinct)
    (hsame : ∀ i : Nat, ∀ part ∈ parts[i]?, Option.Rel part.2 items[i]? items'[i]?)
    (o : Option α) :
    (setters.zip items).foldl (fun o q ↦ setTo q.1.2 o (some q.2)) o =
      (setters.zip items').foldl (fun o q ↦ setTo q.1.2 o (some q.2)) o := by
  induction h generalizing items items' o with
  | nil => rfl
  | @cons p part setters parts hp _ ih =>
    have hfirst := hsame 0 part rfl
    cases items with
    | nil =>
      cases items' with
      | nil => rfl
      | cons w rest' => cases hfirst
    | cons v rest =>
      cases items' with
      | nil => cases hfirst
      | cons w rest' =>
        rw [List.forall_mem_cons] at hv hw
        have hgiven : ∀ u ∈ some v, u.Distinct := by
          rintro _ ⟨⟩
          exact hv.1
        have hgiven' : ∀ u ∈ some w, u.Distinct := by
          rintro _ ⟨⟩
          exact hw.1
        rw [List.zip_cons_cons, List.zip_cons_cons, List.foldl_cons, List.foldl_cons,
          hp.2.setTo_eq hgiven hgiven' hfirst o]
        exact ih hv.2 hw.2 (fun i part hi ↦ hsame (i + 1) part hi) _

/-- Values that are the same for a group are read as the same settings, or not at all. -/
theorem toGroup_congr (hsetters : setters.Apart) (halike : setters.Alike parts) :
    ReadsAlike (toGroup name setters defaults) (SameGroup parts) := by
  intro v w hv hw h
  cases h with
  | same => rfl
  | table h =>
    rw [toOption_toGroup_table hsetters hv.keys, toOption_toGroup_table hsetters hw.keys]
    exact halike.foldl_table hv hw h _
  | array h =>
    rw [toGroup, toGroup, toOption_foldlM, toOption_foldlM]
    exact halike.foldl_array (fun _ ↦ hv.of_mem) (fun _ ↦ hw.of_mem) h _

end Logbook.Toml.Value

namespace Logbook

open Toml.Value (SameGroup SameSetting ReadsAlike readsAlike_of_single independent_of_puts
  toGroup_congr)

/-! ### The groups of the service -/

theorem Toml.Value.readsAlike_toBool : ReadsAlike toBool SameSetting :=
  readsAlike_of_single (fun _ ↦ rfl) fun _ ↦ rfl

theorem Toml.Value.readsAlike_toText : ReadsAlike toText SameSetting :=
  readsAlike_of_single (fun _ ↦ rfl) fun _ ↦ rfl

theorem Toml.Value.readsAlike_toNatural (expected : String) :
    ReadsAlike (toNatural expected) SameSetting :=
  readsAlike_of_single (fun _ ↦ rfl) fun _ ↦ rfl

theorem Toml.Value.readsAlike_toSeverity : ReadsAlike toSeverity SameSetting :=
  readsAlike_of_single (fun _ ↦ rfl) fun _ ↦ rfl

open Toml.Value (readsAlike_toBool readsAlike_toText readsAlike_toNatural readsAlike_toSeverity)

namespace ListenerSettings

/-- Two values are the same for the listener. -/
def Same : Toml.Value → Toml.Value → Prop :=
  SameGroup [("bind_address", SameSetting)]

theorem apart_setters : setters.Apart where
  keys := by decide
  independent := List.pairwise_singleton _ _

theorem readsAlike : ReadsAlike ofToml Same :=
  toGroup_congr apart_setters (.cons ⟨rfl, readsAlike_toText.setsAlike _⟩ .nil)

end ListenerSettings

namespace FileSettings

/-- Two values are the same for the log file. -/
def Same : Toml.Value → Toml.Value → Prop :=
  SameGroup [("enabled", SameSetting), ("path", SameSetting), ("max_size_mb", SameSetting),
    ("max_backups", SameSetting)]

theorem apart_setters : setters.Apart where
  keys := by decide
  independent := by
    simp only [setters, List.pairwise_cons, List.forall_mem_cons, List.not_mem_nil, false_imp_iff,
      implies_true, and_true, List.Pairwise.nil]
    refine ⟨⟨?_, ?_, ?_⟩, ⟨?_, ?_⟩, ?_⟩ <;> exact independent_of_puts fun _ _ _ ↦ rfl

theorem readsAlike : ReadsAlike ofToml Same :=
  toGroup_congr apart_setters
    (.cons ⟨rfl, readsAlike_toBool.setsAlike _⟩ (.cons ⟨rfl, readsAlike_toText.setsAlike _⟩
      (.cons ⟨rfl, (readsAlike_toNatural _).setsAlike _⟩
        (.cons ⟨rfl, (readsAlike_toNatural _).setsAlike _⟩ .nil))))

end FileSettings

namespace LoggingSettings

/-- Two values are the same for logging. -/
def Same : Toml.Value → Toml.Value → Prop :=
  SameGroup [("pretty", SameSetting), ("debug", SameSetting), ("level", SameSetting),
    ("file", FileSettings.Same)]

theorem apart_setters : setters.Apart where
  keys := by decide
  independent := by
    simp only [setters, List.pairwise_cons, List.forall_mem_cons, List.not_mem_nil, false_imp_iff,
      implies_true, and_true, List.Pairwise.nil]
    refine ⟨⟨?_, ?_, ?_⟩, ⟨?_, ?_⟩, ?_⟩ <;> exact independent_of_puts fun _ _ _ ↦ rfl

theorem readsAlike : ReadsAlike ofToml Same :=
  toGroup_congr apart_setters
    (.cons ⟨rfl, readsAlike_toBool.setsAlike _⟩ (.cons ⟨rfl, readsAlike_toBool.setsAlike _⟩
      (.cons ⟨rfl, readsAlike_toSeverity.setsAlike _⟩
        (.cons ⟨rfl, FileSettings.readsAlike.setsAlike _⟩ .nil))))

end LoggingSettings

namespace ServiceSettings

/-- Two values are the same for the service. -/
def Same : Toml.Value → Toml.Value → Prop :=
  SameGroup [("listener", ListenerSettings.Same), ("logging", LoggingSettings.Same)]

theorem apart_setters : setters.Apart where
  keys := by decide
  independent := by
    rw [setters, List.pairwise_pair]
    exact independent_of_puts fun _ _ _ ↦ rfl

/-- Documents that are the same for the service are read as the same settings, or not at all. -/
theorem toOption_ofToml_congr {document document' : Toml.Table}
    (h : (Toml.Value.table document).Distinct) (h' : (Toml.Value.table document').Distinct)
    (hsame : Same (.table document) (.table document')) :
    (ofToml document).toOption = (ofToml document').toOption :=
  toGroup_congr apart_setters (.cons ⟨rfl, ListenerSettings.readsAlike.setsAlike _⟩
    (.cons ⟨rfl, LoggingSettings.readsAlike.setsAlike _⟩ .nil)) _ _ h h' hsame

end ServiceSettings

end Logbook
