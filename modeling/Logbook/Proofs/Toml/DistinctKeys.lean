import Logbook.Proofs.Keyed
import Logbook.Toml.Reader

/-!
# The keys of a document are distinct

In a document that was read no table has a key twice, at whatever depth it lies and whether it was
written with headers, with keys with dots or inline (`distinct_of_read?`). While the document is
put together this is true of the entries (`Entries.Distinct`), and every change at the end of a path
keeps it that keeps it there (`distinct_of_changeAt`).
-/

set_option autoImplicit false
set_option relaxedAutoImplicit false

namespace Logbook.Toml

/-- No table in a value has a key twice. -/
inductive Value.Distinct : Value → Prop
  | string (s : String) : Distinct (.string s)
  | integer (n : Int) : Distinct (.integer n)
  | float (x : Binary64) : Distinct (.float x)
  | boolean (b : Bool) : Distinct (.boolean b)
  | dateTime : Distinct .dateTime
  | array {items : List Value} (inside : ∀ v ∈ items, Distinct v) : Distinct (.array items)
  | table {members : Table} (keys : members.keys.Nodup) (inside : ∀ p ∈ members, Distinct p.2) :
      Distinct (.table members)

/-- No table in an entry has a key twice. -/
inductive Entry.Distinct : Entry → Prop
  | value {v : Value} (h : v.Distinct) : Distinct (.value v)
  | table (origin : Origin) {entries : Entries} (keys : entries.keys.Nodup)
      (inside : ∀ p ∈ entries, Distinct p.2) : Distinct (.table origin entries)
  | tables {all : List Entries} (keys : ∀ t ∈ all, t.keys.Nodup)
      (inside : ∀ t ∈ all, ∀ p ∈ t, Distinct p.2) : Distinct (.tables all)

/-- The keys are distinct, and so are those of all tables inside. -/
structure Entries.Distinct (entries : Entries) : Prop where
  keys : entries.keys.Nodup
  inside : ∀ p ∈ entries, p.2.Distinct

variable {entries : Entries} {key : String} {e : Entry} {made origin : Origin} {a b : Assembly}
  {path : List String} {v : Value} {all : List Entries}

/-! ### Entries -/

theorem Entry.distinct_table_iff : (Entry.table origin entries).Distinct ↔ entries.Distinct := by
  constructor
  · rintro (_ | ⟨_, keys, inside⟩)
    exact ⟨keys, inside⟩
  · exact fun h ↦ .table origin h.keys h.inside

theorem Entry.distinct_tables_iff : (Entry.tables all).Distinct ↔ ∀ t ∈ all, t.Distinct := by
  constructor
  · rintro (_ | _ | ⟨keys, inside⟩)
    exact fun t ht ↦ ⟨keys t ht, inside t ht⟩
  · exact fun h ↦ .tables (fun t ht ↦ (h t ht).keys) fun t ht ↦ (h t ht).inside

namespace Entries.Distinct

theorem nil : Entries.Distinct [] :=
  ⟨List.nodup_nil, fun _ h ↦ absurd h List.not_mem_nil⟩

theorem of_get? (h : entries.Distinct) (hget : entries.get? key = some e) : e.Distinct :=
  h.inside _ (Keyed.mem_of_get? hget)

theorem put (h : entries.Distinct) (key : String) (he : e.Distinct) :
    Entries.Distinct (entries.put key e) := by
  refine ⟨Keyed.nodup_keys_put entries key e h.keys, fun p hp ↦ ?_⟩
  rcases Keyed.exists_of_mem_put hp with rfl | hp
  · exact he
  · exact h.inside p hp

theorem erase (h : entries.Distinct) (key : String) : Entries.Distinct (entries.erase key) :=
  ⟨Keyed.nodup_keys_erase key h.keys, fun p hp ↦ h.inside p (List.mem_of_mem_filter hp)⟩

end Entries.Distinct

/-! ### The finished document -/

theorem finishEntries_eq (entries : Entries) :
    finishEntries entries = entries.map fun p ↦ (p.1, p.2.finish) := by
  induction entries with
  | nil => rfl
  | cons p rest ih => rw [finishEntries, ih, List.map_cons]

theorem finishTables_eq (all : List Entries) :
    finishTables all = all.map fun t ↦ Value.table (finishEntries t) := by
  induction all with
  | nil => rfl
  | cons t rest ih => rw [finishTables, ih, List.map_cons]

/-- Entries are finished under their keys. -/
theorem keys_finishEntries (entries : Entries) :
    Keyed.keys (finishEntries entries) = entries.keys := by
  rw [finishEntries_eq, Keyed.keys, List.map_map]
  rfl

theorem get?_finishEntries (entries : Entries) (key : String) :
    Keyed.get? (finishEntries entries) key = (entries.get? key).map Entry.finish := by
  induction entries with
  | nil => rfl
  | cons p rest ih =>
    obtain ⟨k, e⟩ := p
    rw [finishEntries, Keyed.get?_cons, Keyed.get?_cons, ih]
    by_cases hk : k = key <;> simp [hk]

theorem distinct_finishEntries (keys : entries.keys.Nodup)
    (inside : ∀ p ∈ entries, p.2.finish.Distinct) :
    (Value.table (finishEntries entries)).Distinct := by
  refine .table ?_ fun p hp ↦ ?_
  · rwa [keys_finishEntries]
  · rw [finishEntries_eq] at hp
    obtain ⟨q, hq, rfl⟩ := List.mem_map.mp hp
    exact inside q hq

theorem Entry.Distinct.finish (h : e.Distinct) : e.finish.Distinct := by
  induction h with
  | value h => exact h
  | table origin keys _ ih => exact distinct_finishEntries keys ih
  | tables keys _ ih =>
    rw [Entry.finish, finishTables_eq]
    refine .array fun v hv ↦ ?_
    obtain ⟨t, ht, rfl⟩ := List.mem_map.mp hv
    exact distinct_finishEntries (keys t ht) (ih t ht)

theorem Entries.Distinct.finish (h : entries.Distinct) :
    (Value.table (finishEntries entries)).Distinct :=
  distinct_finishEntries h.keys fun p hp ↦ (h.inside p hp).finish

/-! ### Ways into tables -/

/-- What keeps keys distinct at the end of a path keeps them distinct. -/
theorem distinct_of_changeAt {change : Origin → Entries → Option Entries}
    (hchange : ∀ origin entries changed, entries.Distinct → change origin entries = some changed →
      changed.Distinct) {changed : Entries} (h : entries.Distinct)
    (hsome : changeAt made change path origin entries = some changed) : changed.Distinct := by
  induction path generalizing origin entries changed with
  | nil => exact hchange origin entries changed h hsome
  | cons key path ih =>
    rw [changeAt] at hsome
    cases hget : entries.get? key with
    | none =>
      rw [hget] at hsome
      obtain ⟨inner, hinner, rfl⟩ := Option.map_eq_some_iff.mp hsome
      exact h.put key (Entry.distinct_table_iff.mpr (ih .nil hinner))
    | some e =>
      have he := h.of_get? hget
      rw [hget] at hsome
      cases e with
      | value v => exact absurd hsome (by simp)
      | table origin inner =>
        dsimp only at hsome
        split_ifs at hsome
        obtain ⟨inner', hinner, rfl⟩ := Option.map_eq_some_iff.mp hsome
        exact h.put key (Entry.distinct_table_iff.mpr (ih (Entry.distinct_table_iff.mp he) hinner))
      | tables all =>
        have hall := Entry.distinct_tables_iff.mp he
        dsimp only at hsome
        cases hlast : all.getLast? with
        | none =>
          rw [hlast] at hsome
          exact absurd hsome (by simp)
        | some last =>
          rw [hlast] at hsome
          obtain ⟨inner, hinner, rfl⟩ := Option.map_eq_some_iff.mp hsome
          have hinner := ih (hall last (List.mem_of_getLast? hlast)) hinner
          refine h.put key (Entry.distinct_tables_iff.mpr fun t ht ↦ ?_)
          rcases List.mem_append.mp ht with ht | ht
          · exact hall t (List.mem_of_mem_dropLast ht)
          · rw [List.mem_singleton.mp ht]
            exact hinner

theorem distinct_of_addPair {changed : Entries} (h : entries.Distinct) (hv : v.Distinct)
    (hsome : addPair path key v entries = some changed) : changed.Distinct := by
  refine distinct_of_changeAt (fun origin entries changed h hadd ↦ ?_) h hsome
  rw [addValue] at hadd
  split_ifs at hadd
  rw [← Option.some.inj hadd]
  exact h.put key (.value hv)

/-! ### The document so far -/

/-- All keys of a document that is being read are distinct. -/
structure Assembly.Distinct (a : Assembly) : Prop where
  root : a.root.Distinct
  current : a.current.Distinct

namespace Assembly.Distinct

theorem start : Assembly.start.Distinct :=
  ⟨.nil, .nil⟩

theorem settle (h : a.Distinct) {root : Entries} (hsettle : a.settle = some root) :
    root.Distinct := by
  rw [Assembly.settle] at hsettle
  split at hsettle
  · rw [← Option.some.inj hsettle]
    exact h.current
  next key _ =>
  refine distinct_of_changeAt (fun origin entries changed hentries hadd ↦ ?_) h.root hsettle
  split_ifs at hadd with hisArray
  · cases hget : entries.get? key with
    | none =>
      rw [hget] at hadd
      rw [← Option.some.inj hadd]
      refine hentries.put key (Entry.distinct_tables_iff.mpr fun t ht ↦ ?_)
      rw [List.mem_singleton.mp ht]
      exact h.current
    | some e =>
      rw [hget] at hadd
      cases e with
      | value v => exact absurd hadd (by simp)
      | table origin inner => exact absurd hadd (by simp)
      | tables all =>
        rw [← Option.some.inj hadd]
        have hall := Entry.distinct_tables_iff.mp (hentries.of_get? hget)
        refine hentries.put key (Entry.distinct_tables_iff.mpr ?_)
        exact List.forall_mem_append.mpr ⟨hall, List.forall_mem_singleton.mpr h.current⟩
  · rw [← Option.some.inj hadd]
    exact hentries.put key (Entry.distinct_table_iff.mpr h.current)

theorem pair (h : a.Distinct) (hv : v.Distinct) (hpair : a.pair path key v = some b) :
    b.Distinct := by
  obtain ⟨current, hcurrent, rfl⟩ := Option.map_eq_some_iff.mp hpair
  exact ⟨h.root, distinct_of_addPair h.current hv hcurrent⟩

/-- What a header finds in an implied table is a table that was there. -/
theorem heldAt {path : List String} {held : Entries} (h : entries.Distinct)
    (hheld : Assembly.header.heldAt path key entries = some held) : held.Distinct := by
  induction path generalizing entries with
  | nil =>
    rw [Assembly.header.heldAt, implied?] at hheld
    split at hheld
    · rw [← Option.some.inj hheld]
      exact .nil
    · next hget =>
      rw [← Option.some.inj hheld]
      exact Entry.distinct_table_iff.mp (h.of_get? hget)
    · exact absurd hheld (by simp)
  | cons k path ih =>
    rw [Assembly.header.heldAt] at hheld
    split at hheld
    · rw [← Option.some.inj hheld]
      exact .nil
    · next hget => exact ih (Entry.distinct_table_iff.mp (h.of_get? hget)) hheld
    · next all hget =>
      obtain ⟨last, hlast, hheld⟩ := Option.bind_eq_some_iff.mp hheld
      have hall := Entry.distinct_tables_iff.mp (h.of_get? hget)
      exact ih (hall last (List.mem_of_getLast? hlast)) hheld
    · exact absurd hheld (by simp)

theorem header (h : a.Distinct) (hheader : a.header path = some b) : b.Distinct := by
  rw [Assembly.header] at hheader
  obtain ⟨root, hroot, hheader⟩ := Option.bind_eq_some_iff.mp hheader
  obtain ⟨key, -, hheader⟩ := Option.bind_eq_some_iff.mp hheader
  obtain ⟨held, hheld, hheader⟩ := Option.bind_eq_some_iff.mp hheader
  obtain ⟨root', hroot', hheader⟩ := Option.bind_eq_some_iff.mp hheader
  rw [← Option.some.inj hheader]
  refine ⟨distinct_of_changeAt (fun _ entries changed hentries herase ↦ ?_) (h.settle hroot) hroot',
    heldAt (h.settle hroot) hheld⟩
  rw [← Option.some.inj herase]
  exact hentries.erase key

theorem arrayHeader (h : a.Distinct) (hheader : a.arrayHeader path = some b) : b.Distinct := by
  rw [Assembly.arrayHeader] at hheader
  obtain ⟨root, hroot, hheader⟩ := Option.bind_eq_some_iff.mp hheader
  obtain ⟨key, -, hheader⟩ := Option.bind_eq_some_iff.mp hheader
  obtain ⟨root', hroot', hheader⟩ := Option.bind_eq_some_iff.mp hheader
  rw [← Option.some.inj hheader]
  refine ⟨distinct_of_changeAt (fun _ entries changed hentries hadd ↦ ?_) (h.settle hroot) hroot',
    .nil⟩
  split at hadd
  · rw [← Option.some.inj hadd]
    exact hentries.put key (Entry.distinct_tables_iff.mpr fun _ ht ↦ absurd ht List.not_mem_nil)
  · rw [← Option.some.inj hadd]
    exact hentries
  · exact absurd hadd (by simp)

theorem finish (h : a.Distinct) {document : Table} (hfinish : a.finish = some document) :
    (Value.table document).Distinct := by
  obtain ⟨root, hroot, rfl⟩ := Option.map_eq_some_iff.mp hfinish
  exact (h.settle hroot).finish

end Assembly.Distinct

/-! ### Readers -/

variable {fuel depth lines : Nat} {cs rest : List Char} {document : Table}

theorem distinct_of_number? (h : number? cs = some (v, rest)) : v.Distinct := by
  rw [number?] at h
  split at h
  · rw [← (Prod.mk.inj (Option.some.inj h)).1]
    exact .dateTime
  · split at h
    · rw [← (Prod.mk.inj (Option.some.inj h)).1]
      exact .float _
    · obtain ⟨p, -, hp⟩ := Option.map_eq_some_iff.mp h
      rw [← (Prod.mk.inj hp).1]
      exact .integer _

/-- What the three readers of values promise for an amount of fuel. -/
structure ReadersDistinct (fuel : Nat) : Prop where
  value : ∀ {depth cs v rest}, value? fuel depth cs = some (v, rest) → v.Distinct
  items : ∀ {depth done cs v rest}, (∀ w ∈ done, Value.Distinct w) →
    items? fuel depth done cs = some (v, rest) → v.Distinct
  members : ∀ {depth cs v rest} {done : Entries}, done.Distinct →
    members? fuel depth done cs = some (v, rest) → v.Distinct

theorem ReadersDistinct.value_succ (ih : ReadersDistinct fuel)
    (h : value? (fuel + 1) depth cs = some (v, rest)) : v.Distinct := by
  cases cs with
  | nil =>
    rw [value?] at h
    exact absurd h (by simp)
  | cons c cs =>
    unfold value? at h
    dsimp only at h
    split_ifs at h with hquote harray htable htrue hfalse
    · obtain ⟨p, -, hp⟩ := Option.map_eq_some_iff.mp h
      rw [← (Prod.mk.inj hp).1]
      exact .string _
    · cases depth with
      | zero => exact absurd h (by simp)
      | succ depth =>
        dsimp only at h
        split at h
        · rw [← (Prod.mk.inj (Option.some.inj h)).1]
          exact .array fun _ hw ↦ absurd hw List.not_mem_nil
        · exact ih.items (fun _ hw ↦ absurd hw List.not_mem_nil) h
    · cases depth with
      | zero => exact absurd h (by simp)
      | succ depth =>
        dsimp only at h
        split at h
        · rw [← (Prod.mk.inj (Option.some.inj h)).1]
          exact .table List.nodup_nil fun _ hp ↦ absurd hp List.not_mem_nil
        · exact ih.members .nil h
    · obtain ⟨t, -, ht⟩ := Option.map_eq_some_iff.mp h
      rw [← (Prod.mk.inj ht).1]
      exact .boolean true
    · obtain ⟨t, -, ht⟩ := Option.map_eq_some_iff.mp h
      rw [← (Prod.mk.inj ht).1]
      exact .boolean false
    · exact distinct_of_number? h

theorem ReadersDistinct.items_succ (ih : ReadersDistinct fuel) {done : List Value}
    (hdone : ∀ w ∈ done, Value.Distinct w)
    (h : items? (fuel + 1) depth done cs = some (v, rest)) : v.Distinct := by
  rw [items?] at h
  split at h
  · exact absurd h (by simp)
  next w more hvalue =>
  have hmore : ∀ u ∈ w :: done, Value.Distinct u :=
    List.forall_mem_cons.mpr ⟨ih.value hvalue, hdone⟩
  have harray : (Value.array (w :: done).reverse).Distinct :=
    .array fun u hu ↦ hmore u (List.mem_reverse.mp hu)
  split at h
  · rw [← (Prod.mk.inj (Option.some.inj h)).1]
    exact harray
  · split at h
    · rw [← (Prod.mk.inj (Option.some.inj h)).1]
      exact harray
    · exact ih.items hmore h
  · exact absurd h (by simp)

theorem ReadersDistinct.members_succ (ih : ReadersDistinct fuel) {done : Entries}
    (hdone : done.Distinct) (h : members? (fuel + 1) depth done cs = some (v, rest)) :
    v.Distinct := by
  rw [members?] at h
  split at h
  · split at h
    · exact absurd h (by simp)
    next w afterValue hvalue =>
    split at h
    · exact absurd h (by simp)
    next entries hadd =>
    have hentries := distinct_of_addPair hdone (ih.value hvalue) hadd
    split at h
    · exact ih.members hentries h
    · rw [← (Prod.mk.inj (Option.some.inj h)).1]
      exact hentries.finish
    · exact absurd h (by simp)
  · exact absurd h (by simp)

theorem readersDistinct (fuel : Nat) : ReadersDistinct fuel := by
  induction fuel with
  | zero =>
    constructor
    · intro depth cs v rest h
      rw [value?] at h
      exact absurd h (by simp)
    · intro depth done cs v rest _ h
      rw [items?] at h
      exact absurd h (by simp)
    · intro depth cs v rest done _ h
      rw [members?] at h
      exact absurd h (by simp)
  | succ fuel ih => exact ⟨ih.value_succ, ih.items_succ, ih.members_succ⟩

theorem Assembly.Distinct.header? (h : a.Distinct) (hheader : header? fuel a cs = some (b, rest)) :
    b.Distinct := by
  unfold Toml.header? at hheader
  split at hheader
  · obtain ⟨k, -, hheader⟩ := Option.bind_eq_some_iff.mp hheader
    obtain ⟨_, -, hheader⟩ := Option.bind_eq_some_iff.mp hheader
    obtain ⟨_, -, hheader⟩ := Option.bind_eq_some_iff.mp hheader
    obtain ⟨_, -, hheader⟩ := Option.bind_eq_some_iff.mp hheader
    obtain ⟨c, hc, hheader⟩ := Option.bind_eq_some_iff.mp hheader
    rw [← (Prod.mk.inj (Option.some.inj hheader)).1]
    exact h.arrayHeader hc
  · obtain ⟨k, -, hheader⟩ := Option.bind_eq_some_iff.mp hheader
    obtain ⟨_, -, hheader⟩ := Option.bind_eq_some_iff.mp hheader
    obtain ⟨_, -, hheader⟩ := Option.bind_eq_some_iff.mp hheader
    obtain ⟨c, hc, hheader⟩ := Option.bind_eq_some_iff.mp hheader
    rw [← (Prod.mk.inj (Option.some.inj hheader)).1]
    exact h.header hc

theorem Assembly.Distinct.pair? (h : a.Distinct) (hpair : pair? fuel a cs = some (b, rest)) :
    b.Distinct := by
  rw [Toml.pair?] at hpair
  obtain ⟨k, -, hpair⟩ := Option.bind_eq_some_iff.mp hpair
  obtain ⟨_, -, hpair⟩ := Option.bind_eq_some_iff.mp hpair
  obtain ⟨p, hvalue, hpair⟩ := Option.bind_eq_some_iff.mp hpair
  obtain ⟨_, -, hpair⟩ := Option.bind_eq_some_iff.mp hpair
  obtain ⟨c, hc, hpair⟩ := Option.bind_eq_some_iff.mp hpair
  rw [← (Prod.mk.inj (Option.some.inj hpair)).1]
  exact h.pair ((readersDistinct fuel).value hvalue) hc

/-- Reading line by line keeps keys distinct. -/
theorem distinct_of_document? (h : a.Distinct) (hread : document? fuel lines a cs = some document) :
    (Value.table document).Distinct := by
  induction lines generalizing a cs with
  | zero =>
    rw [document?] at hread
    exact absurd hread (by simp)
  | succ lines ih =>
    rw [document?] at hread
    split at hread
    · exact h.finish hread
    · split at hread
      · exact ih h hread
      · exact absurd hread (by simp)
    · split at hread
      · next hheader => exact ih (h.header? hheader) hread
      · exact absurd hread (by simp)
    · split at hread
      · exact ih h hread
      · split at hread
        · next hpair => exact ih (h.pair? hpair) hread
        · exact absurd hread (by simp)

/-- In a document that was read no table has a key twice. -/
theorem distinct_of_read? {text : String} (h : read? text = some document) :
    (Value.table document).Distinct :=
  distinct_of_document? .start h

end Logbook.Toml
