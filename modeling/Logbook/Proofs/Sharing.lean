import Logbook.Capture
import Logbook.Proofs.Rotation.Ledger
import Mathlib.Logic.Relation

/-!
# Writers that share a buffer

What happens to a group of writers is told here without any buffer: by the writer that each writer
was made from (`sources`) and by what was written through which of them (`written`). Two writers are
kin if a chain of these, followed in either direction, leads from one to the other (`Kin`).

A group fits what is told of it if writers have one buffer just where they are kin, and every buffer
holds what was written through its writers (`Fits`). This is kept when a writer joins (`Fits.join`)
and when something is written (`Fits.write`), and so by every run. Therefore a writer shows what was
written through all its kin, in order, and decoded as a whole (`contents_of_run`): it does not
matter in how many pieces bytes are written, through which of the kin, and where a piece ends.
-/

set_option autoImplicit false
set_option relaxedAutoImplicit false

namespace Logbook.Capture

open LogFile (joined joined_concat)

/-! ### What is told of a run -/

/-- For every writer the one it was made from, if it was not made fresh, after one more action. -/
def grow (made : List (Option Nat)) : Action → List (Option Nat)
  | .new => made ++ [none]
  | .share writer => if writer < made.length then made ++ [some writer] else made
  | .write _ _ => made

/-- For every writer the one it was made from, after several actions. -/
def growAll (made : List (Option Nat)) (actions : List Action) : List (Option Nat) :=
  actions.foldl grow made

/-- For every writer of a run the one it was made from. The first writer is fresh. -/
def sources (actions : List Action) : List (Option Nat) :=
  growAll [none] actions

/-- What an action writes among so many writers, and through which. -/
def Action.written (count : Nat) : Action → List (Nat × ByteArray)
  | .new => []
  | .share _ => []
  | .write writer bytes => if writer < count then [(writer, bytes)] else []

/-- What several actions write, and through which writers. -/
def writtenFrom (made : List (Option Nat)) : List Action → List (Nat × ByteArray)
  | [] => []
  | action :: rest => action.written made.length ++ writtenFrom (grow made action) rest

/-- What a run writes, and through which writers. -/
def written (actions : List Action) : List (Nat × ByteArray) :=
  writtenFrom [none] actions

/-- One writer has come from the other, or both from a third, by any number of steps. -/
def Kin (made : List (Option Nat)) : Nat → Nat → Prop :=
  Relation.EqvGen fun parent child ↦ made[child]? = some (some parent)

open Classical in
/-- The bytes among those written that went through the kin of a writer, one behind the other. -/
noncomputable def throughKin (made : List (Option Nat)) (ws : List (Nat × ByteArray))
    (writer : Nat) : ByteArray :=
  joined ((ws.filter fun p ↦ Kin made p.1 writer).map Prod.snd)

/-- Whether an action writes. -/
def Action.isWrite : Action → Bool
  | .write _ _ => true
  | .new => false
  | .share _ => false

variable {made : List (Option Nat)} {ws : List (Nat × ByteArray)} {c : Capture}
  {actions before middle after : List Action} {a b k : Nat} {bytes : ByteArray}

theorem growAll_append (made : List (Option Nat)) (first second : List Action) :
    growAll made (first ++ second) = growAll (growAll made first) second :=
  List.foldl_append

theorem sources_append (first second : List Action) :
    sources (first ++ second) = growAll (sources first) second :=
  growAll_append ..

theorem writtenFrom_append (made : List (Option Nat)) (first second : List Action) :
    writtenFrom made (first ++ second) =
      writtenFrom made first ++ writtenFrom (growAll made first) second := by
  induction first generalizing made with
  | nil => rfl
  | cons action rest ih =>
    rw [List.cons_append, writtenFrom, writtenFrom, ih, List.append_assoc]
    rfl

theorem written_append (first second : List Action) :
    written (first ++ second) = written first ++ writtenFrom (sources first) second :=
  writtenFrom_append ..

theorem prefix_growAll (made : List (Option Nat)) (actions : List Action) :
    made <+: growAll made actions := by
  induction actions generalizing made with
  | nil => exact List.prefix_refl made
  | cons action rest ih =>
    refine List.IsPrefix.trans ?_ (ih (grow made action))
    cases action with
    | new => exact List.prefix_append made _
    | share writer =>
      rw [grow]
      split_ifs
      · exact List.prefix_append made _
      · exact List.prefix_refl made
    | write _ _ => exact List.prefix_refl made

/-- Kin stay kin when more writers are made. -/
theorem Kin.lasting {later : List (Option Nat)} (h : Kin made a b) (hmore : made <+: later) :
    Kin later a b := by
  refine Relation.EqvGen.mono (fun parent child hmade ↦ ?_) a b h
  obtain ⟨rest, rfl⟩ := hmore
  obtain ⟨hlt, -⟩ := List.getElem?_eq_some_iff.mp hmade
  rwa [List.getElem?_append_left hlt]

/-! ### Bytes behind one another -/

theorem joined_append (first second : List ByteArray) :
    joined (first ++ second) = joined first ++ joined second := by
  induction second using List.reverseRecOn with
  | nil => exact ((congrArg joined (List.append_nil first)).trans ByteArray.append_empty.symm)
  | append_singleton rest last ih =>
    rw [← List.append_assoc, joined_concat, joined_concat, ih, ByteArray.append_assoc]

theorem throughKin_append (made : List (Option Nat)) (first second : List (Nat × ByteArray))
    (writer : Nat) :
    throughKin made (first ++ second) writer =
      throughKin made first writer ++ throughKin made second writer := by
  rw [throughKin, throughKin, throughKin, List.filter_append, List.map_append, joined_append]

theorem throughKin_of_kin {writer : Nat} (h : ∀ p ∈ ws, Kin made p.1 writer) :
    throughKin made ws writer = joined (ws.map Prod.snd) := by
  classical
  rw [throughKin, List.filter_eq_self.mpr fun p hp ↦ decide_eq_true (h p hp)]

theorem throughKin_of_not_kin {writer : Nat} (h : ∀ p ∈ ws, ¬Kin made p.1 writer) :
    throughKin made ws writer = ByteArray.empty := by
  classical
  rw [throughKin, List.filter_eq_nil_iff.mpr fun p hp hkin ↦ h p hp (of_decide_eq_true hkin)]
  rfl

/-- What is written through kin of one writer reaches any other as if it were written through that
one, and in one piece. -/
theorem throughKin_pieces {writer : Nat} (h : ∀ p ∈ ws, Kin made p.1 writer) (other : Nat) :
    throughKin made ws other = throughKin made [(writer, joined (ws.map Prod.snd))] other := by
  by_cases hother : Kin made writer other
  · rw [throughKin_of_kin fun p hp ↦ .trans _ _ _ (h p hp) hother,
      throughKin_of_kin (List.forall_mem_singleton.mpr hother)]
    exact ByteArray.empty_append.symm
  · rw [throughKin_of_not_kin fun p hp hkin ↦ hother (.trans _ _ _ (.symm _ _ (h p hp)) hkin),
      throughKin_of_not_kin (List.forall_mem_singleton.mpr hother)]

/-! ### What a group keeps to -/

theorem getElem?_concat_cases {α : Type} {xs : List α} {x y : α} {i : Nat}
    (h : (xs ++ [x])[i]? = some y) : xs[i]? = some y ∨ i = xs.length ∧ y = x := by
  rw [List.getElem?_append] at h
  split_ifs at h with hlt
  · exact Or.inl h
  · rw [List.getElem?_singleton] at h
    split_ifs at h with hzero
    exact Or.inr ⟨by omega, (Option.some.inj h).symm⟩

/-- A group of writers is as it is told: writers have one buffer just where they are kin, and a
buffer holds what was written through the writers that have it. -/
structure Fits (made : List (Option Nat)) (ws : List (Nat × ByteArray)) (c : Capture) : Prop where
  length : c.owner.length = made.length
  owned : ∀ {a k : Nat}, c.owner[a]? = some k → k < c.buffers.length
  source : ∀ {a b : Nat}, made[b]? = some (some a) → c.owner[a]? = c.owner[b]?
  kin : ∀ {a b k : Nat}, c.owner[a]? = some k → c.owner[b]? = some k → Kin made a b
  writer : ∀ p ∈ ws, p.1 < made.length
  holds : ∀ {k : Nat} {bytes : ByteArray}, c.buffers[k]? = some bytes →
    bytes = joined ((ws.filter fun p ↦ c.owner[p.1]? = some k).map Prod.snd)

namespace Fits

theorem owner_lt (h : Fits made ws c) (howner : c.owner[a]? = some k) : a < made.length := by
  rw [← h.length]
  exact (List.getElem?_eq_some_iff.mp howner).1

/-- Kin have one buffer, or none. -/
theorem owner_eq (h : Fits made ws c) (hkin : Kin made a b) : c.owner[a]? = c.owner[b]? := by
  induction hkin with
  | rel a b hmade => exact h.source hmade
  | refl a => rfl
  | symm a b _ ih => exact ih.symm
  | trans a b c _ _ hfirst hsecond => exact hfirst.trans hsecond

/-- What can be read through a writer is what was written through its kin. -/
theorem bytes_eq (h : Fits made ws c) (writer : Nat) :
    c.bytes writer = throughKin made ws writer := by
  rw [Capture.bytes]
  cases howner : c.owner[writer]? with
  | none =>
    refine (throughKin_of_not_kin fun p hp hkin ↦ ?_).symm
    have hlt := h.writer p hp
    rw [← h.length] at hlt
    have hsome := (h.owner_eq hkin).trans howner
    rw [List.getElem?_eq_getElem hlt] at hsome
    exact absurd hsome (by simp)
  | some k =>
    classical
    have hbuffer := List.getElem?_eq_getElem (h.owned howner)
    have hiff : ∀ p ∈ ws, decide (c.owner[p.1]? = some k) = decide (Kin made p.1 writer) := by
      intro p _
      refine decide_eq_decide.mpr ⟨fun hp ↦ h.kin hp howner, fun hkin ↦ ?_⟩
      exact (h.owner_eq hkin).trans howner
    dsimp only
    rw [List.getD_eq_getElem?_getD, hbuffer, Option.getD_some, h.holds hbuffer, throughKin,
      List.filter_congr hiff]

theorem fresh : Fits [none] [] fresh where
  length := rfl
  owned := fun {a k} h ↦ by
    rw [List.mem_singleton.mp (List.mem_of_getElem? h)]
    exact Nat.one_pos
  source := fun {a b} h ↦ absurd (List.mem_of_getElem? h) (by simp)
  kin := fun {a b k} ha hb ↦ by
    obtain ⟨hlt, -⟩ := List.getElem?_eq_some_iff.mp ha
    obtain ⟨hlt', -⟩ := List.getElem?_eq_some_iff.mp hb
    obtain rfl : a = b := (Nat.lt_one_iff.mp hlt).trans (Nat.lt_one_iff.mp hlt').symm
    exact .refl a
  writer := fun _ h ↦ absurd h List.not_mem_nil
  holds := fun h ↦ List.mem_singleton.mp (List.mem_of_getElem? h)

/-- A writer joins, with the buffer of the one it is made from or a new one. -/
theorem join (h : Fits made ws c) {extra : List ByteArray} {source : Option Nat}
    (hk : k < (c.buffers ++ extra).length) (hextra : ∀ bytes ∈ extra, bytes = ByteArray.empty)
    (hsource : ∀ a, source = some a → c.owner[a]? = some k)
    (hkin : ∀ a, c.owner[a]? = some k → Kin (made ++ [source]) a made.length) :
    Fits (made ++ [source]) ws ⟨c.owner ++ [k], c.buffers ++ extra⟩ := by
  have hold : ∀ {a}, a < made.length → (c.owner ++ [k])[a]? = c.owner[a]? := fun ha ↦
    List.getElem?_append_left (h.length ▸ ha)
  have hnew : (c.owner ++ [k])[made.length]? = some k := by
    rw [← h.length]
    exact List.getElem?_concat_length
  have hmore : made <+: made ++ [source] := List.prefix_append ..
  refine ⟨by simp [h.length], fun {a j} ha ↦ ?_, fun {a b} hb ↦ ?_, fun {a b j} ha hb ↦ ?_,
    fun p hp ↦ ?_, fun {j bytes} hj ↦ ?_⟩
  · rcases getElem?_concat_cases ha with ha | ⟨-, rfl⟩
    · rw [List.length_append]
      exact Nat.lt_add_right _ (h.owned ha)
    · exact hk
  · rcases getElem?_concat_cases hb with hb | ⟨rfl, ha⟩
    · have hlt : b < made.length := (List.getElem?_eq_some_iff.mp hb).1
      have howner := List.getElem?_eq_getElem (h.length ▸ hlt : b < c.owner.length)
      have hsame := (h.source hb).trans howner
      rw [hold (h.owner_lt hsame), hold hlt, hsame, howner]
    · have ha := hsource a ha.symm
      rw [hold (h.owner_lt ha), ha, hnew]
  · rcases getElem?_concat_cases ha with ha | ⟨rfl, rfl⟩ <;>
      rcases getElem?_concat_cases hb with hb | ⟨rfl, hj⟩
    · exact (h.kin ha hb).lasting hmore
    · rw [h.length]
      exact hkin a (hj ▸ ha)
    · rw [h.length]
      exact .symm _ _ (hkin b hb)
    · exact .refl _
  · rw [List.length_append]
    exact Nat.lt_add_right _ (h.writer p hp)
  · have hfilter : ws.filter (fun p ↦ (c.owner ++ [k])[p.1]? = some j) =
        ws.filter fun p ↦ c.owner[p.1]? = some j :=
      List.filter_congr fun p hp ↦ by rw [hold (h.writer p hp)]
    dsimp only at hj ⊢
    rw [hfilter]
    rw [List.getElem?_append] at hj
    split_ifs at hj with hlt
    · exact h.holds hj
    · have hnone : ws.filter (fun p ↦ c.owner[p.1]? = some j) = [] :=
        List.filter_eq_nil_iff.mpr fun p _ hp ↦ hlt (h.owned (of_decide_eq_true hp))
      rw [hnone, hextra bytes (List.mem_of_getElem? hj)]
      rfl

/-- Bytes are written through a writer. -/
theorem write (h : Fits made ws c) {writer : Nat} (howner : c.owner[writer]? = some k)
    (bytes : ByteArray) :
    Fits made (ws ++ [(writer, bytes)]) { c with buffers := c.buffers.modify k (· ++ bytes) } := by
  refine ⟨h.length, fun ha ↦ ?_, h.source, h.kin, fun p hp ↦ ?_, fun {j held} hj ↦ ?_⟩
  · rw [List.length_modify]
    exact h.owned ha
  · rcases List.mem_append.mp hp with hp | hp
    · exact h.writer p hp
    · rw [List.mem_singleton.mp hp]
      exact h.owner_lt howner
  · dsimp only at hj ⊢
    rw [List.filter_append, List.map_append, joined_append]
    rw [List.getElem?_modify, Option.map_eq_map, Option.map_eq_some_iff] at hj
    obtain ⟨old, hold, rfl⟩ := hj
    rw [← h.holds hold]
    rw [List.filter_singleton, howner]
    by_cases hsame : k = j
    · rw [if_pos hsame, decide_eq_true (congrArg some hsame), cond_true]
      exact congrArg (old ++ ·) ByteArray.empty_append.symm
    · rw [if_neg hsame, decide_eq_false fun hp ↦ hsame (Option.some.inj hp), cond_false]
      exact ByteArray.append_empty.symm

/-- A group stays as it is told by every action. -/
theorem step (h : Fits made ws c) (action : Action) :
    Fits (grow made action) (ws ++ action.written made.length) (c.step action) := by
  have hnobody : ∀ {a}, c.owner[a]? = none → ¬a < made.length := by
    intro a ha
    rw [← h.length]
    exact Nat.not_lt.mpr (List.getElem?_eq_none_iff.mp ha)
  cases action with
  | new =>
    rw [Action.written, List.append_nil]
    refine h.join (by simp) (by simp) (by simp) fun a ha ↦ ?_
    exact absurd (h.owned ha) (Nat.lt_irrefl _)
  | share writer =>
    rw [Action.written, List.append_nil, Capture.step, grow]
    cases howner : c.owner[writer]? with
    | none =>
      rw [if_neg (hnobody howner)]
      exact h
    | some k =>
      have hedge : Kin (made ++ [some writer]) writer made.length :=
        .rel _ _ List.getElem?_concat_length
      rw [if_pos (h.owner_lt howner)]
      have hjoin : Fits (made ++ [some writer]) ws ⟨c.owner ++ [k], c.buffers ++ []⟩ := h.join
        (by rw [List.append_nil]; exact h.owned howner) (by simp)
        (fun a ha ↦ Option.some.inj ha ▸ howner) fun a ha ↦
          .trans _ _ _ ((h.kin ha howner).lasting (List.prefix_append ..)) hedge
      rwa [List.append_nil] at hjoin
  | write writer bytes =>
    rw [Action.written, Capture.step, grow]
    cases howner : c.owner[writer]? with
    | none =>
      rw [if_neg (hnobody howner), List.append_nil]
      exact h
    | some k =>
      rw [if_pos (h.owner_lt howner)]
      exact h.write howner bytes

theorem run (h : Fits made ws c) (actions : List Action) :
    Fits (growAll made actions) (ws ++ writtenFrom made actions) (c.run actions) := by
  induction actions generalizing made ws c with
  | nil =>
    rw [writtenFrom, List.append_nil]
    exact h
  | cons action rest ih =>
    have hrest := ih (h.step action)
    rw [List.append_assoc] at hrest
    exact hrest

end Fits

/-! ### Runs -/

theorem fits_of_run (actions : List Action) :
    Fits (sources actions) (written actions) (Capture.fresh.run actions) :=
  Fits.fresh.run actions

theorem bytes_run (actions : List Action) (writer : Nat) :
    (Capture.fresh.run actions).bytes writer =
      throughKin (sources actions) (written actions) writer :=
  (fits_of_run actions).bytes_eq writer

/-- Without what is written, the same writers are made. -/
theorem growAll_filter (made : List (Option Nat)) (actions : List Action) :
    growAll made (actions.filter (!·.isWrite)) = growAll made actions := by
  induction actions generalizing made with
  | nil => rfl
  | cons action rest ih =>
    cases action with
    | new => exact ih _
    | share writer => exact ih _
    | write writer bytes => exact ih _

/-- Without what is written, nothing is. -/
theorem writtenFrom_filter (made : List (Option Nat)) (actions : List Action) :
    writtenFrom made (actions.filter (!·.isWrite)) = [] := by
  induction actions generalizing made with
  | nil => rfl
  | cons action rest ih =>
    cases action with
    | new => exact ih _
    | share writer => exact ih _
    | write writer bytes => exact ih _

/-- What was written in pieces through kin of a writer is read as if it had been written at once,
also where writers were made in between. -/
theorem bytes_pieces {writer : Nat} (hwriter : writer < (sources before).length)
    (hkin : ∀ p ∈ writtenFrom (sources before) middle,
      Kin (sources (before ++ middle)) p.1 writer)
    (hbytes : joined ((writtenFrom (sources before) middle).map Prod.snd) = bytes)
    (after : List Action) (other : Nat) :
    (Capture.fresh.run (before ++ middle ++ after)).bytes other =
      (Capture.fresh.run (before ++ .write writer bytes :: middle.filter (!·.isWrite) ++ after)).bytes
        other := by
  have hsources : sources (before ++ .write writer bytes :: middle.filter (!·.isWrite)) =
      sources (before ++ middle) := by
    rw [sources_append, sources_append]
    exact growAll_filter ..
  have hwritten : writtenFrom (sources before) (.write writer bytes :: middle.filter (!·.isWrite)) =
      [(writer, bytes)] := by
    rw [writtenFrom, Action.written, if_pos hwriter, grow, writtenFrom_filter, List.append_nil]
  have hpieces : ∀ p ∈ writtenFrom (sources before) middle,
      Kin (sources (before ++ middle ++ after)) p.1 writer := by
    intro p hp
    rw [sources_append (before ++ middle)]
    exact (hkin p hp).lasting (prefix_growAll ..)
  have hlater : sources (before ++ .write writer bytes :: middle.filter (!·.isWrite) ++ after) =
      sources (before ++ middle ++ after) := by
    rw [sources_append _ after, sources_append _ after, hsources]
  rw [bytes_run, bytes_run, hlater, written_append _ after, written_append _ after, hsources,
    written_append before, written_append before, hwritten, throughKin_append, throughKin_append,
    throughKin_append, throughKin_append, throughKin_pieces hpieces, hbytes]

/-- What is read through a writer is what was written through all its kin, in the order of the
writes and decoded as a whole. Bytes can be written in any pieces, through any kin of a writer and
with writers made in between: every writer shows the same text, lines and values as after one
write. -/
theorem contents_of_run :
    (∀ actions, (Capture.fresh.run actions).size = (sources actions).length ∧
      ∀ writer, (Capture.fresh.run actions).contents writer =
        Text.Utf8.lossy (throughKin (sources actions) (written actions) writer)) ∧
    ∀ before middle after writer bytes, writer < (sources before).length →
      (∀ p ∈ writtenFrom (sources before) middle,
        Kin (sources (before ++ middle)) p.1 writer) →
      joined ((writtenFrom (sources before) middle).map Prod.snd) = bytes →
      let pieces := Capture.fresh.run (before ++ middle ++ after)
      let whole := Capture.fresh.run
        (before ++ .write writer bytes :: middle.filter (!·.isWrite) ++ after)
      ∀ other, pieces.contents other = whole.contents other ∧
        pieces.lines other = whole.lines other ∧
        pieces.jsonLines other = whole.jsonLines other := by
  refine ⟨fun actions ↦ ⟨(fits_of_run actions).length, fun writer ↦ ?_⟩, ?_⟩
  · rw [contents, bytes_run]
  · intro before middle after writer bytes hwriter hkin hbytes pieces whole other
    have hcontents : pieces.contents other = whole.contents other :=
      congrArg Text.Utf8.lossy (bytes_pieces hwriter hkin hbytes after other)
    have hlines : pieces.lines other = whole.lines other := by
      rw [lines, lines, hcontents]
    refine ⟨hcontents, hlines, ?_⟩
    rw [jsonLines, jsonLines, hlines]

/-- A letter of two bytes, the second written through a writer that was made from the first one only
then, and a line feed written through another one that was made from that. -/
theorem contents_of_run_letter :
    let before : List Action := [.new]
    let middle : List Action := [.write 0 ⟨#[0x61, 0xC3]⟩, .share 0, .write 2 ⟨#[0xA9]⟩, .share 2]
    let after : List Action := [.write 1 ⟨#[0xFF]⟩, .write 3 ⟨#[0x0A]⟩]
    let c := Capture.fresh.run (before ++ middle ++ after)
    c.contents 0 = "aé\n" ∧ c.lines 2 = ["aé"] ∧ c.contents 1 = "\ufffd" := by
  intro before middle after c
  have hwriter : 0 < (sources before).length := by decide
  have hwritten : writtenFrom (sources before) middle =
      [(0, ⟨#[0x61, 0xC3]⟩), (2, ⟨#[0xA9]⟩)] := by decide +kernel
  have hedge : (sources (before ++ middle))[2]? = some (some 0) := by decide +kernel
  have hkin : ∀ p ∈ writtenFrom (sources before) middle,
      Kin (sources (before ++ middle)) p.1 0 := by
    rw [hwritten, List.forall_mem_cons, List.forall_mem_singleton]
    exact ⟨.refl 0, .symm _ _ (.rel _ _ hedge)⟩
  have hbytes : joined ((writtenFrom (sources before) middle).map Prod.snd) =
      ⟨#[0x61, 0xC3, 0xA9]⟩ := by decide +kernel
  have hsame := contents_of_run.2 before middle after 0 _ hwriter hkin hbytes
  exact ⟨(hsame 0).1.trans (by decide +kernel), (hsame 2).2.1.trans (by decide +kernel),
    (hsame 1).1.trans (by decide +kernel)⟩

end Logbook.Capture
