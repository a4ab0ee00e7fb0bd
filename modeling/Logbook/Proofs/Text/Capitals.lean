import Logbook.Proofs.Text.LetterCase

/-!
# Texts with an upper-case image in capitals

Some characters beyond ASCII have an upper-case image within it: the dotless `ı` goes to `I`, the
long `ſ` to `S`, and a ligature to several letters. A text of capitals that comes from no ligature
and no `ſ` (`Unjoined`) is the upper-case image of its own letters in either case, with `ı` for `I`,
and of nothing else (`upperCase_eq_iff`).

Which images of single characters lie among the capitals is read off the tables of the mapping, once
for the images of several characters (`isJoint_expansion`) and once for the runs (`shift_cases`).
-/

set_option autoImplicit false
set_option relaxedAutoImplicit false

namespace Logbook.Text

/-- A character stands for a capital: it is that letter in either case, or a dotless `ı` for `I`. -/
def StandsFor (c capital : Char) : Prop :=
  c = capital ∨ c = capital.toLower ∨ c = 'ı' ∧ capital = 'I'

instance (c capital : Char) : Decidable (StandsFor c capital) :=
  inferInstanceAs (Decidable (_ ∨ _))

/-- Two letters that the image of a ligature begins with. Those of other ligatures begin with an
`S`. -/
def isLigature (a b : Char) : Bool :=
  a == 'F' && ['F', 'I', 'L'].contains b

/-- Capitals that come from no ligature and from no long `ſ`. -/
structure Unjoined (text : List Char) : Prop where
  capital : ∀ c ∈ text, c.isUpper = true
  noLong : 'S' ∉ text
  apart : text.IsChain fun a b ↦ isLigature a b = false

variable {c l : Char} {text rest : List Char}

theorem Unjoined.tail (h : Unjoined (c :: text)) : Unjoined text where
  capital := fun d hd ↦ h.capital d (List.mem_cons_of_mem c hd)
  noLong := fun hd ↦ h.noLong (List.mem_cons_of_mem c hd)
  apart := h.apart.tail

/-! ### Images of one character -/

/-- Two characters or more that begin no unjoined text. -/
def isJoint : List Char → Bool
  | a :: b :: _ => !a.isUpper || !b.isUpper || a == 'S' || isLigature a b
  | _ => false

theorem not_unjoined_of_isJoint (h : isJoint text = true) : ¬Unjoined (text ++ rest) := by
  intro hunjoined
  match text, h with
  | a :: b :: more, h =>
    have ha := hunjoined.capital a (by simp)
    have hb := hunjoined.capital b (by simp)
    have hlong : a ≠ 'S' := fun heq ↦ hunjoined.noLong (by simp [heq])
    have hapart : isLigature a b = false := (List.isChain_cons_cons.mp hunjoined.apart).1
    simp [isJoint, ha, hb, hlong, hapart] at h

/-- No image of several characters begins an unjoined text. -/
theorem isJoint_expansion : ∀ p ∈ expansions, isJoint (p.2.map Char.ofNat) = true := by
  decide +kernel

/-- Three runs of characters reach the capitals: the small letters, `ı` and `ſ`. -/
theorem shift_cases : ∀ r ∈ Shift.all,
    (r.first = 0x61 ∧ r.last = 0x7A) ∨
    (r.first = 0x131 ∧ r.last = 0x131 ∧ r.distance = -232) ∨
    (r.first = 0x17F ∧ r.last = 0x17F ∧ r.distance = -300) ∨
    (r.last : Int) + r.distance < 0x41 ∨ 0x5A < (r.first : Int) + r.distance := by
  decide +kernel

theorem isUpper_ofNat {n : Nat} (h : n < 0x41 ∨ 0x5A < n) : (Char.ofNat n).isUpper = false := by
  by_contra hupper
  obtain ⟨k, hk, heq⟩ := exists_of_isUpper (Bool.eq_true_of_not_eq_false hupper)
  have hcode := congrArg Char.toNat heq
  rw [Char.toNat_ofNat, Char.toNat_ofNat] at hcode
  split_ifs at hcode <;> omega

/-- A small letter stands for its capital. -/
theorem standsFor_toUpper (h : c.isLower = true) : StandsFor c c.toUpper := by
  refine Or.inr (Or.inl ?_)
  rw [Char.toLower_toUpper_eq_toLower,
    Char.toLower_eq_of_not_isUpper (Char.not_isUpper_of_isLower h)]

/-- The image of a character by a run is one that the character stands for, or no capital, or the
`S` of `ſ`. -/
theorem standsFor_of_covers {r : Shift} (hr : r ∈ Shift.all) (hc : r.covers c.toNat = true)
    (himage : upperChar c = [l]) (hl : l = Char.ofNat (c.toNat + r.distance).toNat) :
    StandsFor c l ∨ l.isUpper = false ∨ l = 'S' := by
  simp only [Shift.covers, Bool.and_eq_true, decide_eq_true_eq] at hc
  obtain ⟨⟨hfirst, hlast⟩, -⟩ := hc
  have hself : Char.ofNat c.toNat = c := Char.ofNat_toNat c
  rcases shift_cases r hr with ⟨ha, hz⟩ | ⟨ha, hz, hd⟩ | ⟨ha, hz, hd⟩ | hbelow | habove
  · rw [ha] at hfirst
    rw [hz] at hlast
    have hlower : c.isLower = true := by
      simp only [Char.isLower, Bool.and_eq_true, decide_eq_true_eq, UInt32.le_iff_toNat_le]
      exact ⟨hfirst, hlast⟩
    have halpha : c.isAlpha = true := by rw [Char.isAlpha, hlower, Bool.or_true]
    rw [upperChar_of_isAlpha halpha, List.singleton_inj] at himage
    exact Or.inl (himage ▸ standsFor_toUpper hlower)
  · have hcode : c.toNat = 0x131 := by omega
    rw [hcode] at hself hl
    rw [hd] at hl
    exact Or.inl (Or.inr (Or.inr ⟨hself.symm, hl⟩))
  · have hcode : c.toNat = 0x17F := by omega
    rw [hcode, hd] at hl
    exact Or.inr (Or.inr hl)
  · exact Or.inr (Or.inl (hl ▸ isUpper_ofNat (Or.inl (by omega))))
  · exact Or.inr (Or.inl (hl ▸ isUpper_ofNat (Or.inr (by omega))))

/-- If the image of a character begins an unjoined text, it is a capital that the character stands
for. -/
theorem standsFor_of_upperChar (h : Unjoined (upperChar c ++ rest)) :
    ∃ l, upperChar c = [l] ∧ StandsFor c l := by
  cases hlookup : expansions.lookup c.toNat with
  | some image =>
    obtain ⟨before, after, hsplit, -⟩ := List.lookup_eq_some_iff.mp hlookup
    have himage : upperChar c = image.map Char.ofNat := by
      rw [upperChar, hlookup]
    have hjoint := isJoint_expansion (c.toNat, image) (by simp [hsplit])
    exact absurd (himage ▸ h) (not_unjoined_of_isJoint hjoint)
  | none =>
    cases hfind : Shift.all.find? fun r ↦ r.covers c.toNat with
    | none => exact ⟨c, by rw [upperChar, hlookup, hfind], Or.inl rfl⟩
    | some r =>
      have hcovers := List.find?_some hfind
      have himage : upperChar c = [Char.ofNat (c.toNat + r.distance).toNat] := by
        rw [upperChar, hlookup, hfind]
      refine ⟨_, himage, ?_⟩
      rw [himage, List.singleton_append] at h
      have hcapital := h.capital _ List.mem_cons_self
      rcases standsFor_of_covers (List.mem_of_find?_eq_some hfind) hcovers himage rfl with
        hl | hl | hl
      · exact hl
      · rw [hl] at hcapital
        exact Bool.noConfusion hcapital
      · exact absurd (hl ▸ List.mem_cons_self) h.noLong

/-- The image of a character that stands for a capital is that capital. -/
theorem upperChar_of_standsFor (hl : l.isUpper = true) (h : StandsFor c l) : upperChar c = [l] := by
  have halpha : l.isAlpha = true := by rw [Char.isAlpha, hl, Bool.true_or]
  have hupper : l.toUpper = l := Char.toUpper_eq_of_not_isLower fun hlower ↦
    Char.not_isUpper_of_isLower hlower hl
  rcases h with rfl | rfl | ⟨rfl, rfl⟩
  · rw [upperChar_of_isAlpha halpha, hupper]
  · rw [upperChar_of_isAlpha (by rwa [Char.isAlpha_toLower_eq_isAlpha]),
      Char.toUpper_toLower_eq_toUpper, hupper]
  · decide +kernel

/-! ### Images of texts -/

/-- An unjoined text is the upper-case image of the texts whose characters stand for its letters one
by one. -/
theorem upperCase_eq_iff (h : Unjoined text) {cs : List Char} :
    upperCase cs = text ↔ List.Forall₂ StandsFor cs text := by
  constructor
  · intro heq
    induction cs generalizing text with
    | nil => exact heq ▸ .nil
    | cons c cs ih =>
      rw [upperCase_cons] at heq
      obtain ⟨l, himage, hl⟩ := standsFor_of_upperChar (heq.symm ▸ h)
      rw [himage, List.singleton_append] at heq
      subst heq
      exact .cons hl (ih h.tail rfl)
  · intro hcs
    induction hcs with
    | nil => rfl
    | cons hl _ ih =>
      rw [upperCase_cons, upperChar_of_standsFor (h.capital _ List.mem_cons_self) hl, ih h.tail,
        List.singleton_append]

end Logbook.Text
