import Mathlib.Data.List.Basic
import Interaction.Text.CodePoint

/-! The code points of a text. What a text holds for code points is read as these, so different code points never make
the same text. -/

namespace Interaction.Text

theorem mark_toNat : mark.toNat = 0x10FFFF := by
  decide

theorem toNat_ofNat {n : Nat} (valid : n.isValidChar) : (Char.ofNat n).toNat = n := by
  rw [Char.ofNat, dif_pos valid]
  rfl

theorem isHalf_iff {n : Nat} : isHalf n = true ↔ 0xD800 ≤ n ∧ n ≤ 0xDFFF := by
  simp [isHalf]

theorem toNat_lt (c : Char) : c.toNat < 0x110000 := by
  have valid := c.valid
  simp only [UInt32.isValidChar, Nat.isValidChar, Char.toNat] at valid ⊢
  omega

theorem whole_of_char (c : Char) : isHalf c.toNat = false := by
  have valid := c.valid
  rw [Bool.eq_false_iff, Ne, isHalf_iff]
  simp only [UInt32.isValidChar, Nat.isValidChar, Char.toNat] at valid ⊢
  omega

/-! ### Characters -/

/-- Every character but the mark stands for itself. -/
theorem spell_char {c : Char} (other : c ≠ mark) : spell c.toNat = [c] := by
  have apart : c.toNat ≠ mark.toNat := fun same => other (by rw [← Char.ofNat_toNat c, same, Char.ofNat_toNat])
  rw [spell, whole_of_char, if_neg Bool.false_ne_true, if_neg apart, Char.ofNat_toNat]

theorem spelled_char {cs : List Char} (others : ∀ c ∈ cs, c ≠ mark) : spelled cs = cs := by
  induction cs with
  | nil => rfl
  | cons c cs ih =>
    rw [List.forall_mem_cons] at others
    rw [spelled, List.flatMap_cons, spell_char others.1]
    exact congrArg (c :: ·) (ih others.2)

/-! ### Code points -/

variable {n : Nat} {c : Char} {cs : List Char}

theorem points_mark (c : Char) (cs : List Char) : points (mark :: c :: cs) = marked c :: points cs := by
  rw [points, if_pos rfl]

theorem points_char (other : c ≠ mark) (cs : List Char) : points (c :: cs) = c.toNat :: points cs := by
  cases cs with
  | nil => rfl
  | cons d cs => rw [points, if_neg other]

theorem marked_half (half : isHalf n = true) : marked (Char.ofNat (n + shift)) = n := by
  rw [isHalf_iff] at half
  have number : (Char.ofNat (n + shift)).toNat = n + shift := toNat_ofNat (by unfold shift Nat.isValidChar; omega)
  have other : Char.ofNat (n + shift) ≠ mark := by
    intro same
    rw [same, mark_toNat] at number
    unfold shift at number
    omega
  rw [marked, if_neg other, number, Nat.add_sub_cancel]

theorem points_lt (cs : List Char) : ∀ n ∈ points cs, n < 0x110000 := by
  induction cs using points.induct with
  | case1 => exact nofun
  | case2 c => exact List.forall_mem_singleton.mpr (toNat_lt c)
  | case3 d rest ih =>
    rw [points_mark]
    refine List.forall_mem_cons.mpr ⟨?_, ih⟩
    have bound := toNat_lt d
    unfold marked
    split_ifs <;> omega
  | case4 c d rest other ih =>
    rw [points_char other]
    exact List.forall_mem_cons.mpr ⟨toNat_lt c, ih⟩

/-- A code point is found again at the beginning of a text. -/
theorem points_spell (valid : n < 0x110000) (cs : List Char) : points (spell n ++ cs) = n :: points cs := by
  unfold spell
  split_ifs with half last
  · exact (points_mark _ cs).trans (congrArg (· :: points cs) (marked_half half))
  · rw [last]
    exact points_mark mark cs
  · have number : (Char.ofNat n).toNat = n := by
      refine toNat_ofNat ?_
      rw [Bool.not_eq_true, Bool.eq_false_iff, Ne, isHalf_iff] at half
      unfold Nat.isValidChar
      omega
    have other : Char.ofNat n ≠ mark := fun same => last (by rw [← same, number])
    rw [List.singleton_append, points_char other, number]

theorem points_flatMap {ns : List Nat} (valid : ∀ n ∈ ns, n < 0x110000) : points (ns.flatMap spell) = ns := by
  induction ns with
  | nil => rfl
  | cons n ns ih =>
    rw [List.forall_mem_cons] at valid
    rw [List.flatMap_cons, points_spell valid.1, ih valid.2]

theorem points_ofPoints {ns : List Nat} (valid : ∀ n ∈ ns, n < 0x110000) : points (ofPoints ns).toList = ns := by
  rw [ofPoints, String.toList_ofList, points_flatMap valid]

/-- Different code points make different texts. -/
theorem ofPoints_injective {ns ms : List Nat} (valid : ∀ n ∈ ns, n < 0x110000) (valid' : ∀ n ∈ ms, n < 0x110000)
    (same : ofPoints ns = ofPoints ms) : ns = ms := by
  rw [← points_ofPoints valid, same, points_ofPoints valid']

theorem points_spelled (cs : List Char) : points (spelled cs) = cs.map Char.toNat := by
  have valid : ∀ n ∈ cs.map Char.toNat, n < 0x110000 := List.forall_mem_map.mpr fun c _ => toNat_lt c
  have parts : spelled cs = (cs.map Char.toNat).flatMap spell := by rw [spelled, List.flatMap_map]
  rw [parts, points_flatMap valid]

theorem points_chars (others : ∀ c ∈ cs, c ≠ mark) : points cs = cs.map Char.toNat := by
  conv => lhs; rw [← spelled_char others]
  exact points_spelled cs

end Interaction.Text
