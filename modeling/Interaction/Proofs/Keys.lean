import Interaction.Value

/-! Keys. Which of them count as one is symmetric and transitive, so that a mapping has one value
for each key, whichever of the keys that count as one it is looked up by. -/

namespace Interaction

theorem Scalar.same_iff {x y : Scalar} : x.same y = true ↔ ∃ k, x.key? = some k ∧ y.key? = some k := by
  unfold Scalar.same
  split
  next k l first last => simp [first, last, eq_comm]
  next other =>
    simp only [Bool.false_eq_true, false_iff, not_exists, not_and]
    intro k first last
    exact other k k first last

theorem Scalar.same_text {x : Scalar} {name : String} (same : x.same (.text name) = true) : x = .text name := by
  obtain ⟨k, known, named⟩ := Scalar.same_iff.mp same
  cases named
  cases x with
  | float x =>
    simp only [Scalar.key?] at known
    repeat' split at known
    all_goals cases known
  | _ => simp_all [Scalar.key?]

namespace Value

mutual

theorem sameKey_symm : ∀ {v w : Value}, v.sameKey w = true → w.sameKey v = true
  | .scalar x, .scalar y, same => by
    obtain ⟨k, first, last⟩ := Scalar.same_iff.mp same
    exact Scalar.same_iff.mpr ⟨k, last, first⟩
  | .tuple _, .tuple _, same => sameKeys_symm same
  | .ref p, .ref q, same => by
    simp only [sameKey, decide_eq_true_eq] at same ⊢
    exact same.symm

theorem sameKeys_symm : ∀ {vs ws : List Value}, sameKeys vs ws = true → sameKeys ws vs = true
  | [], [], _ => rfl
  | _ :: _, _ :: _, same => by
    simp only [sameKeys, Bool.and_eq_true] at same ⊢
    exact ⟨sameKey_symm same.1, sameKeys_symm same.2⟩

end

mutual

theorem sameKey_trans : ∀ {u v w : Value}, u.sameKey v = true → v.sameKey w = true → u.sameKey w = true
  | .scalar x, .scalar y, .scalar z, first, last => by
    obtain ⟨k, one, two⟩ := Scalar.same_iff.mp first
    obtain ⟨l, three, four⟩ := Scalar.same_iff.mp last
    cases two.symm.trans three
    exact Scalar.same_iff.mpr ⟨k, one, four⟩
  | .tuple _, .tuple _, .tuple _, first, last => sameKeys_trans first last
  | .ref p, .ref q, .ref r, first, last => by
    simp only [sameKey, decide_eq_true_eq] at first last ⊢
    exact first.trans last

theorem sameKeys_trans : ∀ {us vs ws : List Value}, sameKeys us vs = true → sameKeys vs ws = true → sameKeys us ws = true
  | [], [], [], _, _ => rfl
  | _ :: _, _ :: _, _ :: _, first, last => by
    simp only [sameKeys, Bool.and_eq_true] at first last ⊢
    exact ⟨sameKey_trans first.1 last.1, sameKeys_trans first.2 last.2⟩

end

theorem sameKey_text {key : Value} {name : String} (same : key.sameKey (.text name) = true) : key = .text name := by
  cases key with
  | scalar x => exact congrArg Value.scalar (Scalar.same_text same)
  | tuple items => cases same
  | ref place => cases same

theorem text_sameKey (name : String) : (Value.text name).sameKey (.text name) = true := by
  simp [sameKey, Scalar.same, Scalar.key?]

theorem sameKey_texts {name other : String} : (Value.text name).sameKey (.text other) = true ↔ name = other := by
  refine ⟨fun same => ?_, fun same => same ▸ text_sameKey name⟩
  cases sameKey_text same
  rfl

end Value

namespace Entries

variable {entries : Entries} {key name v : Value}

theorem mem_get? {name : String} (found : entries.get? (.text name) = some v) : (.text name, v) ∈ entries := by
  obtain ⟨⟨key, w⟩, hit, rfl⟩ := Option.map_eq_some_iff.mp found
  have fits := List.find?_some hit
  dsimp only at fits
  rw [← Value.sameKey_text fits]
  exact List.mem_of_find?_eq_some hit

theorem get?_append (entries others : Entries) (key : Value) :
    Entries.get? (entries ++ others) key = (entries.get? key).or (others.get? key) := by
  simp only [get?, List.find?_append, Option.map_or]

theorem get?_singleton (name v key : Value) : Entries.get? [(name, v)] key = if name.sameKey key then some v else none := by
  simp only [get?, List.find?_singleton]
  split <;> rfl

/-- Keys that count as one have the same value. -/
theorem get?_congr (same : name.sameKey key = true) (entries : Entries) : entries.get? name = entries.get? key := by
  have alike (v : Value) : v.sameKey name = v.sameKey key := by
    apply Bool.eq_iff_iff.mpr
    exact ⟨fun fits => Value.sameKey_trans fits same, fun fits => Value.sameKey_trans fits (Value.sameKey_symm same)⟩
  simp only [get?, alike]

/-- A key that is new has its value from then on, and no other key is affected. -/
theorem get?_putNew (entries : Entries) (name v key : Value) :
    (entries.putNew name v).get? key = (entries.get? key).or (if name.sameKey key then some v else none) := by
  unfold putNew
  split
  next known =>
    split
    next same =>
      rw [get?_congr same] at known
      obtain ⟨w, held⟩ := Option.isSome_iff_exists.mp known
      rw [held, Option.some_or]
    · rw [Option.or_none]
  · rw [get?_append, get?_singleton]

/-- A key has the value that it was given last, and no other key is affected. -/
theorem get?_put (entries : Entries) (name v key : Value) :
    (entries.put name v).get? key = if name.sameKey key then some v else entries.get? key := by
  induction entries with
  | nil => exact get?_singleton name v key
  | cons entry rest ih =>
    unfold put
    split
    next same =>
      have alike : entry.1.sameKey key = name.sameKey key := by
        apply Bool.eq_iff_iff.mpr
        exact ⟨Value.sameKey_trans (Value.sameKey_symm same), Value.sameKey_trans same⟩
      simp only [get?, List.find?_cons, alike]
      cases name.sameKey key <;> rfl
    next other =>
      simp only [get?, List.find?_cons] at ih ⊢
      split
      next fits =>
        have differs : ¬ name.sameKey key = true := fun fits' =>
          other (Value.sameKey_trans fits (Value.sameKey_symm fits'))
        rw [if_neg differs]
      next => exact ih

/-- Whether no two keys count as one. -/
def Distinct (entries : Entries) : Prop :=
  entries.Pairwise fun first last => first.1.sameKey last.1 = false

theorem Distinct.putNew (distinct : entries.Distinct) (name v : Value) : (entries.putNew name v).Distinct := by
  unfold Entries.putNew
  split
  · exact distinct
  next fresh =>
    apply List.pairwise_append.mpr
    refine ⟨distinct, List.pairwise_singleton .., ?_⟩
    intro entry member other isNew
    cases List.mem_singleton.mp isNew
    have absent : entries.find? (fun entry => entry.1.sameKey name) = none := by simpa [Entries.get?] using fresh
    simpa using List.find?_eq_none.mp absent entry member

end Entries

end Interaction
