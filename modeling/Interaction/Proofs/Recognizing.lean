import Mathlib.Data.List.Forall2
import Interaction.Reference

/-! References are found wherever they stand in a text: the one that begins first counts, whatever looks
like the beginning of one before it. -/

namespace Interaction

namespace Reference

/-- The characters of names: the letters and digits of English, and the low line. -/
def NameChar (c : Char) : Prop :=
  ('a' ≤ c ∧ c ≤ 'z') ∨ ('A' ≤ c ∧ c ≤ 'Z') ∨ ('0' ≤ c ∧ c ≤ '9') ∨ c = '_'

instance (c : Char) : Decidable (NameChar c) :=
  inferInstanceAs (Decidable (('a' ≤ c ∧ c ≤ 'z') ∨ ('A' ≤ c ∧ c ≤ 'Z') ∨ ('0' ≤ c ∧ c ≤ '9') ∨ c = '_'))

/-- A text in which a reference stands: what is before it, its path, and what is after it. -/
structure Occurs (text before path after : List Char) : Prop where
  whole : text = before ++ '$' :: '{' :: (path ++ '}' :: after)
  given : path ≠ []
  named : ∀ c ∈ path, NameChar c ∨ c = '.'

/-- A reference with the least before it. -/
structure First (text before path after : List Char) : Prop extends Occurs text before path after where
  least : ∀ {earlier other rest}, Occurs text earlier other rest → before.length ≤ earlier.length

variable {text before path after rest : List Char} {c : Char}

theorem isPathChar_iff : isPathChar c = true ↔ NameChar c ∨ c = '.' := by
  unfold isPathChar Char.isAlphanum Char.isAlpha Char.isUpper Char.isLower Char.isDigit
  simp only [NameChar, Char.le_def, Bool.or_eq_true, Bool.and_eq_true, decide_eq_true_eq, ge_iff_le, or_assoc]
  exact or_left_comm

theorem takeWhile_path (named : ∀ c ∈ path, NameChar c ∨ c = '.') (after : List Char) :
    (path ++ '}' :: after).takeWhile isPathChar = path ∧ (path ++ '}' :: after).dropWhile isPathChar = '}' :: after := by
  have pass : ∀ c ∈ path, isPathChar c = true := fun c member => isPathChar_iff.mpr (named c member)
  have stop : isPathChar '}' = false := by decide
  rw [List.takeWhile_append_of_pos pass, List.dropWhile_append_of_pos pass]
  simp [stop]

theorem pathAt?_iff : pathAt? text = some path ↔ ∃ after, Occurs text [] path after := by
  constructor
  · intro found
    unfold pathAt? at found
    split at found
    next rest =>
      dsimp only at found
      split at found
      next => cases found
      next given =>
        split at found
        next closed =>
          cases found
          obtain ⟨after, tail⟩ : ∃ after, rest.dropWhile isPathChar = '}' :: after := by
            cases shape : rest.dropWhile isPathChar with
            | nil => simp [shape] at closed
            | cons d after => exact ⟨after, by simpa [shape] using closed⟩
          refine ⟨after, ?_, by simpa using given, fun c member => ?_⟩
          · rw [← tail, List.takeWhile_append_dropWhile, List.nil_append]
          · exact isPathChar_iff.mp (List.all_eq_true.mp List.all_takeWhile c member)
        next => cases found
    next => cases found
  · rintro ⟨after, rfl, given, named⟩
    obtain ⟨taken, left⟩ := takeWhile_path named after
    simp [pathAt?, taken, left, given]

/-- A reference stands at the beginning of a text or after its first character. -/
theorem occurs_cons : Occurs (c :: text) before path after ↔
    (before = [] ∧ Occurs (c :: text) [] path after) ∨ ∃ less, before = c :: less ∧ Occurs text less path after := by
  constructor
  · intro occurs
    cases before with
    | nil => exact Or.inl ⟨rfl, occurs⟩
    | cons d less =>
      obtain ⟨rfl, tail⟩ := List.cons.inj occurs.whole
      exact Or.inr ⟨less, rfl, tail, occurs.given, occurs.named⟩
  · rintro (⟨rfl, occurs⟩ | ⟨less, rfl, rfl, given, named⟩)
    · exact occurs
    · exact ⟨rfl, given, named⟩

theorem not_occurs_nil : ¬ Occurs [] before path after := by
  intro occurs
  simpa using occurs.whole

theorem path?_some : path? text = some path ↔ ∃ before after, First text before path after := by
  induction text with
  | nil =>
    constructor
    · intro found
      cases found
    · rintro ⟨before, after, first⟩
      exact absurd first.toOccurs not_occurs_nil
  | cons c text ih =>
    simp only [path?, Option.or_eq_some_iff, ih]
    constructor
    · rintro (here | ⟨nowhere, before, after, first⟩)
      · obtain ⟨after, occurs⟩ := pathAt?_iff.mp here
        exact ⟨[], after, occurs, fun _ => Nat.zero_le _⟩
      · have begins : Occurs (c :: text) (c :: before) path after :=
          occurs_cons.mpr (Or.inr ⟨before, rfl, first.toOccurs⟩)
        refine ⟨c :: before, after, begins, fun {earlier other rest} occurs => ?_⟩
        obtain ⟨-, here⟩ | ⟨less, rfl, later⟩ := occurs_cons.mp occurs
        · rw [pathAt?_iff.mpr ⟨rest, here⟩] at nowhere
          cases nowhere
        · exact Nat.succ_le_succ (first.least later)
    · rintro ⟨before, after, first⟩
      obtain ⟨rfl, here⟩ | ⟨less, rfl, later⟩ := occurs_cons.mp first.toOccurs
      · exact Or.inl (pathAt?_iff.mpr ⟨after, here⟩)
      · refine Or.inr ⟨?_, less, after, later, fun {earlier other rest} occurs => ?_⟩
        · cases found : pathAt? (c :: text) with
          | none => rfl
          | some other =>
            obtain ⟨rest, here⟩ := pathAt?_iff.mp found
            exact absurd (first.least here) (Nat.not_succ_le_zero _)
        · exact Nat.le_of_succ_le_succ (first.least (occurs_cons.mpr (Or.inr ⟨earlier, rfl, occurs⟩)))

theorem path?_none : path? text = none ↔ ∀ before path after, ¬ Occurs text before path after := by
  induction text with
  | nil => simp [path?, not_occurs_nil]
  | cons c text ih =>
    rw [path?, Option.or_eq_none_iff, ih, Option.eq_none_iff_forall_ne_some]
    simp only [ne_eq, pathAt?_iff]
    constructor
    · rintro ⟨here, later⟩ before path after occurs
      obtain ⟨-, start⟩ | ⟨less, -, tail⟩ := occurs_cons.mp occurs
      · exact here path ⟨after, start⟩
      · exact later less path after tail
    · intro nowhere
      refine ⟨fun path => ?_, fun before path after occurs => ?_⟩
      · rintro ⟨after, occurs⟩
        exact nowhere [] path after occurs
      · exact nowhere (c :: before) path after (occurs_cons.mpr (Or.inr ⟨before, rfl, occurs⟩))

/-- Where a reference stands there is a first one, and all first ones have the same path. -/
theorem Occurs.exists_first (occurs : Occurs text before path after) :
    ∃! found, ∃ earlier rest, First text earlier found rest := by
  cases search : path? text with
  | none => exact absurd occurs (path?_none.mp search before path after)
  | some found =>
    refine ⟨found, path?_some.mp search, fun other first => ?_⟩
    exact Option.some.inj ((path?_some.mpr first).symm.trans search)

end Reference

namespace Store

variable {s : Store} {context v : Value} {t : String} {params results : List Value} {fault : Fault}

theorem resolve_first {before path after : List Char} (first : Reference.First t.toList before path after) :
    s.resolve context (.text t) = s.lookup context path := by
  have found := Reference.path?_some.mpr ⟨before, after, first⟩
  simp only [resolve, found]

theorem resolve_plain (plain : ∀ before path after, ¬ Reference.Occurs t.toList before path after) :
    s.resolve context (.text t) = .ok (.text t) := by
  have none := Reference.path?_none.mpr plain
  simp only [resolve, none]

theorem resolve_other (other : ∀ t, v ≠ .text t) : s.resolve context v = .ok v := by
  unfold resolve
  split
  next t => exact absurd rfl (other t)
  next => rfl

end Store

section Each

variable {α β : Type} {f : α → Except Fault β} {xs : List α} {ys : List β} {fault : Fault}

theorem mapM_ok : xs.mapM f = .ok ys ↔ List.Forall₂ (fun x y => f x = .ok y) xs ys := by
  induction xs generalizing ys with
  | nil => simp [pure, Except.pure, eq_comm]
  | cons x xs ih =>
    rw [List.mapM_cons, List.forall₂_cons_left_iff]
    simp only [← ih]
    cases made : f x with
    | error fault => simp [bind, Except.bind]
    | ok y =>
      cases more : xs.mapM f with
      | error fault => simp [bind, Except.bind]
      | ok zs => simp [bind, Except.bind, pure, Except.pure, eq_comm]

theorem mapM_error : xs.mapM f = .error fault ↔
    ∃ before x after, xs = before ++ x :: after ∧ (∀ y ∈ before, ∃ z, f y = .ok z) ∧ f x = .error fault := by
  induction xs with
  | nil => simp [pure, Except.pure]
  | cons x xs ih =>
    rw [List.mapM_cons]
    cases made : f x with
    | error reason =>
      constructor
      · rintro ⟨⟩
        exact ⟨[], x, xs, rfl, by simp, made⟩
      · rintro ⟨_ | ⟨first, before⟩, other, after, split, passed, failed⟩
        · cases split
          cases made.symm.trans failed
          rfl
        · cases split
          obtain ⟨z, fine⟩ := passed x List.mem_cons_self
          cases made.symm.trans fine
    | ok y =>
      have tail : (do let ys ← xs.mapM f; pure (y :: ys) : Except Fault (List β)) = .error fault ↔
          xs.mapM f = .error fault := by
        cases xs.mapM f <;> simp [bind, Except.bind, pure, Except.pure]
      refine Iff.trans tail (ih.trans ⟨?_, ?_⟩)
      · rintro ⟨before, other, after, rfl, passed, failed⟩
        exact ⟨x :: before, other, after, rfl, List.forall_mem_cons.mpr ⟨⟨y, made⟩, passed⟩, failed⟩
      · rintro ⟨_ | ⟨first, before⟩, other, after, split, passed, failed⟩
        · cases split
          cases made.symm.trans failed
        · cases split
          exact ⟨before, other, after, rfl, (List.forall_mem_cons.mp passed).2, failed⟩

end Each

/-- A parameter that is a text stands for what the path of its first reference leads to, whatever stands around
that reference and whatever looks like one before it. A text without a reference, and whatever is no text,
stands for itself. Lists of parameters are resolved one by one, and fail where the first of them fails. -/
theorem references_recognized (s : Store) (context : Value) :
    (∀ t : String,
      (∀ before path after, Reference.First t.toList before path after →
        s.resolve context (.text t) = s.lookup context path) ∧
      ((∃ before path after, Reference.Occurs t.toList before path after) →
        ∃! path, ∃ before after, Reference.First t.toList before path after) ∧
      ((∀ before path after, ¬ Reference.Occurs t.toList before path after) →
        s.resolve context (.text t) = .ok (.text t))) ∧
    (∀ v, (∀ t, v ≠ .text t) → s.resolve context v = .ok v) ∧
    (∀ params results, s.resolveItems context params = .ok results ↔
      List.Forall₂ (fun v r => s.resolve context v = .ok r) params results) ∧
    (∀ params fault, s.resolveItems context params = .error fault ↔
      ∃ before v after, params = before ++ v :: after ∧ (∀ w ∈ before, ∃ r, s.resolve context w = .ok r) ∧
        s.resolve context v = .error fault) ∧
    ∀ params items, s.members? params = some items → s.resolveMembers context params = s.resolveItems context items := by
  refine ⟨fun t => ⟨fun before path after => Store.resolve_first, ?_, Store.resolve_plain⟩, fun v => Store.resolve_other,
    fun params results => mapM_ok, fun params fault => mapM_error, fun params items yields => ?_⟩
  · rintro ⟨before, path, after, occurs⟩
    exact occurs.exists_first
  · simp only [Store.resolveMembers, yields]

/-- What only begins like a reference does not hide the one after it. -/
example : Reference.path? "$\x7ba$$\x7b\x7d $\x7bé\x7d$\x7bb.0\x7d$\x7bc\x7d".toList = some "b.0".toList := by
  decide

end Interaction
