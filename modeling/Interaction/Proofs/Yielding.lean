import Interaction.Fault

/-! What a computation that may fail comes to, put together from what its parts come to. -/

namespace Interaction

/-- A computation that ends with a value that is good, or with a fault that is bad. -/
structure Yields (x : Except Fault α) (good : α → Prop) (bad : Fault → Prop) : Prop where
  ok : ∀ {a}, x = .ok a → good a
  error : ∀ {fault}, x = .error fault → bad fault

namespace Yields

variable {x y : Except Fault α} {f : α → Except Fault β} {good good' : α → Prop} {better : β → Prop}
  {bad bad' : Fault → Prop}

theorem done {a : α} (holds : good a) : Yields (.ok a) good bad :=
  ⟨fun same => Except.ok.inj same ▸ holds, nofun⟩

theorem fails {fault : Fault} (holds : bad fault) : Yields (.error fault : Except Fault α) good bad :=
  ⟨nofun, fun same => Except.error.inj same ▸ holds⟩

theorem mono (yields : Yields x good bad) (ok : ∀ a, good a → good' a) (error : ∀ fault, bad fault → bad' fault) :
    Yields x good' bad' :=
  ⟨fun same => ok _ (yields.ok same), fun same => error _ (yields.error same)⟩

theorem bind (yields : Yields x good bad) (next : ∀ a, good a → Yields (f a) better bad) :
    Yields (x >>= f) better bad := by
  cases found : x with
  | ok a => exact next a (yields.ok found)
  | error fault => exact fails (yields.error found)

theorem map {g : α → β} (yields : Yields x good bad) (next : ∀ a, good a → better (g a)) :
    Yields (x.map g) better bad := by
  cases found : x with
  | ok a => exact done (next a (yields.ok found))
  | error fault => exact fails (yields.error found)

theorem ite {p : Prop} [Decidable p] (yes : p → Yields x good bad) (no : ¬ p → Yields y good bad) :
    Yields (if p then x else y) good bad := by
  split
  next holds => exact yes holds
  next fails => exact no fails

theorem mapM (each : ∀ a, Yields (f a) (fun _ => True) bad) (as : List α) :
    Yields (as.mapM f) (fun _ => True) bad := by
  induction as with
  | nil => exact done trivial
  | cons a rest ih =>
    rw [List.mapM_cons]
    exact (each a).bind fun _ _ => ih.bind fun _ _ => done trivial

theorem mapM? (each : ∀ a, Yields (f a) (fun _ => True) bad) (a : Option α) :
    Yields (a.mapM f) (fun _ => True) bad := by
  cases a with
  | none => exact done trivial
  | some a => exact (each a).bind fun _ _ => done trivial

end Yields

end Interaction
