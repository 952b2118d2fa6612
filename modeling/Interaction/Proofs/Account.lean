import Interaction.Proofs.Standing

/-! An account of the work that is done for something: the promises that belong to it, and
what their tasks did. It is kept beside a run and does not change it. What a service does
when it fires an event is the work of another transition and does not belong to it. -/

namespace Interaction

/-- Something that is done for a configuration. -/
inductive Deed where
  | lookup (config : Value) (answer : Except Fault Target)
  | call (task : Nat) (target : Target) (params : List Value) (reply : Reply)
  | place (config : Value) (whole : Bool) (values : List Value) (refusal : Option Fault)

def Move.fault? : Move → Option Fault
  | .fail fault => some fault
  | _ => none

namespace Session

def reply (s : Session) (target : Target) (values : List Value) : Reply :=
  ((s.announceCall target values).execute target.service (.text target.method) values).2

def deeds (s : Session) (task : Nat) (frame : Frame) (values : List Value) : List Deed :=
  match frame with
  | .invoke config _ => [.lookup config (s.coordinator.target s.store config)]
  | .call target => [.call task target values (s.reply target values)]
  | .place config whole => [.place config whole values (s.place config whole values).2.fault?]
  | _ => []

/-- The promises that come to belong to the work with a step of one of its tasks. -/
def offspring (s : Session) (frame : Frame) (values : List Value) : List Nat :=
  match frame with
  | .act _ _ => []
  | .call target =>
    match s.reply target values with
    | .promise id => [id]
    | _ => []
  | _ =>
    let size := s.schedule.promises.size
    List.range' size ((s.takeStep frame values).1.schedule.promises.size - size)

end Session

/-- A session, the promises that belong to some work in it, and what was done for that. -/
structure Account where
  session : Session
  family : List Nat
  deeds : List Deed := []

namespace Account

def happen (a : Account) (e : Event) : Account :=
  match e, a.session.turn with
  | .step, some { task, frames := frame :: _, values } =>
    if task ∈ a.family then
      { session := a.session.happen e
        family := a.family ++ a.session.offspring frame values
        deeds := a.deeds ++ a.session.deeds task frame values }
    else { a with session := a.session.happen e }
  | _, _ => { a with session := a.session.happen e }

def run (a : Account) (events : List Event) : Account :=
  events.foldl happen a

def Throughout (P : Account → Prop) (a : Account) : List Event → Prop
  | [] => P a
  | e :: rest => P a ∧ (a.happen e).Throughout P rest

variable {a : Account}

theorem session_happen (a : Account) (e : Event) : (a.happen e).session = a.session.happen e := by
  unfold happen
  split
  · split <;> rfl
  · rfl

theorem session_run (a : Account) (events : List Event) : (a.run events).session = a.session.run events := by
  induction events generalizing a with
  | nil => rfl
  | cons e rest ih => exact (ih (a.happen e)).trans (by rw [session_happen]; rfl)

theorem happen_cases (a : Account) (e : Event) :
    (∃ task frame rest values, e = .step ∧ a.session.turn = some { task, frames := frame :: rest, values } ∧
      task ∈ a.family ∧ a.happen e =
        { session := a.session.happen .step
          family := a.family ++ a.session.offspring frame values
          deeds := a.deeds ++ a.session.deeds task frame values }) ∨
    (a.happen e = { a with session := a.session.happen e } ∧
      ∀ task frame rest values, e = .step → a.session.turn = some { task, frames := frame :: rest, values } →
        task ∉ a.family) := by
  unfold happen
  split
  next task frame rest values turn =>
    split
    next member => exact Or.inl ⟨task, frame, rest, values, rfl, turn, member, rfl⟩
    next other =>
      refine Or.inr ⟨rfl, ?_⟩
      intro task frame rest values _ same
      rw [turn] at same
      cases same
      exact other
  next other =>
    refine Or.inr ⟨rfl, ?_⟩
    intro task frame rest values isStep same
    exact absurd same (fun same => other _ _ _ _ isStep same)

/-- What is true at first and kept by whatever happens as long as the way is as assumed is
true in the end. -/
theorem Throughout.induction {P Q : Account → Prop} {events : List Event} (along : a.Throughout P events)
    (first : Q a) (next : ∀ a e, P a → P (a.happen e) → Q a → Q (a.happen e)) : Q (a.run events) := by
  induction events generalizing a with
  | nil => exact first
  | cons e rest ih =>
    have after : P (a.happen e) := by
      cases rest with
      | nil => exact along.2
      | cons _ _ => exact along.2.1
    exact ih along.2 (next a e along.1 after first)

theorem Throughout.imp {P Q : Account → Prop} {events : List Event} (along : a.Throughout P events)
    (stronger : ∀ a, P a → Q a) : a.Throughout Q events := by
  induction events generalizing a with
  | nil => exact stronger a along
  | cons e rest ih => exact ⟨stronger a along.1, ih along.2⟩

theorem throughout_iff {P : Account → Prop} {events : List Event} :
    a.Throughout P events ↔ ∀ k ≤ events.length, P (a.run (events.take k)) := by
  induction events generalizing a with
  | nil =>
    constructor
    · intro now k _
      rw [List.take_nil]
      exact now
    · intro each
      exact each 0 (Nat.le_refl 0)
  | cons e rest ih =>
    constructor
    · rintro ⟨now, later⟩ k within
      cases k with
      | zero => exact now
      | succ k => exact ih.mp later k (Nat.le_of_succ_le_succ within)
    · intro each
      refine ⟨each 0 (Nat.zero_le _), ih.mpr ?_⟩
      intro k within
      exact each (k + 1) (Nat.succ_le_succ within)

theorem Throughout.last {P : Account → Prop} {events : List Event} (along : a.Throughout P events) :
    P (a.run events) := by
  induction events generalizing a with
  | nil => exact along
  | cons e rest ih => exact ih along.2

end Account

end Interaction
