import Interaction.Proofs.Effects
import Interaction.Proofs.Gathering

/-! Undertakings: the tree of all that the work on one configuration comes to. It is kept beside a run
and does not change it. An invocation is the work on a configuration, or on one parameter that is mapped;
it is known by its place in a list, and new ones are added at the end of that. -/

namespace Interaction

inductive Progress where
  | waiting
  | fetching (inner : Nat)
  | ready
  | mapping (items : List Nat)
  | called (reply : Reply)
  /-- The steps that the method left to its caller have been taken. -/
  | answered
  /-- What the method has handed on is mapped by another invocation. -/
  | finishing (result : Nat)
  | ended

/-- The invocations that an invocation is made up of at the moment. -/
def Progress.parts : Progress → List Nat
  | .fetching inner => [inner]
  | .mapping items => items
  | .finishing result => [result]
  | _ => []

structure Invocation where
  task : Nat
  parent : Option Nat := none
  progress : Progress := .waiting

inductive Done (calls : List Invocation) : Nat → Prop where
  | ended {n : Nat} {v : Invocation} (held : calls[n]? = some v) (progress : v.progress = .ended) : Done calls n
  | finished {n result : Nat} {v : Invocation} (held : calls[n]? = some v) (progress : v.progress = .finishing result)
      (done : Done calls result) : Done calls n

inductive Within (calls : List Invocation) (outer : Nat) : Nat → Prop where
  | self : Within calls outer outer
  | part {n parent : Nat} {v : Invocation} (held : calls[n]? = some v) (same : v.parent = some parent)
      (within : Within calls outer parent) : Within calls outer n

def Move.isCall : Move → Bool
  | .go (.invoke _ _ :: _) _ => true
  | _ => false

def Frame.aim? : Frame → Option Value
  | .invoke config _ | .materialize config | .arrange config | .place config _ | .follow config => some config
  | .map target | .call target => some target.config
  | _ => none

def Frame.begins? : Frame → Option Value
  | .invoke config _ | .materialize config => some config
  | _ => none

/-- How far a step brings an invocation that it does not fail. New invocations are counted from `next` on. -/
def Frame.progress? (frame : Frame) (move : Move) (items : List Nat) (next : Nat) : Option Progress :=
  match frame with
  | .invoke _ _ => some (if move.isCall then .fetching next else .ready)
  | .materialize _ => some (if move.isCall then .fetching next else .mapping items)
  | .map _ | .arrange _ => some (.mapping items)
  | .act _ _ => some .answered
  | .follow _ => some (if move.isCall then .finishing next else .ended)
  | .mapItem _ _ _ => if move.isCall then none else some .ended
  | .place _ _ => some .ended
  | _ => none

namespace Session

def items (s : Session) (next : Nat) : Move → List Nat
  | .await promise _ => List.range' next (promise - s.schedule.promises.size)
  | _ => []

/-- How far a step brings an invocation. A method is called even if that fails at once. -/
def progress? (s : Session) (next : Nat) (frame : Frame) (values : List Value) : Option Progress :=
  match frame, (s.takeStep frame values).2 with
  | .call target, _ => some (.called (s.reply target values))
  | _, .fail _ => none
  | frame, move => frame.progress? move (s.items next move) next

end Session

/-- The invocations that are new with the progress of another one. Tasks are counted from `size` on. -/
def Progress.opens (task n size : Nat) : Progress → List Invocation
  | .fetching _ | .finishing _ => [{ task, parent := some n }]
  | .mapping items => (List.range' size items.length).map fun task => { task, parent := some n }
  | _ => []

def advanced (calls : List Invocation) (n : Nat) (progress : Progress) (new : List Invocation) : List Invocation :=
  (calls.modify n fun v => { v with progress }) ++ new

/-- The invocation that a step belongs to which comes next. -/
def Progress.mark (n : Nat) : Option Progress → Frame → Nat
  | some (.fetching inner), .invoke _ _ => inner
  | some (.finishing result), .invoke _ _ => result
  | _, _ => n

structure Worker where
  own : Nat
  marks : List Nat

structure Undertaking where
  session : Session
  calls : List Invocation
  workers : Nat → Option Worker
  /-- The configurations that invocations have begun on. -/
  aims : Nat → Option Value := fun _ => none

section
variable {calls : List Invocation} {n : Nat} {v : Invocation} {p : Progress} {new : List Invocation}

theorem getElem?_advanced_self (held : calls[n]? = some v) : (advanced calls n p new)[n]? = some { v with progress := p } := by
  have inside := (List.getElem?_eq_some_iff.mp held).1
  rw [advanced, List.getElem?_append_left (by simpa using inside), List.getElem?_modify, held]
  simp

theorem getElem?_advanced_old {k : Nat} (inside : k < calls.length) (other : k ≠ n) :
    (advanced calls n p new)[k]? = calls[k]? := by
  rw [advanced, List.getElem?_append_left (by simpa using inside), List.getElem?_modify]
  simp [Ne.symm other]

theorem getElem?_advanced_new (i : Nat) : (advanced calls n p new)[calls.length + i]? = new[i]? := by
  rw [advanced, List.getElem?_append_right (by simp), List.length_modify, Nat.add_sub_cancel_left]

theorem Done.advanced {k : Nat} (done : Done calls k) (held : calls[n]? = some v) (open_ : v.progress ≠ .ended)
    (unfinished : ∀ result, v.progress ≠ .finishing result) : Done (advanced calls n p new) k := by
  have still {m : Nat} {w : Invocation} (same : calls[m]? = some w) (other : m ≠ n) :
      (Interaction.advanced calls n p new)[m]? = some w :=
    (getElem?_advanced_old (List.getElem?_eq_some_iff.mp same).1 other).trans same
  induction done with
  | ended same progress =>
    refine .ended (still same ?_) progress
    rintro rfl
    cases held.symm.trans same
    exact open_ progress
  | finished same progress _ ih =>
    refine .finished (still same ?_) progress ih
    rintro rfl
    cases held.symm.trans same
    exact unfinished _ progress

end

/-- How invocations are made up of one another. Each is a part of one that was there before it, and of which
it stays a part until it has ended well. -/
structure Rooted (calls : List Invocation) : Prop where
  root : ∀ (n : Nat) (v : Invocation), calls[n]? = some v → v.parent = none → n = 0
  linked : ∀ (n : Nat) (v : Invocation) (parent : Nat), calls[n]? = some v → v.parent = some parent →
    parent < n ∧ (Done calls n ∨ ∃ w, calls[parent]? = some w ∧ n ∈ w.progress.parts)
  parts : ∀ (n : Nat) (v : Invocation) (part : Nat), calls[n]? = some v → part ∈ v.progress.parts →
    ∃ w, calls[part]? = some w ∧ w.parent = some n ∧ ((∀ items, v.progress ≠ .mapping items) → w.task = v.task)

theorem opens_new {p : Progress} {task n size i : Nat} {w : Invocation} (held : (p.opens task n size)[i]? = some w) :
    w.parent = some n ∧ w.progress = .waiting ∧ ((∀ items, p ≠ .mapping items) → w.task = task) := by
  have member := List.mem_of_getElem? held
  cases p with
  | fetching inner =>
    cases List.mem_singleton.mp member
    exact ⟨rfl, rfl, fun _ => rfl⟩
  | finishing result =>
    cases List.mem_singleton.mp member
    exact ⟨rfl, rfl, fun _ => rfl⟩
  | mapping items =>
    obtain ⟨_, _, rfl⟩ := List.mem_map.mp member
    exact ⟨rfl, rfl, fun other => absurd rfl (other items)⟩
  | _ => cases member

theorem Rooted.advanced {calls : List Invocation} (rooted : Rooted calls) {n size : Nat} {v : Invocation} {p : Progress}
    (held : calls[n]? = some v) (open_ : v.progress ≠ .ended) (unfinished : ∀ result, v.progress ≠ .finishing result)
    (done : ∀ part ∈ v.progress.parts, Done calls part)
    (numbered : p.parts = List.range' calls.length (p.opens v.task n size).length) :
    Rooted (advanced calls n p (p.opens v.task n size)) := by
  have inside := (List.getElem?_eq_some_iff.mp held).1
  have self : (Interaction.advanced calls n p (p.opens v.task n size))[n]? = some { v with progress := p } :=
    getElem?_advanced_self held
  have cases {k : Nat} {w : Invocation} (same : (Interaction.advanced calls n p (p.opens v.task n size))[k]? = some w) :
      (k = n ∧ w = { v with progress := p }) ∨ (k ≠ n ∧ calls[k]? = some w) ∨
        ∃ i, k = calls.length + i ∧ (p.opens v.task n size)[i]? = some w := by
    by_cases own : k = n
    · subst own
      exact Or.inl ⟨rfl, (Option.some.inj (self.symm.trans same)).symm⟩
    by_cases old : k < calls.length
    · exact Or.inr (Or.inl ⟨own, (getElem?_advanced_old old own).symm.trans same⟩)
    · obtain ⟨i, rfl⟩ := Nat.exists_eq_add_of_le (Nat.le_of_not_lt old)
      exact Or.inr (Or.inr ⟨i, rfl, (getElem?_advanced_new i).symm.trans same⟩)
  have still {k : Nat} {w : Invocation} (same : calls[k]? = some w) (other : k ≠ n) :
      (Interaction.advanced calls n p (p.opens v.task n size))[k]? = some w :=
    (getElem?_advanced_old (List.getElem?_eq_some_iff.mp same).1 other).trans same
  -- Each entry is the one that has gone on, an old one that stays, or one that has been opened now.
  constructor
  case root =>
    intro k w same top
    rcases cases same with ⟨rfl, rfl⟩ | ⟨_, old⟩ | ⟨i, _, new⟩
    · exact rooted.root _ v held top
    · exact rooted.root k w old top
    · cases top.symm.trans (opens_new new).1
  case linked =>
    intro k w parent same below
    rcases cases same with ⟨rfl, rfl⟩ | ⟨other, old⟩ | ⟨i, rfl, new⟩
    · obtain ⟨earlier, ended | ⟨u, above, part⟩⟩ := rooted.linked _ v parent held below
      · cases ended with
        | ended again progress => cases held.symm.trans again; exact absurd progress open_
        | finished again progress _ => cases held.symm.trans again; exact absurd progress (unfinished _)
      · exact ⟨earlier, Or.inr ⟨u, still above (Nat.ne_of_lt earlier), part⟩⟩
    · obtain ⟨earlier, ended | ⟨u, above, part⟩⟩ := rooted.linked k w parent old below
      · exact ⟨earlier, Or.inl (ended.advanced held open_ unfinished)⟩
      · by_cases own : parent = n
        · subst own
          cases held.symm.trans above
          exact ⟨earlier, Or.inl ((done k part).advanced held open_ unfinished)⟩
        · exact ⟨earlier, Or.inr ⟨u, still above own, part⟩⟩
    · cases below.symm.trans (opens_new new).1
      refine ⟨Nat.lt_of_lt_of_le inside (Nat.le_add_right ..), Or.inr ⟨_, self, ?_⟩⟩
      rw [numbered]
      exact List.mem_range'_1.mpr ⟨Nat.le_add_right .., Nat.add_lt_add_left (List.getElem?_eq_some_iff.mp new).1 _⟩
  case parts =>
    intro k w part same member
    rcases cases same with ⟨rfl, rfl⟩ | ⟨other, old⟩ | ⟨i, rfl, new⟩
    · rw [show ({ v with progress := p } : Invocation).progress = p from rfl, numbered] at member
      obtain ⟨low, high⟩ := List.mem_range'_1.mp member
      obtain ⟨i, rfl⟩ := Nat.exists_eq_add_of_le low
      have within : i < (p.opens v.task k size).length := by omega
      obtain ⟨below, _, task⟩ := opens_new (List.getElem?_eq_getElem within)
      exact ⟨_, (getElem?_advanced_new i).trans (List.getElem?_eq_getElem within), below, task⟩
    · obtain ⟨u, below, parent, task⟩ := rooted.parts k w part old member
      by_cases own : part = n
      · subst own
        cases held.symm.trans below
        exact ⟨_, self, parent, task⟩
      · exact ⟨u, still below own, parent, task⟩
    · rw [(opens_new new).2.1] at member
      cases member

namespace Undertaking

def start (session : Session) (task : Nat) : Undertaking where
  session
  calls := [{ task }]
  workers id := if id = task then some ⟨0, [0]⟩ else none

def advance (u : Undertaking) (task own n : Nat) (marks : List Nat) (frame : Frame) (values : List Value) : Undertaking :=
  let next := u.calls.length
  let size := u.session.schedule.promises.size
  let progress := u.session.progress? next frame values
  let steps := ((u.session.takeStep frame values).2.stand?.map Prod.fst).getD []
  { session := u.session.happen .step
    calls :=
      match progress with
      | some p => advanced u.calls n p (p.opens task n size)
      | none => u.calls
    workers := fun id =>
      if id = task then some ⟨own, steps.map (Progress.mark n progress) ++ marks⟩
      else
        match progress with
        | some (.mapping items) =>
          let i := next + (id - size)
          if size ≤ id ∧ id < size + items.length then some ⟨i, [i]⟩ else u.workers id
        | _ => u.workers id
    aims := fun k => if k = n then frame.begins?.or (u.aims n) else u.aims k }

def happen (u : Undertaking) (e : Event) : Undertaking :=
  match e, u.session.turn with
  | .step, some { task, frames := frame :: _, values } =>
    match u.workers task with
    | some ⟨own, n :: marks⟩ => u.advance task own n marks frame values
    | _ => { u with session := u.session.happen e }
  | _, _ => { u with session := u.session.happen e }

def run (u : Undertaking) (events : List Event) : Undertaking :=
  events.foldl happen u

def Takes (u : Undertaking) (n : Nat) (frame : Frame) : Prop :=
  ∃ task own marks rest values, u.session.turn = some { task, frames := frame :: rest, values } ∧
    u.workers task = some ⟨own, n :: marks⟩

/-- What an invocation must have come to before a step is taken for it. -/
def Due (u : Undertaking) (progress : Progress) : Frame → Prop
  | .invoke _ _ | .materialize _ | .mapItem _ _ _ => progress = .waiting
  | .map _ | .arrange _ => progress = .ready ∨ ∃ inner, progress = .fetching inner ∧ Done u.calls inner
  | .call _ | .place _ _ => ∃ items, progress = .mapping items ∧ ∀ i ∈ items, Done u.calls i
  | .pause | .act _ _ => ∃ steps, progress = .called (.steps steps)
  | .follow _ => (∃ id, progress = .called (.promise id) ∧ u.session.schedule.Succeeded id) ∨ progress = .answered
  | _ => False

end Undertaking
end Interaction
