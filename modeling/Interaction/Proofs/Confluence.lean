import Interaction.Proofs.Renewing
import Mathlib.Tactic.IntervalCases

/-! Asynchronous evaluation agrees with the plain one. In whatever order services answer, and
whatever else happens in between, the work on an accepted configuration comes to what the
configuration evaluates to, and asks of others what that asks. -/

namespace Interaction

open Reading

variable {δ : Type}

theorem flatMap_own {α : Type} {ids : List Nat} (distinct : ids.Nodup) {own : Nat} (member : own ∈ ids)
    {before after : Nat → List α} {part : List α} (same : before own = part ++ after own)
    (others : ∀ id ∈ ids, id ≠ own → after id = before id) :
    (ids.flatMap before).Perm (part ++ ids.flatMap after) := by
  induction ids with
  | nil => cases member
  | cons first rest ih =>
    obtain ⟨absent, distinct⟩ := List.nodup_cons.mp distinct
    rw [List.flatMap_cons, List.flatMap_cons]
    rcases List.mem_cons.mp member with rfl | later
    · rw [same, List.append_assoc, List.flatMap_congr fun id among => others id (List.mem_cons_of_mem _ among) ?_]
      rintro rfl
      exact absent among
    · have other : first ≠ own := by
        rintro rfl
        exact absent later
      rw [others first (List.mem_cons_self ..) other]
      have tail := ih distinct later fun id among => others id (List.mem_cons_of_mem _ among)
      exact (tail.append_left _).trans (List.perm_append_comm_assoc ..)

theorem nodup_offspring (s : Session) (frame : Frame) (values : List Value) : (s.offspring frame values).Nodup := by
  unfold Session.offspring
  split
  · exact List.nodup_nil
  · split
    · exact List.nodup_cons.mpr ⟨List.not_mem_nil, List.nodup_nil⟩
    · exact List.nodup_nil
  · exact List.nodup_range'

namespace Account

/-- What is true of an account of the work on an accepted configuration that asks for `total`. -/
structure Computes (r : Reading δ) (c : Coordinator) (d : Store) (whole : Value) (asked : Value → Prop) (root : Nat)
    (entry : Entry) (total : List (Ask δ)) (plan : Plan δ) (a : Account) : Prop where
  checked : a.Checked c d whole asked
  distinct : a.family.Nodup
  first : root ∈ a.family
  abides : ∀ id ∈ a.family, a.Abides r c d plan root entry id
  asks : (a.deeds.filterMap (Deed.ask? r.read) ++ a.family.flatMap plan.left).Perm total

/-- What is assumed on the way: calls are answered, and neither the configuration nor the data
context is written to. -/
structure Fair (r : Reading δ) (c : Coordinator) (d : Store) (whole : Value) (a : Account) : Prop where
  answered : a.Answered r
  document : d.Keeps a.session.store whole
  context : d.Keeps a.session.store c.context

namespace Computes

variable {r : Reading δ} {c : Coordinator} {d : Store} {whole : Value} {asked : Value → Prop} {root : Nat} {entry : Entry}
  {total : List (Ask δ)} {plan : Plan δ} {a : Account} {own : Nat} {frame : Frame} {rest : List Frame} {values : List Value}

theorem step (accepted : Accepted c d whole asked) (computes : a.Computes r c d whole asked root entry total plan)
    (fair : a.Fair r c d whole) (later : (a.stepped own frame values).Answered r)
    (turn : a.session.turn = some { task := own, frames := frame :: rest, values }) (among : own ∈ a.family)
    (checked : (a.stepped own frame values).Checked c d whole asked) :
    ∃ next, (a.stepped own frame values).Computes r c d whole asked root entry total next ∧
      next.goal root = plan.goal root := by
  have inside := computes.checked.inside
  obtain ⟨more, goal, left, renewed⟩ := renews accepted computes.checked fair.document fair.context fair.answered later
    among turn (computes.abides own among) (inside root computes.first)
  have old {id : Nat} (member : id ∈ a.family) (other : id ≠ own) :
      (plan.grow a.session.schedule.promises.size own more goal left).left id = plan.left id :=
    (if_pos (inside id member)).trans (if_neg other)
  refine ⟨plan.grow a.session.schedule.promises.size own more goal left,
    ⟨checked, ?_, List.mem_append_left _ computes.first, ?_, ?_⟩, if_pos (inside root computes.first)⟩
  · refine List.nodup_append.mpr ⟨computes.distinct, nodup_offspring .., ?_⟩
    intro id member other new
    rintro rfl
    exact Nat.not_lt_of_le (Session.mem_offspring new).1 (inside id member)
  · intro id member
    rcases List.mem_append.mp member with member | new
    · by_cases other : id = own
      · subst other
        exact renewed.self
      · refine Abides.later computes.checked.orderly (inside id member) computes.abides fair.answered
          (follows_stepped inside) member (old member other) (latest?_other (Or.inl other) values) fun f fs vs _ same => ?_
        cases turn.symm.trans same
        exact other rfl
    · exact renewed.new id new
  · have kept : (plan.grow a.session.schedule.promises.size own more goal left).left own = more :=
      (if_pos (inside own among)).trans (if_pos rfl)
    have shared : plan.left own = (a.session.asks r.read frame values ++
        (a.session.offspring frame values).flatMap (plan.grow a.session.schedule.promises.size own more goal left).left) ++
          (plan.grow a.session.schedule.promises.size own more goal left).left own := by
      rw [kept, List.append_assoc]
      exact renewed.asked
    have split := flatMap_own computes.distinct among shared fun id member other => old member other
    -- What the step has asked moves from what was left to what is done.
    rw [stepped, List.filterMap_append, filterMap_deeds, List.flatMap_append, List.append_assoc]
    refine List.Perm.trans (.append_left _ ?_) computes.asks
    refine List.Perm.trans ?_ split.symm
    rw [List.append_assoc]
    exact .append_left _ List.perm_append_comm

/-- Whatever happens, the work comes to what it was to. -/
theorem happen (accepted : Accepted c d whole asked) (computes : a.Computes r c d whole asked root entry total plan) (e : Event)
    (fair : a.Fair r c d whole) (later : (a.happen e).Fair r c d whole) :
    ∃ next, (a.happen e).Computes r c d whole asked root entry total next ∧ next.goal root = plan.goal root := by
  have checked := computes.checked.happen accepted fair.document e
  have answered := later.answered
  rcases a.happen_cases e with ⟨own, frame, rest, values, rfl, turn, among, same⟩ | ⟨same, others⟩
  · rw [same] at checked answered ⊢
    exact step accepted computes fair answered turn among checked
  · rw [same] at checked ⊢
    refine ⟨plan, ⟨checked, computes.distinct, computes.first, ?_, computes.asks⟩, rfl⟩
    intro id member
    have follows : Follows plan plan a e { a with session := a.session.happen e } :=
      ⟨rfl, fun _ member => member, fun _ member => member, fun _ _ => rfl⟩
    apply Abides.later computes.checked.orderly (computes.checked.inside id member) computes.abides fair.answered
      follows member rfl rfl
    intro frame rest values isStep turn
    exact others id frame rest values isStep turn member

/-- Nothing is left to ask once all promises of the work are settled. -/
theorem perm_of_settled (computes : a.Computes r c d whole asked root entry total plan)
    (settled : ∀ id ∈ a.family, a.session.schedule.outcome? id ≠ none) :
    (a.deeds.filterMap (Deed.ask? r.read)).Perm total := by
  have nothing : a.family.flatMap plan.left = [] := by
    apply List.flatMap_eq_nil_iff.mpr
    intro id member
    obtain ⟨outcome, ended⟩ := Option.ne_none_iff_exists'.mp (settled id member)
    cases goal : plan.goal id with
    | none => exact (computes.abides id member).silent goal
    | some result => exact ((computes.abides id member).ended outcome result ended goal).1
  have perm := computes.asks
  rwa [nothing, List.append_nil] at perm

/-- Once the first promise of the work is settled, all are: no join fails. -/
theorem all_settled (computes : a.Computes r c d whole asked root entry total plan) (tended : a.Tended root)
    (ended : a.session.schedule.outcome? root ≠ none) : ∀ id ∈ a.family, a.session.schedule.outcome? id ≠ none := by
  apply tended.complete ended
  intro join among members fault joined failed
  obtain ⟨other, _, goal, _⟩ := (computes.abides join among).joined members joined
  exact absurd ((computes.abides join among).ended _ _ failed goal).2.other other

end Computes

end Account

namespace Reading

variable {r : Reading δ} {c : Coordinator} {d : Store} {entry : Entry} {config : Value} {result : List δ} {asks : List (Ask δ)}

theorem performs_execute (ends : r.execute c d entry config = some (result, asks)) :
    Performs r c d [entry.frame config] [] result asks := by
  cases entry with
  | transition =>
    obtain ⟨⟨y, asks⟩, ended, same⟩ := Option.bind_eq_some_iff.mp ends
    cases same
    rw [← List.append_nil asks]
    exact .invoke (fun _ => rfl) ended (.done _)
  | state =>
    obtain ⟨asks, ended, same⟩ := Option.bind_eq_some_iff.mp ends
    cases same
    exact .materialize ended

theorem state_of_execute (ends : r.execute c d entry config = some ([], asks)) : entry = .state := by
  cases entry with
  | transition =>
    obtain ⟨_, _, same⟩ := Option.bind_eq_some_iff.mp ends
    cases same
  | state => rfl

end Reading

namespace Session

variable {r : Reading δ} {s : Session} {entry : Entry} {config : Value} {id : Nat}

theorem account_computes (orderly : s.Orderly s.running) (mapping : s.store.isMapping config = true)
    (accepted : (s.coordinate entry config).2 = .ok id) {result : List δ} {asks : List (Ask δ)}
    (ends : r.execute s.coordinator s.store entry config = some (result, asks)) :
    ∃ plan, (s.account entry config id).Computes r s.coordinator s.store config (Asks s.store entry config) id entry asks plan ∧
      plan.goal id = some result := by
  have checked := account_checked orderly mapping accepted
  obtain ⟨rfl, started⟩ := coordinate_spawns mapping accepted
  rw [account, started] at checked ⊢
  have origin := s.schedule.origin?_spawn [entry.frame config]
  have open_ := s.schedule.outcome?_spawn [entry.frame config]
  refine ⟨⟨fun _ => some result, fun _ => asks⟩, ⟨checked, by simp, List.mem_singleton_self _, ?_, by simp⟩, rfl⟩
  intro id member
  obtain rfl := List.mem_singleton.mp member
  constructor
  case proceeds =>
    intro frames supply stands
    obtain ⟨rfl, rfl⟩ := stands_spawn orderly stands
    exact .given (performs_execute ends)
  case ended =>
    intro _ _ ended _
    cases open_.symm.trans ended
  case silent =>
    intro other
    cases other
  case joined =>
    intro members joined
    cases (Schedule.members?_origin origin).symm.trans joined
  case outside =>
    intro outside
    cases origin.symm.trans outside
  case bare =>
    intro _ nothing
    cases nothing
    exact ⟨rfl, state_of_execute ends⟩

theorem account_tended (orderly : s.Orderly s.running) (mapping : s.store.isMapping config = true)
    (accepted : (s.coordinate entry config).2 = .ok id) : (s.account entry config id).Tended id := by
  have checked := account_checked orderly mapping accepted
  obtain ⟨rfl, started⟩ := coordinate_spawns mapping accepted
  rw [account, started] at checked ⊢
  have origin := s.schedule.origin?_spawn [entry.frame config]
  constructor
  case orderly => exact checked.orderly
  case inside => exact checked.inside
  case work =>
    intro task member frames supply stands
    obtain rfl := List.mem_singleton.mp member
    obtain ⟨rfl, rfl⟩ := stands_spawn orderly stands
    cases entry <;> simp [Entry.frame, Frame.isWork]
  case joined =>
    intro join member members joined
    obtain rfl := List.mem_singleton.mp member
    cases (Schedule.members?_origin origin).symm.trans joined
  case held => exact fun id member _ => Or.inl (List.mem_singleton.mp member)

/-- A call with two parameters, each of which is asked for a number; the answers come later. -/
private def asking : Session where
  store := { cells := #[
    .map [(.text "name", .text "first"), (.text "parameters", .tuple [.int 1, .int 2]),
      (.text "parameterMapping", .tuple [.ref 1, .ref 1])],
    .map [(.text "name", .text "ask")]] }
  coordinator :=
    { services := #[{ nature := { kind := "Service" }, provision := .listed, execution := .wrapped,
                      methods := [{ name := .text "ask", label := "ask", script := { action := .defer } },
                        { name := .text "first", label := "first", script := { action := .echo } }] }]
      registry := [("", 0)] }

/-- What is asked for a number gives ten more, and other methods their first parameter. -/
private def numbers : Reading Int where
  read
    | .scalar (.int n) => n
    | _ => 0
  answer _ method params := if method = "ask" then params.headD 0 + 10 else params.headD 0
  items _ := none

/-- The second parameter is answered before the first one. -/
private def askingEvents : List Event :=
  List.replicate 14 .step ++ .answer 1 (.ok [.int 12]) :: List.replicate 4 .step ++
    .answer 0 (.ok [.int 11]) :: List.replicate 10 .step

/-- Whether calls have been answered with numbers, and no task acts or arranges parameters. -/
private def tidy (a : Account) : Bool :=
  (a.deeds.all fun
    | .call _ target params (.promise id) =>
      match a.session.schedule.outcome? id with
      | none => true
      | some (.ok [v]) => numbers.read v == numbers.answer target.service target.method (params.map numbers.read)
      | some _ => false
    | .call _ _ _ _ => false
    | _ => true) &&
  match a.session.turn.bind (·.frames.head?) with
  | some (.act _ _) | some (.arrange _) => false
  | _ => true

private theorem tidy_fair {a : Account} (isTidy : tidy a = true) (same : a.session.store = asking.store) :
    a.Fair numbers asking.coordinator asking.store (.ref 0) := by
  obtain ⟨calls, turn⟩ := Bool.and_eq_true_iff.mp isTidy
  refine ⟨⟨?_, ?_, ?_⟩, same ▸ Store.keeps_refl _ _, same ▸ Store.keeps_refl _ _⟩
  · intro task target params reply done
    have good := List.all_eq_true.mp calls _ done
    cases reply with
    | promise id =>
      refine Or.inl ⟨id, rfl, ?_⟩
      intro outcome ended
      simp only [ended] at good
      split at good
      next open_ => cases open_
      next v same =>
        cases same
        exact ⟨v, rfl, by simpa using good⟩
      · cases good
    | _ => cases good
  · intro task _ action request rest values target params own
    rw [own] at turn
    cases turn
  · intro task _ config rest v own
    rw [own] at turn
    cases turn

set_option maxRecDepth 4000 in
private theorem asking_fair : (asking.account .transition (.ref 0) 0).Throughout
    (Account.Fair numbers asking.coordinator asking.store (.ref 0)) askingEvents := by
  have along : (asking.account .transition (.ref 0) 0).Throughout
      (fun a => tidy a = true ∧ a.session.store = asking.store) askingEvents := by
    apply Account.throughout_iff.mpr
    intro k within
    have bound : k ≤ 30 := within
    interval_cases k <;> exact ⟨rfl, rfl⟩
  exact along.imp fun a known => tidy_fair known.1 known.2

end Session

end Interaction
