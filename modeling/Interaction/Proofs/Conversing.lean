import Interaction.Proofs.LineOutcomes
import Mathlib.Data.List.Induction

/-! Materializations under the handling of lines. As long as services do not call the machine, situations
are handed over as if the transitions that lines ask for were carried out one after the other, each with
all of its behaviour. -/

namespace Interaction

theorem Handover.Decided.latest {hs : List Handover} (decided : Handover.Decided hs) :
    Handover.lastMade hs = (hs.filter fun h => h.refusal?.isNone).getLast?.map Handover.config := by
  induction hs using List.reverseRecOn with
  | nil => rfl
  | append_singleton front h ih =>
    have before : Handover.Decided front := by
      intro earlier g later same
      exact decided earlier g (later ++ [h]) (by rw [same]; simp)
    obtain ⟨-, again⟩ := decided front h [] rfl
    rw [Handover.lastMade_concat, List.filter_append]
    cases refused : h.refusal? with
    | some fault => simp [Handover.makes, refused, ih before]
    | none =>
      cases same : h.again with
      | false => simp [Handover.makes, refused, same]
      | true => simp [Handover.makes, refused, same, again.mp same]

namespace Chronicle

variable {a c : Chronicle} {own : Nat} {text : String} {news : List Milestone}

/-- All that happens when a line is handled. -/
def Exchange.occasions (x : Exchange) : List Occasion :=
  .event (.command x.text) :: x.meanwhile

theorem foldl_handle (c : Chronicle) (lines : List Exchange) :
    lines.foldl handle c = c.course (lines.flatMap Exchange.occasions) := by
  induction lines generalizing c with
  | nil => rfl
  | cons x rest ih =>
    rw [List.foldl_cons, ih, List.flatMap_cons, course_append]
    rfl

theorem Spell.complete (spell : a.Spell c own text news) (idle : a.Idle) (ended : c.session.schedule.outcome? own ≠ none)
    {more : List Occasion} (serving : ∀ o ∈ more, o.isServing = true) : (c.course more).handovers = c.handovers := by
  induction more generalizing c news with
  | nil => rfl
  | cons o rest ih =>
    have next := spell.occur idle (serving o (List.mem_cons_self ..))
    have still : (c.occur o).session.schedule.outcome? own ≠ none :=
      fun open_ => ended (((Session.occur_keeps spell.orderly o).2.1 own ended).symm.trans open_)
    have later := ih next still fun other member => serving other (List.mem_cons_of_mem o member)
    have silent : (c.session.met? o).bind Milestone.handover? = none := by
      cases met : c.session.met? o with
      | none => rfl
      | some k =>
        cases k with
        | operate u operation => rfl
        | enter u task target => rfl
        | place u task config whole values =>
          obtain ⟨x, _, intends⟩ := Session.met?_serving met rfl
          exact absurd intends (spell.since.commissions.still spell.orderly (spell.attends.ended ended) task x)
    rw [show c.course (o :: rest) = (c.occur o).course rest from rfl, later, handovers_occur, silent]
    exact List.append_nil _

end Chronicle

namespace Session

/-- When lines are handled one after the other and services do not call the machine, materializations do
not overlap, whatever services and the factory do. A line has one situation handed over at most, which is
that of the transition that it asks for, and nothing once it has been handled. Then the transition has met
its fate: the situation of its target has been handed over, once, if the configurations are accepted and
neither the behaviour of the transition nor the parameters of the situation have failed, and nothing has
otherwise. It is asked for once more if its configuration was made last, and for something new
otherwise. What is made last is what was accepted last. -/
theorem lines_materialized {s : Session} (fresh : s.Fresh) (unmade : s.coordinator.created = none)
    (coordinated : s.behavior = .coordinated) (quiet : s.coordinator.Quiet) {lines : List Exchange}
    (serial : ({ session := s } : Chronicle).Serial lines) (text : String) {meanwhile : List Occasion}
    (serving : ∀ o ∈ meanwhile, o.isServing = true) :
    let a := lines.foldl Chronicle.handle ({ session := s } : Chronicle)
    let root := a.occur (.event (.command text))
    let c := root.course meanwhile
    (c.session.trace.filter Occurrence.isSituation).reverse =
        (s.trace.filter Occurrence.isSituation).reverse ++ c.handovers.flatMap Handover.shown ∧
      c.session.coordinator.created = (c.handovers.filter fun h => h.refusal?.isNone).getLast?.map Handover.config ∧
      (∀ first last x y, c.session.Intends first (.situation x) → c.session.Intends last (.situation y) → first = last) ∧
      ∃ news made, c.milestones = a.milestones ++ news ∧ c.handovers = a.handovers ++ made ∧ made.length ≤ 1 ∧
        (∀ h ∈ made, (h.again = true ↔ Handover.lastMade a.handovers = some h.config) ∧
          ∃ u operation e w, lineOperation? text = some operation ∧ .operate u operation ∈ news ∧
            u.entrance? operation = some e ∧ c.Asks news u operation e w ∧ h.config = w.store.field e.target "do") ∧
        (c.session.schedule.outcome? a.session.schedule.promises.size ≠ none →
          (∀ more, (∀ o ∈ more, o.isServing = true) → (c.course more).handovers = c.handovers) ∧
          ((∀ u operation, .operate u operation ∈ news → u.entrance? operation = none) ∧ made = [] ∨
            ∃ u operation e, .operate u operation ∈ news ∧ u.entrance? operation = some e ∧
              root.Fate meanwhile (u.opened operation) e made)) := by
  intro a root c
  have idle : a.Idle := serial.idle (.start fresh unmade coordinated quiet)
  obtain ⟨news, spell, supplied⟩ := idle.supplied text serving
  refine ⟨?_, ?_, fun first last x y one other => (spell.apart idle one other).1, news, _, spell.since.same, spell.handovers,
    spell.single, fun h handed => ⟨?_, ?_⟩, fun ended => ⟨fun more serving => spell.complete idle ended serving, ?_⟩⟩
  · have told := Chronicle.trace_course fresh.orderly Occurrence.isAppeal_of_isSituation
      (lines.flatMap Chronicle.Exchange.occasions ++ .event (.command text) :: meanwhile)
    rw [Chronicle.course_append, ← Chronicle.foldl_handle] at told
    simp only [Milestone.shown_situation, ← List.flatMap_assoc, ← List.filterMap_eq_flatMap_toList] at told
    exact told
  · exact spell.hands.created.trans spell.hands.decided.latest
  · have single := spell.single
    have all := spell.handovers
    cases made : news.filterMap Milestone.handover? with
    | nil =>
      rw [made] at handed
      cases handed
    | cons g rest =>
      rw [made] at handed single all
      cases rest with
      | cons _ _ => simp at single
      | nil =>
        cases List.mem_singleton.mp handed
        exact (spell.hands.decided a.handovers h [] all).2
  · obtain ⟨u, operation, e, w, member, entered, asks, config, _⟩ := spell.caused handed
    exact ⟨u, operation, e, w, spell.attends.asks u operation member, member, entered, asks, config⟩
  · by_cases enters : ∃ u operation e, .operate u operation ∈ news ∧ u.entrance? operation = some e
    · obtain ⟨u, operation, e, member, entered⟩ := enters
      refine Or.inr ⟨u, operation, e, member, entered, ?_⟩
      exact spell.fate idle (idle.orderly.occur (.event (.command text))) rfl ended supplied member entered
    · refine Or.inl ⟨fun u operation member => ?_, ?_⟩
      · cases entered : u.entrance? operation with
        | none => rfl
        | some e => exact absurd ⟨u, operation, e, member, entered⟩ enters
      · refine List.eq_nil_iff_forall_not_mem.mpr fun h handed => ?_
        obtain ⟨u, operation, e, _, member, entered, _⟩ := spell.caused handed
        exact enters ⟨u, operation, e, member, entered⟩

/-- A machine whose states share a situation. The parameters of that and the configuration of the transition
come from services that answer later. -/
private def conversing : Session where
  store := { cells := #[
    .map [(.text "initial", .text "A"), (.text "states", .tuple [.ref 1, .ref 3])],
    .map [(.text "name", .text "A"), (.text "events", .tuple [.ref 2]), (.text "do", .ref 4)],
    .map [(.text "on", .text "go"), (.text "goto", .text "B"), (.text "do", .ref 5)],
    .map [(.text "name", .text "B"), (.text "do", .ref 4)],
    .map [(.text "situation", .text "S"), (.text "parameters", .ref 5)],
    .map [(.text "name", .text "slow")]] }
  coordinator :=
    { services := #[{ nature := { kind := "Service" }, provision := .listed, execution := .wrapped,
                      methods := [{ name := .text "slow", label := "slow", script := { action := .defer } }] }]
      registry := [("", 0)]
      factory := .recording [] none }
  behavior := .coordinated
  machine := some {}

private def conversable : Session :=
  (conversing.load (.ref 0)).1

private def stepping (n : Nat) : List Occasion :=
  List.replicate n (.event .step)

/-- The first state is entered, and its parameters are answered. -/
private def entering : Exchange where
  text := "run"
  meanwhile := stepping 9 ++ [.event (.answer 0 (.ok [.int 1]))] ++ stepping 14

/-- What the transition into the second state has called is answered, and then the parameters are. -/
private def going : List Occasion :=
  stepping 12 ++ [.event (.answer 1 (.ok [.int 1]))] ++ stepping 20 ++ [.event (.answer 2 (.ok [.int 1]))] ++ stepping 16

private def arrived : Chronicle :=
  ({ session := conversable } : Chronicle).handle entering

private def conversed : Chronicle :=
  (arrived.occur (.event (.command "go"))).course going

set_option maxRecDepth 4000 in
theorem conversing_materialized : conversable.Fresh ∧ conversable.coordinator.created = none ∧
    conversable.behavior = .coordinated ∧ conversable.coordinator.Quiet ∧
    ({ session := conversable } : Chronicle).Serial [entering] ∧ (∀ o ∈ going, o.isServing = true) ∧
      conversed.handovers.map Handover.again = [false, true] ∧ ∀ n, (conversed.course (stepping n)).handovers = conversed.handovers := by
  have fresh : conversable.Fresh := ⟨rfl, rfl, rfl, rfl, rfl⟩
  have quiet : conversable.coordinator.Quiet := by
    intro place m member
    cases place with
    | zero =>
      cases List.mem_singleton.mp member
      rfl
    | succ place => cases member
  have settled : (arrived.session.schedule.outcome? 0).isSome = true := by decide +kernel
  have serial : ({ session := conversable } : Chronicle).Serial [entering] :=
    .cons (List.all_eq_true.mp rfl) (Option.isSome_iff_ne_none.mp settled) (.nil _)
  have serving : ∀ o ∈ going, o.isServing = true := List.all_eq_true.mp rfl
  have ended : (conversed.session.schedule.outcome? arrived.session.schedule.promises.size).isSome = true := by decide +kernel
  have told := lines_materialized fresh rfl rfl quiet serial "go" serving
  have before : [entering].foldl Chronicle.handle { session := conversable } = arrived := by
    rw [List.foldl_cons, List.foldl_nil, arrived]
  have after : (arrived.occur (.event (.command "go"))).course going = conversed := by rw [conversed]
  simp only [before, after] at told
  obtain ⟨-, -, -, news, made, -, whole, -, each, complete⟩ := told
  refine ⟨fresh, rfl, rfl, quiet, serial, serving, ?_, fun n => ?_⟩
  · have first : arrived.handovers.map Handover.again = [false] := by decide +kernel
    have last : Handover.lastMade arrived.handovers = some (.ref 4) := rfl
    have count : conversed.handovers.length = 2 := by decide +kernel
    have configs : conversed.handovers.all (fun h => h.config.sameKey (.ref 4)) = true := by decide +kernel
    have one := congrArg List.length first
    rw [whole, List.length_append] at count
    rw [List.length_map] at one
    obtain ⟨h, rfl⟩ := List.length_eq_one_iff.mp (show made.length = 1 by simp only [List.length_singleton] at one; omega)
    have same := Value.sameKey_ref.mp (List.all_eq_true.mp configs h (whole ▸ List.mem_append_right _ (List.mem_singleton_self h)))
    have again : h.again = true := (each h (List.mem_singleton_self h)).1.mpr (same ▸ last)
    rw [whole, List.map_append, first, List.map_singleton, again]
    rfl
  · have still := (complete (Option.isSome_iff_ne_none.mp ended)).1
    apply still
    intro o member
    rw [List.eq_of_mem_replicate member]
    rfl

end Session

end Interaction
