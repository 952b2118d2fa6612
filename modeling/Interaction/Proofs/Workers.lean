import Interaction.Proofs.Settling
import Interaction.Proofs.BehaviorWaiters
import Interaction.Proofs.Undertaking

/-! The tasks of an undertaking: where each of them stands in the invocations that it works on. A task
works on an invocation and on those that it is a part of, until it comes to one that another task waits for. -/

namespace Interaction

def Frame.starts : Frame → Bool
  | .invoke _ _ | .materialize _ | .mapItem _ _ _ => true
  | _ => false

def Frame.gathers : Frame → Bool
  | .map _ | .arrange _ => true
  | _ => false

def Frame.concludes : Frame → Bool
  | .call _ | .place _ _ => true
  | _ => false

def Frame.isState : Frame → Bool
  | .materialize _ | .arrange _ | .place _ _ => true
  | _ => false

/-- What a task has before it once an invocation has ended well: it goes on with the one that this is a
part of, unless it is the one that the task is for. -/
inductive Under (calls : List Invocation) (aims : Nat → Option Value) (task own : Nat) : Nat → List Frame → List Nat → Prop where
  | first : Under calls aims task own own [] []
  | fetching {n inner : Nat} {v : Invocation} {frame : Frame} {rest : List Frame} {marks : List Nat}
      (held : calls[n]? = some v) (same : v.task = task) (progress : v.progress = .fetching inner) (earlier : n < inner)
      (gathers : frame.gathers = true) (aimed : frame.aim? = aims n) (fits : frame.isState = true → n = 0)
      (under : Under calls aims task own n rest marks) : Under calls aims task own inner (frame :: rest) (n :: marks)
  | finishing {n result : Nat} {v : Invocation} {rest : List Frame} {marks : List Nat}
      (held : calls[n]? = some v) (same : v.task = task) (progress : v.progress = .finishing result) (earlier : n < result)
      (under : Under calls aims task own n rest marks) : Under calls aims task own result rest marks

theorem Under.later {calls after : List Invocation} {aims others : Nat → Option Value} {task own n : Nat} {rest : List Frame}
    {marks : List Nat} (under : Under calls aims task own n rest marks)
    (kept : ∀ {k : Nat} {v : Invocation}, k < n → calls[k]? = some v → v.task = task → after[k]? = some v ∧ others k = aims k) :
    Under after others task own n rest marks := by
  induction under with
  | first => exact .first
  | fetching found same progress earlier gathers aimed fits _ ih =>
    obtain ⟨held, aim⟩ := kept earlier found same
    exact .fetching held same progress earlier gathers (aimed.trans aim.symm) fits
      (ih fun below => kept (Nat.lt_trans below earlier))
  | finishing found same progress earlier _ ih =>
    exact .finishing (kept earlier found same).1 same progress earlier (ih fun below => kept (Nat.lt_trans below earlier))

namespace Undertaking

/-- Whether all items of a mapping have ended well once a supply is there. -/
def Whole (u : Undertaking) (items : List Nat) : Supply → Prop
  | .values _ => ∀ i ∈ items, Done u.calls i
  | .promise join => items = [] ∨ ∃ members, u.session.schedule.role? join = some (.join members false) ∧
      ∀ i ∈ items, ∃ v, u.calls[i]? = some v ∧ v.task ∈ members

inductive Prepared (u : Undertaking) (n : Nat) : Progress → Frame → List Frame → Supply → Prop where
  | waiting {frame : Frame} {supply : Supply} (starts : frame.starts = true) (fits : frame.isState = true → n = 0) :
      Prepared u n .waiting frame [] supply
  | ready {frame : Frame} {supply : Supply} (gathers : frame.gathers = true) (aimed : frame.aim? = u.aims n)
      (fits : frame.isState = true → n = 0) : Prepared u n .ready frame [] supply
  | fetched {inner : Nat} {frame : Frame} {supply : Supply} (done : Done u.calls inner) (gathers : frame.gathers = true)
      (aimed : frame.aim? = u.aims n) (fits : frame.isState = true → n = 0) : Prepared u n (.fetching inner) frame [] supply
  | mapped {items : List Nat} {frame : Frame} {supply : Supply} (whole : u.Whole items supply) (concludes : frame.concludes = true)
      (aimed : frame.aim? = u.aims n) (fits : frame.isState = true → n = 0) : Prepared u n (.mapping items) frame [] supply
  | pausing {steps : List Frame} {turns : Nat} {action : Action} {request : Request} {config : Value} {supply : Supply}
      (aimed : some config = u.aims n) :
      Prepared u n (.called (.steps steps)) .pause (Session.lateSteps turns action request ++ [.follow config]) supply
  | acting {steps : List Frame} {action : Action} {request : Request} {config : Value} {supply : Supply}
      (aimed : some config = u.aims n) : Prepared u n (.called (.steps steps)) (.act action request) [.follow config] supply
  | called {id : Nat} {config : Value} {supply : Supply} (aimed : some config = u.aims n)
      (answer : supply = .promise id ∨ u.session.schedule.Succeeded id) :
      Prepared u n (.called (.promise id)) (.follow config) [] supply
  | answered {config : Value} {supply : Supply} (aimed : some config = u.aims n) :
      Prepared u n .answered (.follow config) [] supply

/-- Where a task stands that works for an invocation of its own. -/
inductive Lays (u : Undertaking) (task own : Nat) : List Frame → List Nat → Supply → Prop where
  | ended {supply : Supply} (done : Done u.calls own) : Lays u task own [] [] supply
  | working {n : Nat} {v : Invocation} {frame : Frame} {steps rest : List Frame} {marks : List Nat} {supply : Supply}
      (held : u.calls[n]? = some v) (same : v.task = task) (prepared : u.Prepared n v.progress frame steps supply)
      (under : Under u.calls u.aims task own n rest marks) :
      Lays u task own (frame :: (steps ++ rest)) (n :: (List.replicate steps.length n ++ marks)) supply

variable {u w : Undertaking} {task own n : Nat}

theorem Lays.single {v : Invocation} {frame : Frame} {rest : List Frame} {marks : List Nat} {supply : Supply}
    (held : u.calls[n]? = some v) (same : v.task = task) (prepared : u.Prepared n v.progress frame [] supply)
    (under : Under u.calls u.aims task own n rest marks) : u.Lays task own (frame :: rest) (n :: marks) supply :=
  .working held same prepared under

theorem Lays.late {v : Invocation} {frames : List Frame} (held : u.calls[n]? = some v) (same : v.task = task)
    (reached : v.progress = .called (.steps frames)) {rest : List Frame} {marks : List Nat}
    (under : Under u.calls u.aims task own n rest marks) (turns : Nat) (action : Action) (request : Request) {config : Value}
    (aimed : some config = u.aims n) (supply : Supply) : let steps := Session.lateSteps turns action request ++ [.follow config]
    u.Lays task own (steps ++ rest) (List.replicate steps.length n ++ marks) supply := by
  cases turns with
  | zero => exact .working held same (reached ▸ .acting aimed) under
  | succ turns => exact .working held same (reached ▸ .pausing aimed) under

theorem Prepared.due {p : Progress} {frame : Frame} {steps : List Frame} {values : List Value}
    (prepared : u.Prepared n p frame steps (.values values)) : u.Due p frame := by
  cases prepared with
  | waiting starts fits => cases frame <;> first | rfl | cases starts
  | ready gathers _ fits => cases frame <;> first | exact Or.inl rfl | cases gathers
  | fetched done gathers _ fits => cases frame <;> first | exact Or.inr ⟨_, rfl, done⟩ | cases gathers
  | mapped whole concludes _ fits => cases frame <;> first | exact ⟨_, rfl, whole⟩ | cases concludes
  | pausing => exact ⟨_, rfl⟩
  | acting => exact ⟨_, rfl⟩
  | called _ answer => exact Or.inl ⟨_, rfl, answer.resolve_left (nomatch ·)⟩
  | answered => exact Or.inr rfl

/-- Whatever an invocation is made up of has ended well when a step is taken for it, and it has not. -/
theorem Due.parts {p : Progress} {frame : Frame} (due : u.Due p frame) :
    (∀ part ∈ p.parts, Done u.calls part) ∧ p ≠ .ended ∧ ∀ result, p ≠ .finishing result := by
  cases frame with
  | invoke config given => cases due; simp [Progress.parts]
  | materialize config => cases due; simp [Progress.parts]
  | mapItem mapping index value => cases due; simp [Progress.parts]
  | map target => rcases due with rfl | ⟨inner, rfl, done⟩ <;> simp [Progress.parts, *]
  | arrange config => rcases due with rfl | ⟨inner, rfl, done⟩ <;> simp [Progress.parts, *]
  | call target =>
    obtain ⟨items, rfl, done⟩ := due
    exact ⟨done, by simp, by simp⟩
  | place config whole =>
    obtain ⟨items, rfl, done⟩ := due
    exact ⟨done, by simp, by simp⟩
  | pause => obtain ⟨steps, rfl⟩ := due; simp [Progress.parts]
  | act action request => obtain ⟨steps, rfl⟩ := due; simp [Progress.parts]
  | follow config => rcases due with ⟨id, rfl, _⟩ | rfl <;> simp [Progress.parts]
  | _ => exact False.elim due

/-- What stays for a task of an undertaking while others work. -/
structure Spares (u w : Undertaking) (task : Nat) : Prop where
  done : ∀ {k}, Done u.calls k → Done w.calls k
  held : ∀ {k : Nat} {v : Invocation}, u.calls[k]? = some v → v.task = task → w.calls[k]? = some v
  aims : ∀ {k : Nat} {v : Invocation}, u.calls[k]? = some v → v.task = task → w.aims k = u.aims k
  tasks : ∀ {k : Nat} {v : Invocation}, u.calls[k]? = some v → ∃ v' : Invocation, w.calls[k]? = some v' ∧ v'.task = v.task
  session : u.session.Enlarges w.session

theorem succeeded_later {s t : Session} (enlarged : s.Enlarges t) {id : Nat} (succeeded : s.schedule.Succeeded id) :
    t.schedule.Succeeded id := by
  obtain ⟨values, settled⟩ := succeeded
  exact ⟨values, (enlarged.settled (by simp [settled])).trans settled⟩

theorem role_later {s t : Session} (enlarged : s.Enlarges t) {id : Nat} {role : Role} (held : s.schedule.role? id = some role) :
    t.schedule.role? id = some role := by
  obtain ⟨origin, same, _⟩ := Option.map_eq_some_iff.mp held
  exact (enlarged.role (Schedule.origin?_inside same)).trans held

theorem Prepared.later {p : Progress} {frame : Frame} {steps : List Frame} {supply : Supply}
    (prepared : u.Prepared n p frame steps supply) (spares : u.Spares w task) (aims : w.aims n = u.aims n) :
    w.Prepared n p frame steps supply := by
  cases prepared with
  | waiting starts fits => exact .waiting starts fits
  | ready gathers aimed fits => exact .ready gathers (aimed.trans aims.symm) fits
  | fetched done gathers aimed fits => exact .fetched (spares.done done) gathers (aimed.trans aims.symm) fits
  | mapped whole concludes aimed fits =>
    refine .mapped ?_ concludes (aimed.trans aims.symm) fits
    cases supply with
    | values values => exact fun i among => spares.done (whole i among)
    | promise join =>
      rcases whole with empty | ⟨members, isJoin, all⟩
      · exact Or.inl empty
      · refine Or.inr ⟨members, role_later spares.session isJoin, fun i among => ?_⟩
        obtain ⟨v, held, member⟩ := all i among
        obtain ⟨v', later, same⟩ := spares.tasks held
        exact ⟨v', later, same ▸ member⟩
  | pausing aimed => exact .pausing (aimed.trans aims.symm)
  | acting aimed => exact .acting (aimed.trans aims.symm)
  | called aimed answer => exact .called (aimed.trans aims.symm) (answer.imp_right (succeeded_later spares.session))
  | answered aimed => exact .answered (aimed.trans aims.symm)

theorem Lays.later {frames : List Frame} {marks : List Nat} {supply : Supply} (lays : u.Lays task own frames marks supply)
    (spares : u.Spares w task) : w.Lays task own frames marks supply := by
  cases lays with
  | ended done => exact .ended (spares.done done)
  | working held same prepared under =>
    refine .working (spares.held held same) same (prepared.later spares (spares.aims held same)) ?_
    exact under.later fun _ found mine => ⟨spares.held found mine, spares.aims found mine⟩

theorem Lays.resume {rest : List Frame} {marks : List Nat} (under : Under u.calls u.aims task own n rest marks)
    (done : Done u.calls n) (supply : Supply) : u.Lays task own rest marks supply := by
  induction under with
  | first => exact .ended done
  | fetching held same progress _ gathers aimed fits under _ =>
    refine .single held same ?_ under
    rw [progress]
    exact .fetched done gathers aimed fits
  | finishing held _ progress _ _ ih => exact ih (.finished held progress done)

end Undertaking

/-! What the steps of invocations do. -/

namespace Session

variable {s : Session} {frame : Frame} {values : List Value}

/-- What mapping parameters leads to: the step that they are for, at once or after a task for each of them. -/
inductive Fans (s : Session) (frame : Frame) (values : List Value) : Prop where
  | plain {next : Frame} {given : List Value} (taken : s.takeStep frame values = (s, .go [next] given))
      (concludes : next.concludes = true) (aim : next.aim? = frame.aim?) (fits : next.isState = true → frame.isState = true)
  | fan {next : Frame} {mapping : Value} {given : List Value}
      (taken : s.takeStep frame values =
        (s.fan mapping given, .await (s.schedule.promises.size + given.length) [next]))
      (concludes : next.concludes = true) (aim : next.aim? = frame.aim?) (fits : next.isState = true → frame.isState = true)

theorem fans_mapEach {mapping : Value} {given : List Value} {next : Frame}
    (taken : s.takeStep frame values = s.mapEach mapping given [next]) (concludes : next.concludes = true)
    (aim : next.aim? = frame.aim?) (fits : next.isState = true → frame.isState = true) : s.Fans frame values := by
  rcases s.mapEach_cases mapping given [next] with same | same
  · exact .plain (taken.trans same) concludes aim fits
  · exact .fan (taken.trans same) concludes aim fits

theorem fans_gathers (gathers : frame.gathers = true) (values : List Value) : s.Fans frame values := by
  cases frame with
  | map target => exact fans_mapEach rfl rfl rfl nofun
  | arrange config =>
    rcases s.arrange_cases config values with same | ⟨items, same⟩
    · exact .plain same rfl rfl fun _ => rfl
    · exact fans_mapEach same rfl rfl fun _ => rfl
  | _ => cases gathers

/-- How an invocation begins. -/
inductive Opens (s : Session) (frame : Frame) (values : List Value) : Prop where
  | fails {fault : Fault} (move : (s.takeStep frame values).2 = .fail fault)
  | enters {call given : Value} (item : ∃ mapping index value, frame = .mapItem mapping index value)
      (taken : s.takeStep frame values = (s, .go [.invoke call given] []))
  | passes {given : List Value} (item : ∃ mapping index value, frame = .mapItem mapping index value)
      (taken : s.takeStep frame values = (s, .go [] given))
  | fetches {inner given : Value} {next : Frame} (call : ∀ mapping index value, frame ≠ .mapItem mapping index value)
      (taken : s.takeStep frame values = (s, .go [.invoke inner given, next] [])) (gathers : next.gathers = true)
      (aim : next.aim? = frame.begins?) (fits : next.isState = true → frame.isState = true)
  | readies {target : Target} {given : List Value} (call : ∃ config given, frame = .invoke config given)
      (taken : s.takeStep frame values = (s, .go [.map target] given)) (aim : some target.config = frame.begins?)
  | fans {config : Value} (state : frame = .materialize config) (fans : s.Fans frame values)

theorem opens (starts : frame.starts = true) (values : List Value) : s.Opens frame values := by
  cases frame with
  | invoke config given =>
    cases aimed : s.coordinator.target s.store config with
    | error fault => exact .fails (by simp only [takeStep, invoke, aimed]; rfl)
    | ok target =>
      have aim : some target.config = some config := congrArg some (Coordinator.target_ok.mp aimed).2.1
      have taken : s.takeStep (.invoke config given) values =
          s.fetch config ((s.store.items? given).getD []) [.map target] fun s values => (s, .go [.map target] values) := by
        simp only [takeStep, invoke, aimed]
      rcases s.fetch_cases config _ [.map target] _ with ⟨fault, same⟩ | ⟨inner, _, same⟩ | ⟨params, same⟩
      · exact .fails (congrArg Prod.snd (taken.trans same))
      · exact .fetches (by simp) (taken.trans same) rfl aim (by simp [Frame.isState])
      · exact .readies ⟨config, given, rfl⟩ (taken.trans same) aim
  | materialize config =>
    rcases s.fetch_cases config [] [.arrange config] _ with ⟨fault, same⟩ | ⟨inner, _, same⟩ | ⟨params, same⟩
    · exact .fails (congrArg Prod.snd same)
    · exact .fetches (by simp) same rfl rfl fun _ => rfl
    · exact .fans rfl (fans_mapEach same rfl rfl fun _ => rfl)
  | mapItem mapping index value =>
    cases called : s.store.mappedCall? mapping index with
    | none => exact .passes ⟨mapping, index, value, rfl⟩ (by simp only [takeStep, called]; rfl)
    | some call => exact .enters ⟨mapping, index, value, rfl⟩ (by simp only [takeStep, called]; rfl)
  | _ => cases starts

theorem snd_place (s : Session) (config : Value) (whole : Bool) (values : List Value) :
    (∃ fault, (s.place config whole values).2 = .fail fault) ∨ (s.place config whole values).2 = .go [] [] := by
  unfold place
  dsimp only
  split
  · exact Or.inl ⟨_, rfl⟩
  · exact Or.inr rfl

theorem snd_followCall (s : Session) (config : Value) (values : List Value) :
    (∃ call given, (s.followCall config values).2 = .go [.invoke call given] []) ∨
      (s.followCall config values).2 = .go [] values := by
  unfold followCall
  dsimp only
  split
  · exact Or.inl ⟨_, _, rfl⟩
  · exact Or.inr rfl

end Session
end Interaction
