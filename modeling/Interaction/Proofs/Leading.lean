import Interaction.Proofs.Effects

/-! What a step leaves before its task. The steps of all kinds are looked into here, once; what
keeps to a kind of steps is read off the cases. -/

namespace Interaction

namespace Session

/-- The steps that a step leaves before its task, with what it has found to go on so. -/
inductive Leading (s : Session) (values : List Value) : Frame → List Frame → Prop where
  | derive {config given inner : Value} {target : Target} (aimed : s.coordinator.target s.store config = .ok target)
      (source : s.store.source (s.store.field config "parameters") = .derived inner) :
      Leading s values (.invoke config given) [.invoke inner .null, .map target]
  | aim {config given : Value} {target : Target} (aimed : s.coordinator.target s.store config = .ok target) :
      Leading s values (.invoke config given) [.map target]
  | map {target : Target} : Leading s values (.map target) [.call target]
  | promise {target : Target} {id : Nat} (replied : s.reply target values = .promise id) :
      Leading s values (.call target) [.follow target.config]
  | steps {target : Target} {late : List Frame} (replied : s.reply target values = .steps late) :
      Leading s values (.call target) (late ++ [.follow target.config])
  | result {config : Value} (mapping : s.store.isMapping (s.store.field config "resultMapping") = true) :
      Leading s values (.follow config) [.invoke (s.store.field config "resultMapping") (.tuple values)]
  | follow {config : Value} : Leading s values (.follow config) []
  | item {mapping value config : Value} {index : Nat} (found : s.store.mappedCall? mapping index = some config) :
      Leading s values (.mapItem mapping index value) [.invoke config (.tuple [value])]
  | pass {mapping value : Value} {index : Nat} : Leading s values (.mapItem mapping index value) []
  | situate {config inner : Value} (source : s.store.source (s.store.field config "parameters") = .derived inner) :
      Leading s values (.materialize config) [.invoke inner .null, .arrange config]
  | materialize {config : Value} : Leading s values (.materialize config) [.place config false]
  | arrange {config : Value} (whole : Bool) : Leading s values (.arrange config) [.place config whole]
  | place {config : Value} {whole : Bool} : Leading s values (.place config whole) []
  | await {promise : Nat} : Leading s values (.await promise) []
  | enter {target : Value} : Leading s values (.enterState target) []
  | pause : Leading s values .pause []
  | act {action : Action} {request : Request} : Leading s values (.act action request) []
  | drained : Leading s values .drain []
  | drain : Leading s values .drain [.drain]
  | ask : Leading s values .ask [.hear]
  | heard {text : String} : Leading s values .hear [.line text, .onward]
  | silence : Leading s values .hear [.stop]
  | line {text : String} : Leading s values (.line text) []
  | command {text : String} : Leading s values (.line text) [.drain, .announce]
  | again : Leading s values .onward [.ask]
  | enough : Leading s values .onward [.stop]
  | announce : Leading s values .announce []
  | stop : Leading s values .stop [.drain, .stopped]
  | stopped : Leading s values .stopped []

variable {s : Session} {values : List Value} {next : List Frame} {supply : Supply}

theorem stand?_mapEach {mapping : Value} {frames : List Frame}
    (stand : (s.mapEach mapping values frames).2.stand? = some (next, supply)) : next = frames := by
  rw [mapEach_eq] at stand
  split at stand <;> cases stand <;> rfl

theorem stand?_fetch {config : Value} {given : List Value} {derived : List Frame}
    {go : Session → List Value → Session × Move}
    (stand : (s.fetch config given derived go).2.stand? = some (next, supply)) :
    (∃ inner, s.store.source (s.store.field config "parameters") = .derived inner ∧ next = .invoke inner .null :: derived) ∨
      ∃ values, (go s values).2.stand? = some (next, supply) := by
  rcases s.fetch_cases config given derived go with ⟨fault, same⟩ | ⟨inner, source, same⟩ | ⟨values, same⟩ <;> rw [same] at stand
  · cases stand
  · cases stand
    exact Or.inl ⟨inner, source, rfl⟩
  · exact Or.inr ⟨values, stand⟩

theorem leading_invoke {config given : Value} (stand : (s.invoke config given).2.stand? = some (next, supply)) :
    s.Leading values (.invoke config given) next := by
  unfold invoke at stand
  split at stand
  · cases stand
  next target aimed =>
    rcases stand?_fetch stand with ⟨inner, source, rfl⟩ | ⟨values, direct⟩
    · exact .derive aimed source
    · cases direct
      exact .aim aimed

theorem leading_call {target : Target} (stand : (s.callTarget target values).2.stand? = some (next, supply)) :
    s.Leading values (.call target) next := by
  rw [snd_callTarget] at stand
  split at stand
  next id replied =>
    cases stand
    exact .promise replied
  next late replied =>
    cases stand
    exact .steps replied
  · cases stand
  · cases stand

theorem leading_afterLine {line text : String} {result : Session × Except Fault Unit}
    (stand : (afterLine line result).2.stand? = some (next, supply)) : s.Leading values (.line text) next := by
  unfold afterLine at stand
  split at stand
  · cases stand
    exact .command
  · split at stand <;> cases stand
    exact .command

theorem leading_line {text : String} (stand : (s.handleLine text).2.stand? = some (next, supply)) :
    s.Leading values (.line text) next := by
  unfold handleLine at stand
  dsimp only at stand
  split at stand
  · cases stand; exact .line
  · split at stand
    · cases stand; exact .line
    · cases stand; exact .line
    · exact leading_afterLine stand
    · exact leading_afterLine stand
    · cases stand; exact .command
    · cases stand; exact .command
    · exact leading_afterLine stand

/-- A task goes on after its step in one of these ways. -/
theorem leading_step {frame : Frame} (stand : (s.takeStep frame values).2.stand? = some (next, supply)) :
    s.Leading values frame next := by
  cases frame with
  | invoke config given => exact leading_invoke stand
  | map target =>
    rw [stand?_mapEach stand]
    exact .map
  | call target => exact leading_call stand
  | follow config =>
    simp only [takeStep, followCall] at stand
    split at stand <;> cases stand
    next mapping => exact .result mapping
    · exact .follow
  | mapItem mapping index value =>
    simp only [takeStep] at stand
    split at stand <;> cases stand
    next config found => exact .item found
    · exact .pass
  | materialize config =>
    rcases stand?_fetch stand with ⟨inner, source, rfl⟩ | ⟨given, direct⟩
    · exact .situate source
    · rw [stand?_mapEach direct]
      exact .materialize
  | arrange config =>
    rw [takeStep] at stand
    rcases s.arrange_cases config values with same | ⟨items, same⟩ <;> rw [same] at stand
    · cases stand
      exact .arrange true
    · rw [stand?_mapEach stand]
      exact .arrange false
  | place config whole =>
    simp only [takeStep, Session.place] at stand
    split at stand <;> cases stand
    exact .place
  | await promise => cases stand; exact .await
  | enterState target =>
    simp only [takeStep] at stand
    split at stand <;> cases stand <;> exact .enter
  | pause => cases stand; exact .pause
  | act action request =>
    simp only [takeStep] at stand
    split at stand <;> cases stand
    exact .act
  | drain =>
    simp only [takeStep, Session.drain] at stand
    split at stand <;> cases stand
    · exact .drained
    · exact .drain
  | ask => cases stand; exact .ask
  | hear =>
    simp only [takeStep] at stand
    split at stand <;> cases stand
    · exact .heard
    · exact .silence
  | line text => exact leading_line stand
  | onward =>
    simp only [takeStep] at stand
    split at stand <;> cases stand
    · exact .again
    · exact .enough
  | announce => cases stand; exact .announce
  | stop =>
    simp only [takeStep] at stand
    split at stand <;> cases stand
    exact .stop
  | stopped => cases stand; exact .stopped
  | fail fault => cases stand

theorem Leading.late {frame : Frame} (leading : s.Leading values frame next) (late : frame.isLate = true) : next = [] := by
  cases leading <;> first | rfl | cases late

end Session

end Interaction
