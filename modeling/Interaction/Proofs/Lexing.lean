import Interaction.Proofs.Paging
import Interaction.Proofs.Quoting
import Interaction.Proofs.Scanning

/-! The tokens of a text of the format of interchange. The scanner of documents goes through such a text token by token,
and gets stuck where there is a tab between tokens or where a string is cut. -/

namespace Interaction

/-- A computation that succeeds exactly if something holds, and then with a value that is good. -/
structure Settles (x : Except Fault α) (p : Prop) (good : α → Prop) : Prop where
  ok : p → ∃ a, x = .ok a ∧ good a
  error : ¬ p → ∃ fault, x = .error fault

namespace Settles

variable {x : Except Fault α} {f : α → Except Fault β} {p q : Prop} {good finer : α → Prop} {better : β → Prop}

theorem done {a : α} (holds : good a) : Settles (.ok a) True good :=
  ⟨fun _ => ⟨a, rfl, holds⟩, fun fails => absurd trivial fails⟩

theorem bind (settles : Settles x p good) (next : ∀ a, good a → Settles (f a) q better) : Settles (x >>= f) (p ∧ q) better := by
  by_cases holds : p
  · obtain ⟨a, rfl, fine⟩ := settles.ok holds
    have further := next a fine
    exact ⟨fun both => further.ok both.2, fun fails => further.error fun later => fails ⟨holds, later⟩⟩
  · obtain ⟨fault, rfl⟩ := settles.error holds
    exact ⟨fun both => absurd both.1 holds, fun _ => ⟨fault, rfl⟩⟩

theorem mono (settles : Settles x p good) (same : p ↔ q) (stronger : ∀ a, good a → finer a) : Settles x q finer :=
  ⟨fun holds => (settles.ok (same.mpr holds)).imp fun a found => ⟨found.1, stronger a found.2⟩,
    fun fails => settles.error (mt same.mp fails)⟩

end Settles

namespace Document

open Json

namespace Scanner

variable {s t u : Scanner} {p q : Prop} {good better : Scanner → Prop}

/-! ### Going on -/

/-- A scanner that has come to another state by some tokens, no more than there are characters between them. -/
def Goes (s t : Scanner) : Prop :=
  ∃ n, (∀ fuel, s.scanAll (n + fuel) = t.scanAll fuel) ∧ n + t.cursor.rest.length ≤ s.cursor.rest.length

/-- A scanner that comes to no end of the text. -/
def Stuck (s : Scanner) : Prop :=
  ∀ fuel, s.cursor.rest.length < fuel → ¬ (s.scanAll fuel).1.Ended

theorem Goes.trans (first : s.Goes t) (last : t.Goes u) : s.Goes u := by
  obtain ⟨m, further, few⟩ := first
  obtain ⟨n, later, fewer⟩ := last
  exact ⟨m + n, fun fuel => by rw [Nat.add_assoc, further, later], by omega⟩

theorem Goes.step (next : s.scanNext = .ok t) (undone : t.done = false) (less : t.cursor.rest.length < s.cursor.rest.length) :
    s.Goes t := by
  refine ⟨1, fun fuel => ?_, by omega⟩
  rw [Nat.add_comm, scanAll, next]
  simp only [undone, Bool.false_eq_true, if_false]

theorem Stuck.step {fault : Fault} (next : s.scanNext = .error fault) (unended : ¬ s.Ended) : s.Stuck := by
  intro fuel enough
  obtain ⟨fuel, rfl⟩ : ∃ n, fuel = n + 1 := ⟨fuel - 1, by omega⟩
  rw [scanAll, next]
  cases fault <;> exact unended

theorem Stuck.before (goes : s.Goes t) (stuck : t.Stuck) : s.Stuck := by
  obtain ⟨n, further, few⟩ := goes
  intro fuel enough
  obtain ⟨more, rfl⟩ : ∃ m, fuel = n + m := ⟨fuel - n, by omega⟩
  rw [further]
  exact stuck more (by omega)

/-- A scanner that comes to a good state if something holds, and gets stuck otherwise. -/
structure Passes (s : Scanner) (p : Prop) (good : Scanner → Prop) : Prop where
  goes : p → ∃ t, s.Goes t ∧ good t
  stuck : ¬ p → s.Stuck

theorem Passes.bind (passes : s.Passes p good) (next : ∀ t, good t → t.Passes q better) : s.Passes (p ∧ q) better := by
  constructor
  · rintro ⟨holds, further⟩
    obtain ⟨t, goes, fine⟩ := passes.goes holds
    obtain ⟨u, later, finer⟩ := (next t fine).goes further
    exact ⟨u, goes.trans later, finer⟩
  · intro fails
    by_cases holds : p
    · obtain ⟨t, goes, fine⟩ := passes.goes holds
      exact .before goes ((next t fine).stuck fun further => fails ⟨holds, further⟩)
    · exact passes.stuck holds

theorem Passes.mono (passes : s.Passes p good) (same : p ↔ q) (finer : ∀ t, good t → better t) : s.Passes q better :=
  ⟨fun holds => (passes.goes (same.mpr holds)).imp fun t reached => ⟨reached.1, finer t reached.2⟩,
    fun fails => passes.stuck fun holds => fails (same.mp holds)⟩

/-! ### Places between tokens -/

/-- A scanner that has met some tokens, and has a text before it. It may have passed over blanks in front of the text.
Outside of brackets it is in no block. -/
structure At (s : Scanner) (flow : Nat) (ts : List Token) (text : List Char) : Prop where
  rest : ∃ passed, (∀ x ∈ passed, x = ' ' ∨ x = '\n') ∧ Text.unifyBreaks text = passed ++ s.cursor.rest
  flow : s.flow = flow
  tokens : s.slots.toList.flatten = ts
  indent : s.indent = -1
  outer : s.outer = []
  keys : ∀ entry ∈ s.keys, entry.2.required = false
  beyond : s.beyond = none
  done : s.done = false
  unended : ¬ s.Ended

/-- What a token may begin with: no blank, and not the mark of a comment. -/
structure Solid (text : List Char) : Prop where
  space : ∀ x ∈ text.head?, x ≠ ' '
  comment : ∀ x ∈ text.head?, x ≠ '#'
  line : ∀ x ∈ text.head?, isBreak x = false

variable {gap text : List Char} {flow : Nat} {ts : List Token} {bs : List Blank}

theorem gap_layout (blank : ∀ x ∈ gap, x = ' ' ∨ x = '\n') : ∀ x ∈ gap, isLayout x = true := by
  intro x member
  obtain rfl | rfl := blank x member <;> rfl

theorem Solid.takeBreak? (solid : Solid text) {c : Cursor} (rest : c.rest = text) : c.takeBreak? = none := by
  cases text with
  | nil => unfold Cursor.takeBreak? Cursor.head; rw [rest]; rfl
  | cons x text => rw [Cursor.takeBreak?_of_rest rest, solid.line x rfl]; rfl

theorem skipSpaces_gap {c : Cursor} {spaces : List Char} (spaced : ∀ x ∈ spaces, x = ' ') (found : c.rest = spaces ++ text)
    (stop : ∀ x ∈ text.head?, x ≠ ' ' ∧ x ≠ '#') : c.skipSpaces.skipComment = c.skip spaces.length := by
  have run := Cursor.span_of_rest (p := (· = ' ')) found (by simpa using spaced) fun x first => by simpa using (stop x first).1
  have rest : (c.skip spaces.length).rest = text := by rw [Cursor.skip_rest, found, List.drop_left]
  rw [Cursor.skipSpaces, run, Cursor.skipComment, if_neg]
  rw [Cursor.starts, Cursor.head, rest, decide_eq_true_eq]
  exact fun comment => (stop '#' (by rw [comment]; rfl)).2 rfl

theorem toNextToken_gap {fuel : Nat} (blank : ∀ x ∈ gap, x = ' ' ∨ x = '\n') (solid : Solid text)
    (rest : s.cursor.rest = gap ++ text) (enough : gap.length < fuel) : ∃ allowed, (s.keyAllowed = true → allowed = true) ∧
      s.toNextToken fuel = { s with cursor := s.cursor.skip gap.length, keyAllowed := allowed } := by
  -- Each round passes over the spaces of one line and the break that ends it.
  induction fuel generalizing s gap with
  | zero => omega
  | succ fuel ih =>
    unfold toNextToken
    obtain spaced | ⟨spaces, b, more, rfl, spaced, line, -⟩ := layout_split gap (gap_layout blank)
    · rw [skipSpaces_gap spaced rest fun x first => ⟨solid.space x first, solid.comment x first⟩]
      dsimp only
      rw [solid.takeBreak? (by rw [Cursor.skip_rest, rest, List.drop_left])]
      exact ⟨s.keyAllowed, id, rfl⟩
    · rw [List.append_assoc] at rest
      rw [skipSpaces_gap spaced rest]
      · dsimp only
        have next : (s.cursor.skip spaces.length).rest = b :: (more ++ text) := by rw [Cursor.skip_rest, rest, List.drop_left]; rfl
        rw [Cursor.takeBreak?_of_rest next, if_pos line]
        dsimp only
        have later : ∀ x ∈ more, x = ' ' ∨ x = '\n' := fun x member => blank x (by simp [member])
        rw [Cursor.skip_skip]
        obtain ⟨allowed, still, reached⟩ := ih
          (s := { s with cursor := s.cursor.skip (spaces.length + 1), keyAllowed := s.keyAllowed || s.flow = 0 }) later
          (by simp [rest]) (by simp at enough; omega)
        refine ⟨allowed, fun before => still (by simp [before]), ?_⟩
        rw [reached, Cursor.skip_skip, List.length_append, List.length_cons]
        rw [show spaces.length + 1 + more.length = spaces.length + (more.length + 1) by omega]
      · rintro x ⟨⟩
        constructor
        · rintro rfl; cases line
        · rintro rfl; cases line

theorem unifyBreaks_mem {x : Char} {cs : List Char} (member : x ∈ Text.unifyBreaks cs) : x = '\n' ∨ x ∈ cs ∧ x ≠ '\r' := by
  induction cs using Text.unifyBreaks.induct with
  | case1 rest ih =>
    rw [Text.unifyBreaks, List.mem_cons] at member
    obtain rfl | later := member
    · exact .inl rfl
    · exact (ih later).imp_right fun inside => ⟨by simp [inside.1], inside.2⟩
  | case2 rest single ih =>
    simp only [Text.unifyBreaks, List.mem_cons] at member
    obtain rfl | later := member
    · exact .inl rfl
    · exact (ih later).imp_right fun inside => ⟨by simp [inside.1], inside.2⟩
  | case3 c rest plain lone ih =>
    rw [Text.unifyBreaks_cons lone, List.mem_cons] at member
    obtain rfl | later := member
    · exact .inr ⟨List.mem_cons_self, lone⟩
    · exact (ih later).imp_right fun inside => ⟨by simp [inside.1], inside.2⟩
  | case4 => cases member

theorem unifyBreaks_blank (tabless : .tab ∉ bs) : ∀ x ∈ Text.unifyBreaks (blank bs), x = ' ' ∨ x = '\n' := by
  intro x member
  obtain rfl | ⟨inside, other⟩ := unifyBreaks_mem member
  · exact .inr rfl
  · obtain ⟨b, among, rfl⟩ := List.mem_map.mp inside
    cases b with
    | space => exact .inl rfl
    | tab => exact absurd among tabless
    | feed => exact .inr rfl
    | carriage => exact absurd rfl other

theorem unifyBreaks_gap (solid : Solid text) : Text.unifyBreaks (blank bs ++ text) = Text.unifyBreaks (blank bs) ++ Text.unifyBreaks text := by
  refine Text.unifyBreaks_append (.inr fun feed => ?_)
  have := solid.line '\n' feed
  cases this

theorem unifyBreaks_solid {cs : List Char} (bare : '\r' ∉ cs) (text : List Char) :
    Text.unifyBreaks (cs ++ text) = cs ++ Text.unifyBreaks text := by
  induction cs with
  | nil => rfl
  | cons c cs ih =>
    obtain ⟨other, later⟩ := not_or.mp (mt List.mem_cons.mpr bare)
    rw [List.cons_append, Text.unifyBreaks_cons (Ne.symm other), ih later]
    rfl

/-- What is unified begins with the same character, unless that is a line end. -/
theorem Solid.unify (solid : Solid text) (bare : text.head? ≠ some '\r') : Solid (Text.unifyBreaks text) := by
  cases text with
  | nil => exact solid
  | cons c text =>
    rw [Text.unifyBreaks_cons (by simpa using bare)]
    exact ⟨solid.space, solid.comment, solid.line⟩

/-- Where a text begins with blanks that have been passed over in part, the others can be passed over. -/
theorem split_gap {passed rest : List Char} (blank : ∀ x ∈ gap, x = ' ' ∨ x = '\n') (solid : Solid text)
    (passes : ∀ x ∈ passed, x = ' ' ∨ x = '\n') (same : gap ++ text = passed ++ rest) :
    ∃ left, gap = passed ++ left ∧ rest = left ++ text := by
  obtain ⟨more, rfl, rfl⟩ | ⟨left, rfl, rfl⟩ := List.append_eq_append_iff.mp same
  · cases more with
    | nil => exact ⟨[], by simp, by simp⟩
    | cons x more =>
      have first := solid.space x rfl
      have line := solid.line x rfl
      obtain rfl | rfl := passes x (by simp)
      · exact absurd rfl first
      · cases line
  · exact ⟨left, rfl, rfl⟩

/-- A scanner that has passed over the blanks in front of a token. -/
structure Arrives (s t : Scanner) (text : List Char) : Prop where
  moved : ∃ n, n ≤ s.cursor.rest.length ∧ t.cursor = s.cursor.skip n
  rest : t.cursor.rest = Text.unifyBreaks text
  slots : t.slots = s.slots
  allowed : s.keyAllowed = true → t.keyAllowed = true
  keys : t.keys = s.keys.filter fun entry => !t.isStale entry.2
  next : s.scanNext = t.cursor.head.elim t.scanEnd fun c => t.scanAt c >>= fun u => u.checkEnd >>= fun _ => pure u

theorem unwind_outside (outer : s.outer = []) (column : Int) : s.unwind column = s := by
  rw [unwind, outer]
  rfl

theorem checkEnd_none (beyond : s.beyond = none) : s.checkEnd = .ok () := by
  unfold checkEnd
  rw [beyond]
  split
  next same => cases same
  next => rfl

/-- What comes before the next token: the blanks in front of it are passed over. -/
theorem At.arrives (place : s.At flow ts (blank bs ++ text)) (tabless : .tab ∉ bs) (solid : Solid text)
    (bare : text.head? ≠ some '\r') : ∃ t : Scanner, t.At flow ts text ∧ s.Arrives t text := by
  obtain ⟨passed, passes, same⟩ := place.rest
  rw [unifyBreaks_gap solid] at same
  obtain ⟨gap, whole, rest⟩ := split_gap (unifyBreaks_blank tabless) (solid.unify bare) passes same
  have blank : ∀ x ∈ gap, x = ' ' ∨ x = '\n' := fun x member => unifyBreaks_blank tabless x (by rw [whole]; simp [member])
  have enough : gap.length < s.cursor.rest.length + 1 := by rw [rest, List.length_append]; omega
  obtain ⟨allowed, still, reached⟩ := toNextToken_gap blank (solid.unify bare) rest enough
  let t : Scanner :=
    { s with
      cursor := s.cursor.skip gap.length
      keyAllowed := allowed
      keys := s.keys.filter fun entry => !isStale { s with cursor := s.cursor.skip gap.length } entry.2 }
  have there : t.cursor.rest = Text.unifyBreaks text := by
    show (s.cursor.skip gap.length).rest = _
    rw [Cursor.skip_rest, rest, List.drop_left]
  refine ⟨t, ⟨⟨[], nofun, there.symm⟩, place.flow, place.tokens, place.indent, place.outer,
    fun entry member => place.keys entry (List.mem_filter.mp member).1, place.beyond, place.done, place.unended⟩, ⟨gap.length, ?_, rfl⟩,
    there, rfl, still, rfl, ?_⟩
  · rw [rest, List.length_append]; omega
  · have fresh : dropStale { s with cursor := s.cursor.skip gap.length, keyAllowed := allowed } = .ok t := by
      rw [dropStale, if_neg]
      · rfl
      · simp only [List.any_eq_true, not_exists, not_and]
        intro entry member stale
        rw [place.keys entry member, Bool.and_false] at stale
        cases stale
    have ends : checkEnd { s with cursor := s.cursor.skip gap.length, keyAllowed := allowed } = .ok () :=
      checkEnd_none place.beyond
    have outside : t.unwind t.cursor.column = t := unwind_outside (s := t) place.outer _
    unfold scanNext
    simp only [reached, bind, Except.bind, fresh, ends, outside]
    cases t.cursor.head <;> rfl

theorem atSeparator_other {c mark : Char} (head : t.cursor.head = some c) (other : c ≠ mark) :
    t.cursor.atSeparator mark = false := by
  have first : t.cursor.peek 0 = some c := by rw [← head, Cursor.peek, Cursor.head, List.head?_eq_getElem?]
  rw [Cursor.atSeparator, first]
  simp [other]

theorem scanAt_tab (head : t.cursor.head = some '\t') : t.scanAt '\t' = refuse := by
  unfold scanAt
  simp only [atSeparator_other head (by decide : '\t' ≠ '-'), atSeparator_other head (by decide : '\t' ≠ '.')]
  simp [beginsPlain, endsWord]

theorem Arrives.head {c : Char} (arrives : s.Arrives t (c :: text)) (bare : c ≠ '\r') : t.cursor.head = some c :=
  Cursor.head_of_rest (arrives.rest.trans (Text.unifyBreaks_cons bare text))

theorem Arrives.length (arrives : s.Arrives t text) : (Text.unifyBreaks text).length ≤ s.cursor.rest.length := by
  obtain ⟨n, -, moved⟩ := arrives.moved
  rw [← arrives.rest, moved, Cursor.skip_rest, List.length_drop]
  exact Nat.sub_le _ _

/-- A state after a token from which the scanner goes on. -/
structure Ready (u : Scanner) (text : List Char) : Prop where
  beyond : u.beyond = none
  done : u.done = false
  behind : u.cursor.rest <:+ Text.unifyBreaks text

theorem At.tabbed (place : s.At flow ts (blank bs ++ text)) (tab : .tab ∈ bs) : s.Stuck := by
  obtain ⟨before, after, rfl, first⟩ := List.eq_append_cons_of_mem tab
  have split : blank (before ++ .tab :: after) ++ text = blank before ++ '\t' :: (blank after ++ text) := by
    simp [blank, Blank.char]
  rw [split] at place
  obtain ⟨t, there, arrives⟩ := place.arrives first ⟨by simp, by simp, by rintro x ⟨⟩; rfl⟩ (by simp)
  have next := arrives.next
  have head := arrives.head (by decide)
  rw [head] at next
  have failed : s.scanNext = .error .badDocument := by
    rw [next]
    simp only [Option.elim, scanAt_tab head]
    rfl
  exact .step failed place.unended

theorem At.passes {c : Char} (place : s.At flow ts (blank bs ++ c :: text)) (solid : Solid (c :: text)) (bare : c ≠ '\r')
    (settles : ∀ t : Scanner, t.At flow ts (c :: text) → s.Arrives t (c :: text) →
      Settles (t.scanAt c) p fun u => good u ∧ u.Ready text) : s.Passes (.tab ∉ bs ∧ p) good := by
  by_cases tabless : .tab ∉ bs
  · obtain ⟨t, there, arrives⟩ := place.arrives tabless solid (by simpa using bare)
    have settles := settles t there arrives
    have next := arrives.next
    rw [arrives.head bare] at next
    constructor
    · rintro ⟨-, holds⟩
      obtain ⟨u, scanned, fine, ready⟩ := settles.ok holds
      have less := arrives.length
      rw [Text.unifyBreaks_cons bare] at less
      have fewer := ready.behind.length_le
      refine ⟨u, .step ?_ ready.done (by simp only [List.length_cons] at less; omega), fine⟩
      rw [next]
      simp only [Option.elim, scanned, bind, Except.bind, checkEnd_none ready.beyond]
      rfl
    · intro fails
      obtain ⟨fault, scanned⟩ := settles.error fun holds => fails ⟨tabless, holds⟩
      have failed : s.scanNext = .error fault := by
        rw [next]
        simp only [Option.elim, scanned, bind, Except.bind]
      exact .step failed place.unended
  · exact ⟨fun holds => absurd holds.1 tabless, fun _ => place.tabbed (not_not.mp tabless)⟩

/-! ### Keys -/

theorem dropKey_at (place : t.At flow ts text) : ∃ keys, (∀ entry ∈ keys, entry ∈ t.keys ∧ entry.1 ≠ flow) ∧
    t.dropKey = .ok { t with keys } := by
  have flow := place.flow
  subst flow
  unfold dropKey
  cases found : t.keys.lookup t.flow with
  | some key =>
    obtain ⟨before, after, whole, -⟩ := List.lookup_eq_some_iff.mp found
    have optional : key.required = false := place.keys (t.flow, key) (by rw [whole]; simp)
    refine ⟨t.keys.filter fun entry => entry.1 ≠ t.flow, fun entry member => ?_, ?_⟩
    · exact ⟨(List.mem_filter.mp member).1, by simpa using (List.mem_filter.mp member).2⟩
    · simp [optional]
  | none =>
    refine ⟨t.keys, fun entry member => ⟨member, fun same => ?_⟩, rfl⟩
    have := List.lookup_eq_none_iff.mp found entry member
    simp [same] at this

theorem saveKey_at (place : t.At flow ts text) : ∃ keys, (∀ entry ∈ keys, entry.2.required = false) ∧
    t.saveKey = .ok { t with keys } ∧ (t.keyAllowed = true → ∃ key others, keys = (flow, key) :: others ∧
      (∀ entry ∈ others, entry.1 ≠ flow) ∧ key.slot = t.slots.size ∧ key.index = t.cursor.index ∧
        key.line = t.cursor.line) := by
  unfold saveKey
  by_cases allowed : t.keyAllowed = true
  · obtain ⟨keys, kept, dropped⟩ := dropKey_at place
    have optional : (t.flow = 0 && t.indent = t.cursor.column) = false := by
      rw [place.indent, Bool.and_eq_false_iff]
      exact .inr (decide_eq_false (by omega))
    let key : PossibleKey :=
      { slot := t.slots.size, required := false, index := t.cursor.index, line := t.cursor.line, column := t.cursor.column }
    refine ⟨(flow, key) :: keys, ?_, ?_, fun _ => ⟨key, keys, rfl, fun entry member => (kept entry member).2, rfl, rfl, rfl⟩⟩
    · exact List.forall_mem_cons.mpr ⟨rfl, fun entry member => place.keys entry (kept entry member).1⟩
    · simp only [if_pos allowed, dropped, optional, ← place.flow]
      rfl
  · exact ⟨t.keys, place.keys, if_neg allowed, fun holds => absurd holds allowed⟩

/-! ### Brackets and commas -/

theorem flatten_push (slots : Array (List Token)) (new : List Token) :
    (slots.push new).toList.flatten = slots.toList.flatten ++ new := by
  simp

theorem At.marked {c : Char} {token : Token} {keys : List (Nat × PossibleKey)} (place : t.At flow ts (c :: text))
    (other : token ≠ .streamEnd) (rest : t.cursor.rest = c :: Text.unifyBreaks text)
    (optional : ∀ entry ∈ keys, entry.2.required = false) (next : Nat) (allowed : Bool) :
    ((skip { t with flow := next, keyAllowed := allowed, keys } 1).emit token).At next (ts ++ [token]) text ∧
      ((skip { t with flow := next, keyAllowed := allowed, keys } 1).emit token).Ready text := by
  have there : (t.cursor.skip 1).rest = Text.unifyBreaks text := by rw [Cursor.skip_rest, rest]; rfl
  refine ⟨⟨⟨[], nofun, there.symm⟩, rfl, ?_, place.indent, place.outer, optional, place.beyond, place.done, ?_⟩,
    ⟨place.beyond, place.done, there ▸ List.suffix_rfl⟩⟩
  · exact (flatten_push _ _).trans (by rw [← place.tokens]; rfl)
  · exact fun ended => place.unended (ended_emit (skip { t with flow := next, keyAllowed := allowed, keys } 1) other ended)

/-- The characters that are tokens by themselves. -/
def marks : List Char :=
  ['[', ']', '\x7b', '\x7d', ',']

theorem marks_solid : ∀ c ∈ marks, c ≠ ' ' ∧ c ≠ '#' ∧ isBreak c = false ∧ c ≠ '\r' ∧ c ≠ '-' ∧ c ≠ '.' :=
  List.all_iff_forall_prop.mp (by decide)

theorem At.meets {c : Char} {token : Token} {next : Nat} {allowed : Bool} (place : s.At flow ts (blank bs ++ c :: text))
    (mark : c ∈ marks) (other : token ≠ .streamEnd) (scans : ∀ t : Scanner, t.At flow ts (c :: text) → t.cursor.atSeparator '-' = false →
      t.cursor.atSeparator '.' = false → ∃ keys, (∀ entry ∈ keys, entry.2.required = false) ∧
        t.scanAt c = .ok ((skip { t with flow := next, keyAllowed := allowed, keys := keys } 1).emit token)) :
    s.Passes (.tab ∉ bs) fun t => t.At next (ts ++ [token]) text ∧ t.keyAllowed = allowed := by
  obtain ⟨space, comment, line, bare, dash, dot⟩ := marks_solid c mark
  have solid : Solid (c :: text) :=
    ⟨by rintro x ⟨⟩; exact space, by rintro x ⟨⟩; exact comment, by rintro x ⟨⟩; exact line⟩
  refine (place.passes (p := True) solid bare fun t there arrives => ⟨fun _ => ?_, fun fails => absurd trivial fails⟩).mono
    (and_iff_left trivial) fun _ => id
  have head := arrives.head bare
  obtain ⟨keys, optional, scanned⟩ := scans t there (atSeparator_other head dash) (atSeparator_other head dot)
  obtain ⟨after, ready⟩ := there.marked other (arrives.rest.trans (Text.unifyBreaks_cons bare text)) optional next allowed
  exact ⟨_, scanned, ⟨after, rfl⟩, ready⟩

theorem opening_passes {c : Char} {token : Token} (place : s.At flow ts (blank bs ++ c :: text))
    (mark : c = '[' ∧ token = .flowSequenceStart ∨ c = '\x7b' ∧ token = .flowMappingStart) :
    s.Passes (.tab ∉ bs) fun t => t.At (flow + 1) (ts ++ [token]) text ∧ t.keyAllowed = true := by
  refine place.meets (by obtain ⟨rfl, -⟩ | ⟨rfl, -⟩ := mark <;> decide)
      (by obtain ⟨-, rfl⟩ | ⟨-, rfl⟩ := mark <;> decide) fun t there dashes dots => ?_
  obtain ⟨keys, optional, saved, -⟩ := saveKey_at there
  refine ⟨keys, optional, ?_⟩
  have scanned : t.scanAt c = t.scanOpening token := by
    unfold scanAt
    obtain ⟨rfl, rfl⟩ | ⟨rfl, rfl⟩ := mark <;> simp [dashes, dots]
  rw [scanned, scanOpening, saved, ← there.flow]
  rfl

theorem closing_passes {c : Char} {token : Token} (place : s.At (flow + 1) ts (blank bs ++ c :: text))
    (mark : c = ']' ∧ token = .flowSequenceEnd ∨ c = '\x7d' ∧ token = .flowMappingEnd) :
    s.Passes (.tab ∉ bs) fun t => t.At flow (ts ++ [token]) text := by
  have passes : s.Passes (.tab ∉ bs) fun t => t.At flow (ts ++ [token]) text ∧ t.keyAllowed = false := by
    refine place.meets (by obtain ⟨rfl, -⟩ | ⟨rfl, -⟩ := mark <;> decide)
      (by obtain ⟨-, rfl⟩ | ⟨-, rfl⟩ := mark <;> decide) fun t there dashes dots => ?_
    obtain ⟨keys, kept, dropped⟩ := dropKey_at there
    refine ⟨keys, fun entry member => there.keys entry (kept entry member).1, ?_⟩
    have scanned : t.scanAt c = t.scanClosing token := by
      unfold scanAt
      obtain ⟨rfl, rfl⟩ | ⟨rfl, rfl⟩ := mark <;> simp [dashes, dots]
    have flow : t.flow - 1 = flow := by rw [there.flow]; rfl
    rw [scanned, scanClosing, dropped, ← flow]
    rfl
  exact passes.mono .rfl fun _ => And.left

theorem comma_passes (place : s.At flow ts (blank bs ++ ',' :: text)) :
    s.Passes (.tab ∉ bs) fun t => t.At flow (ts ++ [.flowEntry]) text ∧ t.keyAllowed = true := by
  refine place.meets (by decide) (by decide) fun t there dashes dots => ?_
  have same : At { t with keyAllowed := true } flow ts (',' :: text) :=
    ⟨there.rest, there.flow, there.tokens, there.indent, there.outer, there.keys, there.beyond, there.done,
      there.unended⟩
  obtain ⟨keys, kept, dropped⟩ := dropKey_at same
  refine ⟨keys, fun entry member => there.keys entry (kept entry member).1, ?_⟩
  have scanned : t.scanAt ',' = t.scanComma := by
    unfold scanAt
    simp [dashes, dots]
  rw [scanned, scanComma, dropped, ← there.flow]
  rfl

end Scanner

end Document

end Interaction
