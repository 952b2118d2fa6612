import Interaction.Proofs.Lexing
import Interaction.Proofs.Reckoning

/-! The words of a text of the format of interchange as tokens: strings, which may be keys, and words without quotes,
which end where the next token begins. -/

namespace Interaction

namespace Json

variable {ps : List Piece}

/-! ### What strings are written with -/

theorem hexDigit_bare : ∀ (value : Fin 16) (capital : Bool), HexDigit.char ⟨value, capital⟩ ≠ '\r' := by
  decide

theorem escapes_bare : ∀ letter ∈ escapes, letter.1 ≠ '\r' := by
  decide

theorem Piece.bare (p : Piece) : '\r' ∉ p.chars := by
  cases p with
  | plain c fits =>
    rw [Piece.chars, List.mem_singleton]
    rintro rfl
    cases fits
  | escape letter known => simpa [Piece.chars, eq_comm] using escapes_bare letter known
  | unit code =>
    have digit (d : HexDigit) : '\r' ≠ d.char := (hexDigit_bare d.value d.capital).symm
    simp [Piece.chars, digit]

theorem quoted_bare (ps : List Piece) : '\r' ∉ quoted ps := by
  simp only [quoted, List.mem_cons, List.mem_append, written, List.mem_flatMap, not_or, not_exists, not_and]
  exact ⟨by decide, fun p _ => p.bare, by decide, List.not_mem_nil⟩

theorem quoted_breaks (ps : List Piece) : (quoted ps).countP Document.isBreak = (written ps).countP Document.isBreak := by
  rw [quoted, List.countP_cons_of_neg (by decide), List.countP_append, List.countP_singleton, if_neg (by decide), Nat.add_zero]

end Json

namespace Document

open Json

namespace Cursor

theorem next_of_rest {c : Cursor} {ch : Char} {rest : List Char} (found : c.rest = ch :: rest) :
    c.next.index = c.index + 1 ∧ c.next.line = c.line + [ch].countP isBreak := by
  rw [List.countP_singleton]
  unfold next
  rw [found]
  dsimp only
  split_ifs <;> exact ⟨rfl, rfl⟩

theorem skip_of_rest {c : Cursor} {cs tail : List Char} (found : c.rest = cs ++ tail) :
    (c.skip cs.length).index = c.index + cs.length ∧ (c.skip cs.length).line = c.line + cs.countP isBreak := by
  induction cs generalizing c with
  | nil => exact ⟨rfl, rfl⟩
  | cons ch cs ih =>
    obtain ⟨index, line⟩ := next_of_rest found
    obtain ⟨further, lines⟩ := ih (c := c.next) (by rw [Cursor.next_rest, found]; rfl)
    refine ⟨by rw [List.length_cons, skip]; omega, ?_⟩
    show (c.next.skip cs.length).line = c.line + ([ch] ++ cs).countP isBreak
    rw [lines, line, List.countP_append, Nat.add_assoc]

end Cursor

namespace Scanner

variable {s t u : Scanner} {flow : Nat} {ts : List Token} {bs : List Blank} {ps : List Piece} {text : List Char}

/-! ### Strings -/

/-- The token of a string. -/
def stringToken (ps : List Piece) : Token :=
  .scalar (Text.ofPoints ((folded ps).getD [])) false

/-- A scanner that has just met a string. Where a key was allowed, it knows where the string begins. -/
structure Behind (s : Scanner) (allowed : Bool) (flow : Nat) (ts : List Token) (ps : List Piece) (text : List Char) : Prop where
  place : s.At flow (ts ++ [stringToken ps]) text
  rest : s.cursor.rest = Text.unifyBreaks text
  slots : ∃ before : Array (List Token), s.slots = before.push [stringToken ps] ∧ before.toList.flatten = ts
  key : allowed = true → ∃ key others, s.keys = (flow, key) :: others ∧ (∀ entry ∈ others, entry.1 ≠ flow) ∧
    s.slots.size = key.slot + 1 ∧ s.cursor.index = key.index + (quoted ps).length ∧
      s.cursor.line = key.line + (written ps).countP isBreak

theorem string_solid (ps : List Piece) (text : List Char) : Solid (quoted ps ++ text) :=
  ⟨by rintro x ⟨⟩; decide, by rintro x ⟨⟩; decide, by rintro x ⟨⟩; decide⟩

theorem scanAt_quote (head : t.cursor.head = some '"') : t.scanAt '"' = t.scanQuoted '"' := by
  have dashes := atSeparator_other head (by decide : '"' ≠ '-')
  have dots := atSeparator_other head (by decide : '"' ≠ '.')
  unfold scanAt
  simp [dashes, dots]

theorem scanQuoted_settles (there : t.At flow ts (quoted ps ++ text)) (rest : t.cursor.rest = quoted ps ++ Text.unifyBreaks text) :
    Settles (t.scanQuoted '"') (folded ps).isSome fun u => u.Behind t.keyAllowed flow ts ps text := by
  obtain ⟨keys, optional, saved, begun⟩ := saveKey_at there
  have scanned := quotedScalar_quoted rest
  unfold scanQuoted scanWith
  rw [saved]
  simp only [bind, Except.bind, scanned]
  cases taken : folded ps with
  | none => exact ⟨nofun, fun _ => ⟨_, rfl⟩⟩
  | some found =>
    refine ⟨fun _ => ⟨_, rfl, ?_⟩, fun fails => absurd rfl fails⟩
    have token : stringToken ps = .scalar (Text.ofPoints found) false := by rw [stringToken, taken]; rfl
    have after : (t.cursor.skip (quoted ps).length).rest = Text.unifyBreaks text := by
      rw [Cursor.skip_rest, rest, List.drop_left]
    obtain ⟨index, line⟩ := Cursor.skip_of_rest rest
    refine ⟨⟨⟨[], nofun, after.symm⟩, there.flow, ?_, there.indent, there.outer, optional, there.beyond, there.done, ?_⟩,
      after, ⟨t.slots, by rw [token]; rfl, there.tokens⟩, fun allowed => ?_⟩
    · exact (flatten_push _ _).trans (by rw [there.tokens, token])
    · exact fun ended => there.unended (ended_emit _ (by nofun) ended)
    · obtain ⟨key, others, here, apart, slot, start, begins⟩ := begun allowed
      refine ⟨key, others, here, apart, ?_, ?_, ?_⟩
      · exact (Array.size_push _).trans (by rw [slot])
      · rw [start]; exact index
      · rw [begins, ← quoted_breaks]; exact line

theorem string_passes (place : s.At flow ts (blank bs ++ (quoted ps ++ text))) :
    s.Passes (.tab ∉ bs ∧ (folded ps).isSome) fun u => ∃ allowed, (s.keyAllowed = true → allowed = true) ∧
      u.Behind allowed flow ts ps text := by
  refine place.passes (string_solid ps text) (by decide) fun t there arrives => ?_
  have rest : t.cursor.rest = quoted ps ++ Text.unifyBreaks text :=
    arrives.rest.trans (unifyBreaks_solid (quoted_bare ps) text)
  rw [scanAt_quote (arrives.head (by decide))]
  have settles := scanQuoted_settles there rest
  refine ⟨fun holds => ?_, settles.error⟩
  obtain ⟨u, scanned, behind⟩ := settles.ok holds
  refine ⟨u, scanned, ⟨_, arrives.allowed, behind⟩, behind.place.beyond, behind.place.done, ?_⟩
  rw [behind.rest]
  have whole : Text.unifyBreaks (quoted ps ++ text) = quoted ps ++ Text.unifyBreaks text := unifyBreaks_solid (quoted_bare ps) text
  have tail : Text.unifyBreaks (quoted ps ++ text) = '"' :: Text.unifyBreaks (written ps ++ ['"'] ++ text) :=
    Text.unifyBreaks_cons (by decide) _
  rw [tail, quoted, List.cons_append, List.cons.injEq] at whole
  exact ⟨_, whole.2.symm⟩

/-! ### Keys -/

theorem feed_unify {cs : List Char} (line : '\n' ∈ cs ∨ '\r' ∈ cs) : '\n' ∈ Text.unifyBreaks cs := by
  induction cs using Text.unifyBreaks.induct with
  | case1 rest => exact List.mem_cons_self
  | case2 rest single => simp only [Text.unifyBreaks]; exact List.mem_cons_self
  | case3 c rest plain lone ih =>
    rw [Text.unifyBreaks_cons lone, List.mem_cons]
    obtain feed | carriage := line
    · exact (List.mem_cons.mp feed).imp_right fun later => ih (.inl later)
    · exact .inr (ih (.inr ((List.mem_cons.mp carriage).resolve_left (Ne.symm lone))))
  | case4 => simp at line

theorem blank_lineless (feed : .feed ∉ bs) (carriage : .carriage ∉ bs) :
    Text.unifyBreaks (blank bs) = blank bs ∧ (blank bs).countP isBreak = 0 := by
  have kinds : ∀ x ∈ blank bs, x = ' ' ∨ x = '\t' := by
    intro x member
    obtain ⟨b, among, rfl⟩ := List.mem_map.mp member
    cases b with
    | space => exact .inl rfl
    | tab => exact .inr rfl
    | feed => exact absurd among feed
    | carriage => exact absurd among carriage
  constructor
  · have bare : '\r' ∉ blank bs := fun member => by simpa using kinds _ member
    simpa [Text.unifyBreaks] using unifyBreaks_solid bare []
  · rw [List.countP_eq_zero]
    intro x member
    obtain rfl | rfl := kinds x member <;> decide

/-- A key is close to a colon if the blanks between them, as they are read, neither end its line nor lead too far. -/
theorem close_iff : Close ps bs ↔ (written ps).countP isBreak = 0 ∧ (Text.unifyBreaks (blank bs)).countP isBreak = 0 ∧
    (quoted ps).length + (Text.unifyBreaks (blank bs)).length ≤ 1024 := by
  have lines : (∀ c ∈ written ps, isBreak c = false) ↔ (written ps).countP isBreak = 0 := by simp [List.countP_eq_zero]
  rw [Close, lines]
  refine and_congr_right fun _ => ?_
  by_cases lineless : .feed ∉ bs ∧ .carriage ∉ bs
  · obtain ⟨same, none⟩ := blank_lineless lineless.1 lineless.2
    have size : (blank bs).length = bs.length := List.length_map _
    rw [same, none, size]
    exact ⟨fun holds => ⟨rfl, holds.2.2⟩, fun holds => ⟨lineless.1, lineless.2, holds.2⟩⟩
  · have feed : '\n' ∈ Text.unifyBreaks (blank bs) := by
      apply feed_unify
      rw [not_and_or, not_not, not_not] at lineless
      exact lineless.imp (fun among => List.mem_map.mpr ⟨_, among, rfl⟩) fun among => List.mem_map.mpr ⟨_, among, rfl⟩
    have some : (Text.unifyBreaks (blank bs)).countP isBreak ≠ 0 := by
      rw [Ne, List.countP_eq_zero]
      exact fun all => all _ feed rfl
    exact ⟨fun holds => absurd ⟨holds.1, holds.2.1⟩ lineless, fun holds => absurd holds.1 some⟩

/-- The tokens of a key and the colon after it. A key that is not close to the colon is not known to be one. -/
def keyTokens (ps : List Piece) (bs : List Blank) : List Token :=
  (if Close ps bs then [.key] else []) ++ [stringToken ps, .value]

theorem scanAt_colon (inside : 0 < t.flow) (head : t.cursor.head = some ':') : t.scanAt ':' = t.scanColon := by
  have dashes := atSeparator_other head (by decide : ':' ≠ '-')
  have dots := atSeparator_other head (by decide : ':' ≠ '.')
  unfold scanAt
  simp [dashes, dots, inside]

theorem scanColon_key {key : PossibleKey} {others : List (Nat × PossibleKey)} (inside : 0 < t.flow)
    (keys : t.keys = (t.flow, key) :: others) : t.scanColon = .ok ((skip (emitBefore { t with
      keyAllowed := false, keys := t.keys.filter fun entry => entry.1 ≠ t.flow } key.slot .key) 1).emit .value) := by
  have found : t.keys.lookup t.flow = some key := by rw [keys]; exact List.lookup_cons_self
  have block : opensBlock (emitBefore { t with keys := t.keys.filter fun entry => entry.1 ≠ t.flow } key.slot .key)
      key.column = false := by
    have brackets : t.flow ≠ 0 := by omega
    simp [opensBlock, emitBefore, brackets]
  unfold scanColon
  rw [found]
  dsimp only
  rw [block]
  rfl

theorem scanColon_none (inside : 0 < t.flow) (keys : ∀ entry ∈ t.keys, entry.1 ≠ t.flow) :
    t.scanColon = .ok ((skip { t with keyAllowed := false } 1).emit .value) := by
  have brackets : t.flow ≠ 0 := by omega
  have none : t.keys.lookup t.flow = none := List.lookup_eq_none_iff.mpr fun entry member => by
    simpa using Ne.symm (keys entry member)
  unfold scanColon dropKey opensBlock
  simp [brackets, none, bind, Except.bind, pure, Except.pure]

theorem push_modify (slots : Array (List Token)) (met : List Token) (f : List Token → List Token) :
    ((slots.push met).modify slots.size f).toList.flatten = slots.toList.flatten ++ f met := by
  have last (l : List (List Token)) : (l ++ [met]).modify l.length f = l ++ [f met] := by
    induction l with
    | nil => rfl
    | cons x l ih => simpa using ih
  rw [Array.toList_modify, Array.toList_push, ← Array.length_toList, last, List.flatten_append, List.flatten_singleton]

/-- Where a string has been met, blanks after it lead to a place as far on as they are long. -/
theorem Behind.arrives (behind : s.Behind true flow ts ps (blank bs ++ ':' :: text)) (arrives : s.Arrives t (':' :: text)) :
    ∃ key others, t.keys = ((flow, key) :: others).filter (fun entry => !t.isStale entry.2) ∧
      (∀ entry ∈ others, entry.1 ≠ flow) ∧ t.slots.size = key.slot + 1 ∧ (t.isStale key = false ↔ Close ps bs) := by
  have solid : Solid (':' :: text) := ⟨by rintro x ⟨⟩; decide, by rintro x ⟨⟩; decide, by rintro x ⟨⟩; decide⟩
  have rest : s.cursor.rest = Text.unifyBreaks (blank bs) ++ Text.unifyBreaks (':' :: text) :=
    behind.rest.trans (unifyBreaks_gap solid)
  obtain ⟨n, few, moved⟩ := arrives.moved
  have far : n = (Text.unifyBreaks (blank bs)).length := by
    have left := arrives.rest
    rw [moved, Cursor.skip_rest] at left
    have counts := congrArg List.length left
    rw [List.length_drop] at counts
    rw [rest, List.length_append] at few counts
    omega
  rw [far] at moved
  obtain ⟨index, line⟩ := Cursor.skip_of_rest rest
  rw [← moved] at index line
  obtain ⟨key, others, keys, apart, slot, start, begun⟩ := behind.key rfl
  refine ⟨key, others, by rw [arrives.keys, keys], apart, by rw [arrives.slots, slot], ?_⟩
  rw [close_iff, isStale, Bool.or_eq_false_iff, decide_eq_false_iff_not, decide_eq_false_iff_not]
  constructor
  · rintro ⟨same, near⟩
    exact ⟨by omega, by omega, by omega⟩
  · rintro ⟨none, lineless, near⟩
    exact ⟨by omega, by omega⟩

theorem Behind.colon_passes (behind : s.Behind true flow ts ps (blank bs ++ ':' :: text)) (inside : 0 < flow) :
    s.Passes (.tab ∉ bs) fun u => u.At flow (ts ++ keyTokens ps bs) text := by
  have solid : Solid (':' :: text) := ⟨by rintro x ⟨⟩; decide, by rintro x ⟨⟩; decide, by rintro x ⟨⟩; decide⟩
  refine (behind.place.passes (p := True) solid (by decide) fun t there arrives =>
    ⟨fun _ => ?_, fun fails => absurd trivial fails⟩).mono (and_iff_left trivial) fun _ => id
  obtain ⟨key, others, keys, apart, slot, fresh⟩ := behind.arrives arrives
  have inside : 0 < t.flow := by rw [there.flow]; exact inside
  have rest := arrives.rest.trans (Text.unifyBreaks_cons (by decide) text)
  have after : (t.cursor.skip 1).rest = Text.unifyBreaks text := by rw [Cursor.skip_rest, rest]; rfl
  rw [scanAt_colon inside (arrives.head (by decide))]
  by_cases near : Close ps bs
  · have stale := fresh.mpr near
    rw [List.filter_cons_of_pos (by rw [stale]; rfl), ← there.flow] at keys
    refine ⟨_, scanColon_key inside keys, ⟨⟨[], nofun, after.symm⟩, there.flow, ?_, there.indent, there.outer, ?_,
      there.beyond, there.done, fun ended => ?_⟩, there.beyond, there.done, after ▸ List.suffix_rfl⟩
    · obtain ⟨before, slots, flat⟩ := behind.slots
      rw [arrives.slots, slots, Array.size_push, Nat.add_right_cancel_iff] at slot
      refine (flatten_push _ _).trans ?_
      show ((t.slots.modify key.slot (.key :: ·))).toList.flatten ++ [.value] = _
      rw [arrives.slots, slots, ← slot, push_modify, flat, keyTokens, if_pos near]
      simp
    · exact fun entry member => there.keys entry (List.mem_filter.mp member).1
    · exact there.unended (ended_emitBefore _ key.slot (by decide : Token.key ≠ .streamEnd) (ended_emit _ (by nofun) ended))
  · have stale : t.isStale key = true := by simpa using mt fresh.mp near
    rw [List.filter_cons_of_neg (by rw [stale]; decide)] at keys
    have none : ∀ entry ∈ t.keys, entry.1 ≠ t.flow := by
      rw [keys, there.flow]
      exact fun entry member => apart entry (List.mem_filter.mp member).1
    refine ⟨_, scanColon_none inside none, ⟨⟨[], nofun, after.symm⟩, there.flow, ?_, there.indent, there.outer,
      there.keys, there.beyond, there.done, fun ended => ?_⟩, there.beyond, there.done, after ▸ List.suffix_rfl⟩
    · refine (flatten_push _ _).trans ?_
      show t.slots.toList.flatten ++ [.value] = _
      rw [there.tokens, keyTokens, if_neg near]
      simp
    · exact there.unended (ended_emit _ (by nofun) ended)

theorem key_passes {middle : List Blank} (place : s.At flow ts (blank bs ++ (quoted ps ++ (blank middle ++ ':' :: text))))
    (allowed : s.keyAllowed = true) (inside : 0 < flow) :
    s.Passes ((.tab ∉ bs ∧ (folded ps).isSome) ∧ .tab ∉ middle) fun u => u.At flow (ts ++ keyTokens ps middle) text := by
  refine (string_passes place).bind ?_
  rintro t ⟨known, kept, behind⟩
  obtain rfl : known = true := kept allowed
  exact behind.colon_passes inside

/-! ### Words without quotes -/

/-- The characters that follow an item in brackets. -/
def closers : List Char :=
  [',', ']', '\x7d']

/-- Text before which a word ends. -/
def Halts (inFlow : Bool) (tail : List Char) : Prop :=
  ∀ x ∈ tail.head?, x = '\t' ∨ inFlow = true ∧ x ∈ closers

/-- What words without quotes are made of. -/
def wordChars : List Char :=
  "0123456789+-.eEnultrfas".toList

/-- What they begin with, apart from the sign of a number. -/
def wordFronts : List Char :=
  "0123456789ntf".toList

/-- A word without quotes. -/
structure IsWord (w : List Char) : Prop where
  plain : ∀ x ∈ w, x ∈ wordChars
  front : ∃ x rest, w = x :: rest ∧ (x ∈ wordFronts ∨ x = '-' ∧ ∃ d more, rest = d :: more ∧ d ∈ wordFronts)

variable {w gap tail : List Char} {inFlow : Bool} {c : Cursor} {fuel : Nat}

theorem wordChars_solid : ∀ x ∈ wordChars, endsWord (some x) = false ∧ x ≠ ':' ∧ x ∉ ",?[]\x7b\x7d".toList ∧ x ≠ '#' ∧ x ≠ '\r' :=
  List.all_iff_forall_prop.mp (by decide +kernel)

theorem closers_stop : ∀ x ∈ closers, isLayout x = false ∧ x ≠ '-' ∧ x ≠ '.' ∧ x ∈ ",?[]\x7b\x7d".toList :=
  List.all_iff_forall_prop.mp (by decide +kernel)

theorem plainRun_halts (halts : Halts inFlow tail) : plainRun inFlow tail = [] := by
  cases tail with
  | nil => rfl
  | cons x tail =>
    unfold plainRun
    rw [if_pos]
    obtain rfl | ⟨rfl, close⟩ := halts x rfl
    · rfl
    · have among := (closers_stop x close).2.2.2
      simp only [Bool.true_and, List.contains_iff_mem.mpr among, Bool.or_true]

theorem plainRun_gap (blank : ∀ x ∈ gap, x = ' ' ∨ x = '\n') (halts : Halts inFlow tail) : plainRun inFlow (gap ++ tail) = [] := by
  cases gap with
  | nil => exact plainRun_halts halts
  | cons x gap =>
    unfold plainRun
    obtain rfl | rfl := blank x List.mem_cons_self <;> rfl

theorem plainRun_word (plain : ∀ x ∈ w, x ∈ wordChars) (blank : ∀ x ∈ gap, x = ' ' ∨ x = '\n') (halts : Halts inFlow tail) :
    plainRun inFlow (w ++ (gap ++ tail)) = w := by
  induction w with
  | nil => rw [List.nil_append, plainRun_gap blank halts]
  | cons x w ih =>
    obtain ⟨here, later⟩ := List.forall_mem_cons.mp plain
    obtain ⟨solid, colon, mark, -⟩ := wordChars_solid x here
    rw [List.cons_append, plainRun, ih later, if_neg]
    simpa [solid, colon] using fun _ => mark

theorem bounded_halts (halts : Halts inFlow tail) (blank : ∀ x ∈ gap, x = ' ' ∨ x = '\n') : bounded (gap ++ tail) = false := by
  cases gap with
  | cons x gap => exact bounded_layout (gap_layout blank x List.mem_cons_self) _
  | nil =>
    cases tail with
    | nil => rfl
    | cons x tail =>
      have other : x ≠ '-' ∧ x ≠ '.' := by
        obtain rfl | ⟨-, close⟩ := halts x rfl
        · decide
        · exact ⟨(closers_stop x close).2.1, (closers_stop x close).2.2.1⟩
      simp [bounded, Cursor.atBoundary, Cursor.atSeparator, Cursor.peek, other]

theorem Halts.solid (halts : Halts inFlow tail) : ∀ x ∈ tail.head?, isLayout x = false := by
  intro x first
  obtain rfl | ⟨-, close⟩ := halts x first
  · rfl
  · exact (closers_stop x close).1

theorem Halts.takeBreak? (halts : Halts inFlow tail) (found : c.rest = tail) : c.takeBreak? = none := by
  cases tail with
  | nil => unfold Cursor.takeBreak? Cursor.head; rw [found]; rfl
  | cons x tail =>
    have solid := halts.solid x rfl
    rw [isLayout, Bool.or_eq_false_iff] at solid
    rw [Cursor.takeBreak?_of_rest found, solid.2]
    rfl

theorem plainBreaks_gap (blank : ∀ x ∈ gap, x = ' ' ∨ x = '\n') (halts : Halts inFlow tail) (found : c.rest = gap ++ tail)
    (enough : gap.length < fuel) : ∃ breaks, plainBreaks c fuel = (some breaks, c.skip gap.length) := by
  induction fuel generalizing c gap with
  | zero => omega
  | succ fuel ih =>
    unfold plainBreaks
    cases gap with
    | nil =>
      have bare : c.starts ' ' = false := by
        rw [Cursor.starts, Cursor.head, found, decide_eq_false_iff_not]
        intro space
        cases halts.solid ' ' space
      rw [bare, halts.takeBreak? found]
      exact ⟨[], rfl⟩
    | cons x gap =>
      obtain ⟨here, later⟩ := List.forall_mem_cons.mp blank
      have next : c.next.rest = gap ++ tail := by rw [Cursor.next_rest, found]; rfl
      obtain ⟨breaks, further⟩ := ih later next (by simpa using enough)
      rw [Cursor.starts, Cursor.head_of_rest found]
      obtain rfl | rfl := here
      · exact ⟨breaks, further⟩
      · have boundary : (c.skip 1).atBoundary = false := by
          rw [Cursor.atBoundary_eq, show (c.skip 1).rest = gap ++ tail from next]
          exact bounded_halts halts later
        refine ⟨lineEnd '\n' :: breaks, ?_⟩
        rw [if_neg (by decide), Cursor.takeBreak?_of_rest found, if_pos (by decide)]
        dsimp only
        have same : plainBreaks (c.skip 1) fuel = (some breaks, c.next.skip gap.length) := further
        rw [boundary, same]
        rfl

theorem plainBlanks_gap (blank : ∀ x ∈ gap, x = ' ' ∨ x = '\n') (halts : Halts inFlow tail) (found : c.rest = gap ++ tail) :
    (plainBlanks c).cursor = c.skip gap.length := by
  unfold plainBlanks
  obtain spaced | ⟨spaces, b, more, rfl, spaced, line, -⟩ := layout_split gap (gap_layout blank)
  · have stop : ∀ x ∈ tail.head?, decide (x = ' ') = false := by
      intro x first
      rw [decide_eq_false_iff_not]
      rintro rfl
      cases halts.solid ' ' first
    rw [Cursor.span_of_rest found (by simpa using spaced) stop]
    dsimp only
    rw [halts.takeBreak? (by rw [Cursor.skip_rest, found, List.drop_left])]
  · rw [List.append_assoc] at found
    have next : (c.skip spaces.length).rest = b :: (more ++ tail) := by rw [Cursor.skip_rest, found, List.drop_left]; rfl
    have further : ((c.skip spaces.length).skip 1).rest = more ++ tail := by rw [Cursor.skip_rest, next]; rfl
    have later : ∀ x ∈ more, x = ' ' ∨ x = '\n' := fun x member => blank x (by simp [member])
    have boundary : ((c.skip spaces.length).skip 1).atBoundary = false := by
      rw [Cursor.atBoundary_eq, further]
      exact bounded_halts halts later
    have stop : ∀ x ∈ (b :: more ++ tail).head?, decide (x = ' ') = false := by
      rintro x ⟨⟩
      rw [decide_eq_false_iff_not]
      rintro rfl
      cases line
    obtain ⟨breaks, passed⟩ := plainBreaks_gap later halts further
      (by rw [further, List.length_append]; omega : more.length < ((c.skip spaces.length).skip 1).rest.length + 1)
    rw [Cursor.span_of_rest found (by simpa using spaced) stop]
    dsimp only
    rw [Cursor.takeBreak?_of_rest next, if_pos line]
    dsimp only
    rw [boundary, if_neg (by decide), passed]
    dsimp only
    rw [Cursor.skip_skip, Cursor.skip_skip, List.length_append, List.length_cons, Nat.add_comm 1]

theorem plainFrom_none {indent : Int} {blanks : PlainBlanks} (none : (plainRun inFlow blanks.cursor.rest).isEmpty = true) :
    plainFrom inFlow indent blanks.cursor blanks fuel = { blanks with text := [] } := by
  cases fuel with
  | zero => rfl
  | succ fuel =>
    unfold plainFrom
    dsimp only
    rw [none, Bool.or_true, if_pos rfl]

theorem spelled_word (word : IsWord w) : Text.spelled w = w := by
  refine Text.spelled_char fun x member => ?_
  rintro rfl
  exact absurd (word.plain _ member) (by decide)

theorem plainScalar_word (outer : Int) (word : IsWord w) (blank : ∀ x ∈ gap, x = ' ' ∨ x = '\n') (halts : Halts inFlow tail)
    (found : c.rest = w ++ (gap ++ tail)) : (plainScalar inFlow outer c).text = w ∧
      (plainScalar inFlow outer c).cursor = c.skip (w.length + gap.length) := by
  have run : plainRun inFlow c.rest = w := by rw [found]; exact plainRun_word word.plain blank halts
  have begun : ¬ (c.starts '#' || w.isEmpty) = true := by
    obtain ⟨x, rest, rfl, -⟩ := word.front
    have other := (wordChars_solid x (word.plain x List.mem_cons_self)).2.2.2.1
    rw [Cursor.starts, Cursor.head_of_rest found]
    simp [other]
  have after : (c.skip w.length).rest = gap ++ tail := by rw [Cursor.skip_rest, found, List.drop_left]
  have blanks := plainBlanks_gap blank halts after
  -- After the blanks nothing goes on with the word.
  have none : (plainRun inFlow (plainBlanks (c.skip w.length)).cursor.rest).isEmpty = true := by
    rw [blanks, Cursor.skip_rest, after, List.drop_left, plainRun_halts halts]
    rfl
  have past : (plainBlanks (c.skip w.length)).cursor = c.skip (w.length + gap.length) := by rw [blanks, Cursor.skip_skip]
  unfold plainScalar plainFrom
  dsimp only
  rw [run, if_neg begun, plainFrom_none none, spelled_word word]
  split
  · exact ⟨rfl, past⟩
  · exact ⟨List.append_nil _, past⟩

/-- Text after an item: blanks, and inside of brackets what goes on after them. -/
def Ends (flow : Nat) (text : List Char) : Prop :=
  ∃ bs tail, text = blank bs ++ tail ∧ ∀ x ∈ tail.head?, 0 < flow ∧ x ∈ closers

/-- Where an item ends, blanks may be passed over up to what goes on after it, or up to a tab. -/
theorem Ends.split (ends : Ends flow text) : ∃ gap tail, Text.unifyBreaks text = gap ++ tail ∧
    (∀ x ∈ gap, x = ' ' ∨ x = '\n') ∧ Halts (0 < flow) tail := by
  obtain ⟨bs, tail, rfl, close⟩ := ends
  by_cases tab : .tab ∈ bs
  · obtain ⟨before, after, rfl, first⟩ := List.eq_append_cons_of_mem tab
    have split : blank (before ++ .tab :: after) ++ tail = blank before ++ '\t' :: (blank after ++ tail) := by
      simp [blank, Blank.char]
    have solid : Solid ('\t' :: (blank after ++ tail)) := ⟨by simp, by simp, by rintro x ⟨⟩; rfl⟩
    refine ⟨_, _, by rw [split]; exact unifyBreaks_gap solid, unifyBreaks_blank first, ?_⟩
    rw [Text.unifyBreaks_cons (by decide)]
    rintro x ⟨⟩
    exact .inl rfl
  · have stops : ∀ x ∈ closers, x ≠ ' ' ∧ x ≠ '#' ∧ isBreak x = false ∧ x ≠ '\r' :=
      List.all_iff_forall_prop.mp (by decide +kernel)
    have solid : Solid tail := ⟨fun x first => (stops x (close x first).2).1, fun x first => (stops x (close x first).2).2.1,
      fun x first => (stops x (close x first).2).2.2.1⟩
    refine ⟨_, _, unifyBreaks_gap solid, unifyBreaks_blank tab, fun x first => ?_⟩
    cases tail with
    | nil => cases first
    | cons y tail =>
      obtain ⟨inside, closer⟩ := close y rfl
      rw [Text.unifyBreaks_cons (stops y closer).2.2.2] at first
      cases first
      exact .inr ⟨decide_eq_true inside, closer⟩

theorem scanAt_word {x : Char} {rest : List Char} (found : t.cursor.rest = x :: rest)
    (front : x ∈ wordFronts ∨ x = '-' ∧ ∃ d more, rest = d :: more ∧ d ∈ wordFronts) : t.scanAt x = t.scanPlain := by
  have head := Cursor.head_of_rest found
  obtain letter | ⟨rfl, d, more, rfl, digit⟩ := front
  · have others : ∀ x ∈ wordFronts, x ∉ "%-.[]\x7b\x7d,?:*&!|>'\"#@\x60".toList ∧ endsWord (some x) = false :=
      List.all_iff_forall_prop.mp (by decide +kernel)
    obtain ⟨other, solid⟩ := others x letter
    simp only [String.reduceToList, List.mem_cons, List.not_mem_nil, or_false, not_or] at other
    have dashes := atSeparator_other head other.2.1
    have dots := atSeparator_other head other.2.2.1
    unfold scanAt beginsPlain
    simp [dashes, dots, other, solid]
  · have others : ∀ x ∈ wordFronts, x ≠ '-' ∧ endsWord (some x) = false :=
      List.all_iff_forall_prop.mp (by decide +kernel)
    obtain ⟨other, solid⟩ := others d digit
    have dots := atSeparator_other head (by decide : '-' ≠ '.')
    have next : t.cursor.peek 1 = some d := by rw [Cursor.peek, found]; rfl
    have dashes : t.cursor.atSeparator '-' = false := by simp [Cursor.atSeparator, next, other]
    unfold scanAt beginsPlain
    simp [dashes, dots, next, solid]

theorem IsWord.bare (word : IsWord w) : '\r' ∉ w :=
  fun member => (wordChars_solid _ (word.plain _ member)).2.2.2.2 rfl

/-- A word is met unless there is a tab in front of it. Blanks after it may be passed over with it. -/
theorem word_passes (place : s.At flow ts (blank bs ++ (w ++ text))) (word : IsWord w) (ends : Ends flow text) :
    s.Passes (.tab ∉ bs) fun u => u.At flow (ts ++ [.scalar (String.ofList w) true]) text := by
  obtain ⟨x, rest, front, begins⟩ := word.front
  have here : x ∈ wordChars := word.plain x (by rw [front]; exact List.mem_cons_self)
  obtain ⟨stops, -, -, comment, bare⟩ := wordChars_solid x here
  have solid : Solid (x :: (rest ++ text)) := by
    simp only [endsWord, Bool.or_eq_false_iff, decide_eq_false_iff_not] at stops
    exact ⟨by rintro y ⟨⟩; exact stops.1.1, by rintro y ⟨⟩; exact comment, by rintro y ⟨⟩; exact stops.2⟩
  have whole : w ++ text = x :: (rest ++ text) := by rw [front]; rfl
  rw [whole] at place
  refine (place.passes (p := True) solid bare fun t there arrives =>
    ⟨fun _ => ?_, fun fails => absurd trivial fails⟩).mono (and_iff_left trivial) fun _ => id
  obtain ⟨gap, tail, split, blank, halts⟩ := ends.split
  have found : t.cursor.rest = w ++ (gap ++ tail) := by
    rw [arrives.rest, ← whole, unifyBreaks_solid word.bare, split]
  obtain ⟨keys, optional, saved, -⟩ := saveKey_at there
  rw [← there.flow] at halts
  obtain ⟨taken, past⟩ := plainScalar_word t.indent word blank halts found
  have plain : t.scanAt x = t.scanPlain := by
    rw [front, List.cons_append] at found
    refine scanAt_word found (begins.imp_right ?_)
    rintro ⟨dash, d, more, rfl, digit⟩
    exact ⟨dash, d, _, rfl, digit⟩
  have after : (plainScalar (0 < t.flow) t.indent t.cursor).cursor.rest = tail := by
    rw [past, Cursor.skip_rest, found, ← List.append_assoc, ← List.length_append, List.drop_left]
  unfold scanPlain at plain
  rw [saved] at plain
  refine ⟨_, plain, ⟨⟨gap, blank, split.trans (congrArg (gap ++ ·) after.symm)⟩, there.flow, ?_, there.indent, there.outer,
    optional, there.beyond, there.done, fun ended => there.unended (ended_emit _ (by simp) ended)⟩, there.beyond, there.done, ?_⟩
  · refine (flatten_push _ _).trans ?_
    show t.slots.toList.flatten ++ [.scalar (String.ofList (plainScalar (0 < t.flow) t.indent t.cursor).text) true] = _
    rw [there.tokens, taken]
  · show (plainScalar (0 < t.flow) t.indent t.cursor).cursor.rest <:+ _
    rw [after]
    have rest : Text.unifyBreaks (x :: (rest ++ text)) = w ++ (gap ++ tail) := by
      rw [← whole, unifyBreaks_solid word.bare, split]
    rw [Text.unifyBreaks_cons bare, front, List.cons_append, List.cons.injEq] at rest
    exact ⟨_, by rw [rest.2, List.append_assoc]⟩

end Scanner

end Document

end Interaction
