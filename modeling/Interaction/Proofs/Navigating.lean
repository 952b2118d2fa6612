import Mathlib.Data.List.Forall2
import Mathlib.Data.Nat.Digits.Defs
import Mathlib.Tactic.IntervalCases
import Interaction.Proofs.Keys
import Interaction.Proofs.Nesting
import Interaction.Proofs.Recognizing

/-! Paths lead to positions. What a path leads to is what lies where its segments say, and every position
that can be written as a path is found by it. A path can be looked up in parts. -/

namespace Interaction

/-! ### Numerals -/

namespace Text

variable {cs ds : List Char} {digits : List Nat} {c : Char} {d i : Nat}

/-- Digits of any script, and the number that they denote. -/
def Numeral (cs : List Char) (i : Nat) : Prop :=
  cs ≠ [] ∧ ∃ digits, List.Forall₂ (fun c d => digitValue? c = some d) cs digits ∧ Nat.ofDigits 10 digits.reverse = i

theorem numeralValue_digits (spelled : List.Forall₂ (fun c d => digitValue? c = some d) cs digits) :
    numeralValue cs = Nat.ofDigits 10 digits.reverse := by
  have folded : ∀ n, cs.foldl (fun n c => 10 * n + (digitValue? c).getD 0) n = digits.foldl (fun n d => d + 10 * n) n := by
    induction spelled with
    | nil => exact fun _ => rfl
    | cons head _ ih =>
      intro n
      rw [List.foldl_cons, List.foldl_cons, ih, head, Option.getD_some, Nat.add_comm]
  rw [numeralValue, folded, Nat.ofDigits_eq_foldr, List.foldr_reverse]
  rfl

theorem exists_digits (valued : ∀ c ∈ cs, (digitValue? c).isSome) :
    List.Forall₂ (fun c d => digitValue? c = some d) cs (cs.map fun c => (digitValue? c).getD 0) := by
  rw [List.forall₂_map_right_iff, List.forall₂_same]
  intro c member
  obtain ⟨d, value⟩ := Option.isSome_iff_exists.mp (valued c member)
  rw [value, Option.getD_some]

theorem digits_valued (spelled : List.Forall₂ (fun c d => digitValue? c = some d) cs digits) :
    ∀ c ∈ cs, (digitValue? c).isSome := by
  induction spelled with
  | nil => simp
  | cons head _ ih => exact List.forall_mem_cons.mpr ⟨by simp [head], ih⟩

theorem numeral_iff : Numeral cs i ↔ isNumeral cs = true ∧ numeralValue cs = i := by
  simp only [Numeral, isNumeral, Bool.and_eq_true, Bool.not_eq_true', List.isEmpty_eq_false_iff, List.all_eq_true, and_assoc]
  refine and_congr_right fun _ => ⟨?_, ?_⟩
  · rintro ⟨digits, spelled, rfl⟩
    exact ⟨digits_valued spelled, numeralValue_digits spelled⟩
  · rintro ⟨valued, rfl⟩
    exact ⟨_, exists_digits valued, (numeralValue_digits (exists_digits valued)).symm⟩

theorem digitValue?_digitChar (small : d < 10) : digitValue? d.digitChar = some d := by
  interval_cases d <;> rfl

theorem numeral_repr (i : Nat) : Numeral i.repr.toList i := by
  rw [Nat.toList_repr]
  induction i using Nat.strongRecOn with
  | _ i ih =>
    rw [Nat.toDigits_eq_if (by decide)]
    split
    next small => exact ⟨by simp, [i], .cons (digitValue?_digitChar small) .nil, by simp⟩
    next large =>
      obtain ⟨-, digits, spelled, value⟩ := ih (i / 10) (by omega)
      have last : digitValue? (i % 10).digitChar = some (i % 10) := digitValue?_digitChar (Nat.mod_lt i (by decide))
      refine ⟨by simp, digits ++ [i % 10], List.rel_append spelled (.cons last .nil), ?_⟩
      rw [List.reverse_append, List.reverse_singleton, List.singleton_append, Nat.ofDigits_cons, value]
      exact Nat.mod_add_div i 10

end Text

/-! ### Positions -/

/-- Where one goes on inside a value: to what stands under a key of a mapping, or to an item of a
sequence. -/
inductive Stop where
  | key (name : String)
  | index (i : Nat)

namespace Stop

/-- The segment that a stop is written as. -/
def text : Stop → List Char
  | key name => name.toList
  | index i => i.repr.toList

/-- A stop that can be written in a reference: a key that is a name, or a position that has not too many
digits. -/
def Plain : Stop → Prop
  | key name => name ≠ "" ∧ ∀ c ∈ name.toList, Reference.NameChar c
  | index i => i.repr.length ≤ Text.maxDigits

instance : (stop : Stop) → Decidable stop.Plain
  | key name =>
    have : Decidable (∀ c ∈ name.toList, Reference.NameChar c) := List.decidableBAll _ _
    inferInstanceAs (Decidable (name ≠ "" ∧ ∀ c ∈ name.toList, Reference.NameChar c))
  | index i => inferInstanceAs (Decidable (i.repr.length ≤ Text.maxDigits))

/-- What a segment can stand for: literally a key, or the position that its digits denote, whatever their
script, unless they are too many. -/
def Spells (segment : List Char) : Stop → Prop
  | key name => name.toList = segment
  | index i => Text.Numeral segment i ∧ segment.length ≤ Text.maxDigits

end Stop

/-- What stands under a text as a key: it belongs to the first of the entries that has this key. -/
def Entries.Holds (entries : Entries) (name : String) (v : Value) : Prop :=
  ∃ before after, entries = before ++ (.text name, v) :: after ∧ ∀ entry ∈ before, entry.1 ≠ .text name

theorem Entries.get?_text {entries : Entries} {name : String} {v : Value} :
    entries.get? (.text name) = some v ↔ entries.Holds name v := by
  have alike (key : Value) : key.sameKey (.text name) = true ↔ key = .text name :=
    ⟨Value.sameKey_text, fun same => same ▸ Value.text_sameKey name⟩
  simp only [get?, Option.map_eq_some_iff, List.find?_eq_some_iff_append, alike, Holds]
  constructor
  · rintro ⟨⟨key, w⟩, ⟨rfl, before, after, rfl, others⟩, rfl⟩
    exact ⟨before, after, rfl, fun entry member same => by simpa [same, Value.text_sameKey] using others entry member⟩
  · rintro ⟨before, after, rfl, others⟩
    refine ⟨(.text name, v), ⟨rfl, before, after, rfl, fun entry member => ?_⟩, rfl⟩
    simpa using fun same => others entry member (Value.sameKey_text same)

namespace Store

variable {s : Store} {v w u context : Value} {stop : Stop} {way : List Stop} {segment : List Char} {fault : Fault}

/-- One step into a mapping or a sequence. -/
inductive Enters (s : Store) : Value → Stop → Value → Prop where
  | entry {v w : Value} {entries : Entries} {name : String} (mapping : s.entries? v = some entries)
      (held : entries.Holds name w) : Enters s v (.key name) w
  | item {v w : Value} {items : List Value} {i : Nat} (sequence : s.items? v = some items)
      (found : items[i]? = some w) : Enters s v (.index i) w

/-- A value lies at the end of a way that begins at another one. -/
inductive Lies (s : Store) : Value → List Stop → Value → Prop where
  | here {v : Value} : Lies s v [] v
  | beyond {v w u : Value} {stop : Stop} {way : List Stop} (enters : s.Enters v stop w) (further : Lies s w way u) :
      Lies s v (stop :: way) u

theorem Enters.unique (first : s.Enters v stop w) (last : s.Enters v stop u) : w = u := by
  cases first with
  | entry mapping held =>
    cases last with
    | entry mapping' held' =>
      cases mapping.symm.trans mapping'
      exact Option.some.inj ((Entries.get?_text.mpr held).symm.trans (Entries.get?_text.mpr held'))
  | item sequence found =>
    cases last with
    | item sequence' found' =>
      cases sequence.symm.trans sequence'
      exact Option.some.inj (found.symm.trans found')

theorem Lies.after {before after : List Stop} (lies : s.Lies v (before ++ after) w) (reached : s.Lies v before u) :
    s.Lies u after w := by
  induction reached with
  | here => exact lies
  | beyond enters _ ih =>
    cases lies with
    | beyond enters' further =>
      cases enters.unique enters'
      exact ih further

theorem Enters.not_scalar (enters : s.Enters v stop w) (x : Scalar) : v ≠ .scalar x := by
  rintro rfl
  cases enters with
  | entry mapping _ => cases mapping
  | item sequence _ => cases sequence

theorem entries?_of_items? {items : List Value} (sequence : s.items? v = some items) : s.entries? v = none := by
  cases held : s.entries? v with
  | none => rfl
  | some entries =>
    have mapping : s.isMapping v = true := by simp [isMapping, held]
    cases (items?_of_isMapping mapping).symm.trans sequence

theorem step_enters (spells : stop.Spells segment) (enters : s.Enters v stop w) : s.step v segment = .ok w := by
  cases enters with
  | entry mapping held =>
    cases spells
    simp only [step, mapping, String.ofList_toList, Entries.get?_text.mpr held, Option.getD_some]
  | item sequence found =>
    obtain ⟨numeral, short⟩ := spells
    obtain ⟨written, rfl⟩ := Text.numeral_iff.mp numeral
    simp only [step, entries?_of_items? sequence, sequence, written, Bool.not_true, Bool.false_eq_true, if_false,
      if_neg (Nat.not_lt.mpr short), found, Option.getD_some]

theorem enters_step (led : s.step v segment = .ok w) (given : w ≠ .null) :
    ∃ stop : Stop, stop.Spells segment ∧ s.Enters v stop w := by
  unfold step at led
  split at led
  next entries mapping =>
    cases held : entries.get? (.text (String.ofList segment)) with
    | none => simp [held, given.symm] at led
    | some w' =>
      obtain rfl : w' = w := by simpa [held] using led
      exact ⟨.key (String.ofList segment), String.toList_ofList, .entry mapping (Entries.get?_text.mp held)⟩
  next =>
    split at led
    next => exact absurd (Except.ok.inj led).symm given
    next items sequence =>
      split at led
      next => exact absurd (Except.ok.inj led).symm given
      next written =>
        split at led
        next => cases led
        next short =>
          have numeral : Text.Numeral segment (Text.numeralValue segment) :=
            Text.numeral_iff.mpr ⟨by simpa using written, rfl⟩
          cases found : items[Text.numeralValue segment]? with
          | none => simp [found, given.symm] at led
          | some w' =>
            obtain rfl : w' = w := by simpa [found] using led
            exact ⟨.index _, ⟨numeral, Nat.le_of_not_lt short⟩, .item sequence found⟩

/-- Only a numeral of too many digits cannot be looked up, where a sequence is to be entered. -/
theorem step_error : s.step v segment = .error fault ↔
    (∃ items, s.items? v = some items) ∧ Text.isNumeral segment = true ∧ Text.maxDigits < segment.length ∧
      fault = .longNumeral segment.length := by
  unfold step
  split
  next entries mapping =>
    have none : s.items? v = none := items?_of_isMapping (by simp [isMapping, mapping])
    simp [none]
  next =>
    split
    next none => simp [none]
    next items sequence =>
      cases written : Text.isNumeral segment with
      | false => simp
      | true =>
        by_cases long : Text.maxDigits < segment.length
        · simp [sequence, long, eq_comm]
        · simp [long]

/-- The segments of a path lead from one value to another one. -/
def Follows (s : Store) (v : Value) (segments : List (List Char)) (w : Value) : Prop :=
  ∃ way : List Stop, List.Forall₂ (fun segment stop => stop.Spells segment) segments way ∧ s.Lies v way w

/-- The segments of a path lead to a sequence, and then a numeral follows that has too many digits. -/
def Overlong (s : Store) (v : Value) (segments : List (List Char)) (digits : Nat) : Prop :=
  ∃ before segment after u, segments = before ++ segment :: after ∧ s.Follows v before u ∧
    (∃ items, s.items? u = some items) ∧
    Text.isNumeral segment = true ∧ Text.maxDigits < segment.length ∧ digits = segment.length

variable {segments rest : List (List Char)} {digits : Nat} {path : List Char}

theorem follows_cons : s.Follows v (segment :: rest) u ↔
    ∃ stop w, Stop.Spells segment stop ∧ s.Enters v stop w ∧ s.Follows w rest u := by
  constructor
  · rintro ⟨_ | ⟨stop, way⟩, spelled, lies⟩
    · cases spelled
    · obtain ⟨spells, spelled⟩ := List.forall₂_cons.mp spelled
      cases lies with
      | beyond enters further => exact ⟨stop, _, spells, enters, way, spelled, further⟩
  · rintro ⟨stop, w, spells, enters, way, spelled, further⟩
    exact ⟨stop :: way, .cons spells spelled, .beyond enters further⟩

theorem follow_cons (given : v ≠ .null) (segment : List Char) (rest : List (List Char)) :
    s.follow v (segment :: rest) = (s.step v segment).bind fun w => s.follow w rest := by
  have entered : v.isNull = false := by
    cases v with
    | scalar x => cases x <;> first | rfl | exact absurd rfl given
    | _ => rfl
  rw [follow, entered]
  rfl

theorem follow_null (segments : List (List Char)) : s.follow .null segments = .ok .null := by
  cases segments <;> rfl

theorem follow_follows (follows : s.Follows v segments w) : s.follow v segments = .ok w := by
  induction segments generalizing v with
  | nil =>
    obtain ⟨way, spelled, lies⟩ := follows
    cases spelled
    cases lies
    rfl
  | cons segment rest ih =>
    obtain ⟨stop, u, spells, enters, further⟩ := follows_cons.mp follows
    rw [follow_cons (enters.not_scalar .null), step_enters spells enters]
    exact ih further

theorem follows_follow (led : s.follow v segments = .ok w) (found : w ≠ .null) : s.Follows v segments w := by
  induction segments generalizing v with
  | nil =>
    cases led
    exact ⟨[], .nil, .here⟩
  | cons segment rest ih =>
    by_cases given : v = .null
    · rw [given, follow_null] at led
      exact absurd (Except.ok.inj led).symm found
    · rw [follow_cons given] at led
      cases stepped : s.step v segment with
      | error fault => simp [stepped, Except.bind] at led
      | ok u =>
        have further : s.follow u rest = .ok w := by simpa [stepped, Except.bind] using led
        have passed : u ≠ .null := by
          rintro rfl
          rw [follow_null] at further
          exact found (Except.ok.inj further).symm
        obtain ⟨stop, spells, enters⟩ := enters_step stepped passed
        exact follows_cons.mpr ⟨stop, u, spells, enters, ih further⟩

theorem overlong_cons : s.Overlong v (segment :: rest) digits ↔
    ((∃ items, s.items? v = some items) ∧ Text.isNumeral segment = true ∧ Text.maxDigits < segment.length ∧
      digits = segment.length) ∨
    ∃ stop w, Stop.Spells segment stop ∧ s.Enters v stop w ∧ s.Overlong w rest digits := by
  constructor
  · rintro ⟨_ | ⟨first, before⟩, last, after, u, split, follows, sequence, long⟩
    · obtain ⟨rfl, rfl⟩ := List.cons.inj split
      obtain ⟨way, spelled, lies⟩ := follows
      cases spelled
      cases lies
      exact Or.inl ⟨sequence, long⟩
    · obtain ⟨rfl, rfl⟩ := List.cons.inj split
      obtain ⟨stop, w, spells, enters, further⟩ := follows_cons.mp follows
      exact Or.inr ⟨stop, w, spells, enters, before, last, after, u, rfl, further, sequence, long⟩
  · rintro (⟨sequence, long⟩ | ⟨stop, w, spells, enters, before, last, after, u, rfl, further, sequence, long⟩)
    · exact ⟨[], segment, rest, v, rfl, ⟨[], .nil, .here⟩, sequence, long⟩
    · exact ⟨segment :: before, last, after, u, rfl, follows_cons.mpr ⟨stop, w, spells, enters, further⟩, sequence, long⟩

theorem not_overlong_null : ¬ s.Overlong .null segments digits := by
  rintro ⟨before, last, after, u, -, ⟨way, -, lies⟩, ⟨items, sequence⟩, -⟩
  cases lies with
  | here => cases sequence
  | beyond enters => exact enters.not_scalar .null rfl

theorem follow_error : s.follow v segments = .error fault ↔
    ∃ digits, s.Overlong v segments digits ∧ fault = .longNumeral digits := by
  induction segments generalizing v with
  | nil => simp [follow, Overlong]
  | cons segment rest ih =>
    by_cases given : v = .null
    · rw [given, follow_null]
      simp [not_overlong_null]
    · rw [follow_cons given]
      simp only [overlong_cons]
      cases stepped : s.step v segment with
      | error reason =>
        obtain ⟨sequence, numeral, long, rfl⟩ := step_error.mp stepped
        constructor
        · rintro ⟨⟩
          exact ⟨_, Or.inl ⟨sequence, numeral, long, rfl⟩, rfl⟩
        · rintro ⟨digits, ⟨-, -, -, rfl⟩ | ⟨stop, w, spells, enters, -⟩, rfl⟩
          · rfl
          · cases stepped.symm.trans (step_enters spells enters)
      | ok u =>
        have onward : (Except.ok u).bind (fun w => s.follow w rest) = .error fault ↔ s.follow u rest = .error fault :=
          Iff.rfl
        rw [onward, ih]
        constructor
        · rintro ⟨digits, overlong, rfl⟩
          have passed : u ≠ .null := by
            rintro rfl
            exact not_overlong_null overlong
          obtain ⟨stop, spells, enters⟩ := enters_step stepped passed
          exact ⟨digits, Or.inr ⟨stop, u, spells, enters, overlong⟩, rfl⟩
        · rintro ⟨digits, ⟨sequence, numeral, long, rfl⟩ | ⟨stop, w, spells, enters, overlong⟩, rfl⟩
          · cases stepped.symm.trans (step_error.mpr ⟨sequence, numeral, long, rfl⟩)
          · cases stepped.symm.trans (step_enters spells enters)
            exact ⟨digits, overlong, rfl⟩

end Store

/-! ### Paths -/

theorem Text.split_eq (sep : Char) (cs : List Char) : (Text.split sep cs).1 :: (Text.split sep cs).2 = cs.splitOn sep := by
  induction cs with
  | nil => rfl
  | cons c rest ih =>
    rw [List.splitOn_cons_eq_if_modifyHead, ← ih]
    by_cases same : c = sep <;> simp [Text.split, same]

namespace Store

variable {s : Store} {context v w : Value} {path : List Char} {way : List Stop}

theorem lookup_mapping (mapping : s.isMapping context = true) (path : List Char) :
    s.lookup context path = s.follow context (path.splitOn '.') := by
  obtain ⟨entries, held⟩ := Option.isSome_iff_exists.mp mapping
  have given : context ≠ .null := by
    rintro rfl
    cases mapping
  rw [← Text.split_eq, follow_cons given]
  simp only [lookup, step, held, Reference.segments]
  rfl

end Store

namespace Stop

variable {stop : Stop}

theorem Plain.spells (plain : stop.Plain) : stop.Spells stop.text := by
  cases stop with
  | key name => rfl
  | index i => exact ⟨Text.numeral_repr i, plain⟩

theorem Plain.named (plain : stop.Plain) : ∀ c ∈ stop.text, Reference.NameChar c := by
  cases stop with
  | key name => exact plain.2
  | index i =>
    intro c member
    rw [text, Nat.toList_repr] at member
    have digit := Nat.isDigit_of_mem_toDigits (by decide) (by decide) member
    simp only [Char.isDigit, Bool.and_eq_true, decide_eq_true_eq] at digit
    exact Or.inr (Or.inr (Or.inl digit))

theorem Plain.given (plain : stop.Plain) : stop.text ≠ [] := by
  cases stop with
  | key name => simpa [text] using plain.1
  | index i => simp [text]

end Stop

namespace Reference

/-- A way as it is written in a reference. -/
def written (way : List Stop) : List Char :=
  ['.'].intercalate (way.map Stop.text)

variable {way : List Stop}

theorem written_cons (stop next : Stop) (way : List Stop) :
    written (stop :: next :: way) = stop.text ++ '.' :: written (next :: way) := by
  simp [written]

theorem written_named (plain : ∀ stop ∈ way, stop.Plain) : ∀ c ∈ written way, NameChar c ∨ c = '.' := by
  induction way with
  | nil => simp [written]
  | cons stop way ih =>
    obtain ⟨here, later⟩ := List.forall_mem_cons.mp plain
    cases way with
    | nil =>
      intro c member
      exact Or.inl (here.named c (by simpa [written] using member))
    | cons next way =>
      intro c member
      rw [written_cons] at member
      obtain first | rest := List.mem_append.mp member
      · exact Or.inl (here.named c first)
      · obtain rfl | rest := List.mem_cons.mp rest
        · exact Or.inr rfl
        · exact ih later c rest

theorem written_given (plain : ∀ stop ∈ way, stop.Plain) (further : way ≠ []) : written way ≠ [] := by
  match way, further with
  | [stop], _ => simpa [written] using (plain stop (by simp)).given
  | stop :: next :: way, _ => simp [written_cons]

theorem splitOn_written (plain : ∀ stop ∈ way, stop.Plain) (further : way ≠ []) :
    (written way).splitOn '.' = way.map Stop.text := by
  refine List.splitOn_intercalate '.' (fun segment member point => ?_) (by simpa using further)
  obtain ⟨stop, among, rfl⟩ := List.mem_map.mp member
  exact absurd ((plain stop among).named '.' point) (by decide)

/-- The parameter that refers to the end of a way. -/
def parameter (way : List Stop) : String :=
  String.ofList ('$' :: '{' :: (written way ++ ['}']))

theorem first_written (plain : ∀ stop ∈ way, stop.Plain) (further : way ≠ []) :
    First (parameter way).toList [] (written way) [] where
  whole := by simp [parameter]
  given := written_given plain further
  named := written_named plain
  least := fun _ => Nat.zero_le _

end Reference

/-- Whatever lies in a data context at the end of a way that can be written as a path is what the reference with
this path stands for. And what a path leads to, if it leads anywhere, lies at the end of a way that the segments
of the path spell: keys literally, positions in decimal digits of any script. The way goes through mappings and
sequences only, never into a text or into bytes. -/
theorem positions_reached (s : Store) {context : Value} (mapping : s.isMapping context = true) :
    (∀ way v, way ≠ [] → (∀ stop ∈ way, stop.Plain) → s.Lies context way v →
      s.resolve context (.text (Reference.parameter way)) = .ok v) ∧
    ∀ path v, s.lookup context path = .ok v → v ≠ .null →
      ∃ way : List Stop, List.Forall₂ (fun segment stop => stop.Spells segment) (path.splitOn '.') way ∧
        s.Lies context way v ∧
        ∀ before stop after u, way = before ++ stop :: after → s.Lies context before u → ∀ x, u ≠ .scalar x := by
  refine ⟨fun way v further plain lies => ?_, fun path v led found => ?_⟩
  · rw [Store.resolve_first (Reference.first_written plain further), Store.lookup_mapping mapping,
      Reference.splitOn_written plain further]
    refine Store.follow_follows ⟨way, ?_, lies⟩
    rw [List.forall₂_map_left_iff, List.forall₂_same]
    exact fun stop member => (plain stop member).spells
  · rw [Store.lookup_mapping mapping] at led
    obtain ⟨way, spelled, lies⟩ := Store.follows_follow led found
    refine ⟨way, spelled, lies, ?_⟩
    rintro before stop after u rfl reached
    cases lies.after reached with
    | beyond enters => exact enters.not_scalar

/-- A data context with lists inside mappings and a mapping whose keys look like positions. -/
private def gallery : Store where
  cells := #[
    .map [(.text "user", .ref 1), (.text "0", .int 7)],
    .map [(.text "0", .text "no position"), (.text "tags", .ref 2)],
    .list [.text "abc", .tuple [.text "x", .text "y"]]]

theorem gallery_reached : gallery.isMapping (.ref 0) = true ∧
    Reference.parameter [.key "user", .key "tags", .index 1, .index 0] = "$\x7buser.tags.1.0\x7d" ∧
    gallery.resolve (.ref 0) (.text (Reference.parameter [.key "user", .key "tags", .index 1, .index 0])) =
      .ok (.text "x") := by
  have user : gallery.Enters (.ref 0) (.key "user") (.ref 1) := .entry rfl (Entries.get?_text.mp rfl)
  have tags : gallery.Enters (.ref 1) (.key "tags") (.ref 2) := .entry rfl (Entries.get?_text.mp rfl)
  have second : gallery.Enters (.ref 2) (.index 1) (.tuple [.text "x", .text "y"]) := .item rfl rfl
  have first : gallery.Enters (.tuple [.text "x", .text "y"]) (.index 0) (.text "x") := .item rfl rfl
  exact ⟨rfl, by decide, (positions_reached gallery rfl).1 _ _ (by simp) (by decide)
    (.beyond user (.beyond tags (.beyond second (.beyond first .here))))⟩

/-- Looking up a path gives what lies where it leads, and null if it leads nowhere: if a key is missing, a
segment is no position of a sequence, or there is nothing to enter. It fails exactly if it comes to a sequence
with a numeral that has more digits than are read as a number, in range or not. -/
theorem lookup_outcome (s : Store) {context : Value} (mapping : s.isMapping context = true) (path : List Char) :
    (∀ v, s.lookup context path = .ok v ↔ s.Follows context (path.splitOn '.') v ∨
      v = .null ∧ (∀ w, ¬ s.Follows context (path.splitOn '.') w) ∧
        ∀ digits, ¬ s.Overlong context (path.splitOn '.') digits) ∧
    ∀ fault, s.lookup context path = .error fault ↔
      ∃ digits, s.Overlong context (path.splitOn '.') digits ∧ fault = .longNumeral digits := by
  rw [Store.lookup_mapping mapping]
  refine ⟨fun v => ⟨fun led => ?_, ?_⟩, fun fault => Store.follow_error⟩
  · by_cases leads : ∃ w, s.Follows context (path.splitOn '.') w
    · obtain ⟨w, follows⟩ := leads
      cases led.symm.trans (Store.follow_follows follows)
      exact Or.inl follows
    · rw [not_exists] at leads
      refine Or.inr ⟨?_, leads, fun digits overlong => ?_⟩
      · by_contra found
        exact leads v (Store.follows_follow led found)
      · cases led.symm.trans (Store.follow_error.mpr ⟨digits, overlong, rfl⟩)
  · rintro (follows | ⟨rfl, nowhere, short⟩)
    · exact Store.follow_follows follows
    · cases answer : s.follow context (path.splitOn '.') with
      | error fault =>
        obtain ⟨digits, overlong, -⟩ := Store.follow_error.mp answer
        exact absurd overlong (short digits)
      | ok w =>
        by_cases found : w = .null
        · rw [found]
        · exact absurd (Store.follows_follow answer found) (nowhere w)

/-- A key that looks like a position is found, and there is nothing to enter in a number. -/
theorem gallery_outcome : gallery.isMapping (.ref 0) = true ∧
    gallery.lookup (.ref 0) "user.0".toList = .ok (.text "no position") ∧
    gallery.lookup (.ref 0) "0.x".toList = .ok .null := by
  have user : gallery.Enters (.ref 0) (.key "user") (.ref 1) := .entry rfl (Entries.get?_text.mp rfl)
  have zero : gallery.Enters (.ref 1) (.key "0") (.text "no position") := .entry rfl (Entries.get?_text.mp rfl)
  have beyond {v : Value} (first : gallery.step (.ref 0) ['0'] = .ok v) : v = .int 7 := (Except.ok.inj first).symm
  refine ⟨rfl, ((lookup_outcome gallery rfl _).1 _).mpr (Or.inl ?_),
    ((lookup_outcome gallery rfl _).1 _).mpr (Or.inr ⟨rfl, ?_, ?_⟩)⟩
  · exact ⟨[.key "user", .key "0"], .cons rfl (.cons rfl .nil), .beyond user (.beyond zero .here)⟩
  · intro w follows
    obtain ⟨stop, v, spells, enters, further⟩ := Store.follows_cons.mp follows
    obtain ⟨_, u, -, enters', -⟩ := Store.follows_cons.mp further
    exact enters'.not_scalar (.int 7) (beyond (Store.step_enters spells enters))
  · intro digits overlong
    obtain ⟨⟨items, sequence⟩, -⟩ | ⟨stop, v, spells, enters, further⟩ := Store.overlong_cons.mp overlong
    · cases sequence
    · cases beyond (Store.step_enters spells enters)
      obtain ⟨⟨items, sequence⟩, -⟩ | ⟨stop, u, -, enters', -⟩ := Store.overlong_cons.mp further
      · cases sequence
      · exact enters'.not_scalar (.int 7) rfl

/-- A data context with a list of one item. -/
private def shelf : Store where
  cells := #[.map [(.text "l", .ref 1)], .list [.int 1]]

theorem shelf_overlong {n : Nat} (long : Text.maxDigits < n) :
    shelf.lookup (.ref 0) ('l' :: '.' :: List.replicate n '1') = .error (.longNumeral n) := by
  have list : shelf.Enters (.ref 0) (.key "l") (.ref 1) := .entry rfl (Entries.get?_text.mp rfl)
  have parts : ('l' :: '.' :: List.replicate n '1').splitOn '.' = [['l'], List.replicate n '1'] := by
    have last : (List.replicate n '1').splitOn '.' = [List.replicate n '1'] :=
      List.splitOn_eq_singleton (by simp [List.mem_replicate])
    calc (['l'] ++ '.' :: List.replicate n '1').splitOn '.'
        = ['l'] :: (List.replicate n '1').splitOn '.' := List.splitOn_append_cons_self_of_not_mem (by decide) _
      _ = [['l'], List.replicate n '1'] := by rw [last]
  have numeral : Text.isNumeral (List.replicate n '1') = true := by
    have some : 0 < n := Nat.zero_lt_of_lt long
    have digit : (Text.digitValue? '1').isSome = true := rfl
    simp [Text.isNumeral, List.all_replicate, digit, Nat.ne_of_gt some]
  rw [Store.lookup_mapping rfl, parts, Store.follow_error]
  exact ⟨n, ⟨[['l']], List.replicate n '1', [], .ref 1, rfl, ⟨[.key "l"], .cons rfl .nil, .beyond list .here⟩,
    ⟨_, rfl⟩, numeral, by simpa using long, by simp⟩, rfl⟩

/-- No item is that far on, and yet looking it up does not give null: the numeral has too many digits. -/
theorem long_numeral_raises : shelf.isMapping (.ref 0) = true ∧
    shelf.lookup (.ref 0) ('l' :: '.' :: List.replicate 4301 '1') = .error (.longNumeral 4301) :=
  ⟨rfl, shelf_overlong (by decide)⟩

/-! ### Going on along a path -/

namespace Store

/-- The item of a sequence at the position that a segment denotes, null if it denotes none or nothing is there. A
numeral of too many digits is refused. -/
def itemAt (items : List Value) (segment : List Char) : Except Fault Value :=
  if Text.isNumeral segment then
    if segment.length ≤ Text.maxDigits then .ok (items[Text.numeralValue segment]?.getD .null)
    else .error (.longNumeral segment.length)
  else .ok .null

variable {s : Store} {v context : Value} {items : List Value}

theorem step_item (sequence : s.items? v = some items) (segment : List Char) : s.step v segment = itemAt items segment := by
  unfold step itemAt
  rw [entries?_of_items? sequence, sequence]
  cases Text.isNumeral segment with
  | false => rfl
  | true =>
    by_cases short : segment.length ≤ Text.maxDigits
    · simp [short]
    · simp [short, Nat.lt_of_not_le short]

theorem step_other (mapping : s.isMapping v = false) (sequence : s.items? v = none) (segment : List Char) :
    s.step v segment = .ok .null := by
  have absent : s.entries? v = none := by simpa [isMapping] using mapping
  unfold step
  rw [absent, sequence]

theorem foldlM_null (s : Store) (segments : List (List Char)) : segments.foldlM s.step .null = .ok .null := by
  induction segments with
  | nil => rfl
  | cons segment rest ih => exact ih

/-- It makes no difference that the rest of a path is not followed from null: it would lead to null. -/
theorem follow_eq_foldlM (s : Store) (v : Value) (segments : List (List Char)) :
    s.follow v segments = segments.foldlM s.step v := by
  induction segments generalizing v with
  | nil => rfl
  | cons segment rest ih =>
    by_cases given : v = .null
    · rw [given, follow_null, foldlM_null]
    · rw [follow_cons given, List.foldlM_cons]
      exact congrArg (Except.bind (s.step v segment)) (funext ih)

theorem follow_append (s : Store) (v : Value) (before after : List (List Char)) :
    s.follow v (before ++ after) = (s.follow v before).bind fun w => s.follow w after := by
  simp only [follow_eq_foldlM, List.foldlM_append]
  rfl

theorem lookup_other (other : s.isMapping context = false) (path : List Char) :
    s.lookup context path = .error (.noMember (s.kind context) "get") := by
  have absent : s.entries? context = none := by simpa [isMapping] using other
  simp only [lookup, absent]

/-- The segments of two paths with a point between them are those of the first one and then those of the second one. -/
theorem lookup_append (s : Store) (context : Value) (p q : List Char) :
    s.lookup context (p ++ '.' :: q) = (s.lookup context p).bind fun v => s.follow v (q.splitOn '.') := by
  cases mapping : s.isMapping context with
  | false => rw [lookup_other mapping, lookup_other mapping]; rfl
  | true => rw [lookup_mapping mapping, lookup_mapping mapping, List.splitOn_append_cons_self, follow_append]

end Store

/-- Looking up two paths with a point between them is looking up the first one, and then the second one in what was
found, if that is a mapping. Of a sequence, the first segment of the second path denotes an item, from which the other
segments lead on. There is nothing in any other value, and what the first path fails with, both fail with. It makes no
difference that null is not entered. -/
theorem lookup_composes (s : Store) (context : Value) (p q : String) :
    s.lookup context (p ++ "." ++ q).toList =
      (match s.lookup context p.toList with
      | .error fault => .error fault
      | .ok v =>
        if s.isMapping v then s.lookup v q.toList
        else match s.items? v with
          | none => .ok .null
          | some items => do
            let (first, rest) := Reference.segments q.toList
            rest.foldlM s.step (← Store.itemAt items first)) ∧
    ∀ v segments, s.follow v segments = segments.foldlM s.step v := by
  refine ⟨?_, s.follow_eq_foldlM⟩
  rw [String.toList_append, String.toList_append, List.append_assoc, show ".".toList ++ q.toList = '.' :: q.toList from rfl,
    Store.lookup_append]
  cases s.lookup context p.toList with
  | error fault => rfl
  | ok v =>
    show s.follow v (q.toList.splitOn '.') = _
    dsimp only
    split
    next mapping => rw [Store.lookup_mapping mapping]
    next other =>
      have apart : s.isMapping v = false := Bool.eq_false_iff.mpr other
      rw [Store.follow_eq_foldlM, ← Text.split_eq, List.foldlM_cons]
      cases sequence : s.items? v with
      | none =>
        rw [Store.step_other apart sequence]
        exact Store.foldlM_null s _
      | some items =>
        rw [Store.step_item sequence]
        rfl

end Interaction
