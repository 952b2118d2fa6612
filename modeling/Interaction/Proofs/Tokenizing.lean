import Interaction.Proofs.Wording

/-! The tokens of a whole text of the format of interchange. There are tokens up to its end unless there is a tab between
two of them or a string is cut. -/

namespace Interaction

open Document

namespace Json

mutual

/-- The tokens of a value. -/
def tokens : Json → List Token
  | .null => [.scalar (String.ofList "null".toList) true]
  | .bool b => [.scalar (String.ofList (if b then "true".toList else "false".toList)) true]
  | .number n => [.scalar (String.ofList n.chars) true]
  | .string ps => [Scanner.stringToken ps]
  | .array items _ => .flowSequenceStart :: (items.tokens true ++ [.flowSequenceEnd])
  | .object entries _ => .flowMappingStart :: (entries.tokens true ++ [.flowMappingEnd])

def Items.tokens : Items → Bool → List Token
  | .nil, _ => []
  | .cons _ item _ rest, first => (if first then [] else [.flowEntry]) ++ (item.tokens ++ rest.tokens false)

def Entries.tokens : Entries → Bool → List Token
  | .nil, _ => []
  | .cons _ key middle _ item _ rest, first =>
    (if first then [] else [.flowEntry]) ++ (Scanner.keyTokens key middle ++ (item.tokens ++ rest.tokens false))

end

mutual

/-- There are no tabs between tokens, and no string is cut. -/
def Clean : Json → Prop
  | .string ps => (folded ps).isSome
  | .array items inner => items.Clean ∧ .tab ∉ inner
  | .object entries inner => entries.Clean ∧ .tab ∉ inner
  | _ => True

def Items.Clean : Items → Prop
  | .nil => True
  | .cons before item after rest => .tab ∉ before ∧ item.Clean ∧ .tab ∉ after ∧ rest.Clean

def Entries.Clean : Entries → Prop
  | .nil => True
  | .cons before key middle beyond item after rest =>
    .tab ∉ before ∧ (folded key).isSome ∧ .tab ∉ middle ∧ .tab ∉ beyond ∧ item.Clean ∧ .tab ∉ after ∧ rest.Clean

end

def Sheet.Clean (sheet : Sheet) : Prop :=
  .tab ∉ sheet.before ∧ sheet.value.Clean ∧ .tab ∉ sheet.after

theorem blank_append (bs more : List Blank) : blank (bs ++ more) = blank bs ++ blank more :=
  List.map_append

/-! ### Words -/

theorem null_word : Scanner.IsWord "null".toList :=
  ⟨List.all_iff_forall_prop.mp (by decide +kernel), _, _, rfl, .inl (by decide +kernel)⟩

theorem bool_word (b : Bool) : Scanner.IsWord (if b then "true".toList else "false".toList) := by
  cases b
  · exact ⟨List.all_iff_forall_prop.mp (by decide +kernel), _, _, rfl, .inl (by decide +kernel)⟩
  · exact ⟨List.all_iff_forall_prop.mp (by decide +kernel), _, _, rfl, .inl (by decide +kernel)⟩

theorem Numeral.word (n : Numeral) : Scanner.IsWord n.chars := by
  have all : ∀ x ∈ Json.figures, x ∈ Scanner.wordChars :=
    List.all_iff_forall_prop.mp (by decide +kernel)
  have each : ∀ d : Fin 10, Nat.digitChar d ∈ Scanner.wordFronts := by decide +kernel
  refine ⟨fun x member => all x (n.figures x member), ?_⟩
  obtain ⟨d, more, body⟩ := n.body_head
  rw [n.chars_eq, body]
  cases n.negative with
  | false => exact ⟨_, _, rfl, .inl (each d)⟩
  | true => exact ⟨_, _, rfl, .inr ⟨rfl, _, _, rfl, each d⟩⟩

end Json

namespace Document

open Json

namespace Scanner

variable {s t u : Scanner} {flow : Nat} {ts : List Token} {bs lead before after inner : List Blank} {text : List Char}
  {first : Bool}

theorem Passes.refl (s : Scanner) : s.Passes True (· = s) :=
  ⟨fun _ => ⟨s, ⟨0, fun _ => by rw [Nat.zero_add], by omega⟩, rfl⟩, fun fails => absurd trivial fails⟩

/-- What comes between two items, or in front of the first. -/
theorem At.separated (place : s.At (flow + 1) ts (blank lead ++ (comma first ++ (blank before ++ text))))
    (allowed : first = true → s.keyAllowed = true) : ∃ p bs, (p ∧ .tab ∉ bs ↔ .tab ∉ lead ∧ .tab ∉ before) ∧
      s.Passes p fun u => u.At (flow + 1) (ts ++ if first then [] else [.flowEntry]) (blank bs ++ text) ∧
        u.keyAllowed = true := by
  cases first with
  | true =>
    refine ⟨True, lead ++ before, by simp, (Passes.refl s).mono .rfl ?_⟩
    rintro u rfl
    refine ⟨?_, allowed rfl⟩
    rw [blank_append, List.append_assoc]
    simpa [comma] using place
  | false => exact ⟨.tab ∉ lead, before, .rfl, comma_passes place⟩

theorem items_end (items : Items) (stop : ∀ x ∈ text.head?, x ∈ closers) :
    Ends (flow + 1) (blank after ++ (items.chars false ++ (blank inner ++ text))) := by
  cases items with
  | nil => exact ⟨after ++ inner, text, by simp [Items.chars, blank_append], fun x found => ⟨Nat.succ_pos flow, stop x found⟩⟩
  | cons => exact ⟨after, _, rfl, by rintro x ⟨⟩; exact ⟨Nat.succ_pos flow, by decide⟩⟩

theorem entries_end (entries : Json.Entries) (stop : ∀ x ∈ text.head?, x ∈ closers) :
    Ends (flow + 1) (blank after ++ (entries.chars false ++ (blank inner ++ text))) := by
  cases entries with
  | nil => exact ⟨after ++ inner, text, by simp [Entries.chars, blank_append], fun x found => ⟨Nat.succ_pos flow, stop x found⟩⟩
  | cons => exact ⟨after, _, rfl, by rintro x ⟨⟩; exact ⟨Nat.succ_pos flow, by decide⟩⟩

mutual

/-- A value is gone through, whatever comes after it. -/
theorem value_passes (json : Json) {s : Scanner} {flow : Nat} {ts : List Token} {bs : List Blank} {text : List Char}
    (place : s.At flow ts (blank bs ++ (json.chars ++ text))) (ends : Ends flow text) :
    s.Passes (.tab ∉ bs ∧ json.Clean) fun u => u.At flow (ts ++ json.tokens) text := by
  cases json with
  | null => exact (word_passes place null_word ends).mono (by simp [Clean]) fun _ => id
  | bool b => exact (word_passes place (bool_word b) ends).mono (by simp [Clean]) fun _ => id
  | number n => exact (word_passes place n.word ends).mono (by simp [Clean]) fun _ => id
  | string ps =>
    refine (string_passes place).mono .rfl ?_
    rintro u ⟨_, -, behind⟩
    exact behind.place
  | array items inner =>
    simp only [chars, List.cons_append, List.append_assoc, List.nil_append] at place
    refine ((opening_passes place (.inl ⟨rfl, rfl⟩)).bind fun t there =>
      items_pass items [] there.1 fun _ => there.2).mono (by simp [Clean]) fun u there => ?_
    rwa [List.append_assoc] at there
  | object entries inner =>
    simp only [chars, List.cons_append, List.append_assoc, List.nil_append] at place
    refine ((opening_passes place (.inr ⟨rfl, rfl⟩)).bind fun t there =>
      entries_pass entries [] there.1 fun _ => there.2).mono (by simp [Clean]) fun u there => ?_
    rwa [List.append_assoc] at there

theorem items_pass (items : Items) (bs : List Blank) {s : Scanner} {flow : Nat} {ts : List Token} {inner : List Blank}
    {text : List Char} {first : Bool} (place : s.At (flow + 1) ts (blank bs ++ (items.chars first ++ (blank inner ++ ']' :: text))))
    (allowed : first = true → s.keyAllowed = true) : s.Passes (.tab ∉ bs ∧ items.Clean ∧ .tab ∉ inner)
      fun u => u.At flow (ts ++ (items.tokens first ++ [.flowSequenceEnd])) text := by
  cases items with
  | nil =>
    rw [Items.chars, List.nil_append, ← List.append_assoc, ← blank_append] at place
    exact (closing_passes place (.inl ⟨rfl, rfl⟩)).mono (by simp [Items.Clean]) fun _ => id
  | cons before item after rest =>
    simp only [Items.chars, List.append_assoc] at place
    obtain ⟨p, gap, clear, separates⟩ := place.separated allowed
    have ends : Ends (flow + 1) (blank after ++ (rest.chars false ++ (blank inner ++ ']' :: text))) :=
      items_end rest (by rintro x ⟨⟩; decide)
    refine ((separates.bind fun t there => value_passes item there.1 ends).bind fun t there =>
      items_pass rest after there nofun).mono ?_ fun u there => ?_
    · rw [Items.Clean]
      tauto
    · simpa [Items.tokens] using there

theorem entries_pass (entries : Json.Entries) (bs : List Blank) {s : Scanner} {flow : Nat} {ts : List Token} {inner : List Blank}
    {text : List Char} {first : Bool} (place : s.At (flow + 1) ts (blank bs ++ (entries.chars first ++ (blank inner ++ '\x7d' :: text))))
    (allowed : first = true → s.keyAllowed = true) : s.Passes (.tab ∉ bs ∧ entries.Clean ∧ .tab ∉ inner)
      fun u => u.At flow (ts ++ (entries.tokens first ++ [.flowMappingEnd])) text := by
  cases entries with
  | nil =>
    rw [Entries.chars, List.nil_append, ← List.append_assoc, ← blank_append] at place
    exact (closing_passes place (.inr ⟨rfl, rfl⟩)).mono (by simp [Entries.Clean]) fun _ => id
  | cons before key middle beyond item after rest =>
    simp only [Entries.chars, List.append_assoc, List.cons_append] at place
    obtain ⟨p, gap, clear, separates⟩ := place.separated allowed
    have ends : Ends (flow + 1) (blank after ++ (rest.chars false ++ (blank inner ++ '\x7d' :: text))) :=
      entries_end rest (by rintro x ⟨⟩; decide)
    refine (((separates.bind fun t there => key_passes there.1 there.2 (Nat.succ_pos flow)).bind fun t there =>
      value_passes item there ends).bind fun t there => entries_pass rest after there nofun).mono ?_ fun u there => ?_
    · rw [Entries.Clean]
      tauto
    · simpa [Entries.tokens] using there

end

/-- The end of the text, after blanks without tabs. -/
theorem At.ends (place : s.At 0 ts (blank bs)) (tabless : .tab ∉ bs) :
    ∃ u, s.scanNext = .ok u ∧ u.done = true ∧ u.known = ts ++ [.streamEnd] := by
  rw [← List.append_nil (blank bs)] at place
  obtain ⟨t, there, arrives⟩ := place.arrives tabless ⟨nofun, nofun, nofun⟩ nofun
  have next := arrives.next
  have head : t.cursor.head = none := by rw [Cursor.head, arrives.rest]; rfl
  obtain ⟨keys, -, dropped⟩ := dropKey_at there
  have scanned : t.scanEnd = .ok (emit { t with keyAllowed := false, keys := [], done := true } .streamEnd) := by
    unfold scanEnd
    rw [unwind_outside there.outer, dropped]
    rfl
  rw [head, Option.elim, scanned] at next
  refine ⟨_, next, rfl, ?_⟩
  show (t.slots.push [.streamEnd]).toList.flatten = _
  rw [flatten_push, there.tokens]

end Scanner

/-! ### The whole text -/

theorem unify_head (cs : List Char) : (Text.unifyBreaks cs).head? = cs.head?.map fun c => if c = '\r' then '\n' else c := by
  induction cs using Text.unifyBreaks.induct with
  | case1 rest => rfl
  | case2 rest single => simp [Text.unifyBreaks]
  | case3 c rest plain lone => rw [Text.unifyBreaks_cons lone]; simpa using fun same => absurd same lone
  | case4 => rfl

/-- A value does not begin with a mark of the byte order. -/
theorem value_head (json : Json) (tail : List Char) : (json.chars ++ tail).head? ≠ some (Char.ofNat 0xFEFF) := by
  have fronts : Char.ofNat 0xFEFF ∉ numberFronts := by decide
  cases json with
  | number n =>
    obtain ⟨c, rest, chars, front⟩ := n.chars_front
    rw [Json.chars, chars]
    rintro ⟨⟩
    exact fronts front
  | bool b => cases b <;> exact ne_of_beq_false rfl
  | null | string | array | object => exact ne_of_beq_false rfl

theorem sheet_head (sheet : Sheet) : (Text.unifyBreaks sheet.chars).head? ≠ some (Char.ofNat 0xFEFF) := by
  rw [unify_head, Sheet.chars]
  intro marked
  obtain ⟨c, first, same⟩ := Option.map_eq_some_iff.mp marked
  split at same
  · exact absurd same (by decide)
  · subst same
    cases before : sheet.before with
    | nil => rw [before] at first; exact value_head _ _ first
    | cons b bs =>
      rw [before] at first
      have bare : ∀ b : Blank, b.char ≠ Char.ofNat 0xFEFF := by intro b; cases b <;> decide
      exact bare b (Option.some.inj first)

/-- The tokens of a text end where it ends, unless there is a tab between two of them or a string is cut. -/
theorem tokens_sheet (sheet : Sheet) :
    (sheet.Clean → Document.tokens { text := Text.unifyBreaks sheet.chars } = (sheet.value.tokens ++ [.streamEnd], none)) ∧
      (¬ sheet.Clean → .streamEnd ∉ (Document.tokens { text := Text.unifyBreaks sheet.chars }).1) := by
  let s : Scanner := { cursor := { rest := Text.unifyBreaks sheet.chars } }
  have begins : Document.tokens { text := Text.unifyBreaks sheet.chars } =
      ((s.scanAll ((Text.unifyBreaks sheet.chars).length + 2)).1.known,
        (s.scanAll ((Text.unifyBreaks sheet.chars).length + 2)).2) := by
    unfold Document.tokens
    dsimp only
    rw [if_neg (by exact sheet_head sheet)]
  have place : s.At 0 [] (blank sheet.before ++ (sheet.value.chars ++ blank sheet.after)) :=
    ⟨⟨[], nofun, rfl⟩, rfl, rfl, rfl, rfl, nofun, rfl, rfl, nofun⟩
  have ends : Scanner.Ends 0 (blank sheet.after) := ⟨sheet.after, [], (List.append_nil _).symm, nofun⟩
  have passes := Scanner.value_passes sheet.value place ends
  rw [begins]
  refine ⟨fun clean => ?_, fun unclean => ?_⟩
  · obtain ⟨t, ⟨n, further, few⟩, there⟩ := passes.goes ⟨clean.1, clean.2.1⟩
    obtain ⟨u, next, done, known⟩ := there.ends clean.2.2
    have enough : (Text.unifyBreaks sheet.chars).length + 2 = n + ((Text.unifyBreaks sheet.chars).length + 1 - n + 1) := by
      have : s.cursor.rest.length = (Text.unifyBreaks sheet.chars).length := rfl
      omega
    have last : t.scanAll ((Text.unifyBreaks sheet.chars).length + 1 - n + 1) = (u, none) := by
      rw [Scanner.scanAll, next]
      simp only [done, if_true]
    rw [enough, further, last, known, List.nil_append]
  · have stuck : s.Stuck := by
      by_cases clean : .tab ∉ sheet.before ∧ sheet.value.Clean
      · obtain ⟨t, goes, there⟩ := passes.goes clean
        have tab : .tab ∈ sheet.after := by
          by_contra tabless
          exact unclean ⟨clean.1, clean.2, tabless⟩
        rw [← List.append_nil (blank sheet.after)] at there
        exact .before goes (there.tabbed tab)
      · exact passes.stuck clean
    exact fun ended => stuck _ (Nat.lt_succ_of_lt (Nat.lt_succ_self _)) (Scanner.known_subset ended)

end Document

end Interaction
