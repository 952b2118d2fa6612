import Mathlib.Data.List.TakeDrop
import Mathlib.Data.List.TakeWhile
import Mathlib.Tactic.FinCases
import Interaction.Proofs.Fetching
import Interaction.Proofs.Interchange
import Interaction.Proofs.Navigating
import Interaction.Proofs.Switching

/-! How the reader of documents takes numbers. A whole number is taken for what it is up to the greatest length, and
another one if it has a point and its exponent has a sign; otherwise it is a text. -/

namespace Interaction.Json

open Document Document.Schema

/-! ### Digits -/

theorem digit_char (d : Fin 10) : (Nat.digitChar d).isDigit = true ∧ Text.digitValue? (Nat.digitChar d) = some d.val := by
  revert d; decide

/-- Characters of numbers other than letters. -/
def IsMark (c : Char) : Prop :=
  c = '.' ∨ c = 'e' ∨ c = 'E'

def Numeral.fractionChars (n : Numeral) : List Char :=
  n.fraction.elim [] fun ds => '.' :: digits ds.all

/-- What comes after the whole number. -/
def Numeral.tail (n : Numeral) : List Char :=
  n.fractionChars ++ n.exponent.elim [] Exponent.chars

/-- The number without its sign. -/
def Numeral.body (n : Numeral) : List Char :=
  digits n.whole.all ++ n.tail

variable {n : Numeral} {ds : List (Fin 10)} {cs : List Char}

theorem Numeral.chars_eq (n : Numeral) : n.chars = minus n.negative ++ n.body := by
  simp only [chars, body, tail, fractionChars, List.append_assoc]

theorem Numeral.tail_head (n : Numeral) : ∀ c ∈ n.tail.head?, IsMark c := by
  unfold tail fractionChars IsMark
  cases n.fraction with
  | some ds => rintro c ⟨⟩; simp
  | none =>
    cases n.exponent with
    | none => nofun
    | some e => rintro c ⟨⟩; cases e.capital <;> simp

theorem Whole.all_eq (w : Whole) : ∃ d rest, w.all = d :: rest := by
  cases w with
  | zero => exact ⟨_, _, rfl⟩
  | counting first rest => exact ⟨_, _, rfl⟩

theorem digits_cons (d : Fin 10) (ds : List (Fin 10)) : digits (d :: ds) = Nat.digitChar d :: digits ds :=
  rfl

theorem digits_length (ds : List (Fin 10)) : (digits ds).length = ds.length :=
  List.length_map _

theorem mem_digits {c : Char} : c ∈ digits ds ↔ ∃ d ∈ ds, Nat.digitChar (d : Fin 10) = c :=
  List.mem_map

theorem digits_all {p : Char → Bool} (each : ∀ d : Fin 10, p (Nat.digitChar d) = true) (ds : List (Fin 10)) :
    ∀ c ∈ digits ds, p c = true := by
  intro c member
  obtain ⟨d, -, rfl⟩ := mem_digits.mp member
  exact each d

/-- A run of digits ends where something else begins. -/
theorem span_digits {p : Char → Bool} (each : ∀ d : Fin 10, p (Nat.digitChar d) = true) (stop : ∀ c ∈ cs.head?, p c = false) :
    (digits ds ++ cs).takeWhile p = digits ds ∧ (digits ds ++ cs).dropWhile p = cs := by
  rw [List.takeWhile_append_of_pos (digits_all each ds), List.dropWhile_append_of_pos (digits_all each ds)]
  cases cs with
  | nil => simp
  | cons c cs => simp [stop c rfl]

theorem Numeral.body_head (n : Numeral) : ∃ d more, n.body = Nat.digitChar (d : Fin 10) :: more := by
  obtain ⟨d, rest, all⟩ := n.whole.all_eq
  exact ⟨d, digits rest ++ n.tail, by rw [body, all]; rfl⟩

theorem digit_unsigned : ∀ d : Fin 10, Nat.digitChar d ≠ '-' ∧ Nat.digitChar d ≠ '+' ∧ Nat.digitChar d ≠ '.' := by
  decide

theorem Numeral.unsigned_chars (n : Numeral) : unsigned n.chars = n.body := by
  obtain ⟨d, more, body⟩ := n.body_head
  obtain ⟨minus, plus, -⟩ := digit_unsigned d
  rw [chars_eq]
  cases n.negative with
  | true => rfl
  | false =>
    show unsigned n.body = n.body
    rw [body]
    unfold unsigned
    split
    next same => exact absurd (List.cons.inj same).1 minus
    next same => exact absurd (List.cons.inj same).1 plus
    next => rfl

theorem Numeral.spanSign_body (n : Numeral) : Decimal.spanSign n.body = (false, n.body) := by
  obtain ⟨d, more, body⟩ := n.body_head
  obtain ⟨minus, plus, -⟩ := digit_unsigned d
  rw [body]
  unfold Decimal.spanSign
  split
  next same => exact absurd (List.cons.inj same).1 minus
  next same => exact absurd (List.cons.inj same).1 plus
  next => rfl

theorem Numeral.spanSign_chars (n : Numeral) : Decimal.spanSign n.chars = (n.negative, n.body) := by
  rw [chars_eq]
  cases n.negative with
  | true => rfl
  | false => exact n.spanSign_body

/-- The characters of numbers. -/
def figures : List Char :=
  "0123456789.eE+-".toList

theorem digits_figures (ds : List (Fin 10)) : ∀ c ∈ digits ds, c ∈ figures := by
  have each : ∀ d : Fin 10, Nat.digitChar d ∈ figures := by decide +kernel
  intro c member
  obtain ⟨d, -, rfl⟩ := mem_digits.mp member
  exact each d

theorem Exponent.figures (e : Exponent) : ∀ c ∈ e.chars, c ∈ Json.figures := by
  obtain ⟨capital, sign, power⟩ := e
  intro c member
  simp only [Exponent.chars, List.mem_cons, List.mem_append] at member
  obtain rfl | signed | digit := member
  · split <;> decide
  · cases sign with
    | none => cases signed
    | some negative =>
      obtain rfl := List.mem_singleton.mp signed
      cases negative <;> decide
  · exact digits_figures _ c digit

theorem Numeral.tail_figures (n : Numeral) : ∀ c ∈ n.tail, c ∈ figures := by
  intro c member
  obtain fraction | exponent := List.mem_append.mp member
  · unfold fractionChars at fraction
    cases held : n.fraction with
    | none => rw [held] at fraction; cases fraction
    | some ds =>
      rw [held] at fraction
      obtain rfl | digit := List.mem_cons.mp fraction
      · decide
      · exact digits_figures _ c digit
  · cases held : n.exponent with
    | none => rw [held] at exponent; cases exponent
    | some e => rw [held] at exponent; exact e.figures c exponent

theorem Numeral.body_figures (n : Numeral) : ∀ c ∈ n.body, c ∈ figures := fun c member =>
  (List.mem_append.mp member).elim (digits_figures _ c) (n.tail_figures c)

theorem Numeral.figures (n : Numeral) : ∀ c ∈ n.chars, c ∈ Json.figures := by
  intro c member
  rw [chars_eq] at member
  obtain sign | body := List.mem_append.mp member
  · unfold minus at sign
    split at sign
    · obtain rfl := List.mem_singleton.mp sign
      decide
    · cases sign
  · exact n.body_figures c body

/-! ### Recognizing numbers -/

theorem cut?_digits (rest : List Char) : Text.cut? '.' (digits ds ++ '.' :: rest) = some (digits ds, rest) := by
  induction ds with
  | nil => rfl
  | cons d ds ih =>
    rw [digits_cons, List.cons_append, Text.cut?, if_neg (digit_unsigned d).2.2, ih]
    rfl

theorem cut?_none {sep : Char} (without : sep ∉ cs) : Text.cut? sep cs = none := by
  induction cs with
  | nil => rfl
  | cons c cs ih =>
    obtain ⟨here, later⟩ := not_or.mp (mt List.mem_cons.mpr without)
    rw [Text.cut?, if_neg (Ne.symm here), ih later]
    rfl

theorem split_none {sep : Char} (without : sep ∉ cs) : Text.split sep cs = (cs, []) := by
  induction cs with
  | nil => rfl
  | cons c cs ih =>
    obtain ⟨here, later⟩ := not_or.mp (mt List.mem_cons.mpr without)
    simp [Text.split, ih later, Ne.symm here]

theorem isSexagesimal_none {first : List Char → Bool} (without : ':' ∉ cs) : isSexagesimal first cs = false := by
  simp [isSexagesimal, split_none without]

theorem colon_figures : ':' ∉ Json.figures := by
  decide

theorem isDigitOrLine_digit (d : Fin 10) : isDigitOrLine (Nat.digitChar d) = true := by
  simp [isDigitOrLine, (digit_char d).1]

theorem IsMark.solid {c : Char} (mark : IsMark c) : isDigitOrLine c = false ∧ (Text.digitValue? c).isSome = false ∧
    c.isDigit = false ∧ c ≠ '-' := by
  obtain rfl | rfl | rfl := mark <;> decide

theorem isWhole_digits (w : Whole) : isWhole (digits w.all) = true := by
  obtain ⟨d, rest, all⟩ := w.all_eq
  rw [all, digits_cons, isWhole, ← digits_cons, Bool.and_eq_true, List.all_eq_true]
  exact ⟨(digit_char d).1, digits_all isDigitOrLine_digit _⟩

/-- Whether an exponent, if there is one, has a sign. -/
def Numeral.signed (n : Numeral) : Bool :=
  n.exponent.all (·.sign.isSome)

theorem isExponent_chars (e : Exponent) : isExponent e.chars = e.sign.isSome := by
  obtain ⟨capital, sign, power⟩ := e
  cases sign with
  | none =>
    obtain ⟨minus, plus, -⟩ := digit_unsigned power.first
    simp [Exponent.chars, Digits.all, digits_cons, isExponent, minus, plus]
  | some negative =>
    have all : allOf Char.isDigit (digits power.all) = true := by
      rw [allOf, Bool.and_eq_true, List.all_eq_true]
      exact ⟨rfl, digits_all (fun d => (digit_char d).1) _⟩
    cases capital <;> cases negative <;> simp [Exponent.chars, isExponent, all]

theorem point_digits (ds : List (Fin 10)) : '.' ∉ digits ds := by
  intro member
  obtain ⟨d, -, same⟩ := mem_digits.mp member
  exact (digit_unsigned d).2.2 same

theorem point_exponent (e : Exponent) : '.' ∉ e.chars := by
  obtain ⟨capital, sign, power⟩ := e
  have digits := point_digits power.all
  cases capital <;> cases sign with
  | none => simpa [Exponent.chars] using digits
  | some negative => cases negative <;> simpa [Exponent.chars] using digits

theorem dropWhile_decimals (ds : List (Fin 10)) (exponent : Option Exponent) :
    (digits ds ++ exponent.elim [] Exponent.chars).dropWhile isDigitOrLine = exponent.elim [] Exponent.chars := by
  refine (span_digits isDigitOrLine_digit ?_).2
  cases exponent with
  | none => nofun
  | some e => rintro c ⟨⟩; cases e.capital <;> decide

theorem isPointed_body (n : Numeral) : isPointed n.body = (n.fraction.isSome && n.signed) := by
  have without : ':' ∉ digits n.whole.all := fun member => colon_figures (digits_figures _ _ member)
  unfold isPointed Numeral.body Numeral.tail Numeral.fractionChars Numeral.signed
  cases n.fraction with
  | none =>
    have none : '.' ∉ digits n.whole.all ++ ([] ++ n.exponent.elim [] Exponent.chars) := by
      rw [List.nil_append, List.mem_append, not_or]
      refine ⟨point_digits _, ?_⟩
      cases n.exponent with
      | none => exact List.not_mem_nil
      | some e => exact point_exponent e
    rw [Option.elim, cut?_none none]
    rfl
  | some ds =>
    rw [Option.elim, List.cons_append, cut?_digits]
    simp only [isWhole_digits, isSexagesimal_none without, Bool.true_and, Bool.false_and, Bool.or_false, isFraction,
      dropWhile_decimals, Option.isSome_some]
    cases n.exponent with
    | none => rfl
    | some e => exact isExponent_chars e

/-- A number has a point among its digits if it has a fraction, and goes on as one does if its exponent has a sign. -/
theorem isNumber_chars (n : Numeral) : isNumber n.chars = (n.fraction.isSome && n.signed) := by
  obtain ⟨d, more, body⟩ := n.body_head
  have point := (digit_unsigned d).2.2
  have inside : oneOf [".inf", ".Inf", ".INF"] n.body = false := by
    rw [body]
    simp [oneOf, Ne.symm point]
  have undefined : oneOf [".nan", ".NaN", ".NAN"] n.chars = false := by
    rw [n.chars_eq, body]
    cases n.negative <;> simp [oneOf, minus, Ne.symm point]
  unfold isNumber
  rw [n.unsigned_chars, isPointed_body, inside, undefined, Bool.or_false, Bool.or_false]
  split
  next same =>
    rw [n.chars_eq, body] at same
    cases negative : n.negative with
    | true => rw [negative] at same; cases same
    | false => rw [negative] at same; exact absurd (List.cons.inj same).1 point
  next => exact Bool.or_false _

theorem counting_first : ∀ d : Fin 9, Nat.digitChar d.succ ≠ '0' := by
  decide

theorem isWhole_body (n : Numeral) : isWhole n.body = n.tail.isEmpty := by
  obtain ⟨d, rest, all⟩ := n.whole.all_eq
  have whole := isWhole_digits n.whole
  unfold Numeral.body
  cases tail : n.tail with
  | nil => rw [List.append_nil, whole]; rfl
  | cons c more =>
    have mark : IsMark c := n.tail_head c (by rw [tail]; rfl)
    rw [isWhole, List.all_append, List.all_cons, mark.solid.1]
    simp

/-- A number is whole if nothing comes after the digits. -/
theorem isInteger_chars (n : Numeral) : isInteger n.chars = n.tail.isEmpty := by
  have without : ':' ∉ n.body := fun member => colon_figures (n.body_figures _ member)
  rw [isInteger, n.unsigned_chars]
  cases held : n.whole with
  | zero =>
    unfold Numeral.body
    rw [held]
    cases tail : n.tail with
    | nil => rfl
    | cons c more =>
      have mark : IsMark c := n.tail_head c (by rw [tail]; rfl)
      obtain rfl | rfl | rfl := mark <;> rfl
  | counting first rest =>
    have counts : n.body = Nat.digitChar first.succ :: (digits rest ++ n.tail) := by rw [Numeral.body, held]; rfl
    have other := counting_first first
    have counting : isCounting n.body = n.tail.isEmpty := by rw [isCounting, isWhole_body, counts]; simp
    rw [← counting]
    unfold isUnsignedInteger
    split
    next same => rw [counts] at same; exact absurd (List.cons.inj same).1 other
    next same => rw [counts] at same; exact absurd (List.cons.inj same).1 other
    next same => rw [counts] at same; exact absurd (List.cons.inj same).1 other
    next same => rw [counts] at same; exact absurd (List.cons.inj same).1 other
    next => rw [isSexagesimal_none without, Bool.or_false]

theorem after?_none {c : Char} (other : cs.head? ≠ some c) : after? c cs = none := by
  cases cs with
  | nil => rfl
  | cons d cs => exact if_neg fun same => other (congrArg some same)

/-- After four digits no dash comes. -/
theorem Numeral.fifth_solid (n : Numeral) (year : ∀ i < 4, ∃ c, n.chars[i]? = some c ∧ c.isDigit = true) :
    n.chars[4]? ≠ some '-' := by
  have positive : n.chars = n.body := by
    rw [n.chars_eq]
    cases negative : n.negative with
    | false => rfl
    | true =>
      obtain ⟨c, first, digit⟩ := year 0 (by decide)
      rw [n.chars_eq, negative] at first
      cases first
      cases digit
  rw [positive] at year ⊢
  unfold body at year ⊢
  intro dash
  have beyond : ∀ c, (digits n.whole.all ++ n.tail)[(digits n.whole.all).length]? = some c → IsMark c := by
    intro c found
    rw [List.getElem?_append_right (Nat.le_refl _), Nat.sub_self, ← List.head?_eq_getElem?] at found
    exact n.tail_head c found
  obtain few | same | many := Nat.lt_trichotomy (digits n.whole.all).length 4
  · obtain ⟨c, found, digit⟩ := year _ few
    have other := (beyond c found).solid.2.2.1
    rw [digit] at other
    cases other
  · have := (beyond '-' (by rw [same]; exact dash)).solid.2.2.2
    exact this rfl
  · rw [List.getElem?_append_left many] at dash
    have digit := digits_all (fun d => (digit_char d).1) _ _ (List.mem_of_getElem? dash)
    cases digit

/-- No number is a day. -/
theorem isStamp_chars (n : Numeral) : isStamp n.chars = false := by
  have undated : stamp? n.chars = none := by
    unfold stamp?
    cases found : someDigits? 4 4 n.chars with
    | none => rfl
    | some result =>
      unfold someDigits? at found
      dsimp only at found
      split at found
      next => cases found
      next enough =>
        have whole : (n.chars.take 4).takeWhile Char.isDigit = n.chars.take 4 := by
          refine (List.takeWhile_prefix _).eq_of_length_le ?_
          rw [List.length_take]
          omega
        have all : ∀ c ∈ n.chars.take 4, c.isDigit = true := by
          intro c member
          rw [← whole] at member
          exact List.mem_takeWhile_imp member
        have four : (n.chars.take 4).length = 4 := by
          rw [whole] at enough
          rw [List.length_take] at enough ⊢
          omega
        rw [whole, four] at found
        obtain rfl := Option.some.inj found
        have solid := n.fifth_solid fun i few => by
          have inside : i < (n.chars.take 4).length := by omega
          refine ⟨(n.chars.take 4)[i], ?_, ?_⟩
          · rw [List.getElem_take, List.getElem?_eq_getElem]
          · exact all _ (List.getElem_mem inside)
        have outside : after? '-' (n.chars.drop 4) = none := by
          refine after?_none ?_
          rw [List.head?_drop]
          exact solid
        simp only [bind, Option.bind, outside]
  rw [isStamp, undated]

/-- The characters that numbers begin with. -/
def numberFronts : List Char :=
  ['-', '0', '1', '2', '3', '4', '5', '6', '7', '8', '9']

theorem number_rules : ∀ c ∈ numberFronts, others (.char c) = ⟨"float", isNumber⟩ :: ⟨"int", isInteger⟩ ::
    (if c = '-' then [] else [⟨"timestamp", isStamp⟩]) := by
  intro c member
  fin_cases member <;> rfl

theorem Numeral.chars_front (n : Numeral) : ∃ c rest, n.chars = c :: rest ∧ c ∈ numberFronts := by
  obtain ⟨d, more, body⟩ := n.body_head
  have each : ∀ d : Fin 10, Nat.digitChar d ∈ numberFronts := by decide +kernel
  rw [n.chars_eq, body]
  cases n.negative with
  | true => exact ⟨_, _, rfl, by decide⟩
  | false => exact ⟨_, _, rfl, each d⟩

theorem figures_bare : '\n' ∉ Json.figures ∧ '_' ∉ Json.figures ∧ 'Σ' ∉ Json.figures := by
  decide

theorem truths_front : ∀ word ∈ truths, ∀ c ∈ word.1.toList.head?, c ∉ numberFronts := by
  have fronts : ∀ c ∈ truths.filterMap fun word => word.1.toList.head?, c ∉ numberFronts :=
    List.all_iff_forall_prop.mp (by decide +kernel)
  exact fun word member c first => fronts c (List.mem_filterMap.mpr ⟨word, member, first⟩)

/-- What a number is taken for. -/
theorem Numeral.tag_chars (n : Numeral) : model.tagOf n.chars =
    if n.fraction.isSome && n.signed then "float" else if n.tail.isEmpty then "int" else "str" := by
  obtain ⟨c, rest, chars, front⟩ := n.chars_front
  have kept : dropFinalBreak n.chars = n.chars := if_neg fun last =>
    figures_bare.1 (n.figures _ (List.mem_of_getLast? last))
  have untrue : ¬ Spells truths n.chars := by
    rintro ⟨word, member, spelled⟩
    rw [kept, chars] at spelled
    exact truths_front word member c (by rw [spelled]; rfl) front
  rw [model_other untrue, tagOf_eq, others_any, List.append_nil, kept, chars]
  show (((others (.char c)).find? (·.accepts (c :: rest))).map (·.tag)).getD "str" = _
  rw [number_rules c front, ← chars]
  simp only [List.find?_cons, isNumber_chars, isInteger_chars]
  cases n.fraction.isSome && n.signed with
  | true => rfl
  | false =>
    cases n.tail.isEmpty with
    | true => rfl
    | false => by_cases minus : c = '-' <;> simp [minus, isStamp_chars]

/-! ### Reading numbers -/

theorem numeralValue_digits (ds : List (Fin 10)) : Text.numeralValue (digits ds) = decimal ds := by
  rw [Text.numeralValue, digits, List.foldl_map, decimal]
  congr
  funext m d
  rw [(digit_char d).2]
  rfl

theorem isBlank_figures : ∀ c ∈ Json.figures, Text.isBlank c = false :=
  List.all_iff_forall_prop.mp (by decide +kernel)

theorem Numeral.trimChars_body (n : Numeral) : Text.trimChars n.body = n.body :=
  Text.Trims.eq ⟨⟨[], [], by simp, nofun, nofun⟩,
    fun c first => isBlank_figures c (n.body_figures c (List.mem_of_mem_head? first)),
    fun c last => isBlank_figures c (n.body_figures c (List.mem_of_getLast? last))⟩

theorem signOf_chars (n : Numeral) : signOf n.chars = .ok (n.negative, n.body) := by
  obtain ⟨c, rest, chars, -⟩ := n.chars_front
  rw [← n.spanSign_chars, chars]
  rfl

theorem filter_figures (all : ∀ c ∈ cs, c ∈ figures) : cs.filter (· ≠ '_') = cs :=
  List.filter_eq_self.mpr fun c member => decide_eq_true fun same => figures_bare.2.1 (same ▸ all c member)

theorem digitIn?_char : ∀ d : Fin 10, digitIn? 10 (Nat.digitChar d) = some d.val := by
  decide

theorem decimal_cast (ds : List (Fin 10)) :
    (digits ds).foldl (fun (n : Int) c => (10 : Nat) * n + (digitIn? 10 c).getD 0) 0 = decimal ds := by
  have each (n : Nat) : (digits ds).foldl (fun (n : Int) c => (10 : Nat) * n + (digitIn? 10 c).getD 0) n =
      (ds.foldl (fun (n : Nat) (d : Fin 10) => 10 * n + d) n : Nat) := by
    induction ds generalizing n with
    | nil => rfl
    | cons d ds ih =>
      rw [digits_cons, List.foldl_cons, List.foldl_cons, digitIn?_char, ← ih (10 * n + d)]
      simp
  exact each 0

/-- The value of digits that do not begin with a zero, unless there are too many. -/
theorem wholeNumber_body (whole : n.tail = []) {first : Fin 9} {rest : List (Fin 10)}
    (counts : n.whole = .counting first rest) : wholeNumber 10 n.body =
      if Text.maxDigits < n.whole.all.length then .error (.longNumeral n.whole.all.length)
      else .ok (decimal n.whole.all : Nat) := by
  have body : n.body = digits n.whole.all := by rw [Numeral.body, whole, List.append_nil]
  have kept : dropBase 10 n.body = n.body := by
    rw [body, counts]
    unfold dropBase
    split
    next same => exact absurd (List.cons.inj same).1 (counting_first first)
    next => rfl
  have run : n.body.takeWhile (fun c => (digitIn? 10 c).isSome) = n.body := by
    rw [body]
    exact (List.takeWhile_eq_self_iff).mpr (digits_all (fun d => by rw [digitIn?_char]; rfl) _)
  have length : n.body.length = n.whole.all.length := by rw [body, digits, List.length_map]
  have some : n.body.isEmpty = false := by obtain ⟨d, more, body⟩ := n.body_head; rw [body]; rfl
  unfold wholeNumber
  simp only [n.trimChars_body, n.spanSign_body, kept, run, some, length, Nat.lt_irrefl, decide_true, Bool.true_and,
    decide_eq_true_eq, decide_false, Bool.or_false, Bool.false_eq_true, if_false]
  rw [body, decimal_cast]

/-- A whole number is read as what it is, unless it has too many digits. -/
theorem readInteger_chars (whole : n.tail = []) : readInteger n.chars =
    if Text.maxDigits < n.whole.all.length then .error (.longNumeral n.whole.all.length)
    else .ok (if n.negative then -decimal n.whole.all else decimal n.whole.all) := by
  have body : n.body = digits n.whole.all := by rw [Numeral.body, whole, List.append_nil]
  have without : n.body.contains ':' = false := by simpa using fun member => colon_figures (n.body_figures _ member)
  unfold readInteger
  rw [filter_figures n.figures, signOf_chars]
  simp only [bind, Except.bind]
  cases counts : n.whole with
  | zero =>
    rw [body, counts]
    cases n.negative <;> rfl
  | counting first rest =>
    have other := counting_first first
    have head : n.body = Nat.digitChar first.succ :: digits rest := by rw [body, counts]; rfl
    split
    next same => rw [head] at same; cases same
    next same => rw [head] at same; exact absurd (List.cons.inj same).1 other
    next same => rw [head] at same; exact absurd (List.cons.inj same).1 other
    next same => rw [head] at same; exact absurd (List.cons.inj same).1 other
    next same => rw [head] at same; exact absurd (List.cons.inj same).1 other
    next =>
      simp only [without, Bool.false_eq_true, if_false]
      rw [wholeNumber_body whole counts, ← counts]
      by_cases long : Text.maxDigits < n.whole.all.length
      · rw [if_pos long, if_pos long]
      · rw [if_neg long, if_neg long]; rfl

/-! ### Reading numbers with a point -/

theorem spanDigits_digits (ds : List (Fin 10)) {rest : List Char}
    (stop : ∀ c ∈ rest.head?, (Text.digitValue? c).isSome = false) : Decimal.spanDigits (digits ds ++ rest) = (digits ds, rest) := by
  obtain ⟨run, after⟩ := span_digits (p := fun c => (Text.digitValue? c).isSome) (fun d => by rw [(digit_char d).2]; rfl) stop
  rw [Decimal.spanDigits, List.span_eq_takeWhile_dropWhile, run, after]

theorem spanSign_digits (sign : Option Bool) (ds : Digits) :
    Decimal.spanSign ((sign.elim [] fun negative => [if negative then '-' else '+']) ++ digits ds.all) =
      (decide (sign = some true), digits ds.all) := by
  cases sign with
  | none =>
    obtain ⟨minus, plus, -⟩ := digit_unsigned ds.first
    simp only [Option.elim, List.nil_append, Digits.all, digits_cons]
    unfold Decimal.spanSign
    split
    next same => exact absurd (List.cons.inj same).1 minus
    next same => exact absurd (List.cons.inj same).1 plus
    next => rfl
  | some negative => cases negative <;> rfl

theorem exponent?_chars (e : Exponent) : Decimal.exponent? e.chars = some e.value := by
  obtain ⟨capital, sign, power⟩ := e
  have run : Decimal.spanDigits (digits power.all) = (digits power.all, []) := by
    have whole : Decimal.spanDigits (digits power.all ++ []) = (digits power.all, []) := spanDigits_digits _ nofun
    rwa [List.append_nil] at whole
  have letter : ((if capital then 'E' else 'e') = 'e' || (if capital then 'E' else 'e') = 'E') = true := by
    cases capital <;> rfl
  have some : (digits power.all).isEmpty = false := rfl
  rw [Exponent.chars, Decimal.exponent?, spanSign_digits]
  simp only [run, letter, some, numeralValue_digits, Exponent.value]
  cases sign with
  | none => rfl
  | some negative => cases negative <;> rfl

theorem toLower_digit : ∀ d : Fin 10, (Nat.digitChar d).toLower ≠ 'i' ∧ (Nat.digitChar d).toLower ≠ 'n' := by
  decide

theorem body_word (n : Numeral) {c : Char} {rest : List Char} (letter : c = 'i' ∨ c = 'n') :
    String.ofList (n.body.map Char.toLower) ≠ String.ofList (c :: rest) := by
  obtain ⟨d, more, body⟩ := n.body_head
  intro same
  have same := String.ofList_injective same
  rw [body, List.map_cons] at same
  have same := (List.cons.inj same).1
  obtain rfl | rfl := letter
  · exact (toLower_digit d).1 same
  · exact (toLower_digit d).2 same

/-- The number that digits with a point among them denote. -/
theorem magnitude?_body {ds : Digits} (fraction : n.fraction = some ds) : Decimal.magnitude? false n.body =
    some (Decimal.toFloat false (decimal (n.whole.all ++ n.decimals)) (n.exponent.elim 0 Exponent.value - n.decimals.length)) := by
  have tail : n.tail = '.' :: (digits ds.all ++ n.exponent.elim [] Exponent.chars) := by
    rw [Numeral.tail, Numeral.fractionChars, fraction]; rfl
  have whole : Decimal.spanDigits n.body = (digits n.whole.all, '.' :: (digits ds.all ++ n.exponent.elim [] Exponent.chars)) := by
    rw [← tail]
    exact spanDigits_digits _ fun c first => (n.tail_head c first).solid.2.1
  have decimals : Decimal.spanDigits (digits ds.all ++ n.exponent.elim [] Exponent.chars) =
      (digits ds.all, n.exponent.elim [] Exponent.chars) := by
    refine spanDigits_digits _ ?_
    cases n.exponent with
    | none => nofun
    | some e => rintro c ⟨⟩; cases e.capital <;> decide
  have power : Decimal.exponent? (n.exponent.elim [] Exponent.chars) = some (n.exponent.elim 0 Exponent.value) := by
    cases n.exponent with
    | none => rfl
    | some e => exact exponent?_chars e
  have some : (digits ds.all).isEmpty = false := rfl
  have figures : digits n.whole.all ++ digits ds.all = digits (n.whole.all ++ ds.all) := (List.map_append).symm
  have inside : n.decimals = ds.all := by rw [Numeral.decimals, fraction]; rfl
  unfold Decimal.magnitude?
  dsimp only
  rw [if_neg, if_neg (body_word n (.inr rfl)), whole]
  · simp only [decimals, some, power, figures, numeralValue_digits, inside, Bool.and_false, Bool.false_eq_true, if_false,
      Option.map_some, digits_length]
  · simp only [Bool.or_eq_true, decide_eq_true_eq, not_or]
    exact ⟨body_word n (.inl rfl), body_word n (.inl rfl)⟩

theorem lower_figures (all : ∀ c ∈ cs, c ∈ figures) : Text.lower cs = cs.map fun c => if c = 'E' then 'e' else c := by
  have each : ∀ c ∈ figures, c ≠ 'Σ' ∧ Text.lowerChar c = [if c = 'E' then 'e' else c] :=
    List.all_iff_forall_prop.mp (by decide +kernel)
  have from_ (before : List Char) : Text.lowerFrom before cs = cs.map fun c => if c = 'E' then 'e' else c := by
    induction cs generalizing before with
    | nil => rfl
    | cons c cs ih =>
      obtain ⟨here, later⟩ := List.forall_mem_cons.mp all
      rw [Text.lowerFrom, if_neg (each c here).1, (each c here).2, ih later]
      rfl
  exact from_ []

/-- The number with a small letter before its exponent. -/
def Numeral.lowered (n : Numeral) : Numeral :=
  { n with exponent := n.exponent.map fun e => { e with capital := false } }

theorem lower_digits (ds : List (Fin 10)) : (digits ds).map (fun c => if c = 'E' then 'e' else c) = digits ds := by
  have each : ∀ d : Fin 10, (if Nat.digitChar d = 'E' then 'e' else Nat.digitChar d) = Nat.digitChar d := by decide +kernel
  rw [digits, List.map_map]
  exact List.map_congr_left fun d _ => each d

theorem lower_exponent (e : Exponent) : e.chars.map (fun c => if c = 'E' then 'e' else c) =
    ({ e with capital := false } : Exponent).chars := by
  obtain ⟨capital, sign, power⟩ := e
  rw [Exponent.chars, Exponent.chars, List.map_cons, List.map_append, lower_digits]
  cases capital <;> cases sign with
  | none => rfl
  | some negative => cases negative <;> rfl

theorem lower_chars (n : Numeral) : Text.lower n.chars = n.lowered.chars := by
  rw [lower_figures n.figures, Numeral.chars, Numeral.chars, List.map_append, List.map_append, List.map_append, lower_digits]
  obtain ⟨negative, whole, fraction, exponent⟩ := n
  congr 1
  · congr 1
    · congr 1
      cases negative <;> rfl
    · cases fraction with
      | none => rfl
      | some ds => exact congrArg ('.' :: ·) (lower_digits ds.all)
  · cases exponent with
    | none => rfl
    | some e => exact lower_exponent e

theorem toFloat_sign (negative : Bool) (digits : Nat) (power : Int) : Decimal.toFloat negative digits power =
    if negative then -Decimal.toFloat false digits power else Decimal.toFloat false digits power := by
  cases negative <;> rfl

/-- A number with a point is read as what it is. -/
theorem readNumber_chars (pointed : n.fraction.isSome = true) : readNumber n.chars = .ok n.value := by
  obtain ⟨ds, fraction⟩ := Option.isSome_iff_exists.mp pointed
  obtain ⟨d, more, body⟩ := n.lowered.body_head
  have point := (digit_unsigned d).2.2
  have undefined : n.lowered.body ≠ ".nan".toList := by
    rw [body]; exact fun same => point (List.cons.inj same).1
  have infinite : n.lowered.body ≠ ".inf".toList := by
    rw [body]; exact fun same => point (List.cons.inj same).1
  have without : n.lowered.body.contains ':' = false := by
    simpa using fun member => colon_figures (n.lowered.body_figures _ member)
  have reads : plainNumber n.lowered.body = .ok (Decimal.toFloat false (decimal (n.whole.all ++ n.decimals))
      (n.exponent.elim 0 Exponent.value - n.decimals.length)) := by
    have powers : n.lowered.exponent.elim 0 Exponent.value = n.exponent.elim 0 Exponent.value := by
      obtain ⟨negative, whole, fraction, exponent⟩ := n
      cases exponent <;> rfl
    have same : n.lowered.fraction = some ds := fraction
    have magnitude := magnitude?_body same
    rw [powers] at magnitude
    unfold plainNumber Decimal.read?
    rw [n.lowered.trimChars_body, n.lowered.spanSign_body]
    dsimp only
    rw [magnitude]
    rfl
  unfold readNumber
  rw [filter_figures n.figures, lower_chars, signOf_chars]
  simp only [bind, Except.bind, undefined, infinite, without, reads, if_false, Bool.false_eq_true]
  rw [Numeral.value, fraction, toFloat_sign n.negative]
  rfl

/-! ### Numbers of all kinds -/

theorem tail_isEmpty (n : Numeral) : n.tail.isEmpty = (n.fraction.isNone && n.exponent.isNone) := by
  unfold Numeral.tail Numeral.fractionChars
  cases n.fraction <;> cases n.exponent <;> rfl

theorem regular_iff : n.Regular ↔ (n.fraction.isSome && n.signed) = true ∨
    n.tail.isEmpty = true ∧ n.whole.all.length ≤ Text.maxDigits := by
  rw [tail_isEmpty]
  obtain ⟨negative, whole, fraction, exponent⟩ := n
  unfold Numeral.Regular Numeral.signed
  cases fraction <;> cases exponent <;> simp [Option.isSome_iff_ne_none]

/-- A regular number is read as what it is. -/
theorem readScalar_regular (regular : n.Regular) : readScalar (model.tagOf n.chars) n.chars = .ok n.value := by
  rw [n.tag_chars]
  obtain pointed | ⟨whole, short⟩ := regular_iff.mp regular
  · rw [if_pos pointed]
    exact readNumber_chars (Bool.and_eq_true_iff.mp pointed).1
  · have parts : (n.fraction.isNone && n.exponent.isNone) = true := (tail_isEmpty n).symm.trans whole
    have unpointed : (n.fraction.isSome && n.signed) = false := by
      have none := Option.isNone_iff_eq_none.mp (Bool.and_eq_true_iff.mp parts).1
      rw [none]; rfl
    rw [unpointed, if_neg (by decide), if_pos whole, Numeral.value, if_pos parts]
    unfold readScalar
    rw [readInteger_chars (List.isEmpty_iff.mp whole), if_neg (by omega)]
    rfl

/-- Another one is read as a text, unless it is whole and has too many digits. -/
theorem readScalar_irregular (irregular : ¬ n.Regular) : readScalar (model.tagOf n.chars) n.chars =
    if n.tail.isEmpty then .error (.longNumeral n.whole.all.length) else .ok (.text (String.ofList n.chars)) := by
  rw [n.tag_chars]
  rw [regular_iff, not_or, not_and] at irregular
  obtain ⟨unpointed, long⟩ := irregular
  rw [if_neg unpointed]
  split
  next whole =>
    unfold readScalar
    rw [readInteger_chars (List.isEmpty_iff.mp whole), if_pos (by have := long whole; omega)]
    rfl
  next => rfl

theorem readScalar_null : readScalar (model.tagOf "null".toList) "null".toList = .ok .null := by
  have untrue : ∀ word ∈ truths, word.1.toList ≠ dropFinalBreak "null".toList :=
    List.all_iff_forall_prop.mp (by decide +kernel)
  have tag : model.tagOf "null".toList = "null" :=
    (model_other fun ⟨word, member, spelled⟩ => untrue word member spelled).trans rfl
  rw [tag]
  rfl

theorem readScalar_bool (b : Bool) : readScalar (model.tagOf (if b then "true".toList else "false".toList))
    (if b then "true".toList else "false".toList) = .ok (.bool b) := by
  have spells : ∀ word ∈ truths, dropFinalBreak word.1.toList = word.1.toList :=
    List.all_iff_forall_prop.mp (by decide +kernel)
  have reads (word : String × Bool) (member : word ∈ truths) :
      readScalar (model.tagOf word.1.toList) word.1.toList = .ok (.bool word.2) := by
    rw [model_bool ⟨word, member, (spells word member).symm⟩]
    unfold readScalar
    rw [readBool_word word (List.mem_append_left _ member)]
    rfl
  cases b with
  | true => exact reads ("true", true) (by decide)
  | false => exact reads ("false", false) (by decide)

end Interaction.Json
