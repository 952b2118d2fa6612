import Mathlib.Data.List.Basic
import Interaction.Log.Reading
import Interaction.Log.Sinks
import Interaction.Proofs.CodePoints
import Interaction.Proofs.Paging

/-! Lines of the log. An entry is written on one line of printable characters of ASCII, and reading the line gives back
the texts of the entry. The one thing that a line does not keep is whether two halves stood side by side that make a
character: they are read as that character. A log file has a line for every record that it got. -/

namespace Interaction

namespace Text

/-! ### Digits of code points -/

theorem hex_last (width n : Nat) : hex (width + 2) n = hex (width + 1) (n / 16) ++ [Nat.digitChar (n % 16)] := by
  unfold hex
  by_cases small : n < 16
  · rw [Nat.toDigits_of_lt_base small, Nat.div_eq_of_lt small, Nat.mod_eq_of_lt small, Nat.toDigits_of_lt_base (by decide)]
    simp [List.replicate_succ']
  · rw [Nat.toDigits_of_base_le (by decide) (Nat.le_of_not_lt small)]
    simp

theorem hex_four {n : Nat} (small : n < 0x10000) : hex 4 n =
    [Nat.digitChar (n / 16 / 16 / 16), Nat.digitChar (n / 16 / 16 % 16), Nat.digitChar (n / 16 % 16),
      Nat.digitChar (n % 16)] := by
  rw [hex_last, hex_last, hex_last, hex, Nat.toDigits_of_lt_base (by omega)]
  rfl

theorem hexValue?_digitChar : ∀ n : Fin 16, hexValue? (Nat.digitChar n) = some n.val := by
  decide

/-! ### Bytes of texts -/

theorem toList_loop (bytes : ByteArray) (i : Nat) (found : List UInt8) :
    ByteArray.toList.loop bytes i found = found.reverse ++ bytes.data.toList.drop i := by
  fun_induction ByteArray.toList.loop bytes i found with
  | case1 i found inside ih =>
    have length : i < bytes.data.toList.length := by simpa using inside
    have byte : bytes.get! i = bytes.data.toList.get ⟨i, length⟩ := by
      rw [ByteArray.get!, getElem!_pos bytes.data i inside]
      simp
    rw [ih, List.reverse_cons, List.append_assoc, List.drop_eq_getElem_cons length, byte]
    rfl
  | case2 i found outside =>
    rw [List.drop_eq_nil_of_le (by simpa using outside), List.append_nil]

theorem encode_chars {s : String} (others : ∀ c ∈ s.toList, c ≠ mark) : encode s = encoding s.toList := by
  have chars : ((points s.toList).map fun n => Char.ofNat (if isHalf n then 0xFFFD else n)) = s.toList := by
    rw [points_chars others, List.map_map, List.map_congr_left (g := id), List.map_id]
    intro c _
    simp [whole_of_char c]
  have bytes : s.toByteArray.data.toList = encoding s.toList := by
    rw [← String.utf8Encode_toList, List.utf8Encode, List.toList_data_toByteArray, encoding]
  rw [encode, chars, String.ofList_toList]
  exact (toList_loop s.toUTF8 0 []).trans bytes

theorem encode_append {s t : String} (others : ∀ c ∈ s.toList, c ≠ mark) (others' : ∀ c ∈ t.toList, c ≠ mark) :
    encode (s ++ t) = encode s ++ encode t := by
  have whole : ∀ c ∈ (s ++ t).toList, c ≠ mark := by
    rw [String.toList_append]
    exact List.forall_mem_append.mpr ⟨others, others'⟩
  rw [encode_chars others, encode_chars others', encode_chars whole, String.toList_append, encoding, List.flatMap_append,
    encoding, encoding]

theorem decode_encode {s : String} (others : ∀ c ∈ s.toList, c ≠ mark) : decode (encode s) = .ok s := by
  have begins : encode s ++ [] = encoding s.toList := by rw [List.append_nil, encode_chars others]
  have decodes : ∃ found more left, decodeSome (encode s) true = .ok (found, left) ∧ s.toList = found ++ more ∧
      left ++ [] = encoding more := decodeSome_encoding begins fun _ => rfl
  obtain ⟨found, more, left, decoded, same, goes⟩ := decodes
  cases decodeSome_final decoded
  cases encoding_eq_nil goes.symm
  rw [List.append_nil] at same
  rw [decode, decoded, ← same]
  simp only [spelled_char others, String.ofList_toList]

end Text

namespace Log

/-! ### Units -/

theorem unit?_hex {n : Nat} (small : n < 0x10000) (rest : List Char) : unit? (Text.hex 4 n ++ rest) = some (n, rest) := by
  have value : ∀ m, m < 16 → Text.hexValue? (Nat.digitChar m) = some m := fun m less => Text.hexValue?_digitChar ⟨m, less⟩
  rw [Text.hex_four small]
  simp only [List.cons_append, List.nil_append, unit?, value (n / 16 / 16 / 16) (by omega),
    value (n / 16 / 16 % 16) (by omega), value (n / 16 % 16) (by omega), value (n % 16) (by omega), Option.bind_eq_bind,
    Option.bind_some, Option.pure_def, Option.some.injEq, Prod.mk.injEq, and_true]
  omega

theorem pairPoint?_unit (high : Nat) {low : Nat} (small : low < 0x10000) (rest : List Char) :
    pairPoint? high (unitEscape low ++ rest) = (Text.pair? high low).map fun n => (n, rest) := by
  simp only [unitEscape, List.cons_append, pairPoint?, unit?_hex small, Option.bind_eq_bind, Option.bind_some]
  cases Text.pair? high low with
  | none => rfl
  | some n => rfl

theorem unitPoint?_hex {n : Nat} (small : n < 0x10000) (rest : List Char) :
    unitPoint? (Text.hex 4 n ++ rest) = some ((pairPoint? n rest).getD (n, rest)) := by
  simp only [unitPoint?, unit?_hex small, Option.bind_eq_bind, Option.bind_some, Option.pure_def]

/-! ### Code points -/

/-- The ways in which a code point is written. -/
inductive Inscribes (n : Nat) : List Char → Prop
  | letter {letter : Char × Char} (known : letter ∈ letters) (same : letter.2.toNat = n) : Inscribes n ['\\', letter.1]
  | plain (printable : 0x20 ≤ n ∧ n < 0x7F) (solid : n ≠ 0x22 ∧ n ≠ 0x5C) : Inscribes n [Char.ofNat n]
  | unit (small : n < 0x10000) : Inscribes n (unitEscape n)
  | pair {high low : Nat} (bounds : high < 0xDC00 ∧ low < 0x10000) (large : 0x10000 ≤ n)
    (joined : Text.pair? high low = some n) : Inscribes n (unitEscape high ++ unitEscape low)

theorem pair?_bounds {n m x : Nat} (made : Text.pair? n m = some x) :
    (0xD800 ≤ n ∧ n < 0xDC00) ∧ (0xDC00 ≤ m ∧ m < 0xE000) ∧ 0x10000 ≤ x ∧ x < 0x110000 := by
  unfold Text.pair? at made
  split_ifs at made with inside
  simp only [Bool.and_eq_true, decide_eq_true_eq] at inside
  have same := Option.some.inj made
  omega

theorem pair?_units {n : Nat} (large : 0x10000 ≤ n) (valid : n < 0x110000) :
    Text.pair? (0xD800 + (n - 0x10000) / 0x400) (0xDC00 + (n - 0x10000) % 0x400) = some n := by
  have inside : (0xD800 ≤ 0xD800 + (n - 0x10000) / 0x400 && 0xD800 + (n - 0x10000) / 0x400 < 0xDC00 &&
      0xDC00 ≤ 0xDC00 + (n - 0x10000) % 0x400 && 0xDC00 + (n - 0x10000) % 0x400 < 0xE000) = true := by
    simp only [Bool.and_eq_true, decide_eq_true_eq]
    omega
  rw [Text.pair?, if_pos inside, Option.some.injEq]
  omega

theorem escape_inscribes {n : Nat} (valid : n < 0x110000) : Inscribes n (escape n) := by
  unfold escape
  split
  next letter found => exact .letter (List.mem_of_find?_eq_some found) (by simpa using List.find?_some found)
  next unlettered =>
    rw [List.find?_eq_none] at unlettered
    split_ifs with printable
    · have quote := unlettered ('"', '"') (by decide)
      have backslash := unlettered ('\\', '\\') (by decide)
      simp only [decide_eq_true_eq] at quote backslash
      exact .plain (by simpa using printable) ⟨Ne.symm quote, Ne.symm backslash⟩
    · unfold unitsOf
      split_ifs with small
      · exact .unit small
      · have large := Nat.le_of_not_lt small
        have joined := pair?_units large valid
        have bounds := pair?_bounds joined
        exact .pair (by omega) large joined

variable {n m x : Nat} {c : Char} {ns : List Nat} {cs found rest : List Char} {fuel : Nat}

theorem escaped?_letter {letter : Char × Char} (known : letter ∈ letters) (rest : List Char) :
    escaped? (letter.1 :: rest) = some (letter.2.toNat, rest) := by
  simp only [letters, List.mem_cons, List.not_mem_nil, or_false] at known
  rcases known with rfl | rfl | rfl | rfl | rfl | rfl | rfl
  all_goals rfl

theorem escaped?_unit (small : n < 0x10000) (rest : List Char) :
    escaped? ('u' :: (Text.hex 4 n ++ rest)) = some ((pairPoint? n rest).getD (n, rest)) :=
  unitPoint?_hex small rest

theorem letters_small : ∀ letter ∈ letters, letter.1 ≠ 'u' ∧ letter.2.toNat < 0x7F := by
  decide

theorem pair?_other (n : Nat) (other : m < 0xDC00 ∨ 0x10000 ≤ m) : Text.pair? n m = none := by
  cases made : Text.pair? n m with
  | none => rfl
  | some x =>
    have inside := pair?_bounds made
    omega

theorem pairPoint?_other (n : Nat) (other : ∀ more, cs ≠ '\\' :: 'u' :: more) : pairPoint? n cs = none := by
  unfold pairPoint?
  split
  next rest => exact absurd rfl (other rest)
  next => rfl

/-- A unit makes a code point with a written one only if that one is a half. -/
theorem pairPoint?_escape (n : Nat) (valid : m < 0x110000) (rest : List Char) :
    pairPoint? n (escape m ++ rest) = (Text.pair? n m).map fun x => (x, rest) := by
  have inscribed := escape_inscribes valid
  generalize escape m = written at inscribed
  cases inscribed with
  | letter known same =>
    obtain ⟨other, small⟩ := letters_small _ known
    rw [pair?_other n (by omega)]
    exact pairPoint?_other n fun more same => other (List.cons.inj (List.cons.inj same).2).1
  | plain printable solid =>
    rw [pair?_other n (by omega)]
    refine pairPoint?_other n fun more same => solid.2 ?_
    have here : Char.ofNat m = '\\' := (List.cons.inj same).1
    rw [← Text.toNat_ofNat (n := m) (by unfold Nat.isValidChar; omega), here]
    rfl
  | unit small => exact pairPoint?_unit n small rest
  | pair bounds large joined =>
    rw [pair?_other n (Or.inr large), List.append_assoc, pairPoint?_unit n (by omega), pair?_other n (Or.inl bounds.1)]
    rfl

/-! ### Texts -/

/-- The code points with the halves that stand side by side put together. -/
def joined : List Nat → List Nat
  | [] => []
  | [n] => [n]
  | n :: m :: rest =>
    match Text.pair? n m with
    | some x => x :: joined rest
    | none => n :: joined (m :: rest)

theorem unquoteFrom?_escaped (taken : escaped? cs = some (n, rest)) :
    unquoteFrom? found (fuel + 1) ('\\' :: cs) = unquoteFrom? ((Text.spell n).reverse ++ found) fuel rest := by
  simp only [unquoteFrom?, taken]

/-- A written code point is read, unless it is a half that makes another one with what follows. -/
theorem unquoteFrom?_escape (valid : n < 0x110000) (alone : pairPoint? n rest = none) :
    unquoteFrom? found (fuel + 1) (escape n ++ rest) = unquoteFrom? ((Text.spell n).reverse ++ found) fuel rest := by
  have inscribed := escape_inscribes valid
  generalize escape n = written at inscribed
  cases inscribed with
  | letter known same => exact unquoteFrom?_escaped (same ▸ escaped?_letter known rest)
  | plain printable solid =>
    have number : (Char.ofNat n).toNat = n := Text.toNat_ofNat (by unfold Nat.isValidChar; omega)
    have mark : Char.ofNat n ≠ Text.mark := fun same => by rw [same, Text.mark_toNat] at number; omega
    have spelling : Text.spell n = [Char.ofNat n] := by rw [← Text.spell_char mark, number]
    have quote : Char.ofNat n = '"' → False := fun same => solid.1 (by rw [← number, same]; rfl)
    have backslash : Char.ofNat n = '\\' → False := fun same => solid.2 (by rw [← number, same]; rfl)
    rw [List.singleton_append, unquoteFrom?.eq_5 _ _ _ _ quote backslash, number, if_neg (Nat.not_lt.mpr printable.1), spelling]
    rfl
  | unit small =>
    refine unquoteFrom?_escaped ((escaped?_unit small rest).trans ?_)
    rw [alone, Option.getD_none]
  | pair bounds large joined =>
    rw [List.append_assoc]
    refine unquoteFrom?_escaped ((escaped?_unit (by omega) _).trans ?_)
    rw [pairPoint?_unit _ bounds.2, joined]
    rfl

theorem escape_half (half : Text.isHalf n = true) : escape n = unitEscape n := by
  rw [Text.isHalf_iff] at half
  have inscribed := escape_inscribes (n := n) (by omega)
  generalize escape n = written at inscribed
  cases inscribed with
  | letter known same => have small := (letters_small _ known).2; omega
  | plain printable solid => omega
  | unit small => rfl
  | pair bounds large joined => omega

theorem unquoteFrom?_pair (valid : m < 0x110000) (made : Text.pair? n m = some x) :
    unquoteFrom? found (fuel + 1) (escape n ++ (escape m ++ rest)) =
      unquoteFrom? ((Text.spell x).reverse ++ found) fuel rest := by
  have bounds := pair?_bounds made
  rw [escape_half (Text.isHalf_iff.mpr (by omega))]
  refine unquoteFrom?_escaped ((escaped?_unit (by omega) _).trans ?_)
  rw [pairPoint?_escape n valid, made]
  rfl

/-- A written text is read up to its closing quote. Each code point takes one step, and so do two halves that are put
together, so that there are steps enough if there are more of them than code points. -/
theorem unquoteFrom?_written (ns : List Nat) (valid : ∀ n ∈ ns, n < 0x110000) (enough : ns.length < fuel) :
    unquoteFrom? found fuel (ns.flatMap escape ++ '"' :: rest) =
      some (String.ofList (found.reverse ++ (joined ns).flatMap Text.spell), rest) := by
  obtain ⟨fuel, rfl⟩ : ∃ more, fuel = more + 1 := ⟨fuel - 1, by omega⟩
  induction ns using joined.induct generalizing found fuel with
  | case1 => simp [unquoteFrom?, joined]
  | case2 n =>
    obtain ⟨fuel, rfl⟩ : ∃ more, fuel = more + 1 := ⟨fuel - 1, by simp at enough; omega⟩
    have alone : pairPoint? n ('"' :: rest) = none := pairPoint?_other _ fun more same => by cases same
    rw [List.flatMap_singleton, unquoteFrom?_escape (valid n (by simp)) alone]
    simp [unquoteFrom?, joined]
  | case3 n m more x made ih =>
    obtain ⟨fuel, rfl⟩ : ∃ more, fuel = more + 1 := ⟨fuel - 1, by simp at enough; omega⟩
    simp only [List.flatMap_cons, List.append_assoc]
    rw [unquoteFrom?_pair (valid m (by simp)) made, ih (fun k member => valid k (by simp [member])) fuel
      (by simp at enough; omega)]
    simp [joined, made]
  | case4 n m more none ih =>
    obtain ⟨fuel, rfl⟩ : ∃ more, fuel = more + 1 := ⟨fuel - 1, by simp at enough; omega⟩
    have alone : pairPoint? n ((m :: more).flatMap escape ++ '"' :: rest) = .none := by
      rw [List.flatMap_cons, List.append_assoc, pairPoint?_escape n (valid m (by simp)), none]
      rfl
    rw [List.flatMap_cons, List.append_assoc, unquoteFrom?_escape (valid n (by simp)) alone,
      ih (fun k member => valid k (List.mem_cons_of_mem _ member)) fuel (by simpa using enough)]
    simp [joined, none]

/-- A text as it is read from a line. -/
def restored (s : String) : String :=
  Text.ofPoints (joined (Text.points s.toList))

theorem unquote?_written (s : String) (enough : (Text.points s.toList).length < fuel) :
    unquote? fuel ((Text.points s.toList).flatMap escape ++ '"' :: rest) = some (restored s, rest) :=
  unquoteFrom?_written _ (Text.points_lt _) enough

theorem quote_append (s : String) (rest : List Char) :
    quote s ++ rest = '"' :: ((Text.points s.toList).flatMap escape ++ '"' :: rest) := by
  simp [quote]

theorem Inscribes.ne_nil {written : List Char} (inscribed : Inscribes n written) : written ≠ [] := by
  cases inscribed <;> simp [unitEscape]

theorem length_written (valid : ∀ n ∈ ns, n < 0x110000) : ns.length ≤ (ns.flatMap escape).length := by
  induction ns with
  | nil => exact Nat.le_refl _
  | cons n rest ih =>
    rw [List.forall_mem_cons] at valid
    have some := List.length_pos_iff.mpr (escape_inscribes valid.1).ne_nil
    have later := ih valid.2
    rw [List.flatMap_cons, List.length_append, List.length_cons]
    omega

/-! ### Fields -/

theorem skipBlanks_solid (solid : (c = ' ' || c = '\t' || c = '\n' || c = '\r') = false) (cs : List Char) :
    skipBlanks (c :: cs) = c :: cs := by
  simp only [skipBlanks, List.dropWhile, solid]

theorem skipBlanks_space (cs : List Char) : skipBlanks (' ' :: cs) = skipBlanks cs :=
  rfl

theorem data?_quote (s : String) (found : skipBlanks cs = quote s ++ rest)
    (enough : (Text.points s.toList).length < fuel) :
    data? (fuel + 1) cs = some (.text (restored s), rest) := by
  unfold data?
  rw [found, quote_append]
  simp only [unquote?_written s enough, Option.bind_eq_bind, Option.bind_some, Option.pure_def]

/-- A field whose value is a text. -/
def textField (field : String × String) : String × Data :=
  (field.1, .text field.2)

def restoredField (field : String × String) : String × Data :=
  (restored field.1, .text (restored field.2))

/-- The written form of a field. -/
def writtenField (field : String × String) : List Char :=
  quote field.1 ++ ':' :: ' ' :: quote field.2

theorem writeFields_texts (fields : List (String × String)) :
    Data.writeFields (fields.map textField) = fields.map writtenField := by
  induction fields with
  | nil => rfl
  | cons field rest ih => simp only [List.map_cons, textField, Data.writeFields, Data.write, ih, writtenField]

/-- How reading fields goes on after the name and the value of one, from a character that is no blank. -/
def fieldsAfter (field : String × Data) (fuel : Nat) : List Char → Option (List (String × Data) × List Char)
  | ',' :: rest => (fields? fuel rest).map fun (fields, rest) => (field :: fields, rest)
  | '\x7d' :: rest => some ([field], rest)
  | _ => none

theorem fields?_field (field : String × String) (found : skipBlanks cs = writtenField field ++ rest)
    (enough : (writtenField field).length ≤ fuel) :
    fields? (fuel + 1) cs = fieldsAfter (restoredField field) fuel (skipBlanks rest) := by
  have names := length_written (Text.points_lt field.1.toList)
  have values := length_written (Text.points_lt field.2.toList)
  have long : (writtenField field).length = ((Text.points field.1.toList).flatMap escape).length +
      ((Text.points field.2.toList).flatMap escape).length + 6 := by
    simp [writtenField, quote]
    omega
  obtain ⟨fuel, rfl⟩ : ∃ more, fuel = more + 1 := ⟨fuel - 1, by omega⟩
  have value : data? (fuel + 1) (' ' :: (quote field.2 ++ rest)) = some (.text (restored field.2), rest) := by
    refine data?_quote field.2 ?_ (by omega)
    rw [skipBlanks_space, quote_append, skipBlanks_solid (by decide)]
  unfold fields?
  rw [found, writtenField, List.append_assoc, quote_append]
  simp only [unquote?_written field.1 (show (Text.points field.1.toList).length < fuel + 1 by omega), List.cons_append,
    skipBlanks_solid (c := ':') (by decide), value, Option.bind_eq_bind, Option.bind_some, Option.pure_def]
  generalize skipBlanks rest = tail
  split
  next more => cases further : fields? (fuel + 1) more <;> simp only [fieldsAfter, further] <;> rfl
  next => rfl
  next other last => exact (fieldsAfter.eq_3 _ _ _ other last).symm

theorem joined_head (first : String × String) (more : List (String × String)) :
    ∃ tail, Data.joined ((first :: more).map writtenField) = '"' :: tail := by
  cases more with
  | nil => exact ⟨_, quote_append first.1 _⟩
  | cons next more => exact ⟨_, (List.append_assoc _ _ _).trans (quote_append first.1 _)⟩

theorem fields?_written (first : String × String) (more : List (String × String))
    (found : skipBlanks cs = Data.joined ((first :: more).map writtenField) ++ '\x7d' :: rest)
    (enough : (Data.joined ((first :: more).map writtenField)).length < fuel) :
    fields? fuel cs = some ((first :: more).map restoredField, rest) := by
  induction more generalizing first cs fuel with
  | nil =>
    obtain ⟨fuel, rfl⟩ : ∃ more, fuel = more + 1 := ⟨fuel - 1, by omega⟩
    rw [fields?_field first found (Nat.le_of_lt_succ enough), skipBlanks_solid (by decide)]
    rfl
  | cons next more ih =>
    have further : Data.joined ((first :: next :: more).map writtenField) =
      writtenField first ++ ',' :: ' ' :: Data.joined ((next :: more).map writtenField) := rfl
    rw [further] at enough
    rw [further, List.append_assoc] at found
    simp only [List.length_append, List.length_cons] at enough
    obtain ⟨fuel, rfl⟩ : ∃ more, fuel = more + 1 := ⟨fuel - 1, by omega⟩
    have begins : skipBlanks (' ' :: (Data.joined ((next :: more).map writtenField) ++ '\x7d' :: rest)) =
        Data.joined ((next :: more).map writtenField) ++ '\x7d' :: rest := by
      obtain ⟨tail, head⟩ := joined_head next more
      rw [skipBlanks_space, head, List.cons_append, skipBlanks_solid (by decide)]
    rw [fields?_field first found (by omega), List.cons_append, skipBlanks_solid (by decide)]
    simp only [fieldsAfter, List.cons_append]
    rw [ih next begins (by omega)]
    rfl

theorem putField_new {name : String} {value : Data} {fields : List (String × Data)} (new : name ∉ fields.map Prod.fst) :
    putField name value fields = fields ++ [(name, value)] := by
  induction fields with
  | nil => rfl
  | cons field rest ih =>
    simp only [List.map_cons, List.mem_cons, not_or] at new
    rw [putField, if_neg (Ne.symm new.1), ih new.2, List.cons_append]

theorem foldl_putField {found fields : List (String × Data)} (distinct : ((found ++ fields).map Prod.fst).Nodup) :
    fields.foldl (fun found (name, value) => putField name value found) found = found ++ fields := by
  induction fields generalizing found with
  | nil => simp
  | cons field rest ih =>
    obtain ⟨name, value⟩ := field
    have new : name ∉ found.map Prod.fst := by
      rw [List.map_append, List.nodup_append] at distinct
      exact fun known => distinct.2.2 _ known _ (by simp) rfl
    rw [List.foldl_cons]
    simp only
    rw [putField_new new, ih (by simpa using distinct), List.append_assoc]
    rfl

theorem objectOf_distinct {fields : List (String × Data)} (distinct : (fields.map Prod.fst).Nodup) :
    objectOf fields = .object fields := by
  rw [objectOf, foldl_putField (by simpa using distinct), List.nil_append]

theorem data?_object (first : String × String) (more : List (String × String))
    (distinct : (((first :: more).map restoredField).map Prod.fst).Nodup)
    (enough : (Data.joined ((first :: more).map writtenField)).length < fuel) :
    data? (fuel + 1) ('\x7b' :: (Data.joined ((first :: more).map writtenField) ++ '\x7d' :: rest)) =
      some (.object ((first :: more).map restoredField), rest) := by
  obtain ⟨tail, head⟩ := joined_head first more
  have begins : skipBlanks ('"' :: (tail ++ '\x7d' :: rest)) = '"' :: (tail ++ '\x7d' :: rest) := skipBlanks_solid (by decide) _
  have fields : fields? fuel ('"' :: (tail ++ '\x7d' :: rest)) = some ((first :: more).map restoredField, rest) :=
    fields?_written first more (by rw [head, List.cons_append]; exact begins) enough
  unfold data?
  rw [skipBlanks_solid (by decide), head, List.cons_append]
  simp only [begins, fields, objectOf_distinct distinct, Option.bind_eq_bind, Option.bind_some, Option.pure_def]
  rfl

/-- An object of texts is read as it is written, but for halves that are put together. -/
theorem read?_object (first : String × String) (more : List (String × String))
    (distinct : (((first :: more).map restoredField).map Prod.fst).Nodup) :
    Data.read? (Data.object ((first :: more).map textField)).write = some (.object ((first :: more).map restoredField)) := by
  have body : (Data.object ((first :: more).map textField)).write =
      '\x7b' :: (Data.joined ((first :: more).map writtenField) ++ ['\x7d']) := by
    simp only [Data.write, writeFields_texts, List.cons_append]
  rw [body, Data.read?, data?_object first more distinct (by rw [List.length_cons, List.length_append]; omega)]
  rfl

/-! ### Texts that lines keep -/

/-- A text of code points among which no half stands directly before one with which it makes another code point. -/
def Whole (s : String) : Prop :=
  ∃ ns : List Nat, s = Text.ofPoints ns ∧ (∀ n ∈ ns, n < 0x110000) ∧ ∀ n m, [n, m] <:+: ns → Text.pair? n m = none

theorem whole_of_characters (cs : List Char) : Whole (String.ofList (Text.spelled cs)) := by
  refine ⟨cs.map Char.toNat, by rw [Text.ofPoints, List.flatMap_map, Text.spelled],
    List.forall_mem_map.mpr fun c _ => Text.toNat_lt c, fun n m part => ?_⟩
  obtain ⟨c, -, rfl⟩ := List.mem_map.mp (part.subset (show m ∈ [n, m] by simp))
  have whole := Text.whole_of_char c
  rw [Bool.eq_false_iff, Ne, Text.isHalf_iff] at whole
  cases made : Text.pair? n c.toNat with
  | none => rfl
  | some x => have bounds := pair?_bounds made; omega

theorem joined_length (ns : List Nat) : (joined ns).length ≤ ns.length := by
  induction ns using joined.induct with
  | case1 => exact Nat.le_refl _
  | case2 n => exact Nat.le_refl _
  | case3 n m rest x made ih => simp only [joined, made, List.length_cons]; omega
  | case4 n m rest none ih => simpa [joined, none] using ih

theorem joined_lt (valid : ∀ n ∈ ns, n < 0x110000) : ∀ n ∈ joined ns, n < 0x110000 := by
  induction ns using joined.induct with
  | case1 => exact valid
  | case2 n => exact valid
  | case3 n m rest x made ih =>
    simp only [joined, made, List.forall_mem_cons] at valid ⊢
    exact ⟨(pair?_bounds made).2.2.2, ih valid.2.2⟩
  | case4 n m rest none ih =>
    simp only [joined, none]
    exact List.forall_mem_cons.mpr ⟨valid n (by simp), ih fun k member => valid k (List.mem_cons_of_mem _ member)⟩

theorem joined_eq (ns : List Nat) : joined ns = ns ↔ ∀ n m, [n, m] <:+: ns → Text.pair? n m = none := by
  induction ns using joined.induct with
  | case1 => simp [joined]
  | case2 n => exact ⟨fun _ n' m part => absurd part.length_le (by simp), fun _ => rfl⟩
  | case3 n m rest x made ih =>
    have shorter := joined_length rest
    constructor
    · intro same
      have length := congrArg List.length same
      simp only [joined, made, List.length_cons] at length
      omega
    · intro apart
      have none := apart n m (List.prefix_append [n, m] rest).isInfix
      rw [made] at none
      cases none
  | case4 n m rest none ih =>
    simp only [joined, none, List.cons.injEq, true_and, ih]
    constructor
    · intro apart a b part
      obtain first | later := List.infix_cons_iff.mp part
      · obtain ⟨rfl, rfl⟩ : a = n ∧ b = m := by simpa using first
        exact none
      · exact apart a b later
    · exact fun apart a b part => apart a b (List.infix_cons part)

theorem restored_eq (s : String) : restored s = s ↔ Whole s := by
  constructor
  · intro same
    have valid := joined_lt (Text.points_lt s.toList)
    refine ⟨_, same.symm, valid, ?_⟩
    rw [← joined_eq]
    exact congrArg joined (by rw [← Text.points_ofPoints valid]; exact congrArg (Text.points ∘ String.toList) same)
  · rintro ⟨ns, rfl, valid, apart⟩
    rw [restored, Text.points_ofPoints valid, (joined_eq ns).mpr apart]

/-! ### Characters of lines -/

/-- The printable characters of ASCII. -/
def Printable (c : Char) : Prop :=
  0x20 ≤ c.toNat ∧ c.toNat < 0x7F

instance (c : Char) : Decidable (Printable c) :=
  inferInstanceAs (Decidable (_ ∧ _))

theorem printable_digit : ∀ n : Fin 16, Printable (Nat.digitChar n) := by
  decide

theorem printable_unit {n : Nat} (small : n < 0x10000) : ∀ c ∈ unitEscape n, Printable c := by
  have digit : ∀ m, m < 16 → Printable (Nat.digitChar m) := fun m less => printable_digit ⟨m, less⟩
  rw [unitEscape, Text.hex_four small]
  simp only [List.forall_mem_cons, List.not_mem_nil, false_implies, implies_true, and_true]
  exact ⟨by decide, by decide, digit _ (by omega), digit _ (by omega), digit _ (by omega), digit _ (by omega)⟩

theorem printable_letter : ∀ letter ∈ letters, Printable letter.1 := by
  decide

theorem Inscribes.printable {written : List Char} (inscribed : Inscribes n written) : ∀ x ∈ written, Printable x := by
  cases inscribed with
  | letter known same => simpa using ⟨by decide, printable_letter _ known⟩
  | plain printable solid =>
    rw [List.forall_mem_singleton, Printable, Text.toNat_ofNat (by unfold Nat.isValidChar; omega)]
    exact printable
  | unit small => exact printable_unit small
  | pair bounds large joined =>
    exact List.forall_mem_append.mpr ⟨printable_unit (by omega), printable_unit bounds.2⟩

theorem printable_quote (s : String) : ∀ c ∈ quote s, Printable c := by
  have inner : ∀ x ∈ (Text.points s.toList).flatMap escape, Printable x := by
    intro x member
    obtain ⟨n, inside, written⟩ := List.mem_flatMap.mp member
    exact (escape_inscribes (Text.points_lt _ n inside)).printable x written
  simp only [quote, List.cons_append, List.forall_mem_cons, List.forall_mem_append, List.not_mem_nil, false_implies,
    implies_true, and_true]
  exact ⟨by decide, inner, by decide⟩

theorem printable_after {head tail : List Char} {a b : Char} (before : ∀ c ∈ head, Printable c) (first : Printable a)
    (second : Printable b) (after : ∀ c ∈ tail, Printable c) : ∀ c ∈ head ++ a :: b :: tail, Printable c :=
  List.forall_mem_append.mpr ⟨before, List.forall_mem_cons.mpr ⟨first, List.forall_mem_cons.mpr ⟨second, after⟩⟩⟩

theorem printable_joined {parts : List (List Char)} (printable : ∀ part ∈ parts, ∀ c ∈ part, Printable c) :
    ∀ c ∈ Data.joined parts, Printable c := by
  induction parts using Data.joined.induct with
  | case1 => exact fun c member => absurd member List.not_mem_nil
  | case2 part => exact printable part (by simp)
  | case3 part rest some ih =>
    rw [List.forall_mem_cons] at printable
    rw [Data.joined.eq_3 _ _ some]
    exact printable_after printable.1 (by decide) (by decide) (ih printable.2)

theorem printable_object (fields : List (String × String)) :
    ∀ c ∈ (Data.object (fields.map textField)).write, Printable c := by
  have parts : ∀ part ∈ fields.map writtenField, ∀ c ∈ part, Printable c := by
    intro part member
    obtain ⟨field, -, rfl⟩ := List.mem_map.mp member
    exact printable_after (printable_quote _) (by decide) (by decide) (printable_quote _)
  simp only [Data.write, writeFields_texts]
  refine List.forall_mem_append.mpr ⟨List.forall_mem_cons.mpr ⟨by decide, printable_joined parts⟩, ?_⟩
  exact List.forall_mem_singleton.mpr (by decide)

/-! ### Entries -/

/-- The texts of which an entry is made whose state, if it has one, is a name. -/
structure Texts where
  timestamp : String
  level : String
  component : String
  message : String
  state : Option String
  exception : Option String

namespace Texts

variable {t t' : Texts}

def entry (t : Texts) : Entry :=
  { timestamp := t.timestamp, level := t.level, component := t.component, message := t.message
    state := t.state.map Data.text, exception := t.exception }

def all (t : Texts) : List String :=
  [t.timestamp, t.level, t.component, t.message] ++ t.state.toList ++ t.exception.toList

def map (f : String → String) (t : Texts) : Texts :=
  { timestamp := f t.timestamp, level := f t.level, component := f t.component, message := f t.message
    state := t.state.map f, exception := t.exception.map f }

def fields (t : Texts) : List (String × String) :=
  ("timestamp", t.timestamp) :: (("level", t.level) :: ("component", t.component) :: ("message", t.message) ::
    ((t.state.map fun s => ("state", s)).toList ++ (t.exception.map fun s => ("exception", s)).toList))

theorem fields_entry (t : Texts) : t.entry.fields = t.fields.map textField := by
  cases state : t.state <;> cases exception : t.exception <;> simp [Entry.fields, entry, fields, textField, state, exception]

theorem restored_names :
    ∀ name ∈ ["timestamp", "level", "component", "message", "state", "exception"], restored name = name := by
  decide

theorem fields_restored (t : Texts) : t.fields.map restoredField = (t.map restored).entry.fields := by
  have names : ∀ name ∈ ["timestamp", "level", "component", "message", "state", "exception"], ∀ s,
      restoredField (name, s) = (name, .text (restored s)) := by
    intro name known s
    rw [restoredField, restored_names name known]
  simp only [List.forall_mem_cons, List.not_mem_nil, false_implies, implies_true, and_true] at names
  obtain ⟨timestamp, level, component, message, state, exception⟩ := names
  cases given : t.state <;> cases raised : t.exception <;>
    simp [Entry.fields, entry, map, fields, *]

theorem names_distinct (t : Texts) : (t.entry.fields.map Prod.fst).Nodup := by
  cases state : t.state <;> cases exception : t.exception <;> simp [Entry.fields, entry, state, exception]

theorem read?_line (t : Texts) : Data.read? t.entry.line.toList = some (.object (t.map restored).entry.fields) := by
  have distinct : ((t.fields.map restoredField).map Prod.fst).Nodup := by
    rw [fields_restored]
    exact (t.map restored).names_distinct
  rw [Entry.line, String.toList_ofList, fields_entry, ← fields_restored]
  exact read?_object _ _ distinct

theorem line_printable (t : Texts) : ∀ c ∈ t.entry.line.toList, Printable c := by
  rw [Entry.line, String.toList_ofList, fields_entry]
  exact printable_object t.fields

/-- Every text of the entry is kept by its line. -/
def Kept (t : Texts) : Prop :=
  ∀ s ∈ t.all, Whole s

theorem kept_of_characters (characters : ∀ c ∈ t.all.flatMap String.toList, c ≠ Text.mark) : t.Kept := by
  intro s member
  have whole := whole_of_characters s.toList
  rwa [Text.spelled_char fun c inside => characters c (List.mem_flatMap.mpr ⟨s, member, inside⟩), String.ofList_toList] at whole

theorem map_restored : t.map restored = t ↔ t.Kept := by
  obtain ⟨timestamp, level, component, message, state, exception⟩ := t
  cases state <;> cases exception <;> simp [map, Kept, all, restored_eq]

theorem entry_injective (same : t.entry.fields = t'.entry.fields) : t = t' := by
  obtain ⟨timestamp, level, component, message, state, exception⟩ := t
  obtain ⟨timestamp', level', component', message', state', exception'⟩ := t'
  cases state <;> cases exception <;> cases state' <;> cases exception' <;> simp_all [Entry.fields, entry]

theorem line_injective (kept : t.Kept) (kept' : t'.Kept) (same : t.entry.line = t'.entry.line) : t = t' := by
  have read := t.read?_line
  rw [same, t'.read?_line, map_restored.mpr kept, map_restored.mpr kept', Option.some.injEq, Data.object.injEq] at read
  exact (entry_injective read).symm

end Texts

/-! ### Records -/

def stateName? : Option Datum → Option String
  | some (.text name) => some name
  | _ => none

/-- The state of a record is a name, if it has one. So it is in all reports of the program. -/
def NamesState (r : Record) : Prop :=
  r.state = (stateName? r.state).map Datum.text

/-- The texts of which the entry for a record is made. -/
def textsOf (time : String) (r : Record) : Texts :=
  { timestamp := time, level := Level.name r.level, component := r.logger, message := r.message
    state := stateName? r.state, exception := r.fault.map Fault.text }

variable {r : Record} {time : String}

theorem entry_textsOf (time : String) (names : NamesState r) : Log.entry time r = .ok (textsOf time r).entry := by
  unfold NamesState at names
  unfold Log.entry textsOf
  cases state : stateName? r.state with
  | none =>
    rw [state] at names
    rw [names]
    rfl
  | some name =>
    rw [state] at names
    rw [names]
    rfl

/-- A record is written if its message is put together and its time can be told. -/
theorem line_textsOf {d : Draft} (dated : timeText d.created = .ok time) (completed : d.complete = .ok r)
    (names : NamesState r) : d.line = .ok (textsOf time r).entry.line := by
  simp only [Draft.line, dated, completed, Except.bind, bind, entry_textsOf time names, pure, Except.pure]

/-! ### Files -/

theorem linesFrom_printable {line : List Char} (printable : ∀ c ∈ line, Printable c) (begun rest : List Char) :
    Text.linesFrom begun (line ++ '\n' :: rest) = (begun.reverse ++ line) :: Text.linesFrom [] rest := by
  induction line generalizing begun with
  | nil => simp [Text.linesFrom, Text.isLineEnd]
  | cons c line ih =>
    rw [List.forall_mem_cons] at printable
    have inner : Text.isLineEnd c = false := by
      obtain ⟨low, high⟩ := printable.1
      simp [Text.isLineEnd]
      omega
    have other : c ≠ '\r' := by
      rintro rfl
      exact absurd printable.1 (by decide)
    have goes : Text.linesFrom begun (c :: line ++ '\n' :: rest) = Text.linesFrom (c :: begun) (line ++ '\n' :: rest) := by
      simp [Text.linesFrom, other, inner]
    rw [goes, ih printable.2, List.reverse_cons, List.append_assoc]
    rfl

/-- What a log file gets for entries. -/
def written (ts : List Texts) : String :=
  String.join (ts.map fun t => t.entry.line ++ "\n")

theorem chars_line (t : Texts) : ∀ c ∈ (t.entry.line ++ "\n").toList, c ≠ Text.mark := by
  rw [String.toList_append, List.forall_mem_append]
  refine ⟨fun c member => ?_, List.forall_mem_singleton.mpr (by decide)⟩
  rintro rfl
  exact absurd (t.line_printable _ member) (by decide)

theorem written_cons (t : Texts) (ts : List Texts) : written (t :: ts) = t.entry.line ++ "\n" ++ written ts := by
  rw [written, List.map_cons, String.join_cons]
  rfl

theorem chars_written (ts : List Texts) : ∀ c ∈ (written ts).toList, c ≠ Text.mark := by
  induction ts with
  | nil => exact fun c member => absurd member (by simp [written])
  | cons t ts ih =>
    rw [written_cons, String.toList_append, List.forall_mem_append]
    exact ⟨chars_line t, ih⟩

theorem lines_written (ts : List Texts) : Text.lines (written ts) = ts.map fun t => t.entry.line := by
  have lines : Text.linesFrom [] (written ts).toList = ts.map fun t => t.entry.line.toList := by
    induction ts with
    | nil => rfl
    | cons t ts ih =>
      have parts : (written (t :: ts)).toList = t.entry.line.toList ++ '\n' :: (written ts).toList := by
        simp [written_cons]
      rw [parts, linesFrom_printable t.line_printable, ih, List.reverse_nil, List.nil_append, List.map_cons]
  rw [Text.lines, lines, List.map_map]
  exact List.map_congr_left fun t _ => String.ofList_toList

theorem lookup_append {f : Folder} {place : List String} {old : List UInt8} (there : f.items.lookup place = some (.file old))
    (bytes : List UInt8) : (f.append place bytes).items.lookup place = some (.file (old ++ bytes)) := by
  obtain ⟨items⟩ := f
  simp only [Folder.append] at there ⊢
  induction items with
  | nil => cases there
  | cons entry rest ih =>
    obtain ⟨other, item⟩ := entry
    rw [List.lookup_cons] at there
    rw [List.map_cons]
    by_cases here : other = place
    · subst here
      simp only [BEq.rfl, Option.some.injEq] at there
      subst there
      simp
    · have apart : (place == other) = false := by simpa using Ne.symm here
      simp only [apart] at there
      cases item <;> simp [List.lookup_cons, apart, here, ih there]

/-- The records that are important enough for a log file. -/
def recorded (rs : List Record) : List Record :=
  rs.filter fun r => Level.debug ≤ r.level

/-- Every record that is important enough adds its line to the log file, in the order of the records. -/
theorem writeAll_file {k : Sinks} {place : List String} (sink : k.file = some place) {f : Folder} {old : List UInt8}
    (there : f.items.lookup place = some (.file old)) {rs : List Record} (names : ∀ r ∈ recorded rs, NamesState r) :
    (k.writeAll f time rs).1.items.lookup place =
      some (.file (old ++ Text.encode (written ((recorded rs).map (textsOf time))))) := by
  induction rs generalizing f old with
  | nil =>
    have none : Text.encode (written []) = [] := by
      rw [Text.encode_chars (chars_written [])]
      rfl
    simpa [Sinks.writeAll, recorded, none] using there
  | cons r rs ih =>
    by_cases low : r.level < Level.debug
    · have unrecorded : recorded (r :: rs) = recorded rs := by simp [recorded, low]
      have unwritten : (k.writeAll f time (r :: rs)).1 = (k.writeAll f time rs).1 := by
        simp [Sinks.writeAll, Sinks.write, low]
      rw [unrecorded] at names ⊢
      rw [unwritten]
      exact ih there names
    · have kept : recorded (r :: rs) = r :: recorded rs := by simp [recorded, Int.not_lt.mp low]
      rw [kept, List.forall_mem_cons] at names
      have bytes : entryBytes time r = Text.encode ((textsOf time r).entry.line ++ "\n") := by
        rw [entryBytes, entry_textsOf time names.1]
      have grown : (k.writeAll f time (r :: rs)).1 = (k.writeAll (f.append place (entryBytes time r)) time rs).1 := by
        simp [Sinks.writeAll, Sinks.write, low, sink]
      rw [grown, ih (lookup_append there _) names.2, kept, List.map_cons, written_cons, bytes,
        Text.encode_append (chars_line _) (chars_written _), List.append_assoc]

/-- An entry is one line that can be decoded. A record whose message is put together gives the line of its texts. The
line consists of printable characters of ASCII, and it is read as an object with the fields of the entry, of which the
state and the exception are there only if the record has them. The texts are the ones that were written, if no half in
them stands directly before one with which it makes a character, as is the case for all texts of characters. So entries
of such texts that differ have different lines. A log has a line for each entry, and a new log file one for each record
that is important enough. -/
theorem entries_decode :
    (∀ (d : Draft) (r : Record) (time : String), d.complete = .ok r → timeText d.created = .ok time → NamesState r →
      d.line = .ok (textsOf time r).entry.line) ∧
    (∀ t : Texts, (∀ c ∈ t.entry.line.toList, Printable c) ∧
      Data.read? t.entry.line.toList = some (.object (t.map restored).entry.fields) ∧ (t.map restored = t ↔ t.Kept)) ∧
    (∀ cs : List Char, Whole (String.ofList (Text.spelled cs))) ∧
    (∀ t t' : Texts, t.Kept → t'.Kept → t.entry.line = t'.entry.line → t = t') ∧
    (∀ ts : List Texts, Text.lines (written ts) = ts.map fun t => t.entry.line) ∧
    ∀ (k : Sinks) (f : Folder) (time : String) (rs : List Record) (place : List String), k.file = some place →
      f.items.lookup place = some (.file []) → (∀ r ∈ recorded rs, NamesState r) →
      ∃ bytes text, (k.writeAll f time rs).1.items.lookup place = some (.file bytes) ∧ Text.decode bytes = .ok text ∧
        Text.lines text = (recorded rs).map fun r => (textsOf time r).entry.line := by
  refine ⟨?_, ?_, whole_of_characters, ?_, lines_written, ?_⟩
  · exact fun d r time completed dated names => line_textsOf dated completed names
  · exact fun t => ⟨t.line_printable, t.read?_line, Texts.map_restored⟩
  · exact fun t t' => Texts.line_injective
  · intro k f time rs place sink there names
    refine ⟨_, _, writeAll_file sink there names, Text.decode_encode (chars_written _), ?_⟩
    rw [lines_written, List.map_map]
    rfl

/-- A report of a failure in a state, over two lines. -/
def troubled : Draft :=
  { template := .text "two\nlines \\ \"é😀\""
    record := { level := 40, logger := "aaim", message := "", state := some (.text "start")
                fault := some (.raised .value "no") } }

/-- Its texts. -/
def troubledTexts : Texts :=
  { timestamp := "1970-01-01T00:00:00Z", level := "ERROR", component := "aaim", message := "two\nlines \\ \"é😀\""
    state := some "start", exception := some "ValueError: no" }

theorem troubled_decodes : troubled.line = .ok troubledTexts.entry.line ∧
    Data.read? troubledTexts.entry.line.toList = some (.object troubledTexts.entry.fields) ∧
    Text.lines (written [troubledTexts, troubledTexts]) = [troubledTexts.entry.line, troubledTexts.entry.line] := by
  obtain ⟨lines, decodes, -, -, files, -⟩ := entries_decode
  have kept : troubledTexts.Kept := Texts.kept_of_characters (List.all_iff_forall_prop.mp (by decide))
  have dated : timeText troubled.created = .ok "1970-01-01T00:00:00Z" := by decide +kernel
  have line := lines troubled { troubled.record with message := troubledTexts.message } troubledTexts.timestamp rfl dated rfl
  have read := (decodes troubledTexts).2.1
  rw [(decodes troubledTexts).2.2.mpr kept] at read
  exact ⟨line, read, files [troubledTexts, troubledTexts]⟩

/-- A report of one text. -/
def stated (message : String) : Draft :=
  { template := .text message, record := { level := 20, logger := "aaim", message := "" } }

/-- A report of two characters, which are given by their numbers. -/
def numbered (first second : Nat) : Draft :=
  { stated "%c%c" with arguments := [.int first, .int second] }

/-- The texts of a report of one text. -/
def statedTexts (message : String) : Texts :=
  { timestamp := "1970-01-01T00:00:00Z", level := "INFO", component := "aaim", message, state := none, exception := none }

/-- Two halves make another message than the character, but the same line, which is read as the character. -/
theorem halves_merged : (numbered 0xD83D 0xDE00).complete.toOption.map Record.message = some (Text.ofPoints [0xD83D, 0xDE00]) ∧
    (stated "😀").complete.toOption.map Record.message = some "😀" ∧ Text.ofPoints [0xD83D, 0xDE00] ≠ "😀" ∧
    ∃ line, (numbered 0xD83D 0xDE00).line.toOption = some line ∧ (stated "😀").line.toOption = some line ∧
      Data.read? line.toList = some (.object (statedTexts "😀").entry.fields) := by
  have kept : (statedTexts "😀").Kept := Texts.kept_of_characters (List.all_iff_forall_prop.mp (by decide))
  refine ⟨by decide +kernel, rfl, by decide, (statedTexts "😀").entry.line, by decide +kernel, by decide +kernel, ?_⟩
  rw [Texts.read?_line, Texts.map_restored.mpr kept]

end Log

end Interaction
