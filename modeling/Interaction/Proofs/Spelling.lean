import Mathlib.Data.List.Infix
import Mathlib.Data.List.TakeWhile
import Interaction.Document.Token.Scan
import Interaction.Proofs.Decoding

/-! Whatever part of a document is read from a place in its text ends behind that place. Reading it fails if the
text is no document, and in two ways besides: on a version with too long a number, and on an escape whose number
is no code point. -/

namespace Interaction.Document

/-! ### Places -/

namespace Cursor

variable {c after : Cursor} {ch : Char} {cs : List Char}

@[simp] theorem next_rest (c : Cursor) : c.next.rest = c.rest.tail := by
  unfold next
  split
  next ended => rw [ended, List.tail_nil]
  next found => rw [found, List.tail_cons]; split_ifs <;> rfl

@[simp] theorem skip_rest (c : Cursor) (n : Nat) : (c.skip n).rest = c.rest.drop n := by
  induction n generalizing c with
  | zero => rfl
  | succ n ih => rw [skip, ih, next_rest, List.drop_tail]

@[simp] theorem span_fst (c : Cursor) (p : Char → Bool) : (c.span p).1 = c.rest.takeWhile p :=
  rfl

@[simp] theorem span_rest (c : Cursor) (p : Char → Bool) : (c.span p).2.rest = c.rest.dropWhile p := by
  calc (c.span p).2.rest = c.rest.drop (c.rest.takeWhile p).length := skip_rest c _
    _ = (c.rest.takeWhile p ++ c.rest.dropWhile p).drop (c.rest.takeWhile p).length := by
      rw [List.takeWhile_append_dropWhile]
    _ = c.rest.dropWhile p := List.drop_left

theorem rest_of_head (found : c.head = some ch) : c.rest = ch :: c.next.rest := by
  rw [next_rest]
  exact List.eq_cons_of_mem_head? found

theorem rest_of_starts (found : c.starts ch = true) : c.rest = ch :: c.next.rest :=
  rest_of_head (of_decide_eq_true found)

theorem next_suffix (c : Cursor) : c.next.rest <:+ c.rest := by
  rw [next_rest]
  exact List.tail_suffix _

theorem skip_suffix (c : Cursor) (n : Nat) : (c.skip n).rest <:+ c.rest := by
  rw [skip_rest]
  exact List.drop_suffix _ _

theorem span_suffix (c : Cursor) (p : Char → Bool) : (c.span p).2.rest <:+ c.rest := by
  rw [span_rest]
  exact List.dropWhile_suffix _

theorem skipSpaces_suffix (c : Cursor) : c.skipSpaces.rest <:+ c.rest :=
  span_suffix _ _

theorem skipLine_suffix (c : Cursor) : c.skipLine.rest <:+ c.rest :=
  span_suffix _ _

theorem skipComment_suffix (c : Cursor) : c.skipComment.rest <:+ c.rest := by
  unfold skipComment
  split_ifs
  · exact skipLine_suffix c
  · exact List.suffix_rfl

theorem takeBreak?_suffix (found : c.takeBreak? = some (ch, after)) : after.rest <:+ c.rest := by
  unfold takeBreak? at found
  split at found
  next =>
    split at found
    next => cases found; exact next_suffix c
    next => cases found
  next => cases found

theorem skipBreak_suffix (c : Cursor) : c.skipBreak.rest <:+ c.rest := by
  unfold skipBreak
  split
  next found => exact takeBreak?_suffix found
  next => exact List.suffix_rfl

end Cursor

/-! ### Flaws -/

/-- The version of a document, up to a number in it that has too many digits. -/
inductive LongVersion : List Char → Fault → Prop
  | intro {middle digits : List Char} (between : ∀ c ∈ middle, c = ' ' ∨ c = '.' ∨ c.isDigit = true)
      (numeral : ∀ c ∈ digits, c.isDigit = true) (long : Text.maxDigits < digits.length) :
      LongVersion (middle ++ digits) (.longNumeral digits.length)

/-- What in a text keeps it from being read, other than that it is no document. -/
inductive Upset (text : List Char) : Fault → Prop
  /-- A directive states a version that has a number with too many digits. -/
  | version {version : List Char} {fault : Fault} (found : "%YAML".toList ++ version <:+: text)
      (long : LongVersion version fault) : Upset text fault
  /-- An escape has a number that is no code point. -/
  | escape {letter : Char} {digits : List Char} {code : Nat} {fault : Fault}
      (found : '\\' :: letter :: digits <:+: text) (width : escapeWidth? letter = some digits.length)
      (number : hexNumber? digits = some code) (failed : escapedCode code = .error fault) : Upset text fault

/-- Why a text cannot be read: it is no document, or something in it is out of bounds. -/
def Flawed (text : List Char) (fault : Fault) : Prop :=
  fault.kind = .document ∨ Upset text fault

variable {c d after : Cursor} {text rest : List Char} {fault : Fault} {fuel : Nat} {α β : Type}

theorem Upset.within (inside : rest <:+: text) (upset : Upset rest fault) : Upset text fault := by
  cases upset with
  | version found long => exact .version (found.trans inside) long
  | escape found width number failed => exact .escape (found.trans inside) width number failed

theorem Flawed.within (suffix : rest <:+ text) (flawed : Flawed rest fault) : Flawed text fault :=
  flawed.imp_right (.within suffix.isInfix)

/-- What is read from a place ends behind it, and fails only on a flaw of the text from there on. -/
def Reads (c : Cursor) (x : Except Fault (α × Cursor)) : Prop :=
  Yields x (fun result => result.2.rest <:+ c.rest) (Flawed c.rest)

namespace Reads

variable {x : Except Fault (α × Cursor)} {f : α × Cursor → Except Fault (β × Cursor)}

theorem here (a : α) (behind : after.rest <:+ c.rest) : Reads c (.ok (a, after)) :=
  .done behind

theorem refused : Reads c (refuse : Except Fault (α × Cursor)) :=
  .fails (Or.inl rfl)

theorem cut : Reads c (cutShort : Except Fault (α × Cursor)) :=
  .fails (Or.inl rfl)

/-- What is read from a place behind. -/
theorem later (behind : after.rest <:+ c.rest) (reads : Reads after x) : Reads c x :=
  reads.mono (fun _ further => further.trans behind) fun _ => .within behind

theorem bind (reads : Reads c x) (next : ∀ a after, after.rest <:+ c.rest → Reads after (f (a, after))) :
    Reads c (x >>= f) :=
  Yields.bind reads fun (a, after) behind => (next a after behind).later behind

end Reads

/-! ### Names, tags and directives -/

/-- A part of a text has to end where it was read to. -/
theorem ended_reads (a : α) (c : Cursor) : Reads c (if endsPart c.head then pure (a, c) else refuse) := by
  split_ifs
  · exact .here a List.suffix_rfl
  · exact .refused

theorem anchorName_reads (c : Cursor) : Reads c (anchorName c) := by
  unfold anchorName
  dsimp only
  split_ifs
  · exact .refused
  · exact .here _ ((Cursor.span_suffix _ _).trans c.next_suffix)

theorem escapedBytes_reads (c : Cursor) (fuel : Nat) : Reads c (escapedBytes c fuel) := by
  induction fuel generalizing c with
  | zero => exact .here _ List.suffix_rfl
  | succ fuel ih =>
    unfold escapedBytes
    dsimp only
    split
    · split
      · split
        · exact .bind (.later (c.skip_suffix 3) (ih _)) fun _ _ _ => .here _ List.suffix_rfl
        · exact .refused
      · exact .refused
    · exact .here _ List.suffix_rfl

theorem uriFrom_reads (c : Cursor) (fuel : Nat) : Reads c (uriFrom c fuel) := by
  induction fuel generalizing c with
  | zero => exact .here _ List.suffix_rfl
  | succ fuel ih =>
    unfold uriFrom
    dsimp only
    refine .later (c.span_suffix isUriChar) ?_
    split_ifs
    · refine .bind (escapedBytes_reads _ _) fun bytes after _ => ?_
      dsimp only
      split
      next => exact .refused
      next => exact .bind (ih after) fun _ _ _ => .here _ List.suffix_rfl
    · exact .here _ List.suffix_rfl

theorem uri_reads (c : Cursor) : Reads c (uri c) := by
  refine .bind (uriFrom_reads _ _) fun text after _ => ?_
  dsimp only
  split_ifs
  · exact .refused
  · exact .here _ List.suffix_rfl

theorem tagHandle_reads (c : Cursor) : Reads c (tagHandle c) := by
  unfold tagHandle
  dsimp only
  split_ifs
  · exact .refused
  · exact .here _ c.next_suffix
  · exact .here _ ((Cursor.next_suffix _).trans ((Cursor.span_suffix _ _).trans c.next_suffix))
  · exact .refused

theorem tagToken_reads (c : Cursor) : Reads c (tagToken c) := by
  unfold tagToken
  dsimp only
  split_ifs
  · refine .bind (.later (c.skip_suffix 2) (uri_reads _)) fun suffix after _ => ?_
    dsimp only
    split_ifs
    · exact .later after.next_suffix (ended_reads _ _)
    · exact .refused
  · exact .later c.next_suffix (ended_reads _ _)
  · refine .bind (tagHandle_reads c) fun handle after _ => ?_
    exact .bind (uri_reads after) fun suffix after _ => ended_reads _ _
  · exact .bind (.later c.next_suffix (uri_reads _)) fun suffix after _ => ended_reads _ _

theorem handleValue_reads (c : Cursor) : Reads c (handleValue c) := by
  refine .bind (.later c.skipSpaces_suffix (tagHandle_reads _)) fun handle after _ => ?_
  dsimp only
  split_ifs
  · exact .refused
  · exact .bind (.later after.skipSpaces_suffix (uri_reads _)) fun start after _ => ended_reads _ _

/-- The rest of a line ends behind its beginning. -/
theorem ignoredLine_yields (c : Cursor) :
    Yields (ignoredLine c) (fun after => after.rest <:+ c.rest) (Flawed c.rest) := by
  unfold ignoredLine
  dsimp only
  split_ifs
  · exact .done ((Cursor.skipBreak_suffix _).trans ((Cursor.skipComment_suffix _).trans c.skipSpaces_suffix))
  · exact .fails (Or.inl rfl)

/-- What a number at the beginning of a text fails with. -/
def Misnumbered (text : List Char) (fault : Fault) : Prop :=
  fault = .badDocument ∨ ∃ version rest, text = version ++ rest ∧ LongVersion version fault

theorem Misnumbered.behind {front : List Char} (between : ∀ c ∈ front, c = ' ' ∨ c = '.' ∨ c.isDigit = true)
    (misnumbered : Misnumbered rest fault) : Misnumbered (front ++ rest) fault := by
  refine misnumbered.imp_right ?_
  rintro ⟨_, after, rfl, @⟨middle, digits, further, numeral, long⟩⟩
  refine ⟨(front ++ middle) ++ digits, after, by simp, .intro ?_ numeral long⟩
  simpa only [List.forall_mem_append] using ⟨between, further⟩

theorem digitsNumber_yields (c : Cursor) : Yields (digitsNumber c)
    (fun result => ∃ digits, c.rest = digits ++ result.2.rest ∧ ∀ d ∈ digits, d.isDigit = true)
    (Misnumbered c.rest) := by
  have numeral : ∀ d ∈ c.rest.takeWhile Char.isDigit, d.isDigit = true := fun _ => List.mem_takeWhile_imp
  have parts : c.rest = c.rest.takeWhile Char.isDigit ++ c.rest.dropWhile Char.isDigit :=
    List.takeWhile_append_dropWhile.symm
  unfold digitsNumber
  dsimp only
  split_ifs with empty long
  · exact .fails (Or.inl rfl)
  · exact .fails (Or.inr ⟨_, _, parts, @LongVersion.intro [] _ (by simp) numeral long⟩)
  · exact .done ⟨_, by rw [Cursor.span_rest]; exact parts, numeral⟩

theorem versionValue_yields (c : Cursor) :
    Yields (versionValue c) (fun result => result.2.rest <:+ c.rest) (Misnumbered c.rest) := by
  have spaces : ∀ ch ∈ c.rest.takeWhile (· = ' '), ch = ' ' ∨ ch = '.' ∨ ch.isDigit = true :=
    fun ch found => Or.inl (by simpa using List.mem_takeWhile_imp found)
  have begins : c.rest = c.rest.takeWhile (· = ' ') ++ c.skipSpaces.rest := by
    rw [Cursor.skipSpaces, Cursor.span_rest, List.takeWhile_append_dropWhile]
  have major : Yields (digitsNumber c.skipSpaces) (fun result => ∃ front, c.rest = front ++ result.2.rest ∧
      ∀ ch ∈ front, ch = ' ' ∨ ch = '.' ∨ ch.isDigit = true) (Misnumbered c.rest) := by
    refine (digitsNumber_yields c.skipSpaces).mono ?_ fun fault wrong => begins ▸ wrong.behind spaces
    rintro result ⟨digits, found, numeral⟩
    refine ⟨c.rest.takeWhile (· = ' ') ++ digits, by rw [List.append_assoc, ← found]; exact begins, ?_⟩
    exact List.forall_mem_append.mpr ⟨spaces, fun d inside => Or.inr (Or.inr (numeral d inside))⟩
  refine major.bind ?_
  rintro ⟨n, point⟩ ⟨front, found, between⟩
  dsimp only at found ⊢
  split
  next => exact .fails (Or.inl rfl)
  next stands =>
    have dotted : point.rest = '.' :: point.next.rest := Cursor.rest_of_starts (by simpa using stands)
    have upTo : c.rest = (front ++ ['.']) ++ point.next.rest := by rw [found, dotted]; simp
    have minor : Yields (digitsNumber point.next) (fun result => result.2.rest <:+ c.rest) (Misnumbered c.rest) := by
      refine (digitsNumber_yields point.next).mono ?_ fun fault wrong => upTo ▸ wrong.behind ?_
      · rintro result ⟨digits, goes, -⟩
        exact ⟨front ++ ['.'] ++ digits, by rw [upTo, goes]; simp⟩
      · exact List.forall_mem_append.mpr ⟨between, by simp⟩
    refine minor.bind fun result behind => ?_
    split
    · exact .done behind
    · exact .fails (Or.inl rfl)

/-- A directive that begins where it is looked for. -/
theorem directive_reads {c : Cursor} (mark : c.starts '%' = true) : Reads c (directive c) := by
  have named : c.rest = '%' :: (c.next.span isNameChar).1 ++ (c.next.span isNameChar).2.rest := by
    rw [Cursor.span_fst, Cursor.span_rest, List.cons_append, List.takeWhile_append_dropWhile]
    exact Cursor.rest_of_starts mark
  unfold directive
  generalize c.next.span isNameChar = parts at named ⊢
  obtain ⟨name, place⟩ := parts
  have behind : place.rest <:+ c.rest := ⟨_, named.symm⟩
  -- What is left of the line is passed over, whatever the directive says.
  have finished (token : Token) (after : Cursor) : Reads after (do return (token, ← ignoredLine after)) :=
    Yields.bind (ignoredLine_yields after) fun _ further => .done further
  dsimp only
  split
  · exact .refused
  · split
    next isVersion =>
      refine .bind (x := versionValue place) ?_ fun token after _ => finished token after
      refine (versionValue_yields place).mono (fun _ further => further.trans behind) fun fault wrong => ?_
      obtain rfl | ⟨version, rest, begins, long⟩ := wrong
      · exact Or.inl rfl
      · refine Or.inr (.version ⟨[], rest, ?_⟩ long)
        rw [named, isVersion, begins]
        simp
    · split
      · exact .bind (.later behind (handleValue_reads place)) fun token after _ => finished token after
      · exact .later behind (.later place.skipLine_suffix (finished _ _))

/-! ### Blocks of lines -/

theorem chomping?_suffix (c : Cursor) : (chomping? c).2.rest <:+ c.rest := by
  unfold chomping?
  split_ifs
  · exact c.next_suffix
  · exact c.next_suffix
  · exact List.suffix_rfl

theorem increment?_reads (c : Cursor) : Reads c (increment? c) := by
  unfold increment?
  split
  · split_ifs
    · exact .refused
    · exact .here _ c.next_suffix
    · exact .here _ List.suffix_rfl
  · exact .here _ List.suffix_rfl

theorem blockHead_reads (c : Cursor) : Reads c (blockHead c) := by
  unfold blockHead
  dsimp only
  refine .bind (.later (chomping?_suffix c) (increment?_reads _)) fun increment after _ => ?_
  dsimp only
  have behind : (if (chomping? c).1.isNone && increment.isSome then chomping? after
      else ((chomping? c).1, after)).2.rest <:+ after.rest := by
    split_ifs
    · exact chomping?_suffix after
    · exact List.suffix_rfl
  generalize (if (chomping? c).1.isNone && increment.isSome then chomping? after
    else ((chomping? c).1, after)) = marked at behind ⊢
  refine .later behind ?_
  split
  · exact Yields.bind (ignoredLine_yields marked.2) fun _ further => .done further
  · exact .refused

theorem skipIndent_suffix (indent : Nat) (c : Cursor) (fuel : Nat) : (skipIndent indent c fuel).rest <:+ c.rest := by
  induction fuel generalizing c with
  | zero => exact List.suffix_rfl
  | succ fuel ih =>
    unfold skipIndent
    split_ifs
    · exact (ih c.next).trans c.next_suffix
    · exact List.suffix_rfl

theorem blockBreaks_suffix (indent : Nat) (c : Cursor) (fuel : Nat) : (blockBreaks indent c fuel).2.rest <:+ c.rest := by
  induction fuel generalizing c with
  | zero => exact List.suffix_rfl
  | succ fuel ih =>
    unfold blockBreaks
    dsimp only
    have indented := skipIndent_suffix indent c indent
    split
    · exact indented
    next found => exact (ih _).trans ((Cursor.takeBreak?_suffix found).trans indented)

theorem leadingLines_suffix (c : Cursor) (farthest fuel : Nat) : (leadingLines c farthest fuel).2.2.rest <:+ c.rest := by
  induction fuel generalizing c farthest with
  | zero => exact List.suffix_rfl
  | succ fuel ih =>
    unfold leadingLines
    split
    · exact (ih c.next _).trans c.next_suffix
    · split
      · exact List.suffix_rfl
      next found => exact (ih _ _).trans (Cursor.takeBreak?_suffix found)

theorem blockLines_suffix (folded : Bool) (indent : Nat) (c : Cursor) (breaks : List Char) (fuel : Nat) :
    (blockLines folded indent c breaks fuel).cursor.rest <:+ c.rest := by
  induction fuel generalizing c breaks with
  | zero => exact List.suffix_rfl
  | succ fuel ih =>
    unfold blockLines
    split
    · have line := c.span_suffix fun ch => !isBreak ch
      dsimp only
      cases found : (c.span fun ch => !isBreak ch).2.takeBreak? with
      | none =>
        dsimp only
        split_ifs
        · exact (ih _ _).trans ((blockBreaks_suffix _ _ _).trans line)
        · exact (blockBreaks_suffix _ _ _).trans line
      | some taken =>
        have ended := (Cursor.takeBreak?_suffix found).trans line
        dsimp only
        split_ifs
        · exact (ih _ _).trans ((blockBreaks_suffix _ _ _).trans ended)
        · exact (blockBreaks_suffix _ _ _).trans ended
    · exact List.suffix_rfl

theorem blockScalar_reads (folded : Bool) (outer : Int) (c : Cursor) : Reads c (blockScalar folded outer c) := by
  unfold blockScalar
  refine .bind (.later c.next_suffix (blockHead_reads _)) fun head after _ => ?_
  obtain ⟨keep, increment⟩ := head
  cases increment <;> dsimp only
  case some n => exact .here _ ((blockLines_suffix _ _ _ _ _).trans (blockBreaks_suffix _ _ _))
  case none => exact .here _ ((blockLines_suffix _ _ _ _ _).trans (leadingLines_suffix _ _ _))

/-! ### Texts between quotes -/

theorem quotedBreaks_reads (c : Cursor) (fuel : Nat) : Reads c (quotedBreaks c fuel) := by
  induction fuel generalizing c with
  | zero => exact .here _ List.suffix_rfl
  | succ fuel ih =>
    unfold quotedBreaks
    dsimp only
    split
    · exact .refused
    · refine .later (c.span_suffix fun ch => ch = ' ' || ch = '\t') ?_
      split
      · exact .here _ List.suffix_rfl
      next found => exact .bind (.later (Cursor.takeBreak?_suffix found) (ih _)) fun _ _ _ => .here _ List.suffix_rfl

theorem quotedBlanks_reads (c : Cursor) : Reads c (quotedBlanks c) := by
  unfold quotedBlanks
  dsimp only
  split
  · exact .cut
  · exact .here _ (c.span_suffix _)
  next found _ =>
    refine .later (c.span_suffix fun ch => ch = ' ' || ch = '\t') (.later (Cursor.takeBreak?_suffix found) ?_)
    exact .bind (quotedBreaks_reads _ _) fun _ _ _ => .here _ List.suffix_rfl

/-- An escape may have a number that is no code point. -/
theorem quotedEscape_reads (mark : c.starts '\\' = true) : Reads c (quotedEscape c.next) := by
  have behind := c.next_suffix
  unfold quotedEscape
  split
  · exact .cut
  next letter found =>
    split
    · exact .here _ ((Cursor.next_suffix _).trans behind)
    next width _ announced =>
      have place : c.rest = '\\' :: letter :: c.next.next.rest := by
        rw [Cursor.rest_of_starts mark, Cursor.rest_of_head found]
      split
      · exact .refused
      next code number =>
        have valued : Yields (escapedCode code) (fun _ => True) (Flawed c.rest) := by
          refine ⟨fun _ => trivial, fun failed => ?_⟩
          rw [Cursor.rest_of_head found, List.drop_one, List.tail_cons] at number
          unfold escapeCode? at number
          dsimp only at number
          split at number
          next wide =>
            have announced := announced.trans (congrArg some wide.symm)
            refine Or.inr (.escape ⟨[], c.next.next.rest.drop width, ?_⟩ announced number failed)
            rw [place, List.nil_append, List.cons_append, List.cons_append, List.take_append_drop]
          next => cases number
        exact valued.bind fun ch _ => .done ((Cursor.skip_suffix _ _).trans behind)
    next broken => exact .later behind (.later (Cursor.takeBreak?_suffix broken) (quotedBreaks_reads _ _))
    · exact .refused

theorem quotedFrom_reads (quote : Char) (c : Cursor) (fuel : Nat) : Reads c (quotedFrom quote c fuel) := by
  induction fuel generalizing c with
  | zero => exact .refused
  | succ fuel ih =>
    unfold quotedFrom
    split
    · exact .cut
    next ch found =>
      have text (before : List Char) (after : Cursor) :
          Reads after (quotedFrom quote after fuel >>= fun result => pure (before ++ result.1, result.2)) :=
        .bind (ih after) fun _ _ _ => .here _ List.suffix_rfl
      dsimp only
      split
      · exact .here _ c.next_suffix
      · split
        · exact .later (c.skip_suffix 2) (text _ _)
        · split
          next escape =>
            have mark : c.starts '\\' = true := by
              simp only [Bool.and_eq_true, decide_eq_true_eq] at escape
              rw [Cursor.starts, found, escape.1]
              rfl
            exact .bind (quotedEscape_reads mark) fun before after _ => text before after
          · split
            · exact .bind (quotedBlanks_reads c) fun before after _ => text before after
            · exact .later c.next_suffix (text _ _)

theorem quotedScalar_reads (quote : Char) (c : Cursor) : Reads c (quotedScalar quote c) :=
  .bind (.later c.next_suffix (quotedFrom_reads _ _ _)) fun _ _ _ => .here _ List.suffix_rfl

/-! ### Plain texts -/

theorem plainBreaks_suffix (c : Cursor) (fuel : Nat) : (plainBreaks c fuel).2.rest <:+ c.rest := by
  induction fuel generalizing c with
  | zero => exact List.suffix_rfl
  | succ fuel ih =>
    unfold plainBreaks
    split
    · exact (ih c.next).trans c.next_suffix
    · split
      · exact List.suffix_rfl
      next found =>
        have behind := Cursor.takeBreak?_suffix found
        split
        · exact behind
        · exact (ih _).trans behind

theorem plainBlanks_suffix (c : Cursor) : (plainBlanks c).cursor.rest <:+ c.rest := by
  have blank := c.span_suffix (· = ' ')
  unfold plainBlanks
  dsimp only
  split
  · exact blank
  next found =>
    have behind := (Cursor.takeBreak?_suffix found).trans blank
    split
    · exact behind
    next after _ =>
      have further := (plainBreaks_suffix after (after.rest.length + 1)).trans behind
      split
      next broken => rw [broken] at further; exact further
      next broken => rw [broken] at further; exact further

theorem plainFrom_suffix (inFlow : Bool) (indent : Int) (blanks : PlainBlanks) (fuel : Nat)
    (behind : c.rest <:+ text) (before : blanks.cursor.rest <:+ text) :
    (plainFrom inFlow indent c blanks fuel).cursor.rest <:+ text := by
  induction fuel generalizing c blanks with
  | zero => exact before
  | succ fuel ih =>
    have further := ((plainBlanks_suffix _).trans (c.skip_suffix (plainRun inFlow c.rest).length)).trans behind
    unfold plainFrom
    dsimp only
    split_ifs
    · exact behind
    · exact further
    · exact ih _ further further

theorem plainScalar_suffix (inFlow : Bool) (outer : Int) (c : Cursor) :
    (plainScalar inFlow outer c).cursor.rest <:+ c.rest :=
  plainFrom_suffix _ _ _ _ List.suffix_rfl List.suffix_rfl

end Interaction.Document
