import Interaction.Proofs.CodePoints
import Interaction.Proofs.Interchange
import Interaction.Proofs.Spelling

/-! How the reader of documents takes strings. Each escape stands for one character, and spaces and breaks that stand
together are folded. -/

namespace Interaction

open Json Document

namespace Document

variable {c : Cursor} {ch : Char} {rest tail : List Char} {fuel : Nat}

/-- A break as it counts where lines are folded. -/
def lineEnd (ch : Char) : Char :=
  if ch.toNat = 0x2028 || ch.toNat = 0x2029 then ch else '\n'

/-- Whether the mark between documents begins a text. -/
def bounded (cs : List Char) : Bool :=
  ({ rest := cs } : Cursor).atBoundary

namespace Cursor

theorem skip_skip (c : Cursor) (m n : Nat) : (c.skip m).skip n = c.skip (m + n) := by
  induction m generalizing c with
  | zero => rw [Nat.zero_add]; rfl
  | succ m ih => rw [skip, ih, Nat.succ_add]; rfl

theorem head_of_rest (found : c.rest = ch :: rest) : c.head = some ch := by
  rw [head, found]; rfl

theorem takeBreak?_of_rest (found : c.rest = ch :: rest) :
    c.takeBreak? = if isBreak ch then some (lineEnd ch, c.skip 1) else none := by
  unfold takeBreak?
  rw [head_of_rest found]
  rfl

theorem atBoundary_eq (c : Cursor) : c.atBoundary = bounded c.rest :=
  rfl

theorem span_of_rest {p : Char → Bool} {run : List Char} (found : c.rest = run ++ tail) (all : ∀ x ∈ run, p x = true)
    (stop : ∀ x ∈ tail.head?, p x = false) : c.span p = (run, c.skip run.length) := by
  have taken : c.rest.takeWhile p = run := by
    rw [found, List.takeWhile_append_of_pos all]
    cases tail with
    | nil => simp
    | cons x tail => simp [stop x rfl]
  unfold span
  rw [taken]

end Cursor

/-! ### Spaces and breaks -/

/-- A space or break. -/
def isLayout (ch : Char) : Bool :=
  ch = ' ' || isBreak ch

theorem layout_split (run : List Char) (layout : ∀ x ∈ run, isLayout x = true) :
    (∀ x ∈ run, x = ' ') ∨ ∃ spaces b more, run = spaces ++ b :: more ∧ (∀ x ∈ spaces, x = ' ') ∧ isBreak b = true ∧
      ∀ x ∈ more, isLayout x = true := by
  induction run with
  | nil => exact .inl nofun
  | cons x run ih =>
    obtain ⟨here, later⟩ := List.forall_mem_cons.mp layout
    by_cases space : x = ' '
    · obtain all | ⟨spaces, b, more, rfl, spaced, line, rest⟩ := ih later
      · exact .inl (List.forall_mem_cons.mpr ⟨space, all⟩)
      · exact .inr ⟨x :: spaces, b, more, rfl, List.forall_mem_cons.mpr ⟨space, spaced⟩, line, rest⟩
    · exact .inr ⟨[], x, run, rfl, nofun, by simpa [isLayout, space] using here, later⟩

theorem isBreak_space : isBreak ' ' = false :=
  rfl

theorem blank_of_break {b : Char} (line : isBreak b = true) : (b = ' ' || b = '\t') = false := by
  have space : b ≠ ' ' := by rintro rfl; cases line
  have tab : b ≠ '\t' := by rintro rfl; cases line
  simp [space, tab]

/-- The breaks among spaces and breaks. -/
def breaksOf (run : List Char) : List Char :=
  (run.filter isBreak).map lineEnd

theorem breaksOf_spaces {spaces : List Char} (spaced : ∀ x ∈ spaces, x = ' ') (more : List Char) :
    breaksOf (spaces ++ more) = breaksOf more := by
  have none : spaces.filter isBreak = [] := List.filter_eq_nil_iff.mpr fun x member => by simp [spaced x member, isBreak_space]
  rw [breaksOf, List.filter_append, none, List.nil_append, breaksOf]

theorem breaksOf_cons {b : Char} (line : isBreak b = true) (more : List Char) :
    breaksOf (b :: more) = lineEnd b :: breaksOf more := by
  simp [breaksOf, line]

/-- Whether a mark between documents begins the line after spaces and breaks. -/
def cuts (run tail : List Char) : Bool :=
  run.getLast?.any isBreak && bounded tail

/-- Text that goes on after spaces and breaks: neither another one nor a tab comes next. -/
structure Resumes (tail : List Char) : Prop where
  some : tail ≠ []
  solid : ∀ x ∈ tail.head?, isLayout x = false ∧ x ≠ '\t'

theorem bounded_layout {x : Char} (layout : isLayout x = true) (cs : List Char) : bounded (x :: cs) = false := by
  have dash : x ≠ '-' := by rintro rfl; revert layout; decide
  have dot : x ≠ '.' := by rintro rfl; revert layout; decide
  simp [bounded, Cursor.atBoundary, Cursor.atSeparator, Cursor.peek, dash, dot]

theorem Resumes.blank (resumes : Resumes tail) : ∀ x ∈ tail.head?, (x = ' ' || x = '\t') = false := by
  intro x found
  obtain ⟨solid, tab⟩ := resumes.solid x found
  have space : x ≠ ' ' := by rintro rfl; exact absurd solid (by decide)
  simp [space, tab]

theorem Resumes.line (resumes : Resumes tail) : ∃ x more, tail = x :: more ∧ isBreak x = false := by
  cases tail with
  | nil => exact absurd rfl resumes.some
  | cons x more => exact ⟨x, more, rfl, by simpa [isLayout] using (Bool.or_eq_false_iff.mp (resumes.solid x rfl).1).2⟩

theorem cuts_append (before : List Char) {b : Char} {run : List Char} : cuts (before ++ b :: run) tail = cuts (b :: run) tail := by
  unfold cuts
  rw [List.getLast?_append_cons]

theorem cuts_cons_cons {x b : Char} {run : List Char} : cuts (x :: b :: run) tail = cuts (b :: run) tail :=
  cuts_append [x]

theorem cuts_spaces {b : Char} {spaces : List Char} (spaced : ∀ x ∈ spaces, x = ' ') (some : spaces ≠ []) :
    cuts (b :: spaces) tail = false := by
  have found := List.getLast?_eq_some_getLast some
  have space := spaced _ (List.mem_of_getLast? found)
  cases spaces with
  | nil => exact absurd rfl some
  | cons x spaces =>
    rw [cuts, List.getLast?_cons_cons, found, space]
    rfl

theorem quotedBreaks_run {b : Char} {run : List Char} (line : isBreak b = true)
    (layout : ∀ x ∈ run, isLayout x = true) (resumes : Resumes tail) (found : c.rest = run ++ tail)
    (enough : run.length < fuel) : quotedBreaks c fuel =
      if cuts (b :: run) tail then refuse else .ok (breaksOf run, c.skip run.length) := by
  induction fuel generalizing c b run with
  | zero => omega
  | succ fuel ih =>
    unfold quotedBreaks
    rw [Cursor.atBoundary_eq, found]
    obtain spaced | ⟨spaces, b', run, rfl, spaced, line', layout⟩ := layout_split run layout
    · have boundary : bounded (run ++ tail) = cuts (b :: run) tail := by
        cases run with
        | nil => simp [cuts, line]
        | cons x run => rw [List.cons_append, bounded_layout (layout x List.mem_cons_self), cuts_spaces spaced (by simp)]
      have ends : (c.skip run.length).takeBreak? = none := by
        obtain ⟨x, more, rfl, solid⟩ := resumes.line
        rw [Cursor.takeBreak?_of_rest (by rw [Cursor.skip_rest, found, List.drop_left]), solid]
        rfl
      have none : breaksOf run = [] := by simpa [breaksOf] using breaksOf_spaces spaced []
      rw [boundary, Cursor.span_of_rest found (by simpa using fun x member => .inl (spaced x member)) resumes.blank, none]
      dsimp only
      rw [ends]
    · have boundary : bounded (spaces ++ b' :: run ++ tail) = false := by
        cases spaces with
        | nil => exact bounded_layout (by simp [isLayout, line']) _
        | cons x spaces => exact bounded_layout (by simp [isLayout, spaced x List.mem_cons_self]) _
      have rest : (c.skip spaces.length).rest = b' :: (run ++ tail) := by simp [found]
      have split : c.rest = spaces ++ b' :: (run ++ tail) := by simpa using found
      rw [boundary, Cursor.span_of_rest split
        (by simpa using fun x member => .inl (spaced x member)) (by simpa using blank_of_break line')]
      simp only [Bool.false_eq_true, if_false, Cursor.takeBreak?_of_rest rest, if_pos line']
      rw [ih line' layout (by simp [found]) (by simp at enough; omega), ← List.cons_append, cuts_append (b :: spaces),
        breaksOf_spaces spaced, breaksOf_cons line']
      split
      · rfl
      · simp only [bind, Except.bind, pure, Except.pure, Cursor.skip_skip, List.length_append, List.length_cons]
        rw [show spaces.length + 1 + run.length = spaces.length + (run.length + 1) by omega]

/-- Spaces and breaks as they are folded. -/
def foldRun (run : List Char) : List Char :=
  match breaksOf run with
  | [] => run
  | first :: more => foldBreaks first more

theorem lineEnd_isBreak (c : Char) : isBreak (lineEnd c) = true := by
  unfold lineEnd
  split
  next separator => simp only [isBreak, Bool.or_eq_true, decide_eq_true_eq]; simp at separator; tauto
  next => rfl

theorem foldRun_layout {run : List Char} (layout : ∀ x ∈ run, isLayout x = true) : ∀ x ∈ foldRun run, isLayout x = true := by
  have lines : ∀ x ∈ breaksOf run, isLayout x = true := by
    intro x member
    obtain ⟨b, -, rfl⟩ := List.mem_map.mp member
    simp [isLayout, lineEnd_isBreak]
  unfold foldRun
  split
  next => exact layout
  next first more found =>
    rw [found] at lines
    obtain ⟨here, later⟩ := List.forall_mem_cons.mp lines
    unfold foldBreaks
    split_ifs
    · exact lines
    · simp [isLayout]
    · exact later

theorem spell_layout {run : List Char} (layout : ∀ x ∈ run, isLayout x = true) :
    ((foldRun run).map Char.toNat).flatMap Text.spell = foldRun run := by
  rw [List.flatMap_map]
  refine Text.spelled_char fun x member => ?_
  rintro rfl
  exact absurd (foldRun_layout layout _ member) (by decide)

theorem quotedBlanks_run {run : List Char} (layout : ∀ x ∈ run, isLayout x = true) (resumes : Resumes tail)
    (found : c.rest = run ++ tail) :
    quotedBlanks c = if cuts run tail then refuse else .ok (foldRun run, c.skip run.length) := by
  unfold quotedBlanks foldRun
  obtain spaced | ⟨spaces, b, run, rfl, spaced, line, layout⟩ := layout_split run layout
  · have whole : cuts run tail = false := by
      cases run with
      | nil => rfl
      | cons x run =>
        have space := spaced _ (List.getLast_mem (List.cons_ne_nil x run))
        simp [cuts, List.getLast?_eq_some_getLast, space, isBreak_space]
    have none : breaksOf run = [] := by simpa [breaksOf] using breaksOf_spaces spaced []
    obtain ⟨x, more, rfl, solid⟩ := resumes.line
    have rest : (c.skip run.length).rest = x :: more := by rw [Cursor.skip_rest, found, List.drop_left]
    rw [Cursor.span_of_rest found (by simpa using fun x member => .inl (spaced x member)) resumes.blank, whole, none]
    simp [Cursor.head_of_rest rest, Cursor.takeBreak?_of_rest rest, solid]
  · have rest : (c.skip spaces.length).rest = b :: (run ++ tail) := by simp [found]
    have split : c.rest = spaces ++ b :: (run ++ tail) := by simpa using found
    rw [Cursor.span_of_rest split
      (by simpa using fun x member => .inl (spaced x member)) (by simpa using blank_of_break line), cuts_append,
      breaksOf_spaces spaced, breaksOf_cons line]
    simp only [Cursor.head_of_rest rest, Cursor.takeBreak?_of_rest rest, if_pos line]
    rw [quotedBreaks_run line layout resumes (by simp [found])
      (by rw [Cursor.skip_rest, rest, List.drop_one, List.tail_cons, List.length_append]; omega)]
    split
    · rfl
    · simp only [bind, Except.bind, pure, Except.pure, Cursor.skip_skip, List.length_append, List.length_cons]
      rw [show spaces.length + 1 + run.length = spaces.length + (run.length + 1) by omega]

end Document

namespace Json

/-! ### Pieces -/

variable {p : Piece} {ps : List Piece} {tail : List Char}

/-- A space or break that is written as it is. -/
def Piece.isLayout : Piece → Bool
  | .plain ch _ => Document.isLayout ch
  | _ => false

theorem Piece.chars_layout (layout : p.isLayout = true) :
    ∃ ch, p.chars = [ch] ∧ p.point = ch.toNat ∧ Document.isLayout ch = true := by
  cases p with
  | plain ch => exact ⟨ch, rfl, rfl, layout⟩
  | escape => cases layout
  | unit => cases layout

/-- The spaces and breaks that a string begins with. -/
def layoutOf (ps : List Piece) : List Char :=
  written (ps.takeWhile Piece.isLayout)

/-- What comes after them. -/
def solidOf (ps : List Piece) : List Piece :=
  ps.dropWhile Piece.isLayout

theorem solidOf_length (layout : p.isLayout = true) (rest : List Piece) : (solidOf (p :: rest)).length < (p :: rest).length := by
  rw [solidOf, List.dropWhile_cons_of_pos layout]
  exact Nat.lt_succ_of_le (List.dropWhile_suffix _).length_le

/-- The code points for which the reader of documents takes a string, unless a mark between documents begins one of its
lines. -/
def folded (ps : List Piece) : Option (List Nat) :=
  match ps with
  | [] => some []
  | p :: rest =>
    if _layout : p.isLayout = true then
      if cuts (layoutOf (p :: rest)) (written (solidOf (p :: rest)) ++ ['"']) then none
      else (folded (solidOf (p :: rest))).map ((foldRun (layoutOf (p :: rest))).map Char.toNat ++ ·)
    else (folded rest).map (p.point :: ·)
termination_by ps.length
decreasing_by
  · exact solidOf_length _layout rest
  · exact Nat.lt_succ_self _

theorem folded_solid (solid : p.isLayout = false) (rest : List Piece) : folded (p :: rest) = (folded rest).map (p.point :: ·) := by
  rw [folded, dif_neg (by simp [solid])]

theorem folded_layout (layout : p.isLayout = true) (rest : List Piece) : folded (p :: rest) =
    if cuts (layoutOf (p :: rest)) (written (solidOf (p :: rest)) ++ ['"']) then none
    else (folded (solidOf (p :: rest))).map ((foldRun (layoutOf (p :: rest))).map Char.toNat ++ ·) := by
  rw [folded, dif_pos layout]

theorem written_cons (p : Piece) (ps : List Piece) : written (p :: ps) = p.chars ++ written ps :=
  List.flatMap_cons

theorem written_eq (ps : List Piece) : written ps = layoutOf ps ++ written (solidOf ps) := by
  rw [layoutOf, solidOf, written, written, written, ← List.flatMap_append, List.takeWhile_append_dropWhile]

theorem layoutOf_all (ps : List Piece) : ∀ x ∈ layoutOf ps, Document.isLayout x = true := by
  intro x member
  obtain ⟨q, inside, found⟩ := List.mem_flatMap.mp member
  obtain ⟨ch, chars, -, layout⟩ := Piece.chars_layout (List.mem_takeWhile_imp inside)
  rw [chars, List.mem_singleton] at found
  exact found ▸ layout

theorem layoutOf_cons (layout : p.isLayout = true) (rest : List Piece) : layoutOf (p :: rest) ≠ [] := by
  obtain ⟨ch, chars, -, -⟩ := Piece.chars_layout layout
  rw [layoutOf, List.takeWhile_cons_of_pos layout, written_cons, chars]
  exact List.cons_ne_nil _ _

theorem Piece.chars_head (solid : p.isLayout = false) : ∃ x more, p.chars = x :: more ∧ Document.isLayout x = false ∧ x ≠ '\t' := by
  cases p with
  | plain x fits =>
    refine ⟨x, [], rfl, solid, ?_⟩
    rintro rfl
    cases fits
  | escape => exact ⟨_, _, rfl, by decide, by decide⟩
  | unit => exact ⟨_, _, rfl, by decide, by decide⟩

/-- Where spaces and breaks end, something else begins: another piece, or the quote at the end. -/
theorem resumes_written (ps : List Piece) (tail : List Char) :
    Resumes (written (solidOf ps) ++ '"' :: tail) := by
  unfold solidOf
  cases rest : ps.dropWhile Piece.isLayout with
  | nil => exact ⟨nofun, by rintro x ⟨⟩; decide⟩
  | cons q qs =>
    have solid : q.isLayout = false := by
      have := List.head?_dropWhile_not Piece.isLayout ps
      rw [rest] at this
      simpa using this
    obtain ⟨x, more, chars, this⟩ := q.chars_head solid
    rw [written_cons, chars]
    exact ⟨nofun, by rintro y ⟨⟩; exact this⟩

/-- What comes after the closing quote does not matter to the mark between documents. -/
theorem bounded_quote (cs tail : List Char) : bounded (cs ++ '"' :: tail) = bounded (cs ++ ['"']) := by
  obtain _ | ⟨a, _ | ⟨b, _ | ⟨c, _ | ⟨d, cs⟩⟩⟩⟩ := cs <;>
    simp [bounded, Cursor.atBoundary, Cursor.atSeparator, Cursor.peek]

theorem cuts_quote (run cs tail : List Char) : cuts run (cs ++ '"' :: tail) = cuts run (cs ++ ['"']) := by
  rw [cuts, bounded_quote, cuts]

theorem escaped?_letter : ∀ letter ∈ escapes, escaped? letter.1 = some letter.2 := by
  decide

theorem escapes_whole : ∀ letter ∈ escapes, letter.2 ≠ Text.mark := by
  decide

theorem hexValue?_char : ∀ (value : Fin 16) (capital : Bool), Text.hexValue? (HexDigit.char ⟨value, capital⟩) = some value.val := by
  decide

theorem escapeCode?_unit (code : Code) (tail : List Char) :
    escapeCode? (code.a.char :: code.b.char :: code.c.char :: code.d.char :: tail) 4 = some code.number := by
  have value (d : HexDigit) : Text.hexValue? d.char = some d.value.val := hexValue?_char d.value d.capital
  simp only [escapeCode?, List.take, List.length_cons, List.length_nil, if_true, hexNumber?, List.foldl, value, Code.number]
  simp
  omega

variable {c : Cursor} {fuel : Nat}

/-- The next part of a text between quotes. -/
def quotedPart (c : Cursor) (ch : Char) : Except Fault (List Char × Cursor) :=
  if ch = '\\' then quotedEscape c.next else if endsWord (some ch) then quotedBlanks c else pure (Text.spell ch.toNat, c.next)

theorem quotedFrom_succ {ch : Char} (found : c.head = some ch) (inner : ch ≠ '"') :
    quotedFrom '"' c (fuel + 1) = (quotedPart c ch >>= fun part =>
      quotedFrom '"' part.2 fuel >>= fun rest => pure (part.1 ++ rest.1, rest.2)) := by
  unfold quotedPart
  simp only [quotedFrom, found, inner, decide_false, Bool.false_and, Bool.false_eq_true, if_false, decide_true, Bool.and_true,
    decide_eq_true_eq]
  split_ifs <;> rfl

/-- A piece that is neither a space nor a break is taken for the code point that it stands for. -/
theorem quotedPart_piece (solid : p.isLayout = false) (found : c.rest = p.chars ++ tail) :
    ∃ ch, c.head = some ch ∧ ch ≠ '"' ∧ quotedPart c ch = .ok (Text.spell p.point, c.skip p.chars.length) := by
  cases p with
  | plain x fits =>
    have stays : endsWord (some x) = false := by
      have tab : x ≠ '\t' := by rintro rfl; cases fits
      have layout : (x = ' ' || isBreak x) = false := solid
      simp only [endsWord, tab, decide_false, Bool.or_false]
      exact layout
    have quote : x ≠ '"' := by rintro rfl; cases fits
    have backslash : x ≠ '\\' := by rintro rfl; cases fits
    refine ⟨x, Cursor.head_of_rest found, quote, ?_⟩
    rw [quotedPart, if_neg backslash, stays]
    rfl
  | escape letter known =>
    have head : c.next.head = some letter.1 := Cursor.head_of_rest (by rw [Cursor.next_rest, found]; rfl)
    refine ⟨_, Cursor.head_of_rest found, by decide, ?_⟩
    rw [quotedPart, if_pos rfl, quotedEscape, head]
    simp only [escaped?_letter letter known]
    rw [Piece.point, Text.spell_char (escapes_whole letter known)]
    rfl
  | unit code =>
    have rest : c.next.rest = 'u' :: code.a.char :: code.b.char :: code.c.char :: code.d.char :: tail := by
      rw [Cursor.next_rest, found]; rfl
    have small : code.number < 0x10000 := by unfold Code.number; omega
    refine ⟨_, Cursor.head_of_rest found, by decide, ?_⟩
    rw [quotedPart, if_pos rfl, quotedEscape, Cursor.head_of_rest rest, rest]
    have none : escaped? 'u' = none := by decide
    have width : escapeWidth? 'u' = some 4 := by decide
    simp only [none, width, List.drop_succ_cons, List.drop_zero, escapeCode?_unit, escapedCode,
      if_neg (show ¬ 0x7FFFFFFF < code.number by omega), if_neg (show ¬ 0x10FFFF < code.number by omega)]
    rfl

/-- Spaces and breaks that stand together are folded, unless a mark between documents begins the next line. -/
theorem quotedFrom_run {run : List Char} (some : run ≠ []) (layout : ∀ x ∈ run, Document.isLayout x = true)
    (resumes : Resumes tail) (found : c.rest = run ++ tail) : quotedFrom '"' c (fuel + 1) =
      if cuts run tail then refuse
      else quotedFrom '"' (c.skip run.length) fuel >>= fun result => pure (foldRun run ++ result.1, result.2) := by
  obtain ⟨x, run, rfl⟩ := List.exists_cons_of_ne_nil some
  have here := layout x List.mem_cons_self
  have inner : x ≠ '"' := by rintro rfl; cases here
  have backslash : x ≠ '\\' := by rintro rfl; cases here
  have stops : endsWord (.some x) = true := by
    have : x = ' ' ∨ isBreak x = true := by simpa [Document.isLayout] using here
    simp only [endsWord, Bool.or_eq_true, decide_eq_true_eq]
    tauto
  rw [quotedFrom_succ (Cursor.head_of_rest found) inner, quotedPart, if_neg backslash, if_pos stops,
    quotedBlanks_run layout resumes found]
  split <;> rfl

theorem quotedFrom_written (found : c.rest = written ps ++ '"' :: tail) (enough : (written ps).length < fuel) :
    quotedFrom '"' c fuel =
      (folded ps).elim refuse fun ns => .ok (ns.flatMap Text.spell, c.skip ((written ps).length + 1)) := by
  -- The cases are those of folding: the end, a run of layout that is cut or not, and a piece that is none.
  induction ps using folded.induct generalizing c fuel with
  | case1 =>
    obtain ⟨fuel, rfl⟩ : ∃ n, fuel = n + 1 := ⟨fuel - 1, by omega⟩
    simp only [quotedFrom, Cursor.head_of_rest found]
    rw [folded]
    rfl
  | case2 p rest layout cut =>
    obtain ⟨fuel, rfl⟩ : ∃ n, fuel = n + 1 := ⟨fuel - 1, by omega⟩
    rw [written_eq, List.append_assoc] at found
    rw [quotedFrom_run (layoutOf_cons layout rest) (layoutOf_all _) (resumes_written _ _) found, cuts_quote, if_pos cut,
      folded_layout layout, if_pos cut]
    rfl
  | case3 p rest layout uncut ih =>
    obtain ⟨fuel, rfl⟩ : ∃ n, fuel = n + 1 := ⟨fuel - 1, by omega⟩
    rw [written_eq, List.append_assoc] at found
    have some := List.length_pos_iff.mpr (layoutOf_cons layout rest)
    rw [written_eq, List.length_append] at enough
    rw [quotedFrom_run (layoutOf_cons layout rest) (layoutOf_all _) (resumes_written _ _) found, cuts_quote, if_neg uncut,
      ih (by rw [Cursor.skip_rest, found, List.drop_left]) (by omega), folded_layout layout, if_neg uncut]
    cases folded (solidOf (p :: rest)) with
    | none => rfl
    | some ns =>
      simp only [Option.elim, Option.map_some, bind, Except.bind, pure, Except.pure, Cursor.skip_skip]
      rw [written_eq (p :: rest), List.length_append, Nat.add_assoc, List.flatMap_append, spell_layout (layoutOf_all _)]
  | case4 p rest solid ih =>
    have solid : p.isLayout = false := by simpa using solid
    obtain ⟨fuel, rfl⟩ : ∃ n, fuel = n + 1 := ⟨fuel - 1, by omega⟩
    rw [written_cons, List.append_assoc] at found
    obtain ⟨ch, head, inner, part⟩ := quotedPart_piece solid found
    have fewer : (written rest).length < fuel := by
      obtain ⟨x, more, chars, -⟩ := p.chars_head solid
      rw [written_cons, chars, List.length_append, List.length_cons] at enough
      omega
    rw [quotedFrom_succ head inner, part, folded_solid solid]
    simp only [bind, Except.bind]
    rw [ih (by rw [Cursor.skip_rest, found, List.drop_left]) fewer]
    cases folded rest with
    | none => rfl
    | some ns =>
      simp only [Option.elim, Option.map_some, pure, Except.pure, Cursor.skip_skip, written_cons, List.length_append,
        List.flatMap_cons]
      rw [Nat.add_assoc]

theorem quotedScalar_quoted (found : c.rest = quoted ps ++ tail) : quotedScalar '"' c =
    (folded ps).elim refuse fun ns => .ok (Text.ofPoints ns, c.skip (quoted ps).length) := by
  have inner : c.next.rest = written ps ++ '"' :: tail := by rw [Cursor.next_rest, found]; simp [quoted]
  unfold quotedScalar
  rw [quotedFrom_written inner (by simp [found, quoted]; omega)]
  cases folded ps with
  | none => rfl
  | some ns =>
    rw [show c.next = c.skip 1 from rfl, Option.elim, Cursor.skip_skip, quoted, List.length_cons, List.length_append,
      List.length_singleton, Nat.add_comm 1]
    rfl

end Json

end Interaction
