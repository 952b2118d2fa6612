import Interaction.Proofs.Quoting

/-! Which strings the reader of documents takes for the text that they stand for: those none of whose parts is
misread. -/

namespace Interaction.Json

open Document

variable {p q : Piece} {ps rest : List Piece} {run : List Char}

/-! ### Parts at the beginning -/

/-- A part that is misread begins a string. -/
def Slips (ps : List Piece) : Prop :=
  ∃ part, part <+: ps ∧ Misread part

theorem intact_nil : Intact [] := by
  intro part inside misread
  cases List.infix_nil.mp inside
  cases misread

theorem intact_cons : Intact (p :: ps) ↔ ¬ Slips (p :: ps) ∧ Intact ps := by
  simp only [Intact, Slips, List.infix_cons_iff]
  constructor
  · exact fun intact => ⟨fun ⟨part, begins, misread⟩ => intact part (.inl begins) misread, fun part inside => intact part (.inr inside)⟩
  · rintro ⟨sound, intact⟩ part (begins | inside) misread
    · exact sound ⟨part, begins, misread⟩
    · exact intact part inside misread

/-! ### Pairs -/

/-- The two pieces of a pair are halves. -/
theorem joint_halves {n : Nat} (joined : joint? p q = some n) : Text.isHalf p.point = true ∧ Text.isHalf q.point = true := by
  cases p with
  | unit high =>
    cases q with
    | unit low =>
      have bounds : 0xD800 ≤ high.number ∧ high.number < 0xDC00 ∧ 0xDC00 ≤ low.number ∧ low.number < 0xE000 := by
        by_contra outside
        rw [joint?, Text.pair?, if_neg (by simpa [and_assoc] using outside)] at joined
        cases joined
      exact ⟨Text.isHalf_iff.mpr (by simp [Piece.point]; omega), Text.isHalf_iff.mpr (by simp [Piece.point]; omega)⟩
    | plain => cases joined
    | escape => cases joined
  | plain => cases joined
  | escape => cases joined

/-- How many code points are halves. -/
def halves (ns : List Nat) : Nat :=
  ns.countP Text.isHalf

/-- No two pieces that follow each other are a pair. -/
def Apart (ps : List Piece) : Prop :=
  ∀ p q, [p, q] <:+: ps → joint? p q = none

theorem apart_cons : Apart (p :: q :: rest) ↔ joint? p q = none ∧ Apart (q :: rest) := by
  constructor
  · exact fun apart => ⟨apart p q ⟨[], rest, rfl⟩, fun x y inside => apart x y (inside.trans (List.suffix_cons _ _).isInfix)⟩
  · rintro ⟨here, later⟩ x y inside
    obtain begins | further := List.infix_cons_iff.mp inside
    · simp only [List.cons_prefix_cons] at begins
      obtain ⟨rfl, rfl, -⟩ := begins
      exact here
    · exact later x y further

theorem unescaped_apart (apart : Apart ps) : unescaped ps = ps.map Piece.point := by
  induction ps using unescaped.induct with
  | case1 => rfl
  | case2 p => rfl
  | case3 p q rest n joined ih => cases joined.symm.trans (apart_cons.mp apart).1
  | case4 p q rest none ih => rw [unescaped, none, ih (apart_cons.mp apart).2]; rfl

/-- A pair that is put together takes halves away. -/
theorem unescaped_halves (ps : List Piece) : halves (unescaped ps) < halves (ps.map Piece.point) ∨ Apart ps := by
  induction ps using unescaped.induct with
  | case1 => exact .inr fun p q inside => by cases List.infix_nil.mp inside
  | case2 p =>
    refine .inr fun x y inside => ?_
    have := inside.length_le
    simp at this
  | case3 p q rest n joined ih =>
    have both := joint_halves joined
    have later : halves (unescaped rest) ≤ halves (rest.map Piece.point) := by
      obtain fewer | apart := ih
      · exact Nat.le_of_lt fewer
      · rw [unescaped_apart apart]
    left
    have one : List.countP Text.isHalf [n] ≤ 1 := List.countP_le_length
    unfold halves at later ⊢
    rw [unescaped, joined]
    simp only [List.map_cons, List.countP_cons, both.1, both.2, if_true]
    split <;> omega
  | case4 p q rest none ih =>
    rw [unescaped, none]
    obtain fewer | apart := ih
    · left
      unfold halves at fewer ⊢
      simp only [List.map_cons, List.countP_cons] at fewer ⊢
      omega
    · exact .inr (apart_cons.mpr ⟨none, apart⟩)

/-! ### Spaces and breaks -/

/-- A separator of lines or of paragraphs. -/
def IsSeparator (c : Char) : Prop :=
  c.toNat = 0x2028 ∨ c.toNat = 0x2029

/-- Spaces only, or separators only. -/
def Uniform (run : List Char) : Prop :=
  (∀ x ∈ run, x = ' ') ∨ ∀ x ∈ run, IsSeparator x

theorem IsSeparator.isBreak {c : Char} (separator : IsSeparator c) : Document.isBreak c = true ∧ lineEnd c = c := by
  obtain same | same := separator <;> simp [Document.isBreak, lineEnd, same]

theorem breaksOf_separators (separators : ∀ x ∈ run, IsSeparator x) : breaksOf run = run := by
  induction run with
  | nil => rfl
  | cons x run ih =>
    obtain ⟨here, later⟩ := List.forall_mem_cons.mp separators
    rw [breaksOf_cons here.isBreak.1, here.isBreak.2, ih later]

theorem breaksOf_length (run : List Char) : (breaksOf run).length ≤ run.length := by
  rw [breaksOf, List.length_map]
  exact List.length_filter_le _ _

theorem foldRun_length (run : List Char) : (foldRun run).length ≤ run.length := by
  have fewer := breaksOf_length run
  unfold foldRun
  split
  next => exact Nat.le_refl _
  next first more found =>
    rw [found] at fewer
    unfold foldBreaks
    simp only [List.length_cons] at fewer
    split_ifs <;> simp <;> omega

theorem lineEnd_eq {c : Char} (other : c ≠ '\n') : lineEnd c = c ↔ IsSeparator c := by
  constructor
  · intro same
    unfold lineEnd at same
    split at same
    next separator => simpa [IsSeparator] using separator
    next => exact absurd same.symm other
  · exact fun separator => separator.isBreak.2

theorem separators_of_breaksOf (bare : '\n' ∉ run) (same : breaksOf run = run) : ∀ x ∈ run, IsSeparator x := by
  have lines : run.filter Document.isBreak = run := by
    refine List.filter_sublist.eq_of_length ?_
    rw [← List.length_map lineEnd]
    exact congrArg List.length same
  rw [breaksOf, lines] at same
  intro x member
  have here : lineEnd x = x := by
    have := List.map_eq_map_iff.mp (same.trans (List.map_id run).symm) x member
    simpa using this
  exact (lineEnd_eq fun feed => bare (feed ▸ member)).mp here

/-- What is folded stays the same only if it is uniform. -/
theorem foldRun_eq (layout : ∀ x ∈ run, isLayout x = true) (bare : '\n' ∉ run) : foldRun run = run ↔ Uniform run := by
  constructor
  · intro same
    obtain spaced | ⟨spaces, b, more, rfl, spaced, line, layout⟩ := layout_split run layout
    · exact .inl spaced
    · have found : breaksOf (spaces ++ b :: more) = lineEnd b :: breaksOf more := by
        rw [breaksOf_spaces spaced, breaksOf_cons line]
      have fewer := breaksOf_length more
      unfold foldRun at same
      rw [found] at same
      simp only [foldBreaks] at same
      split_ifs at same with first empty
      · exact .inr (separators_of_breaksOf bare (found.trans same))
      · have member : b ∈ [' '] := by rw [same]; simp
        rw [List.mem_singleton.mp member] at line
        cases line
      · have := congrArg List.length same
        simp at this
        omega
  · rintro (spaced | separators)
    · have none : breaksOf run = [] := by simpa [breaksOf] using breaksOf_spaces spaced []
      simp only [foldRun, none]
    · have same := breaksOf_separators separators
      unfold foldRun
      cases run with
      | nil => rfl
      | cons x run =>
        have other : x ≠ '\n' := by rintro rfl; exact bare List.mem_cons_self
        rw [same]
        exact if_pos other

/-! ### Strings -/

theorem layoutOf_layout {c : Char} {fits : isPlain c = true} (layout : isLayout c = true) (rest : List Piece) :
    layoutOf (.plain c fits :: rest) = c :: layoutOf rest := by
  rw [layoutOf, List.takeWhile_cons_of_pos (by exact layout)]; rfl

theorem solidOf_layout (layout : p.isLayout = true) (rest : List Piece) : solidOf (p :: rest) = solidOf rest :=
  List.dropWhile_cons_of_pos layout

theorem solid_whole (solid : ∀ q ∈ ps.head?, q.isLayout = false) : layoutOf ps = [] ∧ solidOf ps = ps := by
  cases ps with
  | nil => exact ⟨rfl, rfl⟩
  | cons q ps => simp [layoutOf, solidOf, written, solid q rfl]

theorem points_layout (ps : List Piece) :
    (ps.takeWhile Piece.isLayout).map Piece.point = (layoutOf ps).map Char.toNat := by
  induction ps with
  | nil => rfl
  | cons p ps ih =>
    cases layout : p.isLayout with
    | false => simp [layoutOf, layout, written]
    | true =>
      obtain ⟨ch, chars, point, -⟩ := Piece.chars_layout layout
      rw [layoutOf] at ih ⊢
      simp only [List.takeWhile_cons_of_pos layout, List.map_cons, written_cons, chars, point, ih, List.singleton_append]

theorem points_eq (ps : List Piece) :
    ps.map Piece.point = (layoutOf ps).map Char.toNat ++ (solidOf ps).map Piece.point := by
  rw [← points_layout, solidOf, ← List.map_append, List.takeWhile_append_dropWhile]

theorem folded_length {ns : List Nat} (taken : folded ps = some ns) : ns.length ≤ ps.length := by
  induction ps using folded.induct generalizing ns with
  | case1 => rw [folded] at taken; cases taken; exact Nat.le_refl _
  | case2 p rest layout cut => rw [folded_layout layout, if_pos cut] at taken; cases taken
  | case3 p rest layout uncut ih =>
    rw [folded_layout layout, if_neg uncut, Option.map_eq_some_iff] at taken
    obtain ⟨later, further, rfl⟩ := taken
    have whole := congrArg List.length (points_eq (p :: rest))
    have first := foldRun_length (layoutOf (p :: rest))
    have last := ih further
    simp only [List.length_append, List.length_map] at whole ⊢
    omega
  | case4 p rest solid ih =>
    rw [folded_solid (by simpa using solid), Option.map_eq_some_iff] at taken
    obtain ⟨later, further, rfl⟩ := taken
    exact Nat.succ_le_succ (ih further)

theorem halves_chars (cs : List Char) : halves (cs.map Char.toNat) = 0 := by
  rw [halves, List.countP_eq_zero, List.forall_mem_map]
  exact fun c _ => by simp [Text.whole_of_char c]

theorem folded_halves {ns : List Nat} (taken : folded ps = some ns) : halves ns = halves (ps.map Piece.point) := by
  induction ps using folded.induct generalizing ns with
  | case1 => rw [folded] at taken; cases taken; rfl
  | case2 p rest layout cut => rw [folded_layout layout, if_pos cut] at taken; cases taken
  | case3 p rest layout uncut ih =>
    rw [folded_layout layout, if_neg uncut, Option.map_eq_some_iff] at taken
    obtain ⟨later, further, rfl⟩ := taken
    rw [points_eq, halves, List.countP_append, halves, List.countP_append]
    exact congrArg₂ (· + ·) ((halves_chars _).trans (halves_chars _).symm) (ih further)
  | case4 p rest solid ih =>
    rw [folded_solid (by simpa using solid), Option.map_eq_some_iff] at taken
    obtain ⟨later, further, rfl⟩ := taken
    have same := ih further
    unfold halves at same ⊢
    rw [List.map_cons, List.countP_cons, List.countP_cons, same]

/-- A string that is taken for the code points of its pieces. -/
def Sound (ps : List Piece) : Prop :=
  folded ps = some (ps.map Piece.point)

theorem sound_solid (solid : p.isLayout = false) : Sound (p :: rest) ↔ Sound rest := by
  unfold Sound
  rw [folded_solid solid, Option.map_eq_some_iff]
  simp

theorem layoutOf_bare (ps : List Piece) : '\n' ∉ layoutOf ps := by
  intro member
  obtain ⟨q, inside, found⟩ := List.mem_flatMap.mp member
  have layout := List.mem_takeWhile_imp inside
  cases q with
  | plain c fits => cases List.mem_singleton.mp found; cases fits
  | escape => cases layout
  | unit => cases layout

theorem sound_layout (layout : p.isLayout = true) : Sound (p :: rest) ↔ Uniform (layoutOf (p :: rest)) ∧
    cuts (layoutOf (p :: rest)) (written (solidOf (p :: rest)) ++ ['"']) = false ∧ Sound (solidOf (p :: rest)) := by
  unfold Sound
  rw [folded_layout layout, ← foldRun_eq (layoutOf_all _) (layoutOf_bare _), points_eq]
  split
  next cut => simp [cut]
  next uncut =>
    rw [Option.map_eq_some_iff]
    constructor
    · rintro ⟨ns, taken, same⟩
      have fewer := folded_length taken
      have first := foldRun_length (layoutOf (p :: rest))
      have whole := congrArg List.length same
      simp only [List.length_append, List.length_map] at whole
      obtain ⟨kept, rfl⟩ := List.append_inj same (by simp only [List.length_map]; omega)
      exact ⟨List.map_injective_iff.mpr (fun _ _ => Char.toNat_inj.mp) kept, by simpa using uncut, taken⟩
    · rintro ⟨kept, -, taken⟩
      exact ⟨_, taken, by rw [kept]⟩

/-! ### Strings without parts that are misread -/

theorem head_written {m : Char} {cs tail : List Char} (found : written ps ++ '"' :: tail = m :: cs) (quote : m ≠ '"')
    (backslash : m ≠ '\\') : ∃ fits rest, ps = .plain m fits :: rest ∧ written rest ++ '"' :: tail = cs := by
  cases ps with
  | nil => cases found; exact absurd rfl quote
  | cons p rest =>
    rw [written_cons] at found
    cases p with
    | plain c fits => cases found; exact ⟨fits, rest, rfl, rfl⟩
    | escape => cases found; exact absurd rfl backslash
    | unit => cases found; exact absurd rfl backslash

/-- A mark between documents at the beginning of a string is written as it is. -/
theorem bounded_written : bounded (written ps ++ ['"']) = true ↔ ∃ m d fits fits' rest, (m = '-' ∨ m = '.') ∧
    endsWord (some d) = true ∧ ps = .plain m fits :: .plain m fits :: .plain m fits :: .plain d fits' :: rest := by
  constructor
  · intro marked
    obtain ⟨m, mark, cs, found, stop⟩ : ∃ m, (m = '-' ∨ m = '.') ∧ ∃ cs, written ps ++ ['"'] = m :: m :: m :: cs ∧
        endsWord cs.head? = true := by
      generalize written ps ++ ['"'] = text at marked
      obtain _ | ⟨a, _ | ⟨b, _ | ⟨c, cs⟩⟩⟩ := text
      · cases marked
      · simp [bounded, Cursor.atBoundary, Cursor.atSeparator, Cursor.peek] at marked
      · simp [bounded, Cursor.atBoundary, Cursor.atSeparator, Cursor.peek] at marked
      · have : (a = '-' ∧ b = '-' ∧ c = '-' ∧ endsWord cs[0]? = true) ∨ (a = '.' ∧ b = '.' ∧ c = '.' ∧ endsWord cs[0]? = true) := by
          simpa [bounded, Cursor.atBoundary, Cursor.atSeparator, Cursor.peek, and_assoc] using marked
        rw [← List.head?_eq_getElem?] at this
        obtain ⟨rfl, rfl, rfl, stop⟩ | ⟨rfl, rfl, rfl, stop⟩ := this
        · exact ⟨_, .inl rfl, cs, rfl, stop⟩
        · exact ⟨_, .inr rfl, cs, rfl, stop⟩
    have quote : m ≠ '"' := by rintro rfl; simp at mark
    have backslash : m ≠ '\\' := by rintro rfl; simp at mark
    obtain ⟨fits, second, rfl, found₂⟩ := head_written found quote backslash
    obtain ⟨-, third, rfl, found₃⟩ := head_written found₂ quote backslash
    obtain ⟨-, fourth, rfl, rfl⟩ := head_written found₃ quote backslash
    obtain ⟨d, cs, found₄⟩ : ∃ d cs, written fourth ++ ['"'] = d :: cs := List.exists_cons_of_ne_nil (by simp)
    rw [found₄] at stop
    obtain ⟨fits', rest, rfl, -⟩ := head_written found₄ (by rintro rfl; cases stop) (by rintro rfl; cases stop)
    exact ⟨m, d, fits, fits', rest, mark, stop, rfl⟩
  · rintro ⟨m, d, fits, fits', rest, rfl | rfl, stop, rfl⟩ <;>
      simp [bounded, Cursor.atBoundary, Cursor.atSeparator, Cursor.peek, written_cons, Piece.chars, stop]

theorem not_slips_solid (apart : Apart (p :: rest)) (allowed : ∀ c ∈ written (p :: rest), isAllowed c = true)
    (solid : p.isLayout = false) : ¬ Slips (p :: rest) := by
  rintro ⟨part, begins, misread⟩
  cases misread with
  | pair joined =>
    obtain ⟨rfl, next⟩ := List.cons_prefix_cons.mp begins
    cases joined.symm.trans (apart _ _ begins.isInfix)
  | forbidden forbidden =>
    obtain ⟨rfl, -⟩ := List.cons_prefix_cons.mp begins
    cases forbidden.symm.trans (allowed _ (by simp [written_cons, Piece.chars]))
  | nextLine next =>
    obtain ⟨rfl, -⟩ := List.cons_prefix_cons.mp begins
    simp [Piece.isLayout, isLayout, isBreak, next] at solid
  | ending space line =>
    obtain ⟨rfl, -⟩ := List.cons_prefix_cons.mp begins
    simp [Piece.isLayout, isLayout, space] at solid
  | beginning line space =>
    obtain ⟨rfl, -⟩ := List.cons_prefix_cons.mp begins
    simp [Piece.isLayout, isLayout, line] at solid
  | separator line mark stop =>
    obtain ⟨rfl, -⟩ := List.cons_prefix_cons.mp begins
    simp [Piece.isLayout, isLayout, line] at solid

variable {c : Char} {fits : isPlain c = true}

theorem layout_kinds (fits : isPlain c = true) (layout : isLayout c = true) : c = ' ' ∨ IsSeparator c ∨ c.toNat = 0x85 := by
  have bare : c ≠ '\n' := by rintro rfl; cases fits
  have : c = ' ' ∨ c = '\n' ∨ c.toNat = 0x85 ∨ c.toNat = 0x2028 ∨ c.toNat = 0x2029 := by
    simpa [isLayout, isBreak, or_assoc] using layout
  unfold IsSeparator
  tauto

/-- Whether a space or break is misread depends on what comes next. -/
theorem slips_plain (allowed : isAllowed c = true) : Slips (.plain c fits :: rest) ↔
    c.toNat = 0x85 ∨ (c = ' ' ∧ ∃ d fits' more, rest = .plain d fits' :: more ∧ isBreak d = true) ∨
      (isBreak c = true ∧ ∃ fits' more, rest = .plain ' ' fits' :: more) ∨
        isBreak c = true ∧ bounded (written rest ++ ['"']) = true := by
  constructor
  · rintro ⟨part, ⟨more, same⟩, misread⟩
    cases misread with
    | pair joined => cases same; cases joined
    | forbidden forbidden => cases same; cases forbidden.symm.trans allowed
    | nextLine next => cases same; exact .inl next
    | ending space line => cases same; exact .inr (.inl ⟨space, _, _, more, rfl, line⟩)
    | beginning line space => cases same; cases space; exact .inr (.inr (.inl ⟨line, _, more, rfl⟩))
    | separator line mark stop =>
      cases same
      exact .inr (.inr (.inr ⟨line, bounded_written.mpr ⟨_, _, _, _, more, mark, stop, rfl⟩⟩))
  · rintro (next | ⟨space, d, fits', more, rfl, line⟩ | ⟨line, fits', more, rfl⟩ | ⟨line, marked⟩)
    · exact ⟨_, ⟨rest, rfl⟩, .nextLine next⟩
    · exact ⟨_, ⟨more, rfl⟩, .ending space line⟩
    · exact ⟨_, ⟨more, rfl⟩, .beginning line rfl⟩
    · obtain ⟨m, d, _, _, more, mark, stop, rfl⟩ := bounded_written.mp marked
      exact ⟨_, ⟨more, rfl⟩, .separator line mark stop⟩

theorem uniform_single (fits : isPlain c = true) (layout : isLayout c = true) : Uniform [c] ↔ c.toNat ≠ 0x85 := by
  constructor
  · rintro (spaced | separators) next
    · rw [spaced c List.mem_cons_self] at next; cases next
    · obtain same | same := separators c List.mem_cons_self <;> omega
  · intro other
    obtain rfl | separator | next := layout_kinds fits layout
    · exact .inl (by simp)
    · exact .inr (by simpa using separator)
    · exact absurd next other

/-- Among spaces and breaks, one more keeps them uniform unless the next one is of the other kind. -/
theorem uniform_cons {d : Char} {more : List Char} (fits : isPlain c = true) (layout : isLayout c = true)
    (uniform : Uniform (d :: more)) : Uniform (c :: d :: more) ↔
      ¬ (c.toNat = 0x85 ∨ (c = ' ' ∧ isBreak d = true) ∨ (isBreak c = true ∧ d = ' ')) := by
  constructor
  · rintro (spaced | separators)
    · have space := spaced c (by simp)
      have space' := spaced d (by simp)
      simp [space, space', isBreak]
    · have separator := separators c (by simp)
      have separator' := separators d (by simp)
      have other : c ≠ ' ' := by rintro rfl; revert separator; simp [IsSeparator]
      have other' : d ≠ ' ' := by rintro rfl; revert separator'; simp [IsSeparator]
      have small : c.toNat ≠ 0x85 := by obtain same | same := separator <;> omega
      simp [other, other', small]
  · intro sound
    simp only [not_or, not_and] at sound
    obtain ⟨small, ending, beginning⟩ := sound
    obtain rfl | separator | next := layout_kinds fits layout
    · obtain spaced | separators := uniform
      · exact .inl (List.forall_mem_cons.mpr ⟨rfl, spaced⟩)
      · exact absurd (separators d List.mem_cons_self).isBreak.1 (ending rfl)
    · obtain spaced | separators := uniform
      · exact absurd (spaced d List.mem_cons_self) (beginning separator.isBreak.1)
      · exact .inr (List.forall_mem_cons.mpr ⟨separator, separators⟩)
    · exact absurd next small

theorem Uniform.tail {d : Char} {more : List Char} (uniform : Uniform (d :: more)) : Uniform more :=
  uniform.imp (fun all => (List.forall_mem_cons.mp all).2) fun all => (List.forall_mem_cons.mp all).2

/-- A string is taken for the code points of its pieces if no part is misread. -/
theorem sound_iff (apart : Apart ps) (allowed : ∀ c ∈ written ps, isAllowed c = true) : Sound ps ↔ Intact ps := by
  -- Whether a string is sound is seen at its first piece, unless that is layout and followed by more of it. Then the
  -- run of layout goes on, and the rest is as uniform as the whole.
  induction ps with
  | nil => exact ⟨fun _ => intact_nil, fun _ => by rw [Sound, folded]; rfl⟩
  | cons p rest ih =>
    have later : Apart rest := fun x y inside => apart x y (inside.trans (List.suffix_cons _ _).isInfix)
    have ih := ih later fun c member => allowed c (by rw [written_cons]; exact List.mem_append_right _ member)
    rw [intact_cons, ← ih]
    cases layout : p.isLayout with
    | false => rw [sound_solid layout, and_iff_right (not_slips_solid apart allowed layout)]
    | true =>
      cases p with
      | escape => cases layout
      | unit => cases layout
      | plain c fits =>
        have here : isAllowed c = true := allowed c (by simp [written_cons, Piece.chars])
        rw [slips_plain here, sound_layout layout, layoutOf_layout (by exact layout), solidOf_layout layout]
        by_cases more : ∃ d fits' more, rest = .plain d fits' :: more ∧ isLayout d = true
        · obtain ⟨d, fits', more, rfl, next⟩ := more
          have none : bounded (written (.plain d fits' :: more) ++ ['"']) = false := bounded_layout next _
          rw [sound_layout (p := .plain d fits') next, layoutOf_layout next, cuts_cons_cons, none]
          simp only [Bool.false_eq_true, and_false, or_false]
          constructor
          · rintro ⟨uniform, uncut, sound⟩
            refine ⟨?_, uniform.tail, uncut, sound⟩
            have sound := (uniform_cons fits layout uniform.tail).mp uniform
            rintro (small | ⟨space, d, _, _, ⟨⟩, line⟩ | ⟨line, _, _, ⟨⟩⟩)
            · exact sound (.inl small)
            · exact sound (.inr (.inl ⟨space, line⟩))
            · exact sound (.inr (.inr ⟨line, rfl⟩))
          · rintro ⟨sound, uniform, uncut, taken⟩
            refine ⟨(uniform_cons fits layout uniform).mpr ?_, uncut, taken⟩
            rintro (small | ⟨space, line⟩ | ⟨line, rfl⟩)
            · exact sound (.inl small)
            · exact sound (.inr (.inl ⟨space, _, _, _, rfl, line⟩))
            · exact sound (.inr (.inr ⟨line, _, _, rfl⟩))
        · have solid : ∀ q ∈ rest.head?, q.isLayout = false := by
            cases rest with
            | nil => simp
            | cons q rest =>
              rintro q ⟨⟩
              cases q with
              | plain d fits' => exact Bool.eq_false_iff.mpr fun next => more ⟨d, fits', rest, rfl, next⟩
              | escape => rfl
              | unit => rfl
          obtain ⟨run, all⟩ := solid_whole solid
          have ending : ¬ ∃ d fits' after, rest = .plain d fits' :: after ∧ isBreak d = true := by
            rintro ⟨d, fits', after, same, line⟩
            exact more ⟨d, fits', after, same, by simp [isLayout, line]⟩
          have beginning : ¬ ∃ fits' after, rest = .plain ' ' fits' :: after := by
            rintro ⟨fits', after, same⟩
            exact more ⟨' ', fits', after, same, rfl⟩
          have cut : cuts [c] (written rest ++ ['"']) = (isBreak c && bounded (written rest ++ ['"'])) := by simp [cuts]
          rw [run, all, uniform_single fits layout, cut, Bool.and_eq_false_iff]
          simp only [ending, beginning, and_false, false_or, not_or, ne_eq, not_and, Bool.not_eq_true, and_assoc]
          rw [← Bool.not_eq_true, or_iff_not_imp_left, not_not]

theorem Intact.apart (intact : Intact ps) : Apart ps := by
  intro p q inside
  cases joined : joint? p q with
  | none => rfl
  | some c => exact absurd (.pair joined) (intact _ inside)

theorem hexDigit_allowed : ∀ (value : Fin 16) (capital : Bool), isAllowed (HexDigit.char ⟨value, capital⟩) = true := by
  decide

theorem escapes_allowed : ∀ letter ∈ escapes, isAllowed letter.1 = true := by
  decide

theorem Piece.allowed (p : Piece) : (∀ x ∈ p.chars, isAllowed x = true) ∨ ∃ c fits, p = .plain c fits ∧ isAllowed c = false := by
  cases p with
  | plain c fits =>
    cases held : isAllowed c with
    | true => exact .inl (by simpa [Piece.chars] using held)
    | false => exact .inr ⟨c, fits, rfl, held⟩
  | escape letter known =>
    have backslash : isAllowed '\\' = true := by decide
    exact .inl (by simp [Piece.chars, backslash, escapes_allowed letter known])
  | unit code =>
    have digit (d : HexDigit) : isAllowed d.char = true := hexDigit_allowed d.value d.capital
    have backslash : isAllowed '\\' = true := by decide
    have letter : isAllowed 'u' = true := by decide
    exact .inl (by simp [Piece.chars, digit, backslash, letter])

theorem Intact.allowed (intact : Intact ps) : ∀ c ∈ written ps, isAllowed c = true := by
  intro c member
  obtain ⟨p, inside, found⟩ := List.mem_flatMap.mp member
  obtain all | ⟨c, fits, rfl, forbidden⟩ := p.allowed
  · exact all c found
  · obtain ⟨before, after, rfl⟩ := List.append_of_mem inside
    exact absurd (.forbidden forbidden) (intact [.plain c fits] ⟨before, after, by simp⟩)

/-! ### Code points -/

theorem Piece.point_lt (p : Piece) : p.point < 0x110000 := by
  cases p with
  | plain c => exact Text.toNat_lt c
  | escape letter => exact Text.toNat_lt letter.2
  | unit code =>
    show code.number < 0x110000
    unfold Code.number
    omega

theorem joint_lt {n : Nat} (joined : joint? p q = some n) : n < 0x110000 := by
  unfold joint? at joined
  split at joined
  next high low =>
    unfold Text.pair? at joined
    split_ifs at joined with inside
    simp only [Bool.and_eq_true, decide_eq_true_eq] at inside
    have same := Option.some.inj joined
    omega
  next => cases joined

theorem unescaped_lt (ps : List Piece) : ∀ n ∈ unescaped ps, n < 0x110000 := by
  induction ps using unescaped.induct with
  | case1 => exact nofun
  | case2 p => exact List.forall_mem_singleton.mpr p.point_lt
  | case3 p q rest n joined ih =>
    rw [unescaped, joined]
    exact List.forall_mem_cons.mpr ⟨joint_lt joined, ih⟩
  | case4 p q rest none ih =>
    rw [unescaped, none]
    exact List.forall_mem_cons.mpr ⟨p.point_lt, ih⟩

theorem folded_lt {ns : List Nat} (taken : folded ps = some ns) : ∀ n ∈ ns, n < 0x110000 := by
  induction ps using folded.induct generalizing ns with
  | case1 => rw [folded] at taken; cases taken; exact List.forall_mem_nil _
  | case2 p rest layout cut => rw [folded_layout layout, if_pos cut] at taken; cases taken
  | case3 p rest layout uncut ih =>
    rw [folded_layout layout, if_neg uncut, Option.map_eq_some_iff] at taken
    obtain ⟨later, further, rfl⟩ := taken
    exact List.forall_mem_append.mpr ⟨List.forall_mem_map.mpr fun c _ => Text.toNat_lt c, ih further⟩
  | case4 p rest solid ih =>
    rw [folded_solid (by simpa using solid), Option.map_eq_some_iff] at taken
    obtain ⟨later, further, rfl⟩ := taken
    exact List.forall_mem_cons.mpr ⟨p.point_lt, ih further⟩

/-- A string without forbidden characters is taken for what it stands for if and only if no part is misread. -/
theorem folded_iff (allowed : ∀ c ∈ written ps, isAllowed c = true) : folded ps = some (unescaped ps) ↔ Intact ps := by
  constructor
  · intro taken
    obtain fewer | apart := unescaped_halves ps
    · have same := folded_halves taken
      omega
    · rw [unescaped_apart apart] at taken
      exact (sound_iff apart allowed).mp taken
  · intro intact
    rw [unescaped_apart intact.apart]
    exact (sound_iff intact.apart allowed).mpr intact

end Interaction.Json
