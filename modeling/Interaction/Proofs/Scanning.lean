import Interaction.Document.Token.Scan
import Interaction.Proofs.Spelling

/-! The scanner goes on through the text of a document, and stops early for one of three reasons: the text is no
document, something in it is out of bounds, or the next page cannot be read. It says that the text has ended only where
there is no next page. -/

namespace Interaction.Document

namespace Scanner

variable {s t u : Scanner} {x : Except Fault Scanner} {f : Scanner → Except Fault Scanner} {fault : Fault}

/-! ### The end of the text -/

/-- A scanner that has said that the text has ended. -/
def Ended (s : Scanner) : Prop :=
  .streamEnd ∈ s.slots.toList.flatten

theorem ended_emit (s : Scanner) {token : Token} (other : token ≠ .streamEnd) (ended : (s.emit token).Ended) : s.Ended := by
  simpa [Ended, emit, other.symm] using ended

theorem ended_emitBefore (s : Scanner) (slot : Nat) {token : Token} (other : token ≠ .streamEnd)
    (ended : (s.emitBefore slot token).Ended) : s.Ended := by
  simp only [Ended, emitBefore, List.mem_flatten, Array.mem_toList_iff, Array.mem_iff_getElem?] at ended ⊢
  obtain ⟨tokens, ⟨i, found⟩, member⟩ := ended
  rw [Array.getElem?_modify] at found
  split at found
  · obtain ⟨old, there, rfl⟩ := Option.map_eq_some_iff.mp found
    exact ⟨old, ⟨i, there⟩, (List.mem_cons.mp member).resolve_left other.symm⟩
  · exact ⟨tokens, ⟨i, found⟩, member⟩

/-! ### Going on -/

/-- A scanner that has gone on through the same text. -/
structure Onward (s after : Scanner) : Prop where
  rest : after.cursor.rest <:+ s.cursor.rest
  beyond : after.beyond = s.beyond
  ends : after.Ended → s.Ended ∨ s.beyond = none

theorem Onward.refl (s : Scanner) : s.Onward s :=
  ⟨List.suffix_rfl, rfl, .inl⟩

theorem Onward.trans (first : s.Onward t) (second : t.Onward u) : s.Onward u :=
  ⟨second.rest.trans first.rest, second.beyond.trans first.beyond,
    fun ended => (second.ends ended).elim first.ends fun none => .inr (first.beyond.symm.trans none)⟩

theorem Onward.meets {token : Token} (rest : t.cursor.rest <:+ s.cursor.rest) (beyond : t.beyond = s.beyond)
    (slots : t.slots = s.slots) (other : token ≠ .streamEnd) : s.Onward (t.emit token) :=
  ⟨rest, beyond, fun ended => .inl (by rw [Ended, ← slots]; exact t.ended_emit other ended)⟩

/-- A scanner that stands at the same place of the same text. -/
structure Still (s after : Scanner) : Prop where
  cursor : after.cursor = s.cursor
  beyond : after.beyond = s.beyond
  ends : after.Ended → s.Ended

theorem Still.refl (s : Scanner) : s.Still s :=
  ⟨rfl, rfl, id⟩

theorem Still.onward (still : s.Still t) : s.Onward t :=
  ⟨by rw [still.cursor], still.beyond, fun ended => .inl (still.ends ended)⟩

/-- Why a scanner stops early. -/
def Stops (s : Scanner) (fault : Fault) : Prop :=
  Flawed s.cursor.rest fault ∨ s.beyond = some fault

theorem Stops.before (onward : s.Onward t) (stops : t.Stops fault) : s.Stops fault :=
  stops.imp (.within onward.rest) onward.beyond.symm.trans

/-- A computation that moves a scanner on, or stops it. -/
def Moves (s : Scanner) (x : Except Fault Scanner) : Prop :=
  Yields x s.Onward s.Stops

namespace Moves

theorem done (onward : s.Onward t) : Moves s (.ok t) :=
  Yields.done onward

theorem refused : Moves s refuse :=
  .fails (Or.inl (Or.inl rfl))

theorem either {p : Prop} [Decidable p] {y : Except Fault Scanner} (yes : p → Moves s x) (no : Moves s y) :
    Moves s (if p then x else y) :=
  .ite yes fun _ => no

theorem before (onward : s.Onward t) (moves : Moves t x) : Moves s x :=
  moves.mono (fun _ further => onward.trans further) fun _ => .before onward

theorem bind (moves : Moves s x) (next : ∀ t, s.Onward t → Moves t (f t)) : Moves s (x >>= f) :=
  Yields.bind moves fun t onward => (next t onward).before onward

theorem still (yields : Yields x s.Still (· = .badDocument)) (next : ∀ t, s.Still t → Moves t (f t)) :
    Moves s (x >>= f) :=
  Yields.bind (yields.mono (fun _ still => still) fun _ bad => Or.inl (Or.inl (bad ▸ rfl)))
    fun t still => (next t still).before still.onward

theorem reads {α : Type} {y : Except Fault (α × Cursor)} {g : α × Cursor → Except Fault Scanner}
    (reads : Reads s.cursor y) (next : ∀ a place, y = .ok (a, place) → Moves { s with cursor := place } (g (a, place))) :
    Moves s (y >>= g) := by
  cases found : y with
  | error fault => exact .fails (Or.inl (Yields.error reads found))
  | ok result => exact Moves.before (t := { s with cursor := result.2 }) ⟨Yields.ok reads found, rfl, .inl⟩ (next _ _ found)

end Moves

/-! ### Tokens that are not the end -/

/-- A computation that finds no end of the text. -/
def Marks (x : Except Fault (Token × Cursor)) : Prop :=
  ∀ result, x = .ok result → result.1 ≠ .streamEnd

namespace Marks

variable {α : Type} {y : Except Fault α} {f : α → Except Fault (Token × Cursor)} {token : Token}

theorem found (other : token ≠ .streamEnd) (after : Cursor) : Marks (.ok (token, after)) := by
  rintro result ⟨⟩
  exact other

theorem refused : Marks refuse :=
  nofun

theorem after (marks : ∀ a, Marks (f a)) : Marks (y >>= f) := by
  cases y with
  | error fault => exact nofun
  | ok a => exact marks a

theorem ended (other : token ≠ .streamEnd) (after : Cursor) :
    Marks (if endsPart after.head then return (token, after) else refuse) := by
  split
  · exact .found other after
  · exact .refused

end Marks

theorem tagToken_marks (c : Cursor) : Marks (tagToken c) := by
  unfold tagToken
  dsimp only
  split_ifs
  · refine .after fun suffix => ?_
    split_ifs
    · exact .ended (by nofun) _
    · exact .refused
  · exact .ended (by nofun) _
  · exact .after fun handle => .after fun suffix => .ended (by nofun) _
  · exact .after fun suffix => .ended (by nofun) _

theorem directive_marks (c : Cursor) : Marks (directive c) := by
  have finished {token : Token} (other : token ≠ .streamEnd) (after : Cursor) :
      Marks (do return (token, ← ignoredLine after)) := .after fun _ => .found other _
  have reads {x : Except Fault (Token × Cursor)} (marks : Marks x) :
      Marks (x >>= fun result => do return (result.1, ← ignoredLine result.2)) := by
    cases found : x with
    | error fault => exact nofun
    | ok result => exact finished (marks result found) result.2
  unfold directive
  generalize c.next.span isNameChar = parts
  dsimp only
  split
  · exact .refused
  · split_ifs
    · refine reads (.after fun major => ?_)
      dsimp only
      split
      · exact .refused
      · exact .after fun minor => .ended (by nofun) _
    · refine reads (.after fun handle => ?_)
      dsimp only
      split
      · exact .refused
      · exact .after fun start => .ended (by nofun) _
    · exact finished (by nofun) _

/-! ### What leaves the scanner where it is -/

theorem closeBlocks_still (s : Scanner) (column : Int) (outer : List Int) : s.Still (s.closeBlocks column outer) := by
  induction outer generalizing s with
  | nil => exact .refl s
  | cons next rest ih =>
    unfold closeBlocks
    split_ifs
    · obtain ⟨cursor, beyond, ends⟩ := ih (emit { s with indent := next, outer := rest } .blockEnd)
      exact ⟨cursor, beyond, fun ended => ended_emit { s with indent := next, outer := rest } (by decide) (ends ended)⟩
    · exact .refl s

theorem unwind_still (s : Scanner) (column : Int) : s.Still (s.unwind column) :=
  s.closeBlocks_still column s.outer

theorem dropStale_still (s : Scanner) : Yields s.dropStale s.Still (· = .badDocument) := by
  unfold dropStale
  split_ifs
  · exact .fails rfl
  · exact .done ⟨rfl, rfl, id⟩

theorem dropKey_still (s : Scanner) : Yields s.dropKey s.Still (· = .badDocument) := by
  unfold dropKey
  split
  · split_ifs
    · exact .fails rfl
    · exact .done ⟨rfl, rfl, id⟩
  · exact .done (.refl s)

theorem saveKey_still (s : Scanner) : Yields s.saveKey s.Still (· = .badDocument) := by
  unfold saveKey
  split_ifs
  · exact s.dropKey_still.bind fun t still => .done ⟨still.cursor, still.beyond, still.ends⟩
  · exact .done (.refl s)

theorem toNextToken_onward (s : Scanner) (fuel : Nat) : s.Onward (s.toNextToken fuel) := by
  induction fuel generalizing s with
  | zero => exact .refl s
  | succ fuel ih =>
    have behind := (Cursor.skipComment_suffix s.cursor.skipSpaces).trans s.cursor.skipSpaces_suffix
    unfold toNextToken
    dsimp only
    split
    · exact ⟨behind, rfl, .inl⟩
    next found =>
      obtain ⟨rest, beyond, ends⟩ := ih { s with cursor := _, keyAllowed := s.keyAllowed || s.flow = 0 }
      exact ⟨rest.trans ((Cursor.takeBreak?_suffix found).trans behind), beyond, ends⟩

/-! ### Tokens -/

theorem scanEnd_moves (last : s.beyond = none) : Moves s s.scanEnd := by
  have stays := s.unwind_still (-1)
  refine .before stays.onward (.still (dropKey_still _) fun t still => .done ⟨List.suffix_rfl, rfl, fun _ => .inr ?_⟩)
  rw [still.beyond, stays.beyond, last]

theorem scanDirective_moves (mark : s.cursor.starts '%' = true) : Moves s s.scanDirective := by
  have stays := s.unwind_still (-1)
  refine .before stays.onward (.still (dropKey_still _) fun t still => ?_)
  have same : t.cursor = s.cursor := still.cursor.trans stays.cursor
  exact .reads (directive_reads (same ▸ mark)) fun _ _ read =>
    .done (.meets List.suffix_rfl rfl rfl (directive_marks _ _ read))

theorem scanBoundary_moves {token : Token} (other : token ≠ .streamEnd) : Moves s (s.scanBoundary token) :=
  .before (s.unwind_still (-1)).onward (.still (dropKey_still _) fun t _ =>
    .done (.meets (t.cursor.skip_suffix 3) rfl rfl other))

theorem scanOpening_moves {token : Token} (other : token ≠ .streamEnd) : Moves s (s.scanOpening token) :=
  .still s.saveKey_still fun t _ => .done (.meets (t.cursor.skip_suffix 1) rfl rfl other)

theorem scanClosing_moves {token : Token} (other : token ≠ .streamEnd) : Moves s (s.scanClosing token) :=
  .still s.dropKey_still fun t _ => .done (.meets (t.cursor.skip_suffix 1) rfl rfl other)

theorem mark_moves {token : Token} (still : s.Still t) (other : token ≠ .streamEnd) :
    Moves s (do let u ← t.dropKey; return (u.skip 1).emit token) :=
  .before still.onward (.still t.dropKey_still fun u _ => .done (.meets (u.cursor.skip_suffix 1) rfl rfl other))

theorem opened_still (s : Scanner) (column : Nat) {token : Token} (other : token ≠ .streamEnd) :
    s.Still (if s.opensBlock column then (s.openBlock column).emit token else s) := by
  split_ifs
  · exact ⟨rfl, rfl, (s.openBlock column).ended_emit other⟩
  · exact .refl s

theorem emitBefore_still (s : Scanner) (slot : Nat) {token : Token} (other : token ≠ .streamEnd) :
    s.Still (s.emitBefore slot token) :=
  ⟨rfl, rfl, s.ended_emitBefore slot other⟩

theorem scanComma_moves (s : Scanner) : Moves s s.scanComma :=
  mark_moves (s := s) (t := { s with keyAllowed := true }) ⟨rfl, rfl, id⟩ (by decide : Token.flowEntry ≠ .streamEnd)

theorem scanDash_moves (s : Scanner) : Moves s s.scanDash := by
  have opened := s.opened_still s.cursor.column (by decide : Token.blockSequenceStart ≠ .streamEnd)
  unfold scanDash
  dsimp only
  split
  · exact .refused
  · refine mark_moves ?_ nofun
    exact ⟨opened.cursor, opened.beyond, opened.ends⟩

theorem scanKey_moves (s : Scanner) : Moves s s.scanKey := by
  have opened := s.opened_still s.cursor.column (by decide : Token.blockMappingStart ≠ .streamEnd)
  unfold scanKey
  dsimp only
  split
  · exact .refused
  · refine mark_moves ?_ nofun
    exact ⟨opened.cursor, opened.beyond, opened.ends⟩

theorem scanColon_moves (s : Scanner) : Moves s s.scanColon := by
  have opened := s.opened_still s.cursor.column (by decide : Token.blockMappingStart ≠ .streamEnd)
  unfold scanColon
  dsimp only
  split
  next key _ =>
    have marked := emitBefore_still { s with keys := s.keys.filter fun entry => entry.1 ≠ s.flow } key.slot
      (by decide : Token.key ≠ .streamEnd)
    have colon {t : Scanner} (still : s.Still t) : Moves s (.ok ((skip { t with keyAllowed := false } 1).emit .value)) :=
      .done (still.onward.trans (.meets (t.cursor.skip_suffix 1) rfl rfl (by decide)))
    split
    · refine colon ⟨rfl, rfl, fun ended => marked.ends ?_⟩
      exact ended_emitBefore (openBlock _ _) key.slot (by decide : Token.blockMappingStart ≠ .streamEnd) ended
    · exact colon ⟨rfl, rfl, marked.ends⟩
  next =>
    split
    · exact .refused
    · refine mark_moves ?_ nofun
      exact ⟨opened.cursor, opened.beyond, opened.ends⟩

theorem scanWith_moves (s : Scanner) {f : Cursor → Except Fault (Token × Cursor)} (reads : ∀ c, Reads c (f c))
    (marks : ∀ c, Marks (f c)) : Moves s (s.scanWith f) :=
  .still s.saveKey_still fun t _ => .reads (reads t.cursor) fun _ _ read =>
    .done (.meets List.suffix_rfl rfl rfl (marks t.cursor _ read))

theorem scanName_moves (s : Scanner) {f : String → Token} (other : ∀ name, f name ≠ .streamEnd) :
    Moves s (s.scanName f) :=
  s.scanWith_moves (fun c => .bind (anchorName_reads c) fun _ _ _ => .here _ List.suffix_rfl)
    fun _ => .after fun _ => .found (other _) _

theorem scanQuoted_moves (s : Scanner) (quote : Char) : Moves s (s.scanQuoted quote) :=
  s.scanWith_moves (fun c => .bind (quotedScalar_reads quote c) fun _ _ _ => .here _ List.suffix_rfl)
    fun _ => .after fun _ => .found (by nofun) _

theorem scanBlock_moves (s : Scanner) (folded : Bool) : Moves s (s.scanBlock folded) :=
  .before (t := { s with keyAllowed := true }) ⟨List.suffix_rfl, rfl, .inl⟩ <| .still (dropKey_still _) fun t _ =>
    .reads (blockScalar_reads folded _ t.cursor) fun _ _ _ => .done (.meets List.suffix_rfl rfl rfl nofun)

theorem scanPlain_moves (s : Scanner) : Moves s s.scanPlain :=
  .still s.saveKey_still fun t _ => .done (.meets (plainScalar_suffix _ _ t.cursor) rfl rfl nofun)

theorem scanAt_moves {c : Char} (found : s.cursor.head = some c) : Moves s (s.scanAt c) := by
  refine .either (fun directive => ?_) ?_
  · have mark : c = '%' := of_decide_eq_true (Bool.and_eq_true_iff.mp directive).1
    exact scanDirective_moves (by rw [Cursor.starts, found, mark]; rfl)
  refine .either (fun _ => scanBoundary_moves (by simp)) (.either (fun _ => scanBoundary_moves (by simp)) ?_)
  refine .either (fun _ => scanOpening_moves (by simp)) (.either (fun _ => scanOpening_moves (by simp)) ?_)
  refine .either (fun _ => scanClosing_moves (by simp)) (.either (fun _ => scanClosing_moves (by simp)) ?_)
  refine .either (fun _ => s.scanComma_moves) (.either (fun _ => s.scanDash_moves) ?_)
  refine .either (fun _ => s.scanKey_moves) (.either (fun _ => s.scanColon_moves) ?_)
  refine .either (fun _ => s.scanName_moves (by simp)) (.either (fun _ => s.scanName_moves (by simp)) ?_)
  refine .either (fun _ => s.scanWith_moves tagToken_reads tagToken_marks) ?_
  refine .either (fun _ => s.scanBlock_moves _) (.either (fun _ => s.scanBlock_moves _) ?_)
  refine .either (fun _ => s.scanQuoted_moves _) (.either (fun _ => s.scanQuoted_moves _) ?_)
  exact .either (fun _ => s.scanPlain_moves) .refused

theorem checkEnd_moves (moves : (s.cursor.rest = [] → s.beyond = none) → Moves s x) : Moves s (do s.checkEnd; x) := by
  have checks : Yields s.checkEnd (fun _ => s.cursor.rest = [] → s.beyond = none) s.Stops := by
    unfold checkEnd
    split
    next met => exact .fails (Or.inr met)
    next further => exact .done fun ends => Option.eq_none_iff_forall_ne_some.mpr fun fault => further fault ends
  exact checks.bind fun _ last => moves last

theorem scanNext_moves (s : Scanner) : Moves s s.scanNext := by
  refine .before (s.toNextToken_onward (s.cursor.rest.length + 1)) ?_
  refine checkEnd_moves fun last => .still (dropStale_still _) fun t still => ?_
  have stays := t.unwind_still t.cursor.column
  refine .before stays.onward ?_
  dsimp only
  split
  next found =>
    have same := stays.cursor.trans still.cursor
    rw [Cursor.head, List.head?_eq_none_iff, same] at found
    exact scanEnd_moves (stays.beyond.trans (still.beyond.trans (last found)))
  next found => exact .bind (scanAt_moves found) fun u _ => checkEnd_moves fun _ => .done (.refl u)

/-! ### The whole text -/

theorem scanAll_stops {fuel : Nat} (met : (s.scanAll fuel).2 = some fault) : s.Stops fault := by
  induction fuel generalizing s with
  | zero => cases met; exact Or.inl (Or.inl rfl)
  | succ fuel ih =>
    have moves := s.scanNext_moves
    unfold scanAll at met
    split at met
    next cut =>
      cases beyond : s.beyond with
      | none => rw [beyond] at met; cases met; exact Or.inl (Or.inl rfl)
      | some page => rw [beyond] at met; cases met; exact Or.inr beyond
    next stopped =>
      cases met
      exact moves.error stopped
    next moved =>
      split at met
      · cases met
      · exact (ih met).before (moves.ok moved)

theorem scanAll_ended {fuel : Nat} (ended : (s.scanAll fuel).1.Ended) : s.Ended ∨ s.beyond = none := by
  induction fuel generalizing s with
  | zero => exact .inl ended
  | succ fuel ih =>
    have moves := s.scanNext_moves
    unfold scanAll at ended
    split at ended
    · exact .inl ended
    · exact .inl ended
    next moved =>
      have onward := moves.ok moved
      split at ended
      · exact onward.ends ended
      · exact (ih ended).elim onward.ends fun last => .inr (onward.beyond.symm.trans last)

theorem known_subset {token : Token} (handed : token ∈ s.known) : token ∈ s.slots.toList.flatten := by
  unfold known at handed
  dsimp only at handed
  split at handed
  · obtain ⟨tokens, taken, member⟩ := List.mem_flatten.mp handed
    exact List.mem_flatten.mpr ⟨tokens, List.mem_of_mem_take taken, member⟩
  · exact handed

end Scanner

/-- A document whose tokens end early has a flaw in its text, or a page that cannot be read. -/
theorem tokens_stop {pages : Pages} {fault : Fault} (met : (tokens pages).2 = some fault) :
    Flawed pages.text fault ∨ pages.beyond = some fault := by
  have begins (c : Cursor) : (if c.head = some (Char.ofNat 0xFEFF) then c.next else c).rest <:+ c.rest := by
    split_ifs
    · exact c.next_suffix
    · exact List.suffix_rfl
  unfold tokens at met
  dsimp only at met
  exact (Scanner.scanAll_stops met).imp_left (.within (begins { rest := pages.text }))

/-- The tokens say that the text has ended only if every page has been read. -/
theorem tokens_ended {pages : Pages} (ended : .streamEnd ∈ (tokens pages).1) : pages.beyond = none := by
  unfold tokens at ended
  exact (Scanner.scanAll_ended (Scanner.known_subset ended)).resolve_left nofun

end Interaction.Document
