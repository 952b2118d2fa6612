import Interaction.Document.Read
import Interaction.Proofs.Scanning

/-! Composing nodes adds no fault to those of the tokens but that a text is no document. A document is composed only if
the tokens say where it ends. -/

namespace Interaction.Document.Composer

variable {α β : Type} {c d : Composer} {fault : Fault}

/-- Why nothing is composed: the tokens make no document, or end early. -/
def Fails (c : Composer) (fault : Fault) : Prop :=
  fault = .badDocument ∨ c.fault = some fault

/-- A composer that has gone on through the same tokens. -/
structure Onward (c after : Composer) : Prop where
  fault : after.fault = c.fault
  tokens : after.tokens <:+ c.tokens

theorem Onward.same (fault : d.fault = c.fault) (tokens : d.tokens = c.tokens) : c.Onward d :=
  ⟨fault, tokens ▸ List.suffix_rfl⟩

theorem Onward.refl (c : Composer) : c.Onward c :=
  .same rfl rfl

theorem Onward.trans {e : Composer} (first : c.Onward d) (further : d.Onward e) : c.Onward e :=
  ⟨further.fault.trans first.fault, further.tokens.trans first.tokens⟩

/-- A computation that leaves the end of the tokens as it is. -/
def Composes (c : Composer) (x : Except Fault (Composer × α)) : Prop :=
  Yields x (fun result => c.Onward result.1) c.Fails

namespace Composes

variable {x : Except Fault (Composer × α)} {f : Composer × α → Except Fault (Composer × β)}

theorem done (a : α) (onward : c.Onward d) : Composes c (.ok (d, a)) :=
  Yields.done onward

theorem refused : Composes c (refuse : Except Fault (Composer × α)) :=
  .fails (Or.inl rfl)

theorem before (onward : c.Onward d) (composes : Composes d x) : Composes c x :=
  composes.mono (fun _ further => onward.trans further) fun _ => Or.imp_right onward.fault.symm.trans

theorem bind (composes : Composes c x) (next : ∀ after a, Composes after (f (after, a))) : Composes c (x >>= f) :=
  Yields.bind composes fun (after, a) onward => (next after a).before onward

theorem passing {x : Except Fault Composer} {f : Composer → Except Fault (Composer × β)}
    (yields : Yields x c.Onward c.Fails) (next : ∀ after, Composes after (f after)) : Composes c (x >>= f) :=
  Yields.bind yields fun after onward => (next after).before onward

end Composes

/-! ### Small steps -/

theorem onward_advance (c : Composer) : c.Onward c.advance :=
  ⟨rfl, List.tail_suffix c.tokens⟩

theorem onward_add (c : Composer) (n : Node) : c.Onward (c.add n).1 :=
  .same rfl rfl

theorem onward_fill (c : Composer) (id : Nat) (content : Content) : c.Onward (c.fill id content) :=
  .same rfl rfl

theorem onward_name (c : Composer) (anchor : Option String) (id : Nat) : c.Onward (c.name anchor id) := by
  cases anchor <;> exact .same rfl rfl

theorem onward_properties (c : Composer) : c.Onward c.properties.2 := by
  unfold properties
  split
  next found => exact ⟨rfl, ⟨[_, _], found.symm⟩⟩
  next found => exact ⟨rfl, ⟨[_, _], found.symm⟩⟩
  next found => exact ⟨rfl, ⟨[_], found.symm⟩⟩
  next found => exact ⟨rfl, ⟨[_], found.symm⟩⟩
  next => exact .refl c

theorem peek_yields (c : Composer) : Yields c.peek (· ∈ c.tokens) c.Fails := by
  unfold peek
  split
  next found => exact .done (by rw [found]; exact List.mem_cons_self)
  · cases ends : c.fault with
    | none => exact .fails (Or.inl rfl)
    | some fault => exact .fails (Or.inr ends)

theorem peeking {x : Token → Except Fault (Composer × α)} (composes : ∀ token, Composes c (x token)) :
    Composes c (c.peek >>= x) :=
  c.peek_yields.bind fun token _ => composes token

theorem ending {p : Token → Bool} {x : Bool → Except Fault (Composer × α)} (composes : ∀ stop, Composes c (x stop)) :
    Composes c (c.ends p >>= x) := by
  have ends : Yields (c.ends p) (fun _ => True) c.Fails := c.peek_yields.map fun _ _ => trivial
  exact ends.bind fun stop _ => composes stop

theorem comma_yields (c : Composer) : Yields c.comma c.Onward c.Fails := by
  refine c.peek_yields.bind fun token _ => ?_
  split
  · exact .done c.onward_advance
  · exact .fails (Or.inl rfl)

theorem tagging {tag : Option (Option String × String)} {x : Option String → Except Fault (Composer × α)}
    (composes : ∀ tag, Composes c (x tag)) : Composes c (c.wholeTag tag >>= x) := by
  have tags : Yields (c.wholeTag tag) (fun _ => True) c.Fails := by
    unfold wholeTag
    split
    · exact .done trivial
    · exact .done trivial
    · split
      · exact .done trivial
      · exact .fails (Or.inl rfl)
  exact tags.bind fun tag _ => composes tag

theorem emptyWith_composes (p : Properties) (bare tag : Option String) (c : Composer) :
    Composes c (emptyWith p bare tag c) := by
  unfold emptyWith
  split
  · exact .refused
  · exact .done _ ((c.onward_add _).trans (onward_name _ _ _))

theorem collection_composes {p : Properties} {bare : Option String} {content : Content}
    {items : Composer → Nat → Except Fault (Composer × Nat)} (composes : ∀ c id, Composes c (items c id)) :
    Composes c (collection p bare content c items) :=
  .before ((c.onward_add { tag := bare, content }).trans (onward_name _ _ _)) (composes _ _)

/-! ### Nodes -/

/-- What composing a node and its parts comes to, within a number of steps. -/
structure Within (n : Nat) : Prop where
  node : ∀ place c, Composes c (node place c n)
  looseSequence : ∀ items c id, Composes c (looseSequence items c id n)
  blockSequence : ∀ items c id, Composes c (blockSequence items c id n)
  blockMapping : ∀ entries c id, Composes c (blockMapping entries c id n)
  blockPart : ∀ mark c, Composes c (blockPart mark c n)
  flowSequence : ∀ first items c id, Composes c (flowSequence first items c id n)
  flowMapping : ∀ first entries c id, Composes c (flowMapping first entries c id n)
  flowPart : ∀ mark closing c, Composes c (flowPart mark closing c n)

theorem node_succ {n : Nat} (within : Within n) (place : Place) (c : Composer) : Composes c (node place c (n + 1)) := by
  unfold node
  refine peeking fun token => ?_
  split
  · split
    · exact .done _ c.onward_advance
    · exact .refused
  · have onward := onward_properties c
    generalize c.properties = parts at onward ⊢
    obtain ⟨p, after⟩ := parts
    refine .before onward (tagging fun tag => ?_)
    dsimp only
    split
    · exact .refused
    · refine peeking fun token => ?_
      split
      · exact .done _ (((onward_advance _).trans (onward_add _ _)).trans (onward_name _ _ _))
      · exact .before (onward_advance _) (collection_composes fun c id => within.flowSequence true [] c id)
      · exact .before (onward_advance _) (collection_composes fun c id => within.flowMapping true [] c id)
      · split
        · exact .refused
        · exact .before (onward_advance _) (collection_composes fun c id => within.blockSequence [] c id)
      · split
        · exact .refused
        · exact .before (onward_advance _) (collection_composes fun c id => within.blockMapping [] c id)
      · split
        · exact collection_composes fun c id => within.looseSequence [] c id
        · exact emptyWith_composes _ _ _ _
      · exact emptyWith_composes _ _ _ _

/-- The item after a dash, which is empty if the sequence goes on or ends at once. -/
theorem item_composes {n : Nat} (within : Within n) {p : Token → Bool} {f : Composer × Nat → Except Fault (Composer × Nat)}
    (further : ∀ c item, Composes c (f (c, item))) : Composes c (do
      let stop ← c.ends p
      if stop then f c.empty else do f (← node .block c n)) := by
  refine ending fun stop => ?_
  split
  · exact .before (c.onward_add _) (further _ _)
  · exact .bind (within.node _ _) further

theorem looseSequence_succ {n : Nat} (within : Within n) (items : List Nat) (c : Composer) (id : Nat) :
    Composes c (looseSequence items c id (n + 1)) := by
  unfold looseSequence
  refine peeking fun token => ?_
  split
  · exact .before (onward_advance c) (item_composes within fun c item => within.looseSequence _ c _)
  · exact .done _ (onward_fill _ _ _)

theorem blockSequence_succ {n : Nat} (within : Within n) (items : List Nat) (c : Composer) (id : Nat) :
    Composes c (blockSequence items c id (n + 1)) := by
  unfold blockSequence
  refine peeking fun token => ?_
  split
  · exact .before (onward_advance c) (item_composes within fun c item => within.blockSequence _ c _)
  · exact .done _ (c.onward_advance.trans (onward_fill _ _ _))
  · exact .refused

theorem blockMapping_succ {n : Nat} (within : Within n) (entries : List (Nat × Nat)) (c : Composer) (id : Nat) :
    Composes c (blockMapping entries c id (n + 1)) := by
  unfold blockMapping
  refine peeking fun token => ?_
  split
  · exact .done _ (c.onward_advance.trans (onward_fill _ _ _))
  · refine .bind (within.blockPart _ _) fun c key => .bind (within.blockPart _ _) fun c value => ?_
    exact within.blockMapping _ _ _
  · exact .refused

/-- What comes after a mark, which is empty if the entry goes on or ends at once, or if there is no mark. -/
theorem part_composes {n : Nat} (within : Within n) {place : Place} {mark : Token} {p : Token → Bool} :
    Composes c (do
      if (← c.peek) = mark then
        let c := c.advance
        let stop ← c.ends p
        if stop then return c.empty else node place c n
      else return c.empty) := by
  refine peeking fun token => ?_
  split
  · refine .before (onward_advance c) (ending fun stop => ?_)
    split
    · exact .done _ (.same rfl rfl)
    · exact within.node _ _
  · exact .done _ (.same rfl rfl)

theorem blockPart_succ {n : Nat} (within : Within n) (mark : Token) (c : Composer) :
    Composes c (blockPart mark c (n + 1)) :=
  part_composes within

theorem flowPart_succ {n : Nat} (within : Within n) (mark closing : Token) (c : Composer) :
    Composes c (flowPart mark closing c (n + 1)) :=
  part_composes within

theorem separated {first : Bool} {f : Composer → Except Fault (Composer × Nat)} (composes : ∀ c, Composes c (f c)) :
    Composes c (if first then do f (← pure c) else do f (← c.comma)) := by
  split
  · exact composes c
  · exact .passing c.comma_yields composes

theorem flowSequence_succ {n : Nat} (within : Within n) (first : Bool) (items : List Nat) (c : Composer) (id : Nat) :
    Composes c (flowSequence first items c id (n + 1)) := by
  unfold flowSequence
  refine peeking fun token => ?_
  split
  · exact .done _ (c.onward_advance.trans (onward_fill _ _ _))
  · refine separated fun c => peeking fun token => ?_
    split
    · exact .done _ (c.onward_advance.trans (onward_fill _ _ _))
    · refine .before (c.onward_add _) (.bind (within.flowPart _ _ _) fun c key => ?_)
      refine .bind (within.flowPart _ _ _) fun c value => ?_
      exact .before (onward_fill _ _ _) (within.flowSequence _ _ _ _)
    · exact .bind (within.node _ _) fun c item => within.flowSequence _ _ c _

theorem flowMapping_succ {n : Nat} (within : Within n) (first : Bool) (entries : List (Nat × Nat)) (c : Composer)
    (id : Nat) : Composes c (flowMapping first entries c id (n + 1)) := by
  unfold flowMapping
  refine peeking fun token => ?_
  split
  · exact .done _ (c.onward_advance.trans (onward_fill _ _ _))
  · refine separated fun c => peeking fun token => ?_
    split
    · exact .done _ (c.onward_advance.trans (onward_fill _ _ _))
    · refine .bind (within.flowPart _ _ _) fun c key => .bind (within.flowPart _ _ _) fun c value => ?_
      exact within.flowMapping _ _ _ _
    · refine .bind (within.node _ _) fun c key => ?_
      exact .before (c.onward_add _) (within.flowMapping _ _ _ _)

theorem within (n : Nat) : Within n := by
  induction n with
  | zero => constructor <;> intros <;> exact .refused
  | succ n ih =>
    exact ⟨node_succ ih, looseSequence_succ ih, blockSequence_succ ih, blockMapping_succ ih, blockPart_succ ih,
      flowSequence_succ ih, flowMapping_succ ih, flowPart_succ ih⟩

/-! ### Documents -/

theorem directives_yields (c : Composer) (versioned : Bool) (declared : List (String × String)) (fuel : Nat) :
    Yields (c.directives versioned declared fuel) c.Onward c.Fails := by
  induction fuel generalizing c versioned declared with
  | zero => exact .fails (Or.inl rfl)
  | succ fuel ih =>
    unfold directives
    have later (versioned : Bool) (declared : List (String × String)) :
        Yields (c.advance.directives versioned declared fuel) c.Onward c.Fails :=
      (ih c.advance versioned declared).mono (fun _ => c.onward_advance.trans) fun _ => id
    refine c.peek_yields.bind fun token _ => ?_
    split
    · split
      · exact .fails (Or.inl rfl)
      · exact later _ _
    · split
      · exact .fails (Or.inl rfl)
      · exact later _ _
    · exact later _ _
    · exact .done (.same rfl rfl)

theorem finish_yields (c : Composer) (fuel : Nat) :
    Yields (c.finish fuel) (fun after => c.Onward after ∧ .streamEnd ∈ c.tokens) c.Fails := by
  induction fuel generalizing c with
  | zero => exact .fails (Or.inl rfl)
  | succ fuel ih =>
    unfold finish
    refine c.peek_yields.bind fun token member => ?_
    split
    · have onward := c.onward_advance
      exact (ih c.advance).mono (fun _ ⟨further, ends⟩ => ⟨onward.trans further, onward.tokens.subset ends⟩) fun _ => id
    · exact .done ⟨.refl c, member⟩
    · exact .fails (Or.inl rfl)

/-- A computation that succeeds only if the tokens say where the text ends. -/
def Closes (c : Composer) (x : Except Fault α) : Prop :=
  Yields x (fun _ => .streamEnd ∈ c.tokens) c.Fails

namespace Closes

theorem before {x : Except Fault α} (onward : c.Onward d) (closes : Closes d x) : Closes c x :=
  closes.mono (fun _ ends => onward.tokens.subset ends) fun _ => Or.imp_right onward.fault.symm.trans

theorem bind {x : Except Fault (Composer × α)} {f : Composer × α → Except Fault β} (composes : Composes c x)
    (next : ∀ after a, Closes after (f (after, a))) : Closes c (x >>= f) :=
  Yields.bind composes fun (after, a) onward => (next after a).before onward

theorem passing {x : Except Fault Composer} {f : Composer → Except Fault β} (yields : Yields x c.Onward c.Fails)
    (next : ∀ after, Closes after (f after)) : Closes c (x >>= f) :=
  Yields.bind yields fun after onward => (next after).before onward

theorem peeking {x : Token → Except Fault α} (closes : ∀ token, Closes c (x token)) : Closes c (c.peek >>= x) :=
  c.peek_yields.bind fun token _ => closes token

end Closes

theorem document_closes (c : Composer) (fuel : Nat) : Closes c (c.document fuel) := by
  have finished (id : Nat) (c : Composer) : Closes c (do return (← c.finish fuel, some id)) :=
    Yields.bind (c.finish_yields fuel) fun _ ended => .done ended.2
  unfold document
  refine c.peek_yields.bind fun token member => ?_
  split
  case h_1 => exact .done member
  case h_6 =>
    refine Closes.before (d := { c with handles := defaultHandles }) (.same rfl rfl) ?_
    exact .bind ((within fuel).node _ _) fun c id => finished id c
  -- Whatever begins the document, its directives come first.
  all_goals
    refine Closes.passing (c.directives_yields false [] fuel) fun c => .peeking fun token => ?_
    split
    · exact .fails (Or.inl rfl)
    · refine Closes.before (onward_advance c) (.peeking fun token => ?_)
      split
      · exact .before (onward_add _ _) (finished _ _)
      · exact .bind ((within fuel).node _ _) fun c id => finished id c

end Interaction.Document.Composer
