import Mathlib.Tactic.SplitIfs
import Interaction.Document.Build
import Interaction.Proofs.Decoding

/-! Building values adds two kinds of faults: nodes that make no document, and nodes that are not what their tag
says. Merging mappings into others changes neither the texts nor which nodes are mappings, and gives a tag to
nothing but default keys. -/

namespace Interaction.Document.Builder

variable {b after : Builder} {fault : Fault} {α β : Type}

/-- A node that is not what its tag says. The text that the tag is about is its own; that of a mapping is held by
another node. -/
inductive Misfit (b : Builder) : Fault → Prop
  | text {id holder : Nat} {name text : String} {fault : Fault} (tagged : b.hasTag id name = true)
      (held : id = holder ∨ b.isMapping id = true) (content : (b.node holder).content = .scalar text)
      (unread : readScalar name text.toList = .error fault) : Misfit b fault
  | moment {id : Nat} (tagged : b.hasTag id "timestamp" = true) (mapping : b.isMapping id = true) :
      Misfit b (.wrongKind "expected string or bytes-like object, got 'list'")

/-- Why a value cannot be built. -/
def Spoils (b : Builder) (fault : Fault) : Prop :=
  fault = .badDocument ∨ b.Misfit fault

/-! ### Nodes that are changed -/

/-- Nodes that differ from others at most in the entries of mappings and by tags of texts. -/
structure Derives (b after : Builder) : Prop where
  scalar : ∀ id text, (after.node id).content = .scalar text → (b.node id).content = .scalar text
  mapping : ∀ id, after.isMapping id = b.isMapping id
  tag : ∀ id, after.tag id = b.tag id ∨ after.tag id = standardTag ++ "str"

theorem Derives.same (schema : after.schema = b.schema) (nodes : after.nodes = b.nodes) : b.Derives after := by
  have node (id : Nat) : after.node id = b.node id := by unfold Builder.node; rw [nodes]
  refine ⟨fun id text => by rw [node]; exact fun held => held, fun id => ?_, fun id => Or.inl ?_⟩
  · unfold isMapping
    rw [node]
  · unfold Builder.tag
    rw [node, schema]

theorem Derives.refl (b : Builder) : b.Derives b :=
  .same rfl rfl

theorem Derives.trans {last : Builder} (first : b.Derives after) (second : after.Derives last) : b.Derives last := by
  refine ⟨fun id text held => first.scalar id text (second.scalar id text held), fun id => ?_, fun id => ?_⟩
  · rw [second.mapping, first.mapping]
  · rcases second.tag id with same | text
    · rw [same]
      exact first.tag id
    · exact Or.inr text

theorem hasTag_iff {id : Nat} {name : String} : b.hasTag id name = true ↔ b.tag id = standardTag ++ name := by
  unfold hasTag
  exact decide_eq_true_iff

/-- A node that does not fit was one before: a tag that is given to a default key fits every text. -/
theorem Misfit.before (derives : b.Derives after) (misfit : after.Misfit fault) : b.Misfit fault := by
  have tagged {id : Nat} {name : String} (found : after.hasTag id name = true) (other : name ≠ "str") :
      b.hasTag id name = true := by
    rw [hasTag_iff] at found ⊢
    rcases derives.tag id with same | text
    · rw [← same, found]
    · exact absurd ((String.append_right_inj _).mp (found.symm.trans text)) other
  cases misfit with
  | @text id holder name text _ found held content unread =>
    have other : name ≠ "str" := by
      rintro rfl
      cases unread
    exact .text (tagged found other) (held.imp_right (derives.mapping id ▸ ·)) (derives.scalar _ _ content) unread
  | moment found mapping => exact .moment (tagged found (by decide)) (derives.mapping _ ▸ mapping)

theorem Spoils.before (derives : b.Derives after) (spoils : after.Spoils fault) : b.Spoils fault :=
  spoils.imp_right (.before derives)

/-- A node that has been given a tag for texts, or other entries where it had some. -/
inductive Changes (n : Node) : Node → Prop
  | tagged : Changes n { n with tag := some (standardTag ++ "str") }
  | filled {old : List (Nat × Nat)} (mapping : n.content = .mapping old) (entries : List (Nat × Nat)) :
      Changes n { n with content := .mapping entries }

theorem Derives.of_changes (schema : after.schema = b.schema)
    (changes : ∀ id, after.node id = b.node id ∨ Changes (b.node id) (after.node id)) : b.Derives after := by
  refine ⟨fun id text held => ?_, fun id => ?_, fun id => ?_⟩
  all_goals
    rcases changes id with same | changed
  · rwa [same] at held
  · generalize b.node id = n, after.node id = m at changed held ⊢
    cases changed with
    | tagged => exact held
    | filled => cases held
  · unfold isMapping
    rw [same]
  · unfold isMapping
    generalize b.node id = n, after.node id = m at changed ⊢
    cases changed with
    | tagged => rfl
    | filled mapping => rw [mapping]
  · unfold Builder.tag
    rw [same, schema]
    exact Or.inl rfl
  · unfold Builder.tag
    rw [schema]
    generalize b.node id = n, after.node id = m at changed ⊢
    cases changed with
    | tagged => exact Or.inr rfl
    | filled mapping => dsimp only; rw [mapping]; cases n.tag <;> exact Or.inl rfl

theorem node_setNode (b : Builder) (id k : Nat) (f : Node → Node) :
    (b.setNode id f).node k = b.node k ∨ k = id ∧ (b.setNode id f).node k = f (b.node k) := by
  unfold setNode Builder.node
  rw [Array.getElem?_modify]
  split_ifs with same
  · cases b.nodes[k]? with
    | none => exact Or.inl rfl
    | some n => exact Or.inr ⟨same.symm, rfl⟩
  · exact Or.inl rfl

theorem derives_setNode {id : Nat} {f : Node → Node} (change : Changes (b.node id) (f (b.node id))) :
    b.Derives (b.setNode id f) := by
  refine .of_changes rfl fun k => ?_
  rcases b.node_setNode id k f with same | ⟨rfl, changed⟩
  · exact Or.inl same
  · exact Or.inr (changed ▸ change)

theorem derives_setEntries {id : Nat} (mapping : b.isMapping id = true) (entries : List (Nat × Nat)) :
    b.Derives (b.setEntries id entries) := by
  refine derives_setNode ?_
  unfold isMapping at mapping
  split at mapping
  next old held => exact .filled held entries
  next => cases mapping

/-! ### Merging -/

/-- A computation that changes nodes, and refuses what makes no document. -/
def Merges (b : Builder) (x : Except Fault Builder) : Prop :=
  Yields x b.Derives (· = .badDocument)

/-- The same of one that has found entries besides. -/
def Gathers (b : Builder) (x : Except Fault (Builder × List (Nat × Nat))) : Prop :=
  Yields x (fun result => b.Derives result.1) (· = .badDocument)

theorem Merges.before {x : Except Fault Builder} (derives : b.Derives after) (merges : Merges after x) : Merges b x :=
  merges.mono (fun _ further => derives.trans further) fun _ bad => bad

/-- What merging into a mapping comes to, within a number of steps. -/
structure Within (n : Nat) : Prop where
  flatten : ∀ b id, b.isMapping id = true → Merges b (flatten b id n)
  flattenFrom : ∀ b id index merged, b.isMapping id = true → Merges b (flattenFrom b id index merged n)
  flattenEach : ∀ b items found, Gathers b (flattenEach b items found n)

theorem flattenEach_succ {n : Nat} (within : Within n) (b : Builder) (items : List Nat) (found : List (Nat × Nat)) :
    Gathers b (flattenEach b items found (n + 1)) := by
  unfold flattenEach
  split
  · exact .done (Derives.refl b)
  · split
    next mapping =>
      refine Yields.bind (within.flatten _ _ mapping) fun after derives => ?_
      exact (within.flattenEach after _ _).mono (fun _ further => derives.trans further) fun _ bad => bad
    next => exact .fails rfl

theorem flattenFrom_succ {n : Nat} (within : Within n) (b : Builder) (id index : Nat) (merged : List (Nat × Nat))
    (mapping : b.isMapping id = true) : Merges b (flattenFrom b id index merged (n + 1)) := by
  have go {b after : Builder} (derives : b.Derives after) (mapping : b.isMapping id = true) (next : Nat)
      (merged : List (Nat × Nat)) : Merges b (flattenFrom after id next merged n) :=
    .before derives (within.flattenFrom after id next merged ((derives.mapping id).trans mapping))
  unfold flattenFrom
  split
  · have put : b.Derives (if merged.isEmpty then b else b.setEntries id (merged ++ b.entries id)) := by
      split
      · exact .refl b
      · exact derives_setEntries mapping _
    exact .done put
  next key value _ =>
    split
    · have taken := derives_setEntries mapping ((b.entries id).eraseIdx index)
      refine .before taken ?_
      have still := (taken.mapping id).trans mapping
      dsimp only
      split
      next entries held =>
        have inner : (b.setEntries id ((b.entries id).eraseIdx index)).isMapping value = true := by
          unfold isMapping
          rw [held]
        exact Yields.bind (within.flatten _ _ inner) fun after derives => go derives still _ _
      next items _ => exact Yields.bind (within.flattenEach _ items []) fun result derives => go derives still _ _
      next => exact .fails rfl
    · split
      · exact go (derives_setNode .tagged) mapping _ _
      · exact go (.refl b) mapping _ _

theorem within (n : Nat) : Within n := by
  induction n with
  | zero => constructor <;> intros <;> exact .fails rfl
  | succ n ih =>
    exact ⟨fun b id mapping => ih.flattenFrom b id 0 [] mapping, flattenFrom_succ ih, flattenEach_succ ih⟩

/-! ### Values -/

/-- A computation that builds values of nodes. -/
def Builds (b : Builder) (x : Except Fault (Builder × α)) : Prop :=
  Yields x (fun result => b.Derives result.1) b.Spoils

namespace Builds

variable {x : Except Fault (Builder × α)} {f : Builder × α → Except Fault (Builder × β)}

theorem done (a : α) (derives : b.Derives after) : Builds b (.ok (after, a)) :=
  Yields.done derives

theorem refused : Builds b (refuse : Except Fault (Builder × α)) :=
  .fails (Or.inl rfl)

theorem before (derives : b.Derives after) (builds : Builds after x) : Builds b x :=
  builds.mono (fun _ further => derives.trans further) fun _ => .before derives

theorem bind (builds : Builds b x) (next : ∀ after a, Builds after (f (after, a))) : Builds b (x >>= f) :=
  Yields.bind builds fun (after, a) derives => (next after a).before derives

end Builds

/-- The text of a scalar is its own, and that of a mapping is held by a scalar. -/
theorem scalarText_yields (b : Builder) (id fuel : Nat) : Yields (b.scalarText id fuel)
    (fun cs => ∃ holder text, (id = holder ∨ b.isMapping id = true) ∧ (b.node holder).content = .scalar text ∧
      cs = text.toList) (· = .badDocument) := by
  induction fuel generalizing id with
  | zero => exact .fails rfl
  | succ fuel ih =>
    unfold scalarText
    split
    next text held => exact .done ⟨id, text, Or.inl rfl, held, rfl⟩
    next => exact .fails rfl
    next entries held =>
      have mapping : b.isMapping id = true := by
        unfold isMapping
        rw [held]
      split
      next entry _ =>
        exact (ih entry.2).mono (fun cs ⟨holder, text, _, found⟩ => ⟨holder, text, Or.inr mapping, found⟩) fun _ bad => bad
      next => exact .fails rfl

theorem hasTag_standard {id : Nat} (standard : standardTag.toList.isPrefixOf (b.tag id).toList = true) :
    b.hasTag id (String.ofList ((b.tag id).toList.drop standardTag.length)) = true := by
  obtain ⟨name, same⟩ := List.isPrefixOf_iff_prefix.mp standard
  rw [hasTag_iff, ← String.toList_inj, String.toList_append, String.toList_ofList, ← same, ← String.length_toList,
    List.drop_left]

theorem value_builds (b : Builder) (id : Nat) : Builds b (b.value id) := by
  unfold value
  split
  · exact .done _ (.refl b)
  · dsimp only
    split
    · exact .refused
    next standard =>
      have tagged := hasTag_standard (b := b) (by simpa using standard)
      split
      · exact .done _ (.same rfl rfl)
      · exact .done _ (.same rfl rfl)
      · exact .done _ (.same rfl rfl)
      · exact .done _ (.same rfl rfl)
      · exact .done _ (.same rfl rfl)
      next =>
        have texts : Yields (b.scalarText id (b.nodes.size + 1)) (fun cs => ∃ holder text,
            (id = holder ∨ b.isMapping id = true) ∧ (b.node holder).content = .scalar text ∧ cs = text.toList) b.Spoils :=
          (b.scalarText_yields id _).mono (fun _ held => held) fun _ => Or.inl
        refine Yields.bind texts ?_
        rintro _ ⟨holder, text, held, content, rfl⟩
        split
        next moment =>
          simp only [Bool.and_eq_true, decide_eq_true_eq] at moment
          exact .fails (Or.inr (.moment (moment.1 ▸ tagged) moment.2))
        next =>
          have reads : Yields (readScalar (String.ofList ((b.tag id).toList.drop standardTag.length)) text.toList)
              (fun _ => True) b.Spoils := ⟨fun _ => trivial, fun unread => Or.inr (.text tagged held content unread)⟩
          exact Yields.bind reads fun _ _ => .done (.same rfl rfl)

theorem valuesOf_builds (b : Builder) (ids : List Nat) : Builds b (b.valuesOf ids) := by
  induction ids generalizing b with
  | nil => exact .done _ (.refl b)
  | cons id rest ih => exact .bind (b.value_builds id) fun b _ => .bind (ih b) fun b _ => .done _ (.refl b)

theorem pairs_builds (b : Builder) (found : Entries) (entries : List (Nat × Nat)) : Builds b (b.pairs found entries) := by
  induction entries generalizing b found with
  | nil => exact .done _ (.refl b)
  | cons entry rest ih =>
    unfold pairs
    refine .bind (b.value_builds _) fun b key => ?_
    dsimp only
    split
    · exact .refused
    · exact .bind (b.value_builds _) fun b value => ih b _

theorem mappingOf_builds (b : Builder) (id : Nat) : Builds b (b.mappingOf id) := by
  unfold mappingOf
  dsimp only
  split
  · exact .refused
  next mapping =>
    have merges := (within b.flattenBound).flatten b id (by simpa using mapping)
    have flattens : Yields (b.flatten id b.flattenBound) b.Derives b.Spoils :=
      merges.mono (fun _ same => same) fun _ => Or.inl
    exact flattens.bind fun after derives => (after.pairs_builds _ _).before derives

theorem tuples_builds (b : Builder) (ids : List Nat) : Builds b (b.tuples ids) := by
  induction ids generalizing b with
  | nil => exact .done _ (.refl b)
  | cons id rest ih =>
    unfold tuples
    split
    · refine .bind (b.value_builds _) fun b key => .bind (b.value_builds _) fun b value => ?_
      exact .bind (ih b) fun b _ => .done _ (.refl b)
    · exact .refused

theorem cell_builds (b : Builder) (id : Nat) : Builds b (b.cell id) := by
  unfold cell
  split
  · exact .bind (b.mappingOf_builds id) fun b _ => .done _ (.refl b)
  · split
    · exact .bind (b.mappingOf_builds id) fun b _ => .done _ (.refl b)
    · split
      · split
        · exact .bind (b.valuesOf_builds _) fun b _ => .done _ (.refl b)
        · exact .bind (b.tuples_builds _) fun b _ => .done _ (.refl b)
      · exact .refused

theorem fillAll_yields (b : Builder) (fuel : Nat) : Yields (b.fillAll fuel) b.Derives b.Spoils := by
  induction fuel generalizing b with
  | zero => exact .done (.refl b)
  | succ fuel ih =>
    unfold fillAll
    split
    · exact .done (.refl b)
    next id rest _ =>
      have fewer : b.Derives { b with empty := rest } := .same rfl rfl
      have cells := (cell_builds { b with empty := rest } id).before fewer
      refine Yields.bind cells fun (after, cell) derives => ?_
      have go {next : Builder} (same : b.Derives next) : Yields (next.fillAll fuel) b.Derives b.Spoils :=
        (ih next).mono (fun _ further => same.trans further) fun _ => .before same
      dsimp only
      split
      · exact go (derives.trans (.same rfl rfl))
      · exact go derives

end Interaction.Document.Builder
