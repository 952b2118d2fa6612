import Mathlib.Tactic.SplitIfs
import Interaction.Document.Build
import Interaction.Document.Read
import Interaction.Proofs.Decoding
import Interaction.Proofs.TagFaults
import Interaction.Proofs.Resolving

/-! The scalars of models and of configurations. A text is a truth value in a model if it is spelled as one in any document;
words that are switches in a configuration stand for themselves in a model, and all else is the same in both. -/

namespace Interaction.Document

namespace Schema

variable {text : List Char} {f : Front}

/-- The spellings of truth values in models. -/
def truths : List (String × Bool) :=
  [("true", true), ("True", true), ("TRUE", true), ("false", false), ("False", false), ("FALSE", false)]

/-- The words that are truth values in configurations only. -/
def switches : List (String × Bool) :=
  [("yes", true), ("Yes", true), ("YES", true), ("no", false), ("No", false), ("NO", false),
   ("on", true), ("On", true), ("ON", true), ("off", false), ("Off", false), ("OFF", false)]

/-- Whether a text is one of some words, perhaps with the end of a line behind it. -/
def Spells (words : List (String × Bool)) (text : List Char) : Prop :=
  ∃ word ∈ words, word.1.toList = dropFinalBreak text

/-- The rules that are not about truth values. -/
def others : Schema :=
  Loaders.formatRules standard.tail

theorem config_rules (f : Front) : config f = (if f ∈ fronts "yYnNtTfFoO" then
    [boolRule ["yes", "Yes", "YES", "no", "No", "NO", "true", "True", "TRUE", "false", "False", "FALSE",
      "on", "On", "ON", "off", "Off", "OFF"]] else []) ++ others f := by
  have rules : config f = Loaders.formatRules standard f := by
    rw [← Loaders.standard_rules.2, ← (Loaders.withModel_rules Loaders.standard_rules.1).2.1]
    rfl
  rw [rules]
  by_cases about : f ∈ fronts "yYnNtTfFoO"
  · simp [Loaders.formatRules, standard, others, about]
  · simp [Loaders.formatRules, standard, others, about]

theorem others_untrue : ∀ entry ∈ standard.tail, entry.1.tag ≠ "bool" := by
  decide

theorem tag_of_others {rule : Rule} (member : rule ∈ others f) : rule.tag ∈ standard.tail.map (·.1.tag) := by
  obtain ⟨entry, among, rfl⟩ := List.mem_map.mp member
  exact List.mem_map.mpr ⟨entry, (List.mem_filter.mp among).1, rfl⟩

theorem model_rules (f : Front) : model f = others f ++ if f ∈ fronts "tTfF" then
    [boolRule ["true", "True", "TRUE", "false", "False", "FALSE"]] else [] := by
  have rules : model f = (Loaders.standard.rules .config f).filter (·.tag ≠ "bool") ++ if f ∈ fronts "tTfF" then
      [boolRule ["true", "True", "TRUE", "false", "False", "FALSE"]] else [] :=
    (Loaders.withModel_rules Loaders.standard_rules.1).2.2 f
  have kept : (others f).filter (·.tag ≠ "bool") = others f := by
    refine List.filter_eq_self.mpr fun rule member => ?_
    obtain ⟨entry, among, same⟩ := List.mem_map.mp (tag_of_others member)
    simpa [← same] using others_untrue entry among
  have same : Loaders.standard.rules .config f = config f :=
    (congrFun (Loaders.withModel_rules Loaders.standard_rules.1).2.1 f).symm
  rw [rules, same, config_rules, List.filter_append, kept]
  split <;> simp [boolRule]

theorem boolRule_accepts {words : List String} {cs : List Char} :
    (boolRule words).accepts cs = true ↔ ∃ word ∈ words, word.toList = cs := by
  simp [boolRule, oneOf]

theorem spells_iff {words : List (String × Bool)} :
    Spells words text ↔ ∃ word ∈ words.map (·.1), word.toList = dropFinalBreak text := by
  simp [Spells]

theorem dropFinalBreak_iff {word : List Char} (solid : word.getLast? ≠ some '\n') :
    word = dropFinalBreak text ↔ text = word ∨ text = word ++ ['\n'] := by
  unfold dropFinalBreak
  constructor
  · rintro rfl
    split at solid
    next ended =>
      obtain ⟨front, rfl⟩ := List.getLast?_eq_some_iff.mp ended
      rw [if_pos ended, List.dropLast_concat]
      exact .inr rfl
    next open_ =>
      rw [if_neg open_]
      exact .inl rfl
  · rintro (rfl | rfl)
    · rw [if_neg solid]
    · rw [if_pos List.getLast?_concat, List.dropLast_concat]

theorem spells_switch {text : String} :
    Spells switches text.toList ↔ ∃ word ∈ switches, text = word.1 ∨ text = word.1 ++ "\n" := by
  have solid : ∀ word ∈ switches, word.1.toList.getLast? ≠ some '\n' := by decide
  refine exists_congr fun word => and_congr_right fun member => ?_
  rw [dropFinalBreak_iff (solid word member), ← String.toList_inj, ← String.toList_inj, String.toList_append]
  rfl

theorem front_of_word {c : Char} {rest : List Char} (spelled : dropFinalBreak text = c :: rest) : Front.of text = .char c := by
  cases text with
  | nil => cases spelled
  | cons d more =>
    unfold dropFinalBreak at spelled
    split at spelled
    · cases more with
      | nil => cases spelled
      | cons e more => exact congrArg Front.char (List.cons.inj spelled).1
    · exact congrArg Front.char (List.cons.inj spelled).1

theorem front_of_spelling {words : List (String × Bool)} {starts : List Front}
    (opens : ∀ word ∈ words, ∃ c rest, word.1.toList = c :: rest ∧ Front.char c ∈ starts) (spells : Spells words text) :
    Front.of text ∈ starts := by
  obtain ⟨word, member, spelled⟩ := spells
  obtain ⟨c, rest, written, among⟩ := opens word member
  rw [front_of_word (spelled.symm.trans written)]
  exact among

theorem tagOf_eq (schema : Schema) (text : List Char) : schema.tagOf text =
    (((schema (.of text) ++ schema .any).find? (·.accepts (dropFinalBreak text))).map (·.tag)).getD "str" := by
  unfold tagOf
  cases (schema (.of text) ++ schema .any).find? (·.accepts (dropFinalBreak text)) <;> rfl

theorem others_any : others .any = [] :=
  rfl

theorem config_words : ["yes", "Yes", "YES", "no", "No", "NO", "true", "True", "TRUE", "false", "False", "FALSE",
    "on", "On", "ON", "off", "Off", "OFF"].Perm (truths.map (·.1) ++ switches.map (·.1)) := by
  decide

theorem config_bool (spells : Spells truths text ∨ Spells switches text) : config.tagOf text = "bool" := by
  have about : Front.of text ∈ fronts "yYnNtTfFoO" := spells.elim
    (front_of_spelling (by simp [truths, fronts])) (front_of_spelling (by simp [switches, fronts]))
  rw [tagOf_eq, config_rules, if_pos about, List.append_assoc, List.singleton_append, List.find?_cons_of_pos]
  · rfl
  · refine boolRule_accepts.mpr ?_
    obtain ⟨word, member, spelled⟩ : ∃ word ∈ truths.map (·.1) ++ switches.map (·.1), word.toList = dropFinalBreak text :=
      spells.elim (fun spells => (spells_iff.mp spells).imp fun _ spelled => ⟨List.mem_append_left _ spelled.1, spelled.2⟩)
        fun spells => (spells_iff.mp spells).imp fun _ spelled => ⟨List.mem_append_right _ spelled.1, spelled.2⟩
    exact ⟨word, config_words.mem_iff.mpr member, spelled⟩

theorem config_other (untrue : ¬ Spells truths text) (still : ¬ Spells switches text) :
    config.tagOf text = others.tagOf text := by
  rw [tagOf_eq, tagOf_eq, config_rules, config_rules, if_neg (by decide : Front.any ∉ fronts "yYnNtTfFoO"), List.nil_append]
  split
  · rw [List.append_assoc, List.singleton_append, List.find?_cons_of_neg]
    intro accepted
    obtain ⟨word, member, spelled⟩ := boolRule_accepts.mp accepted
    rcases List.mem_append.mp (config_words.mem_iff.mp member) with among | among
    · exact untrue (spells_iff.mpr ⟨word, among, spelled⟩)
    · exact still (spells_iff.mpr ⟨word, among, spelled⟩)
  · rfl

theorem others_of_truth (spells : Spells truths text) : others (.of text) = [] := by
  have about : Front.of text ∈ fronts "tTfF" := front_of_spelling (by simp [truths, fronts]) spells
  have none : ∀ f ∈ fronts "tTfF", (others f).isEmpty = true := by decide
  exact List.isEmpty_iff.mp (none _ about)

theorem model_bool (spells : Spells truths text) : model.tagOf text = "bool" := by
  have about : Front.of text ∈ fronts "tTfF" := front_of_spelling (by simp [truths, fronts]) spells
  rw [tagOf_eq, model_rules, others_of_truth spells, if_pos about, List.nil_append, List.singleton_append,
    List.find?_cons_of_pos]
  · rfl
  · exact boolRule_accepts.mpr (spells_iff.mp spells)

theorem model_other (untrue : ¬ Spells truths text) : model.tagOf text = others.tagOf text := by
  rw [tagOf_eq, tagOf_eq, model_rules, model_rules, if_neg (by decide : Front.any ∉ fronts "tTfF"), List.append_nil]
  split
  · rw [List.append_assoc, List.find?_append, List.singleton_append, List.find?_cons_of_neg, List.find?_append]
    exact fun accepted => untrue (spells_iff.mpr (boolRule_accepts.mp accepted))
  · rw [List.append_nil]

theorem switches_untrue (spells : Spells switches text) : ¬ Spells truths text := by
  rintro ⟨other, truth, same⟩
  obtain ⟨word, member, spelled⟩ := spells
  have apart : ∀ word ∈ switches, ∀ other ∈ truths, other.1 ≠ word.1 := by decide
  exact apart word member other truth (String.toList_inj.mp (same.trans spelled.symm))

theorem others_switch (spells : Spells switches text) : others.tagOf text = "str" := by
  obtain ⟨word, member, spelled⟩ := spells
  have plain : ∀ word ∈ switches, (others (.of word.1.toList)).find? (·.accepts word.1.toList) |>.isNone := by decide
  have begins : Front.of text = Front.of word.1.toList := by
    cases written : word.1.toList with
    | nil => exact absurd written ((by decide : ∀ word ∈ switches, word.1.toList ≠ []) word member)
    | cons c rest => exact front_of_word (spelled.symm.trans written)
  rw [tagOf_eq, others_any, List.append_nil, begins, ← spelled, Option.isNone_iff_eq_none.mp (plain word member)]
  rfl

theorem others_tags (text : List Char) : others.tagOf text ∈ "str" :: standard.tail.map (·.1.tag) := by
  rw [tagOf_eq, others_any, List.append_nil]
  cases found : (others (.of text)).find? (·.accepts (dropFinalBreak text)) with
  | none => exact List.mem_cons_self
  | some rule => exact List.mem_cons_of_mem _ (tag_of_others (List.mem_of_find?_eq_some found))

end Schema

open Schema

theorem readBool_word : ∀ word ∈ truths ++ switches, readBool word.1.toList = .ok word.2 := by
  intro word member
  simp only [truths, switches, List.cons_append, List.nil_append, List.mem_cons, List.not_mem_nil, or_false] at member
  rcases member with rfl | rfl | rfl | rfl | rfl | rfl | rfl | rfl | rfl | rfl | rfl | rfl | rfl | rfl | rfl | rfl | rfl | rfl <;>
    rfl

theorem readBool_broken {word : String × Bool} (member : word ∈ truths ++ switches) :
    readBool (word.1.toList ++ ['\n']) =
      .error (.unknownName (String.ofList (Text.lower (word.1.toList ++ ['\n'])))) := by
  have unknown : ∀ word ∈ truths ++ switches, String.ofList (Text.lower (word.1.toList ++ ['\n'])) ∉
      ["yes", "true", "on", "no", "false", "off"] := by decide +kernel
  have others := unknown word member
  simp only [List.mem_cons, List.not_mem_nil, or_false, not_or] at others
  simp [readBool, others]

/-- A text that has the end of a line behind a word is no spelling of a truth value. -/
theorem readBool_spells {text : List Char} {on : Bool} (spells : Spells truths text) (read : readBool text = .ok on) :
    ∃ word ∈ truths, word.1.toList = text := by
  obtain ⟨word, member, spelled⟩ := spells
  unfold dropFinalBreak at spelled
  split at spelled
  next ended =>
    obtain ⟨front, rfl⟩ := List.getLast?_eq_some_iff.mp ended
    rw [List.dropLast_concat] at spelled
    have failed := readBool_broken (List.mem_append_left switches member)
    rw [spelled, read] at failed
    cases failed
  next => exact ⟨word, member, spelled⟩

theorem bind_ok {α β : Type} {x : Except Fault α} {f : α → Except Fault β} {result : β} :
    x >>= f = .ok result ↔ ∃ a, x = .ok a ∧ f a = .ok result := by
  cases x with
  | error fault => simp [bind, Except.bind]
  | ok a => simp [bind, Except.bind]

theorem stamp_untrue {stamp : StampText} {on : Bool} : stamp.read ≠ .ok (.bool on) := by
  intro read
  unfold StampText.read at read
  split at read
  · obtain ⟨day, -, done⟩ := bind_ok.mp read
    cases done
  · obtain ⟨ahead, -, rest⟩ := bind_ok.mp read
    obtain ⟨day, -, rest⟩ := bind_ok.mp rest
    dsimp only at rest
    split_ifs at rest
    all_goals cases rest

theorem readNumber_untrue {text : List Char} {on : Bool} : readNumber text ≠ .ok (.bool on) := by
  intro read
  unfold readNumber at read
  obtain ⟨parts, -, rest⟩ := bind_ok.mp read
  dsimp only at rest
  split at rest
  · cases rest
  · split at rest
    · cases rest
    · split at rest
      · obtain ⟨numbers, -, rest⟩ := bind_ok.mp rest
        obtain ⟨x, -, done⟩ := bind_ok.mp rest
        cases done
      · obtain ⟨x, -, done⟩ := bind_ok.mp rest
        cases done

theorem readScalar_bool {tag : String} {text : List Char} {on : Bool} (read : readScalar tag text = .ok (.bool on)) :
    tag = "bool" := by
  unfold readScalar at read
  split at read
  · cases read
  · rfl
  · cases found : readInteger text <;> simp [found, Except.map] at read
  · exact absurd read readNumber_untrue
  · cases found : readBytes text <;> simp [found, Except.map] at read
  · unfold readStamp at read
    split at read
    · exact absurd read stamp_untrue
    · cases read
  · cases read
  · cases read

namespace Builder

variable {b : Builder} {id : Nat} {tag : Option String} {text : String} {plain : Bool} {name : String}

/-- The names of the tags of collections. -/
def collectionTags : List String :=
  ["seq", "omap", "pairs", "map", "set"]

theorem scalarText_scalar (content : (b.node id).content = .scalar text) (fuel : Nat) :
    b.scalarText id (fuel + 1) = .ok text.toList := by
  unfold scalarText
  rw [content]

theorem isMapping_scalar (content : (b.node id).content = .scalar text) : b.isMapping id = false := by
  unfold isMapping
  rw [content]

/-- A text that has a tag of the standard becomes what it stands for under the tag. -/
theorem value_scalar (content : (b.node id).content = .scalar text) (fresh : b.found? id = none)
    (tagged : b.tag id = standardTag ++ name) (single : name ∉ collectionTags) :
    b.value id = (readScalar name text.toList).map fun x =>
      (({ b with store := (b.store.own x).1 } : Builder).keep id (b.store.own x).2, (b.store.own x).2) := by
  have named : String.ofList ((b.tag id).toList.drop standardTag.length) = name := by
    rw [tagged, String.toList_append, ← String.length_toList, List.drop_left, String.ofList_toList]
  have standard : standardTag.toList.isPrefixOf (b.tag id).toList = true := by
    rw [List.isPrefixOf_iff_prefix, tagged, String.toList_append]
    exact List.prefix_append ..
  unfold value
  rw [fresh]
  dsimp only
  rw [standard, named, scalarText_scalar content, isMapping_scalar content]
  simp only [collectionTags, List.mem_cons, List.not_mem_nil, or_false, not_or] at single
  split
  next wrong => cases wrong
  next =>
    split
    · exact absurd rfl single.1
    · exact absurd rfl single.2.1
    · exact absurd rfl single.2.2.1
    · exact absurd rfl single.2.2.2.1
    · exact absurd rfl single.2.2.2.2
    · simp only [Bool.and_false, bind, Except.bind]
      cases readScalar name text.toList <;> rfl

theorem value_congr (content : (b.node id).content = .scalar text) {schema other : Schema}
    (same : ({ b with schema := other } : Builder).tag id = ({ b with schema } : Builder).tag id) :
    ({ b with schema := other } : Builder).value id =
      (({ b with schema } : Builder).value id).map fun result => ({ result.1 with schema := other }, result.2) := by
  have texts (schema : Schema) : ({ b with schema } : Builder).scalarText id (b.nodes.size + 1) = .ok text.toList :=
    @scalarText_scalar { b with schema } id text content b.nodes.size
  have single (schema : Schema) : ({ b with schema } : Builder).isMapping id = false :=
    @isMapping_scalar { b with schema } id text content
  cases kept : b.found? id with
  | some v =>
    have found (schema : Schema) : ({ b with schema } : Builder).found? id = some v := kept
    simp only [value, found]
    rfl
  | none =>
    have found (schema : Schema) : ({ b with schema } : Builder).found? id = none := kept
    simp only [value, found, same, texts, single, Bool.and_false, Bool.false_eq_true, if_false]
    split
    · rfl
    · split
      iterate 5 rfl
      simp only [bind, Except.bind]
      cases readScalar _ text.toList <;> rfl

/-! ### Both loaders -/

theorem tag_resolved (held : b.node id = .ofScalar tag text plain) (resolved : (plain = true ∧ tag = none) ∨ tag = some "!")
    (schema : Schema) : ({ b with schema } : Builder).tag id = standardTag ++ schema.tagOf text.toList := by
  have node : ({ b with schema } : Builder).node id = .ofScalar tag text plain := held
  unfold Builder.tag
  rw [node]
  obtain ⟨rfl, rfl⟩ | rfl := resolved
  · rfl
  · cases plain <;> rfl

theorem tag_unresolved (held : b.node id = .ofScalar tag text plain)
    (unresolved : ¬ ((plain = true ∧ tag = none) ∨ tag = some "!")) (schema other : Schema) :
    ({ b with schema } : Builder).tag id = ({ b with schema := other } : Builder).tag id := by
  have node (schema : Schema) : ({ b with schema } : Builder).node id = .ofScalar tag text plain := held
  obtain ⟨tagged, differs⟩ := not_or.mp unresolved
  unfold Builder.tag
  rw [node, node]
  cases tag with
  | none =>
    have quoted : plain = false := by simpa using tagged
    rw [quoted]
    rfl
  | some tag =>
    have kept : (Node.ofScalar (some tag) text plain).tag = some tag := by
      have particular : tag ≠ "!" := fun same => differs (congrArg some same)
      simp [Node.ofScalar, particular]
    simp only [kept]

theorem spells_self {words : List (String × Bool)} {on : Bool} (member : (text, on) ∈ words)
    (whole : ∀ word ∈ words, dropFinalBreak word.1.toList = word.1.toList) : Spells words text.toList :=
  ⟨_, member, (whole _ member).symm⟩

theorem tags_single (schema : Schema) (bools : ∀ text, schema.tagOf text = "bool" ∨ schema.tagOf text = others.tagOf text)
    (text : List Char) : schema.tagOf text ∉ collectionTags := by
  have single : ∀ tag ∈ "bool" :: "str" :: Schema.standard.tail.map (·.1.tag), tag ∉ collectionTags := by decide
  refine single _ ?_
  obtain same | same := bools text
  · exact same ▸ List.mem_cons_self
  · exact same ▸ List.mem_cons_of_mem _ (others_tags text)

theorem value_word (content : (b.node id).content = .scalar text) (fresh : b.found? id = none)
    (tagged : b.tag id = standardTag ++ "bool") {on : Bool} (member : (text, on) ∈ truths ++ switches) :
    ∃ after, b.value id = .ok (after, .bool on) := by
  have read : readScalar "bool" text.toList = .ok (.bool on) := by
    show (readBool text.toList).map Scalar.bool = .ok (.bool on)
    rw [readBool_word _ member]
    rfl
  rw [value_scalar content fresh tagged (by decide), read]
  exact ⟨_, rfl⟩

theorem own_bool {s : Store} {x : Scalar} {on : Bool} (same : (s.own x).2 = .bool on) : x = .bool on := by
  unfold Store.own at same
  split at same
  · split at same <;> cases same
  · cases same
    rfl

/-- A text that is read as a truth value in a model is spelled as one. -/
theorem truth_of_read {on : Bool} (read : readScalar (Schema.model.tagOf text.toList) text.toList = .ok (.bool on)) :
    ∃ on, (text, on) ∈ truths := by
  have named := readScalar_bool read
  have spells : Spells truths text.toList := by
    refine Classical.byContradiction fun untrue => ?_
    rw [model_other untrue] at named
    have foreign : "bool" ∉ "str" :: Schema.standard.tail.map (·.1.tag) := by decide
    exact foreign (named ▸ others_tags text.toList)
  rw [named] at read
  have word : readBool text.toList = .ok on := by
    cases found : readBool text.toList with
    | error fault => simp [readScalar, found, Except.map] at read
    | ok b => simpa [readScalar, found, Except.map] using read
  obtain ⟨word, member, same⟩ := readBool_spells spells word
  exact ⟨word.2, String.toList_inj.mp same ▸ member⟩

/-- A switch stands for itself in a model. -/
theorem value_switch (content : (b.node id).content = .scalar text) (fresh : b.found? id = none)
    (tagged : b.tag id = standardTag ++ Schema.model.tagOf text.toList) (spells : Spells switches text.toList) :
    ∃ after, b.value id = .ok (after, .text text) := by
  rw [model_other (switches_untrue spells), others_switch spells] at tagged
  rw [value_scalar content fresh tagged (by decide)]
  exact ⟨_, by rw [show readScalar "str" text.toList = .ok (.text (String.ofList text.toList)) from rfl,
    String.ofList_toList]; rfl⟩

/-- What becomes of a text in both loaders. Where its tag is found out from the text, a switch of configurations stands
for itself in a model, and what is a truth value in a model is spelled as one. So does a switch with a line feed behind
it, which is no value at all in a configuration. All other texts are the same in both. -/
theorem scalar_loaded (held : b.node id = .ofScalar tag text plain) (fresh : b.found? id = none) :
    (∀ loader, loader ≠ .model → loaders.rules loader = Loaders.standard.rules loader) ∧
    (¬ (((plain = true ∧ tag = none) ∨ tag = some "!") ∧ Spells switches text.toList) →
      ({ b with schema := Schema.model } : Builder).value id =
        (({ b with schema := Schema.config } : Builder).value id).map fun result =>
          ({ result.1 with schema := Schema.model }, result.2)) ∧
    (Spells switches text.toList ↔ ∃ word ∈ switches, text = word.1 ∨ text = word.1 ++ "\n") ∧
    ((plain = true ∧ tag = none) ∨ tag = some "!" →
      (∀ on, (text, on) ∈ switches →
        (∃ after, ({ b with schema := Schema.config } : Builder).value id = .ok (after, .bool on)) ∧
        ∃ after, ({ b with schema := Schema.model } : Builder).value id = .ok (after, .text text)) ∧
      (∀ word ∈ switches, text = word.1 ++ "\n" →
        ({ b with schema := Schema.config } : Builder).value id =
          .error (.unknownName (String.ofList (Text.lower text.toList))) ∧
        ∃ after, ({ b with schema := Schema.model } : Builder).value id = .ok (after, .text text)) ∧
      ((∃ after on, ({ b with schema := Schema.model } : Builder).value id = .ok (after, .bool on)) ↔
        ∃ on, (text, on) ∈ truths)) := by
  have content (schema : Schema) : (({ b with schema } : Builder).node id).content = .scalar text := congrArg Node.content held
  have unmet (schema : Schema) : ({ b with schema } : Builder).found? id = none := fresh
  have modelTags (text : List Char) : Schema.model.tagOf text = "bool" ∨ Schema.model.tagOf text = others.tagOf text :=
    (Classical.em (Spells truths text)).imp model_bool model_other
  refine ⟨fun loader older => ?_, fun same => ?_, spells_switch, fun resolved => ?_⟩
  · obtain ⟨basic, config, -⟩ := Loaders.withModel_rules Loaders.standard_rules.1
    cases loader with
    | basic => exact basic
    | config => exact config
    | model => exact absurd rfl older
  · refine value_congr (congrArg Node.content held) ?_
    by_cases resolved : (plain = true ∧ tag = none) ∨ tag = some "!"
    · rw [tag_resolved held resolved, tag_resolved held resolved]
      have still : ¬ Spells switches text.toList := fun spells => same ⟨resolved, spells⟩
      by_cases spells : Spells truths text.toList
      · rw [model_bool spells, config_bool (.inl spells)]
      · rw [model_other spells, config_other spells still]
    · exact tag_unresolved held resolved ..
  · have tagged := tag_resolved held resolved
    have modelled (spells : Spells switches text.toList) :
        ∃ after, ({ b with schema := Schema.model } : Builder).value id = .ok (after, .text text) :=
      value_switch (content _) (unmet _) (tagged _) spells
    refine ⟨fun on member => ?_, fun word member broken => ?_, fun ⟨after, on, loaded⟩ => ?_, fun ⟨on, member⟩ => ?_⟩
    · have spells : Spells switches text.toList := spells_self member (by decide)
      refine ⟨value_word (content _) (unmet _) ?_ (List.mem_append_right _ member), modelled spells⟩
      rw [tagged, config_bool (.inr spells)]
    · have spells := spells_switch.mpr ⟨word, member, .inr broken⟩
      have refused : readBool text.toList = .error (.unknownName (String.ofList (Text.lower text.toList))) := by
        rw [broken, String.toList_append]
        exact readBool_broken (List.mem_append_right _ member)
      refine ⟨?_, modelled spells⟩
      rw [value_scalar (content _) (unmet _) (by rw [tagged, config_bool (.inr spells)]) (by decide)]
      rw [show readScalar "bool" text.toList = (readBool text.toList).map .bool from rfl, refused]
      rfl
    · rw [value_scalar (content _) (unmet _) (tagged _) (tags_single _ modelTags _)] at loaded
      cases read : readScalar (Schema.model.tagOf text.toList) text.toList with
      | error fault =>
        rw [read] at loaded
        cases loaded
      | ok x =>
        rw [read] at loaded
        have equal : x = .bool on := own_bool (congrArg Prod.snd (Except.ok.inj loaded))
        exact truth_of_read (equal ▸ read)
    · have spells : Spells truths text.toList := spells_self member (by decide)
      obtain ⟨after, loaded⟩ := value_word (content _) (unmet _) (by rw [tagged, model_bool spells])
        (List.mem_append_left _ member)
      exact ⟨after, on, loaded⟩

/-- A builder with one text. -/
private def lone (tag : Option String) (text : String) (plain : Bool) : Builder where
  schema := Schema.model
  nodes := #[.ofScalar tag text plain]
  store := {}
  values := #[none]

/-- The word for a switch that is on. -/
theorem plain_switch_loaded : (lone none "on" true).node 0 = .ofScalar none "on" true ∧
    (lone none "on" true).found? 0 = none ∧
    (∃ after, ({ lone none "on" true with schema := Schema.config } : Builder).value 0 = .ok (after, .bool true)) ∧
    ∃ after, ({ lone none "on" true with schema := Schema.model } : Builder).value 0 = .ok (after, .text "on") := by
  have held : (lone none "on" true).node 0 = .ofScalar none "on" true := rfl
  have fresh : (lone none "on" true).found? 0 = none := rfl
  obtain ⟨-, -, -, switched⟩ := scalar_loaded held fresh
  exact ⟨held, fresh, (switched (.inl ⟨rfl, rfl⟩)).1 true (by decide)⟩

end Builder

private theorem quoted_tokens : tokens (Pages.ofBytes (Text.encoding "! \"yes\"".toList)) =
    ([.tag none "!", .scalar "yes" false, .streamEnd], none) := by
  decide +kernel

set_option maxRecDepth 2000 in
/-- The mark for no tag in particular makes a word in quotes a switch. -/
theorem quoted_switch_differs : read Schema.config {} (Text.encoding "! \"yes\"".toList) = .ok ({}, .bool true) ∧
    read Schema.model {} (Text.encoding "! \"yes\"".toList) = .ok ({}, .text "yes") := by
  unfold read
  rw [quoted_tokens]
  exact ⟨rfl, rfl⟩

end Interaction.Document
