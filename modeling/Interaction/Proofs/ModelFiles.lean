import Interaction.Proofs.Building
import Interaction.Proofs.Composing
import Interaction.Proofs.TagFaults
import Interaction.Runner

/-! Opening a model file. Whatever its bytes are, reading it ends with the document in it, with a report that there is
none, or with a fault that escapes. A fault that escapes has its cause in the file: bytes that are no text, a number
out of bounds in the text, or a node that is not what its tag says. -/

namespace Interaction

open Document

namespace Document

variable {schema : Schema} {bytes : List UInt8} {fault : Fault}

def composed (bytes : List UInt8) : Except Fault (Composer × Option Nat) :=
  let (tokens, fault) := tokens (Pages.ofBytes bytes)
  ({ tokens, fault } : Composer).document (4 * tokens.length + 8)

/-- What in a file keeps it from being read, other than that it holds no document. -/
inductive Spoils (schema : Schema) (bytes : List UInt8) : Fault → Prop
  | encoding (invalid : ¬ bytes.toByteArray.IsValidUTF8) (cause : DecodingFault) : Spoils schema bytes (.decoding cause)
  | text {fault : Fault} (upset : Upset (Pages.ofBytes bytes).text fault) : Spoils schema bytes fault
  | node {fault : Fault} {c : Composer} {root : Nat} {b : Builder} (nodes : composed bytes = .ok (c, some root))
      (same : b.nodes = c.nodes) (under : b.schema = schema) (misfit : b.Misfit fault) : Spoils schema bytes fault

def escaping : List Fault.Kind :=
  [.decoding, .value, .overflow, .key, .index, .member, .type]

theorem composed_yields (bytes : List UInt8) : Yields (composed bytes) (fun _ => True)
    (fun fault => fault.kind = .document ∨ Spoils schema bytes fault) := by
  refine (Composer.document_closes _ _).mono (fun _ _ => trivial) fun fault fails => ?_
  obtain rfl | met := fails
  · exact Or.inl rfl
  · obtain (none | upset) | page := tokens_stop met
    · exact Or.inl none
    · exact Or.inr (.text upset)
    · obtain rfl | ⟨⟨cause, rfl⟩, invalid⟩ := Pages.ofBytes_beyond page
      · exact Or.inl rfl
      · exact Or.inr (.encoding invalid cause)

def valueOf (schema : Schema) (store : Store) (c : Composer) : Option Nat → Except Fault (Store × Value)
  | none => .ok (store, .null)
  | some id => do
    let b : Builder := { schema, nodes := c.nodes, store, values := Array.replicate c.nodes.size none }
    let (b, v) ← b.value id
    let b ← b.fillAll (b.nodes.size + 1)
    return (b.store, v)

theorem read_composed (schema : Schema) (store : Store) (bytes : List UInt8) :
    read schema store bytes = composed bytes >>= fun result => valueOf schema store result.1 result.2 := by
  unfold read composed
  dsimp only
  refine bind_congr fun result => ?_
  cases result.2 <;> rfl

theorem read_yields (schema : Schema) (store : Store) (bytes : List UInt8) : Yields (read schema store bytes)
    (fun _ => True) (fun fault => fault.kind = .document ∨ Spoils schema bytes fault) := by
  rw [read_composed]
  have composes : Yields (composed bytes) (fun result => composed bytes = .ok result)
      (fun fault => fault.kind = .document ∨ Spoils schema bytes fault) :=
    ⟨fun found => found, (composed_yields bytes).error⟩
  refine composes.bind fun result found => ?_
  obtain ⟨c, root⟩ := result
  cases root with
  | none => exact .done trivial
  | some id =>
    let b : Builder := { schema, nodes := c.nodes, store, values := Array.replicate c.nodes.size none }
    have spoils {fault : Fault} (spoils : b.Spoils fault) : fault.kind = .document ∨ Spoils schema bytes fault := by
      obtain rfl | misfit := spoils
      · exact Or.inl rfl
      · exact Or.inr (.node found rfl rfl misfit)
    have values := (b.value_builds id).mono (fun _ derives => derives) fun _ => spoils
    refine values.bind fun result derives => ?_
    obtain ⟨after, v⟩ := result
    have fills := (after.fillAll_yields (after.nodes.size + 1)).mono (fun _ _ => trivial)
      fun _ further => spoils (further.before derives)
    exact fills.bind fun _ _ => .done trivial

theorem Upset.kind {text : List Char} (upset : Upset text fault) : fault.kind ∈ escaping := by
  cases upset with
  | version found long => cases long; exact (by decide : Fault.Kind.value ∈ escaping)
  | escape found width number failed =>
    unfold escapedCode at failed
    split at failed
    · cases failed; decide
    · split at failed
      · cases failed; decide
      · cases failed

theorem Builder.Misfit.kind {b : Builder} (misfit : b.Misfit fault) : fault.kind = .document ∨ fault.kind ∈ escaping := by
  cases misfit with
  | text tagged held content unread =>
    have kind := (readScalar_raises _ _).error unread
    have all (name : String) : faultKinds name ⊆ .document :: escaping := by
      unfold faultKinds
      split <;> decide
    simpa using all _ kind
  | moment => exact Or.inr (by decide)

/-- What spoils a file escapes, or is taken as that of no document. -/
theorem Spoils.kind (spoils : Spoils schema bytes fault) : fault.kind = .document ∨ fault.kind ∈ escaping := by
  cases spoils with
  | encoding => exact Or.inr (by decide : Fault.Kind.decoding ∈ escaping)
  | text upset => exact Or.inr upset.kind
  | node nodes same under misfit => exact misfit.kind

end Document

namespace Runner

def unparsed (p : Path) (fault : Fault) : Record :=
  .runner Level.error ("Cannot parse model file " ++ p.text ++ ": " ++ fault.message)

/-- What becomes of a model that has been read. -/
def takeModel (r : Runner) (store : Store) (model : Value) : Runner × Except Fault Bool :=
  let session := { r.session with store }
  if model.isNull then ({ r with session }, .ok false)
  else ({ r with session := (session.load model).1 }, (session.load model).2)

/-- How a model file is read, and what becomes of loading it. -/
inductive Answers (r : Runner) (p : Path) (bytes : List UInt8) :
    Except Fault (Store × Value × List Record) → Runner × Except Fault Bool → Prop
  | parsed {store : Store} {model : Value} (document : read Schema.model r.session.store bytes = .ok (store, model)) :
      Answers r p bytes (.ok (store, model, [])) (r.takeModel store model)
  | reported {fault : Fault} (document : read Schema.model r.session.store bytes = .error fault)
      (kind : fault.kind = .document) : Answers r p bytes (.ok (r.session.store, .null, [unparsed p fault]))
        ({ r with session := r.session.logAll [unparsed p fault] }, .ok false)
  | spoilt {fault : Fault} (document : read Schema.model r.session.store bytes = .error fault)
      (cause : Spoils Schema.model bytes fault) (kind : fault.kind ∈ escaping) :
      Answers r p bytes (.error fault) (r, .error fault)

end Runner

theorem Folder.isFile_file {f : Folder} {p : Path} {bytes : List UInt8} (file : f.status p = .ok (.file bytes)) :
    f.isFile p = .ok true := by
  unfold isFile
  rw [file]
  rfl

theorem Folder.read_file {f : Folder} {p : Path} {bytes : List UInt8} (file : f.status p = .ok (.file bytes)) :
    f.read p = .ok bytes := by
  unfold status at file
  split at file
  · cases file
  next sound =>
    have none : p.flaw? = none := by simpa using sound
    have reached : (f.reach p).1 = .file bytes := by
      split at file
      · cases file
      · exact Except.ok.inj file
    unfold read checkPath
    rw [none]
    dsimp only
    rw [reached]
    rfl

theorem readModel_file {f : Folder} {s : Store} {t : String} {bytes : List UInt8}
    (file : f.status (Path.ofString t) = .ok (.file bytes)) : readModel f s (.text t) =
      match read Schema.model s bytes with
      | .ok (s, v) => .ok (s, v, [])
      | .error fault =>
        if fault.kind = .document then .ok (s, .null, [Runner.unparsed (Path.ofString t) fault]) else .error fault := by
  unfold readModel pathOf
  simp only [bind, Except.bind, Folder.isFile_file file, Folder.read_file file, FileFault.lift]
  cases read Schema.model s bytes <;> rfl

/-- A model file is answered, whatever bytes it holds, unless something spoils it: with the document in it, or with
null and a report that there is none. What spoils it escapes, and nothing is loaded or logged then. -/
theorem model_file_answered (r : Runner) {path : Value} {t : String} {bytes : List UInt8}
    (named : r.modelPath path = .ok (.text t)) (file : r.folder.status (Path.ofString t) = .ok (.file bytes)) :
    r.Answers (Path.ofString t) bytes (readModel r.folder r.session.store (.text t)) (r.loadModel path) ∧
      ((∀ fault, ¬ Spoils Schema.model bytes fault) →
        ∃ answer, readModel r.folder r.session.store (.text t) = .ok answer) := by
  have yields := read_yields Schema.model r.session.store bytes
  have answers : r.Answers (Path.ofString t) bytes (readModel r.folder r.session.store (.text t)) (r.loadModel path) := by
    unfold Runner.loadModel
    rw [named]
    dsimp only
    rw [readModel_file file]
    cases found : read Schema.model r.session.store bytes with
    | ok result => exact .parsed found
    | error fault =>
      dsimp only
      split
      next kind => exact .reported found kind
      next kind =>
        obtain none | cause := yields.error found
        · exact absurd none kind
        · exact .spoilt found cause (cause.kind.resolve_left kind)
  refine ⟨answers, fun sound => ?_⟩
  generalize readModel r.folder r.session.store (.text t) = answer, r.loadModel path = loaded at answers ⊢
  cases answers with
  | parsed | reported => exact ⟨_, rfl⟩
  | spoilt _ cause _ => exact absurd cause (sound _)

private def reader (bytes : List UInt8) : Runner where
  settings := default
  folder := { items := [(["model.yaml"], .file bytes)] }

private theorem reader_path (bytes : List UInt8) :
    (reader bytes).modelPath (.text "model.yaml") = .ok (.text "model.yaml") :=
  rfl

private theorem reader_file (bytes : List UInt8) :
    (reader bytes).folder.status (Path.ofString "model.yaml") = .ok (.file bytes) :=
  rfl

private def noDay : List UInt8 :=
  Text.encoding "2001-13-01".toList

set_option maxRecDepth 2000 in
/-- A day that no month has spoils a file. -/
theorem impossible_day_answered : (reader noDay).modelPath (.text "model.yaml") = .ok (.text "model.yaml") ∧
    (reader noDay).folder.status (Path.ofString "model.yaml") = .ok (.file noDay) ∧
    (reader noDay).Answers (Path.ofString "model.yaml") noDay
      (readModel (reader noDay).folder (reader noDay).session.store (.text "model.yaml"))
      ((reader noDay).loadModel (.text "model.yaml")) ∧
    readModel (reader noDay).folder (reader noDay).session.store (.text "model.yaml") =
      .error (.badValue "month must be in 1..12") := by
  have spoilt : read Schema.model (reader noDay).session.store noDay = .error (.badValue "month must be in 1..12") := rfl
  refine ⟨reader_path _, reader_file _, (model_file_answered _ (reader_path noDay) (reader_file noDay)).1, ?_⟩
  rw [readModel_file (reader_file _), spoilt]
  rfl

/-- A byte that begins no character is neither answered nor reported. -/
theorem invalid_byte_raises : (reader [0xFF]).folder.status (Path.ofString "model.yaml") = .ok (.file [0xFF]) ∧
    readModel (reader [0xFF]).folder (reader [0xFF]).session.store (.text "model.yaml") =
      .error (.decoding ⟨0, 0, 0xFF, "invalid start byte"⟩) ∧
    ((reader [0xFF]).loadModel (.text "model.yaml")).2 = .error (.decoding ⟨0, 0, 0xFF, "invalid start byte"⟩) := by
  have spoilt : read Schema.model (reader [0xFF]).session.store [0xFF] =
      .error (.decoding ⟨0, 0, 0xFF, "invalid start byte"⟩) := rfl
  have raised : readModel (reader [0xFF]).folder (reader [0xFF]).session.store (.text "model.yaml") =
      .error (.decoding ⟨0, 0, 0xFF, "invalid start byte"⟩) := by
    rw [readModel_file (reader_file _), spoilt]
    rfl
  refine ⟨reader_file _, raised, ?_⟩
  unfold Runner.loadModel
  rw [reader_path]
  dsimp only
  rw [raised]

end Interaction
