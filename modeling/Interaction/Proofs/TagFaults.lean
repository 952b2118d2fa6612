import Mathlib.Tactic.SplitIfs
import Interaction.Document.Scalar
import Interaction.Proofs.Yielding

/-! A text that does not fit its tag fails with a fault of one of a few kinds, by the tag. -/

namespace Interaction.Document

/-- The kinds of faults that come up if a text does not fit its tag. -/
def faultKinds : String → List Fault.Kind
  | "bool" => [.key]
  | "int" => [.value, .index]
  | "float" => [.value, .index, .overflow]
  | "timestamp" => [.value, .member]
  | _ => [.document]

/-- A reading that fails only with faults of some kinds. -/
def Raises (x : Except Fault α) (kinds : List Fault.Kind) : Prop :=
  Yields x (fun _ => True) (·.kind ∈ kinds)

variable {x : Except Fault α} {f : α → Except Fault β} {kinds more : List Fault.Kind}

theorem Raises.within (raises : Raises x kinds) (all : kinds ⊆ more) : Raises x more :=
  raises.mono (fun _ good => good) fun _ kind => all kind

theorem Raises.done (a : α) : Raises (.ok a) kinds :=
  Yields.done trivial

theorem Raises.fails {fault : Fault} (kind : fault.kind ∈ kinds) : Raises (.error fault : Except Fault α) kinds :=
  Yields.fails kind

theorem Raises.bind (raises : Raises x kinds) (next : ∀ a, Raises (f a) kinds) : Raises (x >>= f) kinds :=
  Yields.bind raises fun a _ => next a

theorem signOf_raises (cs : List Char) : Raises (signOf cs) [.index] := by
  cases cs with
  | nil => exact .fails (by decide)
  | cons c rest => exact .done _

theorem wholeNumber_raises (base : Nat) (cs : List Char) : Raises (wholeNumber base cs) [.value] := by
  unfold wholeNumber
  dsimp only
  split
  · exact .fails (List.mem_singleton.mpr rfl)
  · split
    · exact .fails (List.mem_singleton.mpr rfl)
    · exact .done _

theorem readInteger_raises (text : List Char) : Raises (readInteger text) (faultKinds "int") := by
  have number (base : Nat) (cs : List Char) : Raises (wholeNumber base cs) (faultKinds "int") :=
    (wholeNumber_raises base cs).within (by decide)
  unfold readInteger
  refine .bind ((signOf_raises _).within (by decide)) fun (negative, cs) => ?_
  dsimp only
  split
  · exact .fails (by decide)
  · exact .done _
  · exact .bind (number 2 _) fun _ => .done _
  · exact .bind (number 16 _) fun _ => .done _
  · exact .bind (number 8 _) fun _ => .done _
  · split
    · exact .bind (Yields.mapM (number 10) _) fun _ => .done _
    · exact .bind (number 10 _) fun _ => .done _

theorem sixtiesFrom_raises (unit : Nat) (sum : Float) (parts : List Float) :
    Raises (sixtiesFrom unit sum parts) [.overflow] := by
  induction parts generalizing unit sum with
  | nil => exact .done _
  | cons part rest ih =>
    unfold sixtiesFrom
    dsimp only
    split
    · exact .fails (by decide)
    · exact ih _ _

theorem plainNumber_raises (cs : List Char) : Raises (plainNumber cs) [.value] := by
  unfold plainNumber
  split
  · exact .done _
  · exact .fails (List.mem_singleton.mpr rfl)

theorem readNumber_raises (text : List Char) : Raises (readNumber text) (faultKinds "float") := by
  have number (cs : List Char) : Raises (plainNumber cs) (faultKinds "float") :=
    (plainNumber_raises cs).within (by decide)
  unfold readNumber
  refine .bind ((signOf_raises _).within (by decide)) fun (negative, cs) => ?_
  dsimp only
  split
  · exact .done _
  · split
    · exact .done _
    · split
      · refine .bind (Yields.mapM number _) fun parts => ?_
        exact .bind ((sixtiesFrom_raises 1 0.0 parts.reverse).within (by decide)) fun _ => .done _
      · exact .bind (number _) fun _ => .done _

theorem checkedDay_raises (year month day : Nat) : Raises (checkedDay year month day) [.value] := by
  unfold checkedDay
  split_ifs
  · exact .fails (by decide)
  · exact .fails (by decide)
  · exact .fails (by decide)
  · exact .done _

theorem checkedZone_raises (zone : ZoneText) : Raises (checkedZone zone) [.value] := by
  unfold checkedZone
  extract_lets size ahead
  -- How large the offset is does not matter here, and is not worth computing.
  clear_value size ahead
  exact Yields.ite (fun _ => .done trivial) fun _ => .fails (List.mem_singleton.mpr rfl)

theorem stamp_raises (stamp : StampText) : Raises stamp.read [.value] := by
  have day := checkedDay_raises (decimalValue stamp.year) (decimalValue stamp.month) (decimalValue stamp.day)
  unfold StampText.read
  dsimp only
  split
  · exact .bind day fun _ => .done _
  next time _ =>
    refine .bind (Yields.mapM? checkedZone_raises time.zone) fun _ => .bind day fun _ => ?_
    split
    · exact .fails (by decide)
    · split
      · exact .fails (by decide)
      · split
        · exact .fails (by decide)
        · exact .done _

theorem readStamp_raises (text : List Char) : Raises (readStamp text) (faultKinds "timestamp") := by
  unfold readStamp
  split
  · exact (stamp_raises _).within (by decide)
  · exact .fails (by decide)

theorem readBool_raises (text : List Char) : Raises (readBool text) (faultKinds "bool") := by
  unfold readBool
  dsimp only
  split
  · exact .done _
  · split
    · exact .done _
    · exact .fails (List.mem_singleton.mpr rfl)

theorem readBytes_raises (text : List Char) : Raises (readBytes text) (faultKinds "binary") := by
  unfold readBytes
  split
  · exact .fails (by decide)
  · split
    · exact .done _
    · exact .fails (by decide)

/-- A text that does not fit its tag fails with a fault of a kind that belongs to the tag. -/
theorem readScalar_raises (name : String) (text : List Char) : Raises (readScalar name text) (faultKinds name) := by
  unfold readScalar
  split
  · exact .done _
  · exact (readBool_raises text).map fun _ _ => trivial
  · exact (readInteger_raises text).map fun _ _ => trivial
  · exact readNumber_raises text
  · exact (readBytes_raises text).map fun _ _ => trivial
  · exact readStamp_raises text
  · exact .done _
  next =>
    have kinds : faultKinds name = [.document] := by
      unfold faultKinds
      split <;> first | contradiction | rfl
    rw [kinds]
    exact .fails (by decide)

end Interaction.Document
