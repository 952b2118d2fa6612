import Mathlib.Data.Bool.AllAny
import Interaction.Proofs.Decoding

/-! The pages of a text that is stored as its encoding. In whatever portions the bytes are read, the pages hold the text
with its line ends unified, unless it has characters that no document may hold. -/

namespace Interaction

namespace Text

theorem unifyBreaks_append {cs ds : List Char} (uncut : cs.getLast? ≠ some '\r' ∨ ds.head? ≠ some '\n') :
    unifyBreaks (cs ++ ds) = unifyBreaks cs ++ unifyBreaks ds := by
  induction cs using unifyBreaks.induct with
  | case1 rest ih =>
    have uncut : rest.getLast? ≠ some '\r' ∨ ds.head? ≠ some '\n' := by
      refine uncut.imp_left fun last => ?_
      cases rest with
      | nil => nofun
      | cons c rest => simpa using last
    simp only [List.cons_append, unifyBreaks, ih uncut]
  | case2 rest single ih =>
    cases rest with
    | nil =>
      cases ds with
      | nil => rfl
      | cons d ds =>
        have other : d ≠ '\n' := by simpa using uncut
        simp [unifyBreaks, other]
    | cons c rest =>
      have other : c ≠ '\n' := fun same => single rest (by rw [same])
      simpa [unifyBreaks, other] using ih (by simpa using uncut)
  | case3 c rest plain lone ih =>
    have other : c ≠ '\r' := fun same => lone same
    have uncut : rest.getLast? ≠ some '\r' ∨ ds.head? ≠ some '\n' := by
      refine uncut.imp_left fun last => ?_
      cases rest with
      | nil => nofun
      | cons c rest => simpa using last
    simp [unifyBreaks, other, ih uncut]
  | case4 => rfl

theorem unifyBreaks_cons {c : Char} (other : c ≠ '\r') (cs : List Char) : unifyBreaks (c :: cs) = c :: unifyBreaks cs := by
  simp [unifyBreaks, other]

theorem unifyBreaks_all {p : Char → Bool} (feed : p '\n' = true) (carriage : p '\r' = true) (cs : List Char) :
    (unifyBreaks cs).all p = cs.all p := by
  induction cs using unifyBreaks.induct with
  | case1 rest ih => simp only [unifyBreaks, List.all_cons, ih, feed, carriage, Bool.true_and]
  | case2 rest single ih => simp only [unifyBreaks, List.all_cons, ih, feed, carriage]
  | case3 c rest plain lone ih => simp only [unifyBreaks_cons lone, List.all_cons, ih]
  | case4 => rfl

theorem encoding_eq_nil {cs : List Char} (none : encoding cs = []) : cs = [] := by
  cases cs with
  | nil => rfl
  | cons c cs =>
    obtain ⟨b, tail, encoded, -⟩ := encoded_char c
    rw [encoding_cons, encoded] at none
    cases none

theorem decodeSome_final {bytes left : List UInt8} {found : List Char}
    (decoded : decodeSome bytes true = .ok (found, left)) : left = [] := by
  unfold decodeSome at decoded
  cases part : decodePart 0 bytes.length bytes with
  | error fault => rw [part] at decoded; cases decoded
  | ok result =>
    obtain ⟨chars, rest⟩ := result
    rw [part] at decoded
    cases rest with
    | nil => cases decoded; rfl
    | cons b rest => cases decoded

namespace Reader

variable {r : Reader} {text : List Char}

/-- A carriage return that is held back. -/
def heldBack (held : Bool) : List Char :=
  if held then ['\r'] else []

/-- A reader still has a text to give. -/
def Owes (r : Reader) (text : List Char) : Prop :=
  ∃ cs, r.left ++ r.bytes = encoding cs ∧ text = r.ready ++ unifyBreaks (heldBack r.held ++ cs)

theorem owes_encoding (cs : List Char) : ({ bytes := encoding cs } : Reader).Owes (unifyBreaks cs) :=
  ⟨cs, rfl, rfl⟩

/-- Taking in characters keeps what is ready and what is held back together. -/
theorem accept_owes (r : Reader) (found more : List Char) {final : Bool} (last : final = true → more = []) :
    unifyBreaks (heldBack r.held ++ (found ++ more)) =
      (r.accept found final).1 ++ unifyBreaks (heldBack (r.accept found final).2 ++ more) := by
  unfold accept
  dsimp only
  by_cases idle : r.held = true ∧ found = [] ∧ final = false
  · obtain ⟨held, rfl, rfl⟩ := idle
    simp [held, unifyBreaks]
  have whole : (if r.held && (final || !found.isEmpty) then '\r' :: found else found) = heldBack r.held ++ found := by
    cases held : r.held with
    | false => rfl
    | true => cases final <;> cases found <;> simp_all [heldBack]
  have begun : (r.held && (heldBack r.held ++ found).isEmpty) = false := by
    cases r.held <;> rfl
  rw [whole, begun, ← List.append_assoc, Bool.false_or]
  generalize heldBack r.held ++ found = taken
  split
  next back =>
    have back : final = false ∧ taken.getLast? = some '\r' := by simpa using back
    obtain ⟨begun, rfl⟩ := List.getLast?_eq_some_iff.mp back.2
    have apart : unifyBreaks (begun ++ '\r' :: more) = unifyBreaks begun ++ unifyBreaks ('\r' :: more) :=
      unifyBreaks_append (.inr (by simp))
    simpa [back.1, heldBack] using apart
  next kept =>
    have uncut : taken.getLast? ≠ some '\r' ∨ more.head? ≠ some '\n' := by
      cases final with
      | false => exact .inl (by simpa using kept)
      | true => exact .inr (by simp [last rfl])
    simpa [kept, heldBack] using unifyBreaks_append uncut

/-- A portion is decoded without fault and leaves the same text to be given. -/
theorem portion_owes (count : Nat) (waits : r.ready = []) (owes : r.Owes text) :
    ∃ after, r.portion count = .ok after ∧ after.Owes text ∧ after.bytes.length ≤ r.bytes.length - 1 ∧
      (r.bytes = [] → after.bytes = [] ∧ after.left = [] ∧ after.held = false) := by
  obtain ⟨cs, encoded, rfl⟩ := owes
  have begins : (r.left ++ r.bytes.take (r.portionFor count)) ++ r.bytes.drop (r.portionFor count) = encoding cs := by
    rw [List.append_assoc, List.take_append_drop, encoded]
  obtain ⟨found, more, left, decoded, rfl, goes⟩ := decodeSome_encoding begins portion_final
  have last (final : (r.bytes.take (r.portionFor count)).isEmpty = true) : left = [] ∧ more = [] := by
    rw [final] at decoded
    cases decodeSome_final decoded
    rw [portion_final final] at goes
    exact ⟨rfl, encoding_eq_nil goes.symm⟩
  have some : 0 < r.portionFor count := Nat.lt_of_lt_of_le (by decide) (Nat.le_max_left portionSize _)
  have remains : r.bytes.drop (r.bytes.take (r.portionFor count)).length = r.bytes.drop (r.portionFor count) := by
    rw [List.length_take, ← List.drop_eq_drop_min]
  unfold portion
  simp only [decoded, remains]
  refine ⟨_, rfl, ⟨more, goes, ?_⟩, ?_, fun ended => ?_⟩
  · rw [waits, List.nil_append]
    exact accept_owes r found more fun final => (last final).2
  · simp only [List.length_drop]; omega
  · have final : (r.bytes.take (r.portionFor count)).isEmpty = true := by rw [ended, List.take_nil]; rfl
    refine ⟨by simp [ended], (last final).1, ?_⟩
    cases held : r.held <;> simp [accept, final, held]

/-- A reader whose bytes are all decoded. -/
structure Spent (r : Reader) : Prop where
  bytes : r.bytes = []
  left : r.left = []
  held : r.held = false

theorem Spent.owes (spent : r.Spent) : r.Owes r.ready :=
  ⟨[], by rw [spent.left, spent.bytes]; rfl, by simp [spent.held, heldBack, unifyBreaks]⟩

theorem Owes.eq_ready (owes : r.Owes text) (spent : r.Spent) : text = r.ready := by
  obtain ⟨cs, encoded, rfl⟩ := owes
  rw [spent.left, spent.bytes] at encoded
  cases encoding_eq_nil encoded.symm
  simp [spent.held, heldBack, unifyBreaks]

theorem Owes.drop {count : Nat} (owes : r.Owes text) (enough : count ≤ r.ready.length) :
    Owes { r with ready := r.ready.drop count } (text.drop count) := by
  obtain ⟨cs, encoded, rfl⟩ := owes
  exact ⟨cs, encoded, by rw [List.drop_append_of_le_length enough]⟩

theorem take_spent {fuel : Nat} (count : Nat) (spent : r.Spent) :
    ∃ after, r.take count (fuel + 1) = .ok (r.ready.take count, after) ∧ after.Owes (r.ready.drop count) := by
  unfold take
  dsimp only
  by_cases enough : count ≤ r.ready.length
  · rw [if_pos (by simp; omega)]
    exact ⟨_, rfl, spent.owes.drop enough⟩
  · have none : r.ready.drop count = [] := List.drop_eq_nil_of_le (by omega)
    have waits : Spent { r with ready := [] } := ⟨spent.bytes, spent.left, spent.held⟩
    obtain ⟨after, portion, owes, -, ended⟩ :=
      portion_owes (r := { r with ready := [] }) (count - (r.ready.take count).length) rfl waits.owes
    obtain ⟨bytes, left, held⟩ := ended spent.bytes
    rw [if_neg (by simp; omega), none, portion]
    have empty : after.ready = [] := (owes.eq_ready ⟨bytes, left, held⟩).symm
    simp only [bind, Except.bind, spent.bytes, empty, List.isEmpty_nil, Bool.and_self, if_true]
    exact ⟨_, rfl, owes⟩

/-- Reading gives the characters that come next, and leaves the others to be given. -/
theorem take_owes {fuel : Nat} (count : Nat) (owes : r.Owes text) (enough : r.bytes.length + 2 ≤ fuel) :
    ∃ after, r.take count fuel = .ok (text.take count, after) ∧ after.Owes (text.drop count) := by
  -- A portion leaves fewer bytes. The fuel is two more than these, since a reader finds out in one more round that
  -- it has read them all.
  induction fuel generalizing r text count with
  | zero => omega
  | succ fuel ih =>
    unfold take
    dsimp only
    obtain ⟨cs, encoded, rfl⟩ := owes
    by_cases stocked : count ≤ r.ready.length
    · rw [if_pos (by simp; omega), List.take_append_of_le_length stocked]
      exact ⟨_, rfl, Owes.drop ⟨cs, encoded, rfl⟩ stocked⟩
    · have none : r.ready.drop count = [] := List.drop_eq_nil_of_le (by omega)
      have all : r.ready.take count = r.ready := List.take_of_length_le (by omega)
      have waits : Owes { r with ready := [] } (unifyBreaks (heldBack r.held ++ cs)) := ⟨cs, encoded, rfl⟩
      generalize unifyBreaks (heldBack r.held ++ cs) = further at waits ⊢
      obtain ⟨after, portion, owes, fewer, ended⟩ := portion_owes (count - r.ready.length) rfl waits
      rw [if_neg (by simp; omega), none, all, portion, List.take_append, all, List.drop_append, none, List.nil_append]
      simp only [bind, Except.bind]
      split
      next spent =>
        obtain ⟨noBytes, noReady⟩ : r.bytes = [] ∧ after.ready = [] := by simpa using spent
        obtain ⟨bytes, left, held⟩ := ended noBytes
        have nothing : further = [] := (owes.eq_ready ⟨bytes, left, held⟩).trans noReady
        exact ⟨after, by simp [nothing]; rfl, by simpa [nothing] using owes⟩
      next =>
        have goes : ∃ last, after.take (count - r.ready.length) fuel = .ok (further.take (count - r.ready.length), last) ∧
            last.Owes (further.drop (count - r.ready.length)) := by
          cases bytes : r.bytes with
          | nil =>
            obtain ⟨noBytes, left, held⟩ := ended bytes
            have spent : after.Spent := ⟨noBytes, left, held⟩
            cases fuel with
            | zero => omega
            | succ fuel => exact owes.eq_ready spent ▸ take_spent _ spent
          | cons b bytes =>
            refine ih _ owes ?_
            simp_all only [List.length_cons]
            omega
        obtain ⟨last, taken, owes⟩ := goes
        exact ⟨last, by rw [taken]; rfl, owes⟩

theorem read_owes (count : Nat) (owes : r.Owes text) :
    ∃ after, r.read count = .ok (text.take count, after) ∧ after.Owes (text.drop count) :=
  take_owes count owes (by omega)

end Reader

end Text

namespace Document.Pages

variable {r : Text.Reader} {text : List Char}

/-- The pages from one on hold the text up to its end, or stop at a page that is not allowed. -/
theorem ofText_pages (found : List Char) (fuel : Nat) (owes : r.Owes text) (last : found.length < size → text = [])
    (enough : found.length + text.length < size * fuel) :
    ((found ++ text).all isAllowed = true → ofText found r fuel = { text := found ++ text }) ∧
      ((found ++ text).all isAllowed = false → (ofText found r fuel).beyond ≠ none) := by
  induction fuel generalizing r found text with
  | zero => omega
  | succ fuel ih =>
    unfold ofText
    cases allowed : found.all isAllowed with
    | false => simp [allowed]
    | true =>
      by_cases short : found.length < size
      · simp [last short, allowed, short]
      · obtain ⟨after, read, owes⟩ := r.read_owes size owes
        have goes := ih (text.take size) owes (fun short => List.drop_eq_nil_of_le (by
          rw [List.length_take] at short; omega)) (by
          rw [List.length_take, List.length_drop]; rw [Nat.mul_succ] at enough; omega)
        rw [List.take_append_drop] at goes
        simp only [List.all_append, allowed, Bool.true_and, Bool.not_true, Bool.false_eq_true, if_false, short, read]
        exact ⟨fun sound => by rw [goes.1 sound], goes.2⟩

theorem unifyBreaks_length (cs : List Char) : (Text.unifyBreaks cs).length ≤ (Text.encoding cs).length := by
  have one (c : Char) : 1 ≤ (String.utf8EncodeChar c).length := by
    rw [String.length_utf8EncodeChar]; exact c.utf8Size_pos
  induction cs using Text.unifyBreaks.induct with
  | case1 rest ih =>
    have := one '\r'
    simp only [Text.unifyBreaks, Text.encoding_cons, List.length_cons, List.length_append]
    omega
  | case2 rest single ih =>
    have := one '\r'
    simp only [Text.unifyBreaks, Text.encoding_cons, List.length_cons, List.length_append]
    omega
  | case3 c rest plain lone ih =>
    have := one c
    simp only [Text.unifyBreaks_cons lone, Text.encoding_cons, List.length_cons, List.length_append]
    omega
  | case4 => exact Nat.zero_le _

/-- The pages of an encoded text hold the text, or stop at a page that is not allowed. -/
theorem ofBytes_pages (cs : List Char) :
    (cs.all isAllowed = true → ofBytes (Text.encoding cs) = { text := Text.unifyBreaks cs }) ∧
      (cs.all isAllowed = false → (ofBytes (Text.encoding cs)).beyond ≠ none) := by
  have allowed : cs.all isAllowed = (Text.unifyBreaks cs).all isAllowed :=
    (Text.unifyBreaks_all (by decide) (by decide) cs).symm
  rw [allowed]
  have fewer := unifyBreaks_length cs
  have owes := Text.Reader.owes_encoding cs
  generalize Text.unifyBreaks cs = text at fewer owes ⊢
  obtain ⟨r, first, owes⟩ := Text.Reader.read_owes size owes
  obtain ⟨after, second, owes⟩ := r.read_owes size owes
  have pages := ofText_pages (text.take size ++ (text.drop size).take size) ((Text.encoding cs).length / size + 2) owes
    (fun short => ?_) ?_
  · rw [List.append_assoc, List.take_append_drop, List.take_append_drop] at pages
    unfold ofBytes
    simp only [bind, Except.bind, first, second]
    exact pages
  · simp only [List.length_append, List.length_take, List.length_drop] at short
    exact List.drop_eq_nil_of_le (by rw [List.length_drop]; omega)
  · have whole := Nat.div_add_mod (Text.encoding cs).length size
    have part := Nat.mod_lt (Text.encoding cs).length (show 0 < size by decide)
    simp only [List.length_append, List.length_take, List.length_drop, Nat.mul_add]
    omega

end Document.Pages

end Interaction
