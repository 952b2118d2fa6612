import Mathlib.Tactic.SplitIfs
import Interaction.Document.Page
import Interaction.Proofs.Yielding

/-! Bytes that are the encoding of a text are decoded to that text, in whatever portions they are read. So
no page of a document fails to be decoded unless the bytes are no encoding of any text. -/

namespace Interaction

namespace Text

/-- The bytes of characters, one after the other. -/
def encoding (cs : List Char) : List UInt8 :=
  cs.flatMap String.utf8EncodeChar

/-- Bytes that go on with a character. The first of them lies between `low` and `high`. -/
def Continues (low high : Nat) : List UInt8 → Prop
  | [] => True
  | b :: rest => (low ≤ b.toNat ∧ b.toNat ≤ high) ∧ Continues 0x80 0xBF rest

/-- A first byte, and the bytes that it announces. -/
def Announces (b : UInt8) (tail : List UInt8) : Prop :=
  ∃ low high, sequenceOf? b = some (tail.length + 1, low, high) ∧ Continues low high tail

theorem announces_one {b : UInt8} (first : b.toNat < 0x80) : Announces b [] :=
  ⟨0, 0, by simp only [sequenceOf?, if_pos first, List.length_nil], trivial⟩

theorem announces_two {b x : UInt8} (first : 0xC2 ≤ b.toNat ∧ b.toNat < 0xE0)
    (more : Continues 0x80 0xBF [x]) : Announces b [x] := by
  refine ⟨0x80, 0xBF, ?_, more⟩
  simp only [sequenceOf?, if_neg (show ¬ b.toNat < 0x80 by omega), if_neg (show ¬ b.toNat < 0xC2 by omega),
    if_pos first.2, List.length_singleton]

theorem announces_three {b x y : UInt8} (first : 0xE0 ≤ b.toNat ∧ b.toNat < 0xF0)
    (least : b.toNat = 0xE0 → 0xA0 ≤ x.toNat) (most : b.toNat = 0xED → x.toNat ≤ 0x9F)
    (more : Continues 0x80 0xBF [x, y]) : Announces b [x, y] := by
  simp only [Announces, sequenceOf?, if_neg (show ¬ b.toNat < 0x80 by omega),
    if_neg (show ¬ b.toNat < 0xC2 by omega), if_neg (show ¬ b.toNat < 0xE0 by omega), if_pos first.2]
  obtain ⟨second, third⟩ := more
  split_ifs with lowest highest
  · exact ⟨0xA0, 0xBF, rfl, ⟨least lowest, second.2⟩, third⟩
  · exact ⟨0x80, 0x9F, rfl, ⟨second.1, most highest⟩, third⟩
  · exact ⟨0x80, 0xBF, rfl, second, third⟩

theorem announces_four {b x y z : UInt8} (first : 0xF0 ≤ b.toNat ∧ b.toNat < 0xF5)
    (least : b.toNat = 0xF0 → 0x90 ≤ x.toNat) (most : b.toNat = 0xF4 → x.toNat ≤ 0x8F)
    (more : Continues 0x80 0xBF [x, y, z]) : Announces b [x, y, z] := by
  simp only [Announces, sequenceOf?, if_neg (show ¬ b.toNat < 0x80 by omega), if_neg (show ¬ b.toNat < 0xC2 by omega),
    if_neg (show ¬ b.toNat < 0xE0 by omega), if_neg (show ¬ b.toNat = 0xE0 by omega),
    if_neg (show ¬ b.toNat = 0xED by omega), if_neg (show ¬ b.toNat < 0xF0 by omega)]
  obtain ⟨second, further⟩ := more
  split_ifs with lowest middle highest
  · exact ⟨0x90, 0xBF, rfl, ⟨least lowest, second.2⟩, further⟩
  · exact ⟨0x80, 0xBF, rfl, second, further⟩
  · exact ⟨0x80, 0x8F, rfl, ⟨second.1, most highest⟩, further⟩
  · omega

theorem encoded_char (c : Char) : ∃ b tail, String.utf8EncodeChar c = b :: tail ∧ Announces b tail ∧
    codePoint (b :: tail) = c.toNat := by
  have valid : c.toNat < 0xD800 ∨ (0xDFFF < c.toNat ∧ c.toNat < 0x110000) := c.valid
  have value : c.val.toNat = c.toNat := rfl
  unfold String.utf8EncodeChar
  simp only [value]
  generalize c.toNat = n at valid
  split
  next one => exact ⟨_, _, rfl, announces_one (by simp; omega), by simp [codePoint]; omega⟩
  next =>
  split
  next two =>
    exact ⟨_, _, rfl, announces_two (by simp; omega) (by simp [Continues]; omega), by simp [codePoint]; omega⟩
  next =>
  split
  next three =>
    exact ⟨_, _, rfl, announces_three (by simp; omega) (by simp; omega) (by simp; omega) (by simp [Continues]; omega),
      by simp [codePoint]; omega⟩
  next =>
    exact ⟨_, _, rfl, announces_four (by simp; omega) (by simp; omega) (by simp; omega) (by simp [Continues]; omega),
      by simp [codePoint]; omega⟩

variable {low high count fuel : Nat} {tail rest part bytes unread : List UInt8} {cs : List Char}

theorem following_whole (continues : Continues low high tail) (rest : List UInt8) :
    following low high tail.length (tail ++ rest) = tail.length := by
  induction tail generalizing low high with
  | nil => simp [following]
  | cons b tail ih =>
    have inside : (low ≤ b.toNat && b.toNat ≤ high) = true := by simpa using continues.1
    simp only [List.length_cons, List.cons_append, following, if_pos inside, ih continues.2]

theorem following_part (continues : Continues low high (part ++ tail)) (few : part.length ≤ count) :
    following low high count part = part.length := by
  induction part generalizing low high count with
  | nil => cases count <;> rfl
  | cons b part ih =>
    have inside : (low ≤ b.toNat && b.toNat ≤ high) = true := by simpa using continues.1
    cases count with
    | zero => simp at few
    | succ count =>
      simp only [List.length_cons, following, if_pos inside, ih continues.2 (by simpa using few)]

theorem encoding_cons (c : Char) (cs : List Char) : encoding (c :: cs) = String.utf8EncodeChar c ++ encoding cs :=
  List.flatMap_cons

/-- Of two splits of the same bytes, the first comes after the second or before it. -/
theorem append_meets {left right : List UInt8} (same : bytes ++ right = part ++ left) :
    (∃ later, bytes = part ++ later ∧ later ++ right = left) ∨
      ∃ next more, part = bytes ++ next :: more ∧ right = next :: more ++ left := by
  obtain ⟨more, rfl, rfl⟩ | ⟨later, rfl, rfl⟩ := List.append_eq_append_iff.mp same
  · cases more with
    | nil => exact Or.inl ⟨[], by simp, rfl⟩
    | cons next more => exact Or.inr ⟨next, more, rfl, rfl⟩
  · exact Or.inl ⟨later, rfl, rfl⟩

/-- If bytes are the beginning of an encoded text, they are decoded to the beginning of the text. What is left
of them belongs to the next character, and goes on in the bytes that come after. -/
theorem decodePart_encoding (position : Nat) (begins : bytes ++ unread = encoding cs) (enough : bytes.length ≤ fuel) :
    ∃ found more left, decodePart position fuel bytes = .ok (found, left) ∧ cs = found ++ more ∧
      left ++ unread = encoding more ∧ (unread = [] → left = []) := by
  induction fuel generalizing position bytes cs with
  | zero =>
    cases List.length_eq_zero_iff.mp (Nat.le_zero.mp enough)
    exact ⟨[], cs, [], rfl, rfl, begins, fun _ => rfl⟩
  | succ fuel ih =>
    cases bytes with
    | nil => exact ⟨[], cs, [], rfl, rfl, begins, fun _ => rfl⟩
    | cons b rest =>
      cases cs with
      | nil => cases begins
      | cons c cs =>
        obtain ⟨first, tail, encoded, ⟨low, high, announced, continues⟩, point⟩ := encoded_char c
        rw [encoding_cons, encoded, List.cons_append, List.cons_append, List.cons.injEq] at begins
        obtain ⟨rfl, begins⟩ := begins
        simp only [decodePart, announced, Nat.add_sub_cancel]
        obtain ⟨later, rfl, further⟩ | ⟨next, part, rfl, rfl⟩ := append_meets begins
        · have fewer : later.length ≤ fuel := by simp only [List.length_cons, List.length_append] at enough; omega
          obtain ⟨found, more, left, decoded, rfl, goes, last⟩ := ih _ further fewer
          refine ⟨c :: found, more, left, ?_, rfl, goes, last⟩
          rw [following_whole continues, if_pos rfl, List.drop_left, List.take_left, decoded, point, Char.ofNat_toNat]
          rfl
        · have few : (rest ++ next :: part).length = rest.length + part.length + 1 := by simp; omega
          refine ⟨[], c :: cs, b :: rest, ?_, rfl, ?_, nofun⟩
          · rw [following_part continues (by omega), if_neg (by omega), if_pos rfl]
          · rw [encoding_cons, encoded]
            simp

theorem decodeSome_encoding {final : Bool} (begins : bytes ++ unread = encoding cs)
    (whole : final = true → unread = []) :
    ∃ found more left, decodeSome bytes final = .ok (found, left) ∧ cs = found ++ more ∧
      left ++ unread = encoding more := by
  obtain ⟨found, more, left, decoded, same, goes, last⟩ :=
    decodePart_encoding 0 begins (Nat.le_refl bytes.length)
  refine ⟨found, more, left, ?_, same, goes⟩
  unfold decodeSome
  rw [decoded]
  cases final with
  | false => rfl
  | true => rw [last (whole rfl)]; rfl

namespace Reader

/-- What is still to be decoded is the encoding of a text. -/
def Sound (r : Reader) : Prop :=
  ∃ cs, r.left ++ r.bytes = encoding cs

/-- Faults of bytes that are no text. -/
def Unsound (r : Reader) (fault : Fault) : Prop :=
  (∃ d, fault = .decoding d) ∧ ¬ r.Sound

variable {r : Reader}

theorem portion_final {count : Nat} (final : (r.bytes.take (r.portionFor count)).isEmpty = true) :
    r.bytes.drop (r.portionFor count) = [] := by
  have some : 0 < r.portionFor count := Nat.lt_of_lt_of_le (by decide) (Nat.le_max_left portionSize _)
  rcases List.take_eq_nil_iff.mp (List.isEmpty_iff.mp final) with none | empty
  · omega
  · rw [empty, List.drop_nil]

theorem portion_sound (r : Reader) (count : Nat) :
    Yields (r.portion count) (fun after => r.Sound → after.Sound) r.Unsound := by
  have decodes : r.Sound → ∃ found left more, decodeSome (r.left ++ r.bytes.take (r.portionFor count))
      (r.bytes.take (r.portionFor count)).isEmpty = .ok (found, left) ∧
        left ++ r.bytes.drop (r.portionFor count) = encoding more := by
    rintro ⟨cs, sound⟩
    have begins : (r.left ++ r.bytes.take (r.portionFor count)) ++ r.bytes.drop (r.portionFor count) = encoding cs := by
      rw [List.append_assoc, List.take_append_drop, sound]
    obtain ⟨found, more, left, decoded, -, goes⟩ := decodeSome_encoding begins portion_final
    exact ⟨found, left, more, decoded, goes⟩
  unfold portion
  simp only
  split
  next fault failed =>
    refine .fails ⟨⟨fault, rfl⟩, fun sound => ?_⟩
    obtain ⟨found, left, more, decoded, -⟩ := decodes sound
    cases failed.symm.trans decoded
  next found left decoded =>
    refine .done fun sound => ?_
    obtain ⟨found', left', more, decoded', goes⟩ := decodes sound
    cases decoded.symm.trans decoded'
    exact ⟨more, by rw [List.length_take, ← List.drop_eq_drop_min, goes]⟩

theorem Unsound.before {after : Reader} (sound : r.Sound → after.Sound) {fault : Fault} (unsound : after.Unsound fault) :
    r.Unsound fault :=
  ⟨unsound.1, fun before => unsound.2 (sound before)⟩

/-- Reading fails only on bytes that are no text, and leaves a text where there was one. -/
theorem take_sound (r : Reader) (count fuel : Nat) :
    Yields (r.take count fuel) (fun result => r.Sound → result.2.Sound) r.Unsound := by
  induction fuel generalizing r count with
  | zero => exact .done fun sound => sound
  | succ fuel ih =>
    unfold take
    simp only
    split
    · exact .done fun sound => sound
    · refine .bind (portion_sound _ _) fun after sound => ?_
      split
      · exact .done sound
      · exact .bind ((ih after _).mono (fun _ further before => further (sound before)) fun _ => .before sound)
          fun _ further => .done further

theorem read_sound (r : Reader) (count : Nat) :
    Yields (r.read count) (fun result => r.Sound → result.2.Sound) r.Unsound :=
  take_sound r count _

end Reader

theorem sound_of_valid {bytes : List UInt8} (valid : bytes.toByteArray.IsValidUTF8) :
    ({ bytes } : Reader).Sound := by
  obtain ⟨cs, same⟩ := valid
  refine ⟨cs, ?_⟩
  rw [List.nil_append, ← List.toList_data_toByteArray (l := bytes), same, List.utf8Encode, List.toList_data_toByteArray]
  rfl

end Text

namespace Document.Pages

theorem ofText_beyond {r : Text.Reader} {found : List Char} {fuel : Nat} {fault : Fault}
    (met : (ofText found r fuel).beyond = some fault) : fault = .badDocument ∨ r.Unsound fault := by
  induction fuel generalizing found r with
  | zero => cases met
  | succ fuel ih =>
    unfold ofText at met
    split at met
    next => exact Or.inl (Option.some.inj met).symm
    next =>
      split at met
      next => cases met
      next =>
        have reads := r.read_sound size
        split at met
        next failed =>
          cases met
          exact Or.inr (reads.error failed)
        next read => exact (ih met).imp_right (.before (reads.ok read))

/-- A page that cannot be read holds characters that no document may hold, unless the bytes encode no text. -/
theorem ofBytes_beyond {bytes : List UInt8} {fault : Fault} (met : (ofBytes bytes).beyond = some fault) :
    fault = .badDocument ∨ (∃ d, fault = .decoding d) ∧ ¬ bytes.toByteArray.IsValidUTF8 := by
  have reads : Yields (Text.Reader.read { bytes } size >>= fun first => first.2.read size >>= fun second =>
      pure (first.1 ++ second.1, second.2))
      (fun result => ({ bytes } : Text.Reader).Sound → result.2.Sound) (Text.Reader.Unsound { bytes }) := by
    refine (Text.Reader.read_sound _ _).bind fun first sound => ?_
    refine Yields.bind (.mono (Text.Reader.read_sound _ _) (fun _ further before => further (sound before)) ?_) ?_
    · exact fun _ => .before sound
    · exact fun second further => .done further
  have unsound : Text.Reader.Unsound { bytes } fault → (∃ d, fault = .decoding d) ∧ ¬ bytes.toByteArray.IsValidUTF8 :=
    fun unsound => ⟨unsound.1, fun valid => unsound.2 (Text.sound_of_valid valid)⟩
  unfold ofBytes at met
  simp only at met
  split at met
  next failed =>
    cases met
    exact Or.inr (unsound (reads.error failed))
  next read => exact (ofText_beyond met).imp_right fun later => unsound (later.before (reads.ok read))

end Document.Pages

end Interaction
