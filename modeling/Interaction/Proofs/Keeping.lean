import Interaction.Proofs.Nesting
import Interaction.Reference

/-! A value is kept from one store to another if all containers in it hold what they held.
Then whatever is read in it is read as before. -/

namespace Interaction

/-- What a container holds, keys apart. -/
def Cell.values : Cell → List Value
  | .list items => items
  | .map entries => entries.map (·.2)
  | .set items => items

namespace Store

/-- Whether a value is met in another one, at any depth. -/
inductive Contains (s : Store) : Value → Value → Prop where
  | self (v : Value) : Contains s v v
  | item {items : List Value} {v w : Value} (member : v ∈ items) (below : Contains s v w) : Contains s (.tuple items) w
  | value {outer v w : Value} {cell : Cell} (held : s.cell? outer = some cell) (member : v ∈ cell.values)
      (below : Contains s v w) : Contains s outer w

/-- Whether all containers in a value hold in `t` what they hold in `s`. -/
def Keeps (s t : Store) (v : Value) : Prop :=
  ∀ w, s.Contains v w → t.cell? w = s.cell? w

variable {s t : Store} {v : Value}

theorem keeps_refl (s : Store) (v : Value) : s.Keeps s v :=
  fun _ _ => rfl

theorem keeps_scalar (s t : Store) (x : Scalar) : s.Keeps t (.scalar x) := by
  intro w contains
  cases contains with
  | self => rfl
  | value held => cases held

namespace Keeps

theorem cell (kept : s.Keeps t v) : t.cell? v = s.cell? v :=
  kept v (.self v)

theorem value (kept : s.Keeps t v) {cell : Cell} (held : s.cell? v = some cell) {w : Value} (member : w ∈ cell.values) :
    s.Keeps t w :=
  fun inner below => kept inner (.value held member below)

theorem entries (kept : s.Keeps t v) : t.entries? v = s.entries? v := by
  rw [entries?, entries?, kept.cell]

theorem isMapping (kept : s.Keeps t v) : t.isMapping v = s.isMapping v := by
  rw [Store.isMapping, Store.isMapping, kept.entries]

theorem get (kept : s.Keeps t v) (key : Value) : t.get v key = s.get v key := by
  rw [Store.get, Store.get, kept.entries]

theorem field (kept : s.Keeps t v) (name : String) : t.field v name = s.field v name :=
  kept.get _

theorem items (kept : s.Keeps t v) : t.items? v = s.items? v := by
  cases v with
  | tuple items => rfl
  | scalar x => rfl
  | ref place =>
    simp only [items?]
    rw [kept.cell]

theorem of_entries (kept : s.Keeps t v) {entries : Entries} (held : s.entries? v = some entries) {key w : Value}
    (found : entries.get? key = some w) : s.Keeps t w := by
  obtain ⟨entry, hit, rfl⟩ := Option.map_eq_some_iff.mp found
  have cell : s.cell? v = some (.map entries) := by
    unfold entries? at held
    split at held <;> cases held
    assumption
  exact kept.value cell (List.mem_map_of_mem (List.mem_of_find?_eq_some hit))

theorem of_get (kept : s.Keeps t v) (key : Value) : s.Keeps t (s.get v key) := by
  unfold Store.get
  cases held : s.entries? v with
  | none => exact keeps_scalar s t .null
  | some entries =>
    cases found : entries.get? key with
    | none => simpa [found] using keeps_scalar s t .null
    | some w => simpa [found] using kept.of_entries held found

theorem of_field (kept : s.Keeps t v) (name : String) : s.Keeps t (s.field v name) :=
  kept.of_get _

theorem of_items (kept : s.Keeps t v) {items : List Value} (held : s.items? v = some items) {w : Value}
    (member : w ∈ items) : s.Keeps t w := by
  cases v with
  | scalar x => cases held
  | tuple found => cases held; exact fun inner below => kept inner (.item member below)
  | ref place =>
    simp only [items?] at held
    split at held <;> cases held
    next cell => exact kept.value cell member

theorem source (kept : s.Keeps t v) : t.source v = s.source v := by
  rw [Store.source, Store.source, kept.items, kept.isMapping]

theorem mappedCalls (kept : s.Keeps t v) :
    t.mappedCalls v = s.mappedCalls v ∧ ∀ call ∈ s.mappedCalls v, s.Keeps t call := by
  rw [Store.mappedCalls, Store.mappedCalls, kept.items]
  cases held : s.items? v with
  | none => exact ⟨rfl, fun call member => by cases member⟩
  | some items =>
    simp only [Option.getD_some]
    refine ⟨List.filter_congr fun item member => (kept.of_items held member).isMapping, ?_⟩
    intro call member
    exact kept.of_items held (List.mem_filter.mp member).1

theorem mappedCall? (kept : s.Keeps t v) (index : Nat) : t.mappedCall? v index = s.mappedCall? v index := by
  rw [Store.mappedCall?, Store.mappedCall?, kept.items]
  cases held : s.items? v with
  | none => rfl
  | some items =>
    simp only [Option.getD_some]
    cases at_ : items[index]? with
    | none => rfl
    | some item =>
      have same := (kept.of_items held (List.mem_of_getElem? at_)).isMapping
      simp only [Option.filter_some, same]

theorem given (kept : s.Keeps t v) : ∀ call ∈ s.given v, s.Keeps t call := by
  intro call member
  rcases List.mem_append.mp member with first | mapped
  · rw [List.mem_singleton.mp (List.mem_filter.mp first).1]
    exact kept.of_field _
  · exact (kept.of_field _).mappedCalls.2 call mapped

theorem parts (kept : s.Keeps t v) : ∀ call ∈ s.parts v, s.Keeps t call := by
  intro call member
  rcases List.mem_append.mp member with first | last
  · exact kept.given call first
  · rw [List.mem_singleton.mp (List.mem_filter.mp last).1]
    exact kept.of_field _

theorem leads {inner : Value} (kept : s.Keeps t v) (leads : s.Leads v inner) : s.Keeps t inner := by
  induction leads with
  | self => exact kept
  | part member _ ih => exact ih (kept.parts _ member)

theorem kind (kept : s.Keeps t v) : t.kind v = s.kind v := by
  cases v with
  | ref place => simp only [Store.kind, kept.cell]
  | scalar x => rfl
  | tuple items => rfl

theorem step (kept : s.Keeps t v) (segment : List Char) :
    t.step v segment = s.step v segment ∧ ∀ w, s.step v segment = .ok w → s.Keeps t w := by
  rw [Store.step, Store.step, kept.entries, kept.items]
  refine ⟨rfl, ?_⟩
  intro w found
  split at found
  next entries held =>
    cases found
    cases hit : entries.get? (.text (String.ofList segment)) with
    | none => exact keeps_scalar s t .null
    | some w => exact kept.of_entries held hit
  next =>
    split at found
    · cases found; exact keeps_scalar s t .null
    next items held =>
      split at found
      · cases found; exact keeps_scalar s t .null
      · split at found
        · cases found
        · cases found
          cases hit : items[Text.numeralValue segment]? with
          | none => exact keeps_scalar s t .null
          | some w => exact kept.of_items held (List.mem_of_getElem? hit)

theorem follow (kept : s.Keeps t v) (segments : List (List Char)) : t.follow v segments = s.follow v segments := by
  induction segments generalizing v with
  | nil => rfl
  | cons segment rest ih =>
    simp only [Store.follow]
    split
    · rfl
    · obtain ⟨same, next⟩ := kept.step segment
      rw [same]
      cases found : s.step v segment with
      | error fault => rfl
      | ok w => exact ih (next w found)

/-- References into a data context that is kept stand for the same values. -/
theorem resolveItems (kept : s.Keeps t v) (params : List Value) : t.resolveItems v params = s.resolveItems v params := by
  have lookup (path : List Char) : t.lookup v path = s.lookup v path := by
    rw [Store.lookup, Store.lookup, kept.entries, kept.kind]
    obtain ⟨head, steps⟩ := Reference.segments path
    cases held : s.entries? v with
    | none => rfl
    | some entries =>
      cases hit : entries.get? (.text (String.ofList head)) with
      | none => simpa [hit] using (keeps_scalar s t .null).follow steps
      | some w => simpa [hit] using (kept.of_entries held hit).follow steps
  have resolve : t.resolve v = s.resolve v := by
    funext param
    unfold Store.resolve
    split
    · split
      · rfl
      · exact lookup _
    · rfl
  rw [Store.resolveItems, Store.resolveItems, resolve]

theorem truthy (kept : s.Keeps t v) : t.truthy v = s.truthy v := by
  cases v with
  | scalar x => rfl
  | tuple items => rfl
  | ref place => simp only [Store.truthy, kept.cell]

theorem members (kept : s.Keeps t v) : t.members? v = s.members? v := by
  cases v with
  | scalar x => cases x <;> rfl
  | tuple items => rfl
  | ref place => simp only [Store.members?, kept.cell]

theorem among {items : List Value} (kept : s.Keeps t (.tuple items)) : ∀ item ∈ items, s.Keeps t item :=
  fun _ member _ below => kept _ (.item member below)

mutual

theorem container {v : Value} (kept : s.Keeps t v) : t.container? v = s.container? v := by
  match v with
  | .scalar x => rfl
  | .tuple items => exact containerAmong kept.among
  | .ref place => simp only [Store.container?, kept.kind]

theorem containerAmong {items : List Value} (kept : ∀ item ∈ items, s.Keeps t item) :
    t.containerAmong? items = s.containerAmong? items := by
  match items with
  | [] => rfl
  | v :: rest =>
    have first := container (kept v (List.mem_cons_self ..))
    have last := containerAmong fun item member => kept item (List.mem_cons_of_mem v member)
    simp only [Store.containerAmong?, first, last]

end

theorem allM_congr {α : Type} {f g : α → Option Bool} {xs : List α} (same : ∀ x ∈ xs, f x = g x) :
    xs.allM f = xs.allM g := by
  induction xs with
  | nil => rfl
  | cons x xs ih =>
    simp only [List.allM, same x (List.mem_cons_self ..)]
    rw [ih fun y member => same y (List.mem_cons_of_mem x member)]

/-- Values that are kept agree as they did. -/
theorem agree {w : Value} (first : s.Keeps t v) (last : s.Keeps t w) (depth : Nat) :
    t.agree? depth v w = s.agree? depth v w := by
  -- What a comparison looks into are the values of the cells, which are kept along with the cells.
  induction depth generalizing v w with
  | zero => rfl
  | succ depth ih =>
    have items {xs ys : List Value} (firsts : ∀ x ∈ xs, s.Keeps t x) (lasts : ∀ y ∈ ys, s.Keeps t y) :
        ((xs.zip ys).allM fun pair => t.agree? depth pair.1 pair.2) =
          (xs.zip ys).allM fun pair => s.agree? depth pair.1 pair.2 := by
      apply allM_congr
      rintro ⟨x, y⟩ member
      obtain ⟨left, right⟩ := List.of_mem_zip member
      exact ih (firsts x left) (lasts y right)
    unfold Store.agree?
    cases v with
    | scalar x => cases w <;> rfl
    | tuple xs =>
      cases w with
      | tuple ys => simp only [items first.among last.among]
      | _ => rfl
    | ref p =>
      cases w with
      | ref q =>
        have held : t.cells[p]? = s.cells[p]? := first.cell
        have other : t.cells[q]? = s.cells[q]? := last.cell
        simp only [held, other]
        cases left : s.cells[p]? with
        | none => rfl
        | some cell =>
          cases right : s.cells[q]? with
          | none => cases cell <;> rfl
          | some cell' =>
            have below {v : Value} (member : v ∈ cell.values) : s.Keeps t v := first.value left member
            have below' {v : Value} (member : v ∈ cell'.values) : s.Keeps t v := last.value right member
            cases cell with
            | list xs =>
              cases cell' with
              | list ys =>
                dsimp only
                split
                · rfl
                · split
                  · exact items (fun _ => below) fun _ => below'
                  · rfl
              | _ => rfl
            | map xs =>
              cases cell' with
              | map ys =>
                dsimp only
                split
                · rfl
                · split
                  · apply allM_congr
                    rintro ⟨key, x⟩ member
                    have kept := below (List.mem_map_of_mem member)
                    dsimp only
                    cases found : ys.get? key with
                    | none => rfl
                    | some y =>
                      obtain ⟨entry, hit, rfl⟩ := Option.map_eq_some_iff.mp found
                      exact ih kept (below' (List.mem_map_of_mem (List.mem_of_find?_eq_some hit)))
                  · rfl
              | _ => rfl
            | set xs => cases cell' <;> rfl
      | _ => rfl

theorem equal {w : Value} (first : s.Keeps t v) (last : s.Keeps t w) : t.equal v w = s.equal v w := by
  rw [Store.equal, Store.equal, Store.agree, Store.agree, first.agree last]

end Keeps

/-- Whether no mapping has a key with a container in it. -/
def Keyed (s : Store) : Prop :=
  ∀ v entries, s.entries? v = some entries → ∀ entry ∈ entries, s.container? entry.1 = none

theorem container?_tuple {items : List Value} (free : s.container? (.tuple items) = none) :
    ∀ item ∈ items, s.container? item = none := by
  have each (items : List Value) (free : s.containerAmong? items = none) : ∀ item ∈ items, s.container? item = none := by
    induction items with
    | nil => simp
    | cons first rest ih =>
      obtain ⟨head, tail⟩ := Option.or_eq_none_iff.mp free
      exact List.forall_mem_cons.mpr ⟨head, ih tail⟩
  exact each items free

/-- A value without containers is kept by any store. -/
theorem keeps_free (t : Store) (free : s.container? v = none) : s.Keeps t v := by
  intro w contains
  induction contains with
  | self v =>
    cases v with
    | ref place => cases free
    | _ => rfl
  | item member _ ih => exact ih (container?_tuple free _ member)
  | @value outer _ _ cell held _ _ _ =>
    cases outer with
    | ref place => cases free
    | _ => cases held

/-- What a value that is kept yields is kept. -/
theorem Keeps.of_members (kept : s.Keeps t v) (keyed : s.Keyed) {members : List Value} (held : s.members? v = some members) :
    ∀ member ∈ members, s.Keeps t member := by
  have scalars {α : Type} (f : α → Scalar) (xs : List α) :
      ∀ member ∈ xs.map fun x => Value.scalar (f x), s.Keeps t member := by
    intro member among
    obtain ⟨x, _, rfl⟩ := List.mem_map.mp among
    exact keeps_scalar s t (f x)
  cases v with
  | scalar x =>
    cases x with
    | text text => cases held; exact scalars _ _
    | bytes bs => cases held; exact scalars _ _
    | _ => cases held
  | tuple items => cases held; exact kept.among
  | ref place =>
    simp only [members?] at held
    split at held <;> cases held
    next items cell => exact fun member => kept.value cell
    next entries cell =>
      intro member among
      obtain ⟨entry, isEntry, rfl⟩ := List.mem_map.mp among
      exact keeps_free t (keyed (.ref place) entries (by rw [entries?, cell]) entry isEntry)
    next items cell => exact fun member => kept.value cell

end Store

end Interaction
