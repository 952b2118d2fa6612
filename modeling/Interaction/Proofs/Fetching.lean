import Mathlib.Data.Bool.AllAny
import Interaction.Component.Load
import Interaction.Proofs.Exposing

/-! Loading components. A reference is split into the names of a home and of a member. What it names is taken in as it
is, or something is made from it. All that stands in the way of that is a fault of the component, but for a home whose
name begins with a point. -/

namespace Interaction

namespace Text

/-- What is left of a text without the blanks at its ends. -/
structure Trims (cs trimmed : List Char) : Prop where
  around : ∃ before after, cs = before ++ trimmed ++ after ∧ (∀ c ∈ before, isBlank c = true) ∧
    ∀ c ∈ after, isBlank c = true
  first : ∀ c, trimmed.head? = some c → isBlank c = false
  last : ∀ c, trimmed.getLast? = some c → isBlank c = false

theorem dropWhile_blanks {before rest : List Char} (blank : ∀ c ∈ before, isBlank c = true)
    (first : ∀ c, rest.head? = some c → isBlank c = false) : (before ++ rest).dropWhile isBlank = rest := by
  rw [List.dropWhile_append_of_pos blank]
  cases rest with
  | nil => rfl
  | cons c rest => rw [List.dropWhile_cons_of_neg (by simp [first c rfl])]

theorem head?_dropWhile {cs : List Char} {c : Char} (first : (cs.dropWhile isBlank).head? = some c) : isBlank c = false := by
  have blank := List.head?_dropWhile_not isBlank cs
  rw [first] at blank
  simpa using blank

theorem trims_trimChars (cs : List Char) : Trims cs (trimChars cs) := by
  have body : cs.dropWhile isBlank = trimChars cs ++ ((cs.dropWhile isBlank).reverse.takeWhile isBlank).reverse := by
    rw [trimChars, ← List.reverse_append, List.takeWhile_append_dropWhile, List.reverse_reverse]
  refine ⟨⟨cs.takeWhile isBlank, ((cs.dropWhile isBlank).reverse.takeWhile isBlank).reverse, ?_, ?_, ?_⟩, ?_, ?_⟩
  · rw [List.append_assoc, ← body, List.takeWhile_append_dropWhile]
  · exact List.all_eq_true.mp List.all_takeWhile
  · exact fun c member => List.all_eq_true.mp List.all_takeWhile c (List.mem_reverse.mp member)
  · intro c first
    have first' : (cs.dropWhile isBlank).head? = some c := by
      rw [body, List.head?_append, first]
      rfl
    exact head?_dropWhile first'
  · intro c last
    rw [trimChars, List.getLast?_reverse] at last
    exact head?_dropWhile last

theorem Trims.eq {cs trimmed : List Char} (trims : Trims cs trimmed) : trimChars cs = trimmed := by
  obtain ⟨⟨before, after, rfl, blank, blank'⟩, first, last⟩ := trims
  cases trimmed with
  | nil =>
    have all : ∀ c ∈ before ++ after, isBlank c = true := fun c member =>
      (List.mem_append.mp member).elim (blank c) (blank' c)
    rw [trimChars, List.append_nil, ← List.append_nil (before ++ after), dropWhile_blanks all (by simp)]
    rfl
  | cons c rest =>
    have front : (before ++ (c :: rest) ++ after).dropWhile isBlank = c :: rest ++ after := by
      rw [List.append_assoc]
      refine dropWhile_blanks blank ?_
      rw [List.cons_append, List.head?_cons]
      exact first
    rw [trimChars, front, List.reverse_append, dropWhile_blanks, List.reverse_reverse]
    · exact fun d member => blank' d (List.mem_reverse.mp member)
    · rw [List.head?_reverse]
      exact last

theorem Trims.padded {cs trimmed before after : List Char} (trims : Trims cs trimmed)
    (front : ∀ c ∈ before, isBlank c = true) (back : ∀ c ∈ after, isBlank c = true) : Trims (before ++ trimmed ++ after) trimmed :=
  ⟨⟨before, after, rfl, front, back⟩, trims.first, trims.last⟩

theorem Trims.given_iff {cs trimmed : List Char} (trims : Trims cs trimmed) :
    trimmed ≠ [] ↔ ∃ c ∈ cs, isBlank c = false := by
  obtain ⟨⟨before, after, rfl, front, back⟩, first, -⟩ := trims
  constructor
  · intro given
    obtain ⟨c, rest, rfl⟩ := List.exists_cons_of_ne_nil given
    exact ⟨c, by simp, first c rfl⟩
  · rintro ⟨c, member, solid⟩ rfl
    obtain blank | blank := List.mem_append.mp (List.append_nil before ▸ member)
    · rw [front c blank] at solid
      cases solid
    · rw [back c blank] at solid
      cases solid

theorem cut?_eq_some {sep : Char} {cs before after : List Char} :
    cut? sep cs = some (before, after) ↔ cs = before ++ sep :: after ∧ sep ∉ before := by
  induction cs generalizing before after with
  | nil => simp [cut?]
  | cons c rest ih =>
    by_cases same : c = sep
    · cases before with
      | nil => simp [cut?, same]
      | cons d before => simp +contextual [cut?, same, eq_comm]
    · cases before with
      | nil => simp [cut?, same]
      | cons d before =>
        simp only [cut?, if_neg same, Option.map_eq_some_iff, Prod.exists, Prod.mk.injEq, List.cons.injEq,
          List.cons_append, List.mem_cons, not_or]
        constructor
        · rintro ⟨inner, rest, found, ⟨rfl, rfl⟩, rfl⟩
          obtain ⟨written, absent⟩ := ih.mp found
          exact ⟨⟨rfl, written⟩, Ne.symm same, absent⟩
        · rintro ⟨⟨rfl, written⟩, -, absent⟩
          exact ⟨before, after, ih.mpr ⟨written, absent⟩, ⟨rfl, rfl⟩, rfl⟩

/-- Parts as they are written after another one, each behind a separator. -/
def tail (sep : Char) (parts : List (List Char)) : List Char :=
  parts.flatMap (sep :: ·)

theorem split_written (sep : Char) (cs : List Char) : cs = (split sep cs).1 ++ tail sep (split sep cs).2 ∧
    ∀ part ∈ (split sep cs).1 :: (split sep cs).2, sep ∉ part := by
  induction cs with
  | nil => simp [split, tail]
  | cons c rest ih =>
    obtain ⟨written, apart⟩ := ih
    unfold split
    dsimp only
    split
    next same =>
      refine ⟨?_, ?_⟩
      · simpa [tail, same] using written
      · simpa using apart
    next other =>
      refine ⟨?_, ?_⟩
      · simpa using written
      · simpa [Ne.symm other] using apart

theorem append_eq_separated {sep : Char} {part rest before after : List Char} (apart : sep ∉ part) :
    part ++ rest = before ++ sep :: after ↔ ∃ more, before = part ++ more ∧ rest = more ++ sep :: after := by
  constructor
  · intro same
    obtain ⟨more, front, back⟩ | ⟨more, rfl, back⟩ := List.append_eq_append_iff.mp same
    · exact ⟨more, front, back⟩
    · cases more with
      | nil => exact ⟨[], by simp, back.symm⟩
      | cons d more =>
        obtain ⟨rfl, -⟩ := List.cons.inj back
        simp at apart
  · rintro ⟨more, rfl, rfl⟩
    rw [List.append_assoc]

end Text

namespace Address

variable {reference : String} {a b : Address}

/-- The names that a reference gives: what stands before its first colon and what stands after it, without blanks
at the ends, if something is left of both. -/
structure Names (reference : String) (a : Address) : Prop where
  text : a.text = reference
  halves : ∃ before after, reference.toList = before ++ ':' :: after ∧ ':' ∉ before ∧
    Text.Trims before a.home.toList ∧ Text.Trims after a.member.toList
  home : a.home ≠ ""
  member : a.member ≠ ""

theorem parse_cases (reference : String) :
    (parse reference = .error (.component (.badReference reference)) ∧ ∀ a, ¬ Names reference a) ∨
      ∃ a, parse reference = .ok a ∧ Names reference a ∧ ∀ b, Names reference b → b = a := by
  have empty {cs : List Char} {name : String} (trims : Text.Trims cs name.toList) (blank : Text.trimChars cs = []) : name = "" :=
    String.toList_eq_nil_iff.mp (trims.eq ▸ blank)
  unfold parse
  cases cut : Text.cut? ':' reference.toList with
  | none =>
    refine .inl ⟨rfl, fun a names => ?_⟩
    obtain ⟨before, after, written, absent, -⟩ := names.halves
    rw [Text.cut?_eq_some.mpr ⟨written, absent⟩] at cut
    cases cut
  | some halves =>
    obtain ⟨before, after⟩ := halves
    have only {a : Address} (names : Names reference a) :
        Text.Trims before a.home.toList ∧ Text.Trims after a.member.toList := by
      obtain ⟨before', after', written, absent, trims⟩ := names.halves
      rw [Text.cut?_eq_some.mpr ⟨written, absent⟩] at cut
      cases cut
      exact trims
    dsimp only
    split
    next blank => exact .inl ⟨rfl, fun a names => names.home (empty (only names).1 blank)⟩
    next blank _ => exact .inl ⟨rfl, fun a names => names.member (empty (only names).2 blank)⟩
    next home member =>
      obtain ⟨written, absent⟩ := Text.cut?_eq_some.mp cut
      refine .inr ⟨_, rfl, ⟨rfl, ⟨before, after, written, absent, ?_, ?_⟩, ?_, ?_⟩, ?_⟩
      · rw [String.toList_ofList]
        exact Text.trims_trimChars before
      · rw [String.toList_ofList]
        exact Text.trims_trimChars after
      · exact fun none => home (String.ofList_eq_empty_iff.mp none)
      · exact fun none => member (String.ofList_eq_empty_iff.mp none)
      · intro b names
        obtain ⟨home, member⟩ := only names
        cases b with
        | mk text' home' member' =>
          simp only [mk.injEq]
          exact ⟨names.text, by rw [home.eq, String.ofList_toList], by rw [member.eq, String.ofList_toList]⟩

/-- A reference whose first colon has something other than blanks on both of its sides. -/
def Divided (reference : String) : Prop :=
  ∃ before after, reference.toList = before ++ ':' :: after ∧ ':' ∉ before ∧
    (∃ c ∈ before, Text.isBlank c = false) ∧ ∃ c ∈ after, Text.isBlank c = false

theorem names_divided (names : Names reference a) : Divided reference := by
  obtain ⟨before, after, written, absent, home, member⟩ := names.halves
  exact ⟨before, after, written, absent, home.given_iff.mp (mt String.toList_eq_nil_iff.mp names.home),
    member.given_iff.mp (mt String.toList_eq_nil_iff.mp names.member)⟩

theorem divided_names (divided : Divided reference) : ∃ a, Names reference a := by
  obtain ⟨before, after, written, absent, front, back⟩ := divided
  have home := Text.trims_trimChars before
  have member := Text.trims_trimChars after
  refine ⟨⟨reference, String.ofList (Text.trimChars before), String.ofList (Text.trimChars after)⟩, rfl,
    ⟨before, after, written, absent, ?_, ?_⟩, ?_, ?_⟩
  · rwa [String.toList_ofList]
  · rwa [String.toList_ofList]
  · exact mt String.ofList_eq_empty_iff.mp (home.given_iff.mpr front)
  · exact mt String.ofList_eq_empty_iff.mp (member.given_iff.mpr back)

theorem parse_ok : parse reference = .ok a ↔ Names reference a := by
  obtain ⟨refused, none⟩ | ⟨b, parsed, names, only⟩ := parse_cases reference
  · rw [refused]
    exact ⟨fun same => (by cases same), fun names => absurd names (none a)⟩
  · rw [parsed]
    exact ⟨fun same => Except.ok.inj same ▸ names, fun names' => congrArg _ (only a names').symm⟩

/-- No colon is in the name of a home, since what is before the first one has none. -/
theorem Names.colonless (names : Names reference a) : ':' ∉ a.home.toList := by
  obtain ⟨before, after, -, absent, ⟨⟨front, back, rfl, -⟩, -⟩, -⟩ := names.halves
  simp only [List.mem_append, not_or] at absent
  exact absent.1.2

/-- A reference that is written with the names that another one gives, and blanks around them, gives the same names. -/
theorem Names.written (names : Names reference a) {p q r s : String}
    (blank : ∀ c ∈ (p ++ q ++ r ++ s).toList, Text.isBlank c = true) :
    Names (p ++ a.home ++ q ++ ":" ++ r ++ a.member ++ s)
      ⟨p ++ a.home ++ q ++ ":" ++ r ++ a.member ++ s, a.home, a.member⟩ := by
  have colon : Text.isBlank ':' = false := by decide
  simp only [String.toList_append, List.mem_append] at blank
  have absent {cs : List Char} (blanks : ∀ c ∈ cs, Text.isBlank c = true) : ':' ∉ cs := fun member => by
    rw [blanks _ member] at colon
    cases colon
  obtain ⟨before, after, -, -, home, member⟩ := names.halves
  refine ⟨rfl, ⟨p.toList ++ a.home.toList ++ q.toList, r.toList ++ a.member.toList ++ s.toList, ?_, ?_, ?_, ?_⟩,
    names.home, names.member⟩
  · simp
  · have front := absent fun c (member : c ∈ p.toList) => blank c (by simp [member])
    have back := absent fun c (member : c ∈ q.toList) => blank c (by simp [member])
    simp [front, back, names.colonless]
  · exact home.padded (fun c member => blank c (by simp [member])) fun c member => blank c (by simp [member])
  · exact member.padded (fun c member => blank c (by simp [member])) fun c member => blank c (by simp [member])

/-- A reference is split exactly if something other than blanks is before its first colon and after it. The names
are then what is there without the blanks at the ends: no colon is in that of the home, and the names written with a
colon between them, and any blanks around each, are split into themselves. Any other reference is a fault. -/
theorem reference_split (reference : String) :
    ((∃ a, parse reference = .ok a) ↔ Divided reference) ∧
    (∀ fault, parse reference = .error fault ↔ ¬ Divided reference ∧ fault = .component (.badReference reference)) ∧
    ∀ a, parse reference = .ok a → Names reference a ∧ ':' ∉ a.home.toList ∧
      ∀ p q r s : String, (∀ c ∈ (p ++ q ++ r ++ s).toList, Text.isBlank c = true) →
        parse (p ++ a.home ++ q ++ ":" ++ r ++ a.member ++ s) =
          .ok ⟨p ++ a.home ++ q ++ ":" ++ r ++ a.member ++ s, a.home, a.member⟩ := by
  have splits : (∃ a, parse reference = .ok a) ↔ Divided reference := by
    simp only [parse_ok]
    exact ⟨fun ⟨a, names⟩ => names_divided names, divided_names⟩
  refine ⟨splits, fun fault => ?_, fun a parsed => ?_⟩
  · rw [← splits]
    obtain ⟨refused, none⟩ | ⟨b, parsed, -⟩ := parse_cases reference
    · have unsplit : ¬ ∃ a, parse reference = .ok a := fun ⟨a, parsed⟩ => none a (parse_ok.mp parsed)
      simp [refused, eq_comm]
    · simp [parsed]
  · have names := parse_ok.mp parsed
    exact ⟨names, names.colonless, fun p q r s blank => parse_ok.mpr (names.written blank)⟩

/-- What is after the first colon may hold others. -/
theorem spaced_split :
    parse " tools.kit\t:\x0bmaker:of:all\u3000" =
      .ok ⟨" tools.kit\t:\x0bmaker:of:all\u3000", "tools.kit", "maker:of:all"⟩ ∧
    parse "tools.kit:\u2028maker:of:all" = .ok ⟨"tools.kit:\u2028maker:of:all", "tools.kit", "maker:of:all"⟩ := by
  have parsed : parse " tools.kit\t:\x0bmaker:of:all\u3000" =
      .ok ⟨" tools.kit\t:\x0bmaker:of:all\u3000", "tools.kit", "maker:of:all"⟩ := by decide +kernel
  exact ⟨parsed, ((reference_split _).2.2 _ parsed).2.2 "" "" "\u2028" "" (List.all_iff_forall_prop.mp (by decide +kernel))⟩

/-- A reference whose home has a name that begins with a point. -/
def Relative (reference : String) : Prop :=
  ∃ a, Names reference a ∧ a.home.toList.head? = some '.'

end Address

namespace Home

variable {homes : List Home} {home inner : Home} {name : String}

/-- A home that is there under a name, within packages that are there under what stands before the points of the name. -/
structure Stands (homes : List Home) (name : String) (home : Home) : Prop where
  found : find? homes name = some home
  within : ∀ before after, name.toList = before ++ '.' :: after →
    ∃ around, find? homes (String.ofList before) = some around ∧ around.isPackage = true

theorem name_of_find? (found : find? homes name = some home) : home.name = name := by
  simpa using List.find?_some found

/-- Going on from a home along parts without points leads to a home that stands where the parts are written. -/
theorem descend_ok (parts : List (List Char)) (apart : ∀ part ∈ parts, '.' ∉ part)
    (found : find? homes home.name = some home) :
    descend homes home (parts.map String.ofList) = .ok inner ↔
      find? homes (String.ofList (home.name.toList ++ Text.tail '.' parts)) = some inner ∧
        ∀ before after, Text.tail '.' parts = before ++ '.' :: after →
          ∃ around, find? homes (String.ofList (home.name.toList ++ before)) = some around ∧ around.isPackage = true := by
  -- The home that has been reached so far is what changes from part to part.
  induction parts generalizing home with
  | nil => simp [descend, Text.tail, found]
  | cons part rest ih =>
    have apart' : ∀ part ∈ rest, '.' ∉ part := fun part member => apart part (List.mem_cons_of_mem _ member)
    have dotless : '.' ∉ part := apart part List.mem_cons_self
    have next : home.name ++ "." ++ String.ofList part = String.ofList (home.name.toList ++ '.' :: part) := by
      apply String.toList_inj.mp
      simp
    have written : Text.tail '.' (part :: rest) = '.' :: part ++ Text.tail '.' rest := by simp [Text.tail]
    simp only [List.map_cons, descend, next, written, List.cons_append]
    cases package : home.isPackage with
    | false =>
      refine ⟨fun refused => by simp at refused, fun ⟨_, within⟩ => ?_⟩
      obtain ⟨around, found', package'⟩ := within [] _ rfl
      rw [List.append_nil, String.ofList_toList, found] at found'
      cases found'
      rw [package] at package'
      cases package'
    | true =>
      simp only [if_true]
      cases met : find? homes (String.ofList (home.name.toList ++ '.' :: part)) with
      | none =>
        refine ⟨fun refused => by simp at refused, fun ⟨last, within⟩ => ?_⟩
        cases rest with
        | nil =>
          rw [Text.tail, List.flatMap_nil, List.append_nil, met] at last
          cases last
        | cons part' rest =>
          obtain ⟨around, found', -⟩ := within ('.' :: part) (part' ++ Text.tail '.' rest) (by simp [Text.tail])
          rw [met] at found'
          cases found'
      | some outer =>
        have called : outer.name.toList = home.name.toList ++ '.' :: part := by
          rw [name_of_find? met, String.toList_ofList]
        dsimp only
        rw [ih apart' (by rw [name_of_find? met, met]), called, List.append_assoc]
        refine and_congr_right fun _ => ⟨fun within before after same => ?_, fun within before after same => ?_⟩
        · cases before with
          | nil => exact ⟨home, by rw [List.append_nil, String.ofList_toList, found], package⟩
          | cons c before =>
            obtain ⟨rfl, inner⟩ := List.cons.inj same
            obtain ⟨more, rfl, behind⟩ := (Text.append_eq_separated dotless).mp inner
            simpa using within more after behind
        · rw [List.append_assoc]
          exact within ('.' :: part ++ before) after
            (congrArg ('.' :: ·) ((Text.append_eq_separated dotless).mpr ⟨before, rfl, same⟩))

theorem reach_ok : reach homes name = .ok home ↔ Stands homes name home := by
  obtain ⟨written, apart⟩ := Text.split_written '.' name.toList
  unfold reach
  dsimp only
  have dotless := apart _ List.mem_cons_self
  generalize (Text.split '.' name.toList).1 = first at *
  generalize (Text.split '.' name.toList).2 = rest at *
  have points {before after : List Char} : name.toList = before ++ '.' :: after ↔
      ∃ more, before = first ++ more ∧ Text.tail '.' rest = more ++ '.' :: after := by
    rw [written, Text.append_eq_separated dotless]
  cases met : find? homes (String.ofList first) with
  | none =>
    refine ⟨fun refused => by simp at refused, fun ⟨last, within⟩ => ?_⟩
    cases rest with
    | nil =>
      rw [← name.ofList_toList, written, Text.tail, List.flatMap_nil, List.append_nil, met] at last
      cases last
    | cons part rest =>
      obtain ⟨around, found, -⟩ := within first (part ++ Text.tail '.' rest) (by simp [written, Text.tail])
      rw [met] at found
      cases found
  | some outer =>
    have called : outer.name.toList = first := by rw [name_of_find? met, String.toList_ofList]
    dsimp only
    rw [descend_ok rest (fun part member => apart part (List.mem_cons_of_mem _ member)) (by rw [name_of_find? met, met]),
      called, ← written, String.ofList_toList]
    constructor
    · rintro ⟨last, within⟩
      refine ⟨last, fun before after same => ?_⟩
      obtain ⟨more, rfl, behind⟩ := points.mp same
      exact within more after behind
    · rintro ⟨last, within⟩
      exact ⟨last, fun before after same => within _ after (points.mpr ⟨before, rfl, same⟩)⟩

/-- What an address comes to whose home has a name that does not begin with a point. -/
inductive Finds (homes : List Home) (a : Address) : Except Fault Component → Prop
  | component {home : Home} {c : Component} (stands : Stands homes a.home home) (member : home.members.lookup a.member = some c) :
      Finds homes a (.ok c)
  | homeless (none : ∀ home, ¬ Stands homes a.home home) (reason : String) :
      Finds homes a (.error (.component (.noModule a.home reason)))
  | memberless {home : Home} (stands : Stands homes a.home home) (none : home.members.lookup a.member = none) :
      Finds homes a (.error (.component (.noMember a.home a.member)))

theorem startsWith_point : name.startsWith "." = true ↔ name.toList.head? = some '.' := by
  rw [String.startsWith_string_iff]
  constructor
  · rintro ⟨rest, written⟩
    rw [← written]
    rfl
  · intro first
    obtain ⟨rest, written⟩ := List.head?_eq_some_iff.mp first
    exact ⟨rest, written.symm⟩

theorem component_finds {a : Address} (free : a.home.toList.head? ≠ some '.') : Finds homes a (component homes a) := by
  unfold component
  rw [if_neg (mt startsWith_point.mp free)]
  dsimp only [bind, Except.bind, pure, Except.pure]
  cases reached : reach homes a.home with
  | error reason =>
    refine .homeless (fun home stands => ?_) reason
    rw [reach_ok.mpr stands] at reached
    cases reached
  | ok home =>
    have stands := reach_ok.mp reached
    dsimp only
    split
    next member => exact .component stands member
    next none => exact .memberless stands none

/-- Why there is nothing at an address whose home has a name that begins with a point. -/
def unanchored (name : String) : Fault :=
  .wrongKind ("the 'package' argument is required to perform a relative import for " ++ Text.quoted name)

theorem unanchored_kind (name : String) : (unanchored name).kind ≠ .component := by
  show Fault.Kind.type ≠ .component
  decide

theorem component_relative {a : Address} (point : a.home.toList.head? = some '.') :
    component homes a = .error (unanchored a.home) := by
  unfold component
  rw [if_pos (startsWith_point.mpr point)]
  rfl

end Home

namespace Service

theorem method?_numbered (service : Service) (first : Nat) (name : Value) :
    ((service.numbered first).method? name).map Method.exposed = (service.method? name).map Method.exposed := by
  have found (methods : List Method) (start : Nat) :
      (((methods.zipIdx start).map fun m => { m.1 with counter := first + m.2 }).find? fun m =>
        m.name.sameKey name).map Method.exposed = (methods.find? fun m => m.name.sameKey name).map Method.exposed := by
    induction methods generalizing start with
    | nil => rfl
    | cons m rest ih =>
      simp only [List.zipIdx_cons, List.map_cons, List.find?_cons]
      split
      next => rfl
      next => exact ih (start + 1)
  exact found service.methods 0

end Service

namespace Session

variable {s t : Session} {homes : List Home} {reference : String} {make : Bool} {product : Product} {loaded : Loaded}
  {a : Address} {place : Nat}

/-- What is there, or has been made, as a session has it. -/
inductive Holds (t : Session) : Product → Loaded → Prop
  | scalar (x : Scalar) : Holds t (.scalar x) (.value (.scalar x))
  | texts {v : Value} {items : List String} (found : t.store.cell? v = some (.list (items.map .text))) :
      Holds t (.texts items) (.value v)
  | mapping {v : Value} (found : t.store.cell? v = some (.map [])) : Holds t .mapping (.value v)
  | object (nature : Nature) : Holds t (.object nature) (.object nature)
  /-- A service is the same but for the methods that it provides besides, the last of a name. -/
  | service {service : Service} {methods : List (String × Script)} {place : Nat}
      (alike : ∃ all, t.coordinator.service place = { service with methods := all })
      (provided : ∀ name, ((t.coordinator.service place).method? name).map Method.exposed =
        (methods.reverse.find? fun m => (Value.text m.1).sameKey name).or ((service.method? name).map Method.exposed)) :
      Holds t (.service service methods) (.service place)
  | factory (factory : Factory) : Holds t (.factory factory) (.factory factory)

theorem cell?_add (s : Store) (cell : Cell) : (s.add cell).1.cell? (s.add cell).2 = some cell := by
  simp [Store.add, Store.cell?]

theorem service_expose (inside : place < s.coordinator.services.size) (name : Value) (label : String) (script : Script) :
    ∃ all, (s.expose place name label script).1.coordinator.service place =
      { s.coordinator.service place with methods := all } := by
  unfold expose
  split
  · exact ⟨_, rfl⟩
  · exact ⟨_, Coordinator.service_expose_self inside _⟩

/-- Methods as they are exposed, each under its own name. -/
def exposures (methods : List (String × Script)) : List Exposure :=
  methods.map fun (name, script) => ⟨.text name, name, script⟩

theorem expose_all (s : Session) (place : Nat) (methods : List (String × Script)) :
    methods.foldl (fun s (name, script) => (s.expose place (.text name) name script).1) s =
      s.run ((exposures methods).map (Exposure.event place)) := by
  induction methods generalizing s with
  | nil => rfl
  | cons m rest ih => exact ih _

theorem service_exposures (inside : place < s.coordinator.services.size) (exposures : List Exposure) :
    ∃ all, (s.run (exposures.map (Exposure.event place))).coordinator.service place =
      { s.coordinator.service place with methods := all } := by
  induction exposures generalizing s with
  | nil => exact ⟨_, rfl⟩
  | cons x rest ih =>
    obtain ⟨first, exposed⟩ := service_expose inside x.name x.label x.script
    obtain ⟨all, same⟩ := ih ((exposes_expose inside x .null).1.inside inside)
    exact ⟨all, same.trans (by rw [show (s.happen (x.event place)).coordinator.service place = _ from exposed])⟩

theorem latest?_exposures (s : Store) (methods : List (String × Script)) (name : Value) :
    ((s.latest? (exposures methods) name).map fun x => (x.label, x.script)) =
      methods.reverse.find? fun m => (Value.text m.1).sameKey name := by
  unfold Store.latest? exposures
  rw [← List.map_reverse, List.find?_map, Option.map_map]
  exact congrFun Option.map_id _

theorem install_holds (s : Session) (product : Product) : (s.install product).1.Holds product (s.install product).2 := by
  cases product with
  | scalar x => exact .scalar x
  | texts items => exact .texts (cell?_add s.store _)
  | mapping => exact .mapping (cell?_add s.store _)
  | object nature => exact .object nature
  | factory factory => exact .factory factory
  | service service methods =>
    have added : (s.coordinator.addService service).1.service s.coordinator.services.size =
        service.numbered s.coordinator.counts.size := by
      simp [Coordinator.addService, Coordinator.service]
    have inside : s.coordinator.services.size <
        ({ s with coordinator := (s.coordinator.addService service).1 } : Session).coordinator.services.size := by
      simp [Coordinator.addService]
    have whole : (s.addService service methods).1 =
        ({ s with coordinator := (s.coordinator.addService service).1 } : Session).run
          ((exposures methods).map (Exposure.event s.coordinator.services.size)) := expose_all ..
    show (s.addService service methods).1.Holds (.service service methods) (.service s.coordinator.services.size)
    rw [whole]
    constructor
    · obtain ⟨all, same⟩ := service_exposures inside (exposures methods)
      exact ⟨all, same.trans (by rw [added]; rfl)⟩
    · intro name
      rw [(exposes_all inside (exposures methods) name).2, latest?_exposures, added, Service.method?_numbered]

/-- What the member at an address is, from when it is taken in. -/
structure Keeps (s t : Session) (a : Address) (product : Product) (loaded : Loaded) : Prop where
  known : ∀ before, s.taken? a = some before → loaded = before
  fresh : s.taken? a = none → t.Holds product loaded
  taken : t.taken? a = some loaded
  others : ∀ b before, s.taken? b = some before → t.taken? b = some before

/-- The report of a component that has been loaded. -/
def Reports (t : Session) (reference : String) (loaded : Loaded) : Prop :=
  t.trace.head? = some (.reported (.component Level.info ("Component '" ++ reference ++ "' loaded (" ++ t.kindOf loaded ++ ")")))

/-- How loading a component ends, unless its home has a name that begins with a point. -/
inductive Fetches (s : Session) (homes : List Home) (reference : String) (make : Bool) : Session × Except Fault Loaded → Prop
  | unnamed (none : ∀ a, ¬ Address.Names reference a) :
      Fetches s homes reference make (s, .error (.component (.badReference reference)))
  | absent {a : Address} {fault : Fault} (names : Address.Names reference a) (finds : Home.Finds homes a (.error fault)) :
      Fetches s homes reference make (s, .error fault)
  /-- What stands there is the very thing that is given. -/
  | present {a : Address} {product : Product} {t : Session} {loaded : Loaded} (names : Address.Names reference a)
      (finds : Home.Finds homes a (.ok (.ready product))) (keeps : s.Keeps t a product loaded)
      (reports : t.Reports reference loaded) : Fetches s homes reference make (t, .ok loaded)
  | blueprint {a : Address} {b : Blueprint} {t : Session} (names : Address.Names reference a)
      (finds : Home.Finds homes a (.ok (.blueprint b))) (asIs : make = false)
      (reports : t.Reports reference (.blueprint b.name b.kind)) :
      Fetches s homes reference make (t, .ok (.blueprint b.name b.kind))
  | made {a : Address} {b : Blueprint} {product : Product} {t : Session} {loaded : Loaded} (names : Address.Names reference a)
      (finds : Home.Finds homes a (.ok (.blueprint b))) (asked : make = true) (made : b.made = .ok product)
      (holds : t.Holds product loaded) (reports : t.Reports reference loaded) : Fetches s homes reference make (t, .ok loaded)
  | unmade {a : Address} {b : Blueprint} {reason : String} (names : Address.Names reference a)
      (finds : Home.Finds homes a (.ok (.blueprint b))) (asked : make = true) (unmade : b.made = .error reason) :
      Fetches s homes reference make (s, .error (.component (.noInstance reference reason)))

theorem Holds.congr (holds : s.Holds product loaded) (store : t.store = s.store) (coordinator : t.coordinator = s.coordinator) :
    t.Holds product loaded := by
  cases holds with
  | scalar x => exact .scalar x
  | texts found => exact .texts (store ▸ found)
  | mapping found => exact .mapping (store ▸ found)
  | object nature => exact .object nature
  | service alike provided => exact .service (coordinator ▸ alike) (coordinator ▸ provided)
  | factory factory => exact .factory factory

theorem reportLoaded_reports (s : Session) (a : Address) (loaded : Loaded) :
    (s.reportLoaded a loaded).Reports a.text loaded := by
  cases loaded <;> rfl

theorem install_taken (s : Session) (product : Product) : (s.install product).1.taken = s.taken := by
  have exposed (methods : List (String × Script)) (place : Nat) (s : Session) :
      (methods.foldl (fun s (name, script) => (s.expose place (.text name) name script).1) s).taken = s.taken := by
    induction methods generalizing s with
    | nil => rfl
    | cons m rest ih => exact ih _
  cases product with
  | service service methods => exact exposed methods ..
  | scalar _ | texts _ | mapping | object _ | factory _ => rfl

theorem takeMember_keeps (s : Session) (a : Address) (product : Product) :
    s.Keeps ((s.takeMember a product).1.reportLoaded a (s.takeMember a product).2) a product (s.takeMember a product).2 := by
  unfold takeMember
  split
  next before known =>
    exact ⟨fun _ same => Option.some.inj (known.symm.trans same), fun none => by simp [known] at none, known, fun _ _ => id⟩
  next none =>
    refine ⟨fun before known => by simp [none] at known, fun _ => (s.install_holds product).congr rfl rfl, ?_,
      fun b before known => ?_⟩
    · simp [taken?, reportLoaded, log, note]
    · have differs : (b.home, b.member) ≠ (a.home, a.member) := by
        intro same
        simp only [taken?, same] at known none
        simp [none] at known
      simpa [taken?, reportLoaded, log, note, List.lookup_cons, beq_eq_false_iff_ne.mpr differs, install_taken] using known

theorem Fetches.outcome {result : Session × Except Fault Loaded} (fetches : Fetches s homes reference make result) :
    (∃ loaded, result.2 = .ok loaded) ∨ ∃ cause, result = (s, .error (.component cause)) := by
  cases fetches with
  | present | blueprint | made => exact .inl ⟨_, rfl⟩
  | unnamed | unmade => exact .inr ⟨_, rfl⟩
  | absent names finds => cases finds <;> exact .inr ⟨_, rfl⟩

theorem loadComponent_fetches (names : Address.Names reference a) (parsed : Address.parse reference = .ok a)
    (free : a.home.toList.head? ≠ some '.') :
    Fetches s homes reference make (s.loadComponent homes (.text reference) make) := by
  have finds : Home.Finds homes a (Home.component homes a) := Home.component_finds free
  unfold loadComponent
  rw [show Address.ofValue s.store (.text reference) = .ok a from parsed]
  dsimp only
  cases found : Home.component homes a with
  | error fault => exact .absent names (found ▸ finds)
  | ok component =>
    rw [found] at finds
    cases component with
    | ready product =>
      exact .present names finds (s.takeMember_keeps a product) (names.text ▸ reportLoaded_reports ..)
    | blueprint b =>
      cases make with
      | false => exact .blueprint names finds rfl (names.text ▸ reportLoaded_reports ..)
      | true =>
        cases made : b.made with
        | error reason =>
          have refused : s.take a true (.blueprint b) = (s, .error (.component (.noInstance reference reason))) := by
            simp only [take, made, if_true, names.text]
          dsimp only
          rw [refused]
          exact .unmade names finds rfl made
        | ok product =>
          have installed : s.take a true (.blueprint b) = ((s.install product).1, .ok (s.install product).2) := by
            simp only [take, made, if_true]
          dsimp only
          rw [installed]
          exact .made names finds rfl made ((s.install_holds product).congr rfl rfl) (names.text ▸ reportLoaded_reports ..)

theorem loadComponent_relative (parsed : Address.parse reference = .ok a) (point : a.home.toList.head? = some '.') :
    s.loadComponent homes (.text reference) make = (s, .error (Home.unanchored a.home)) := by
  unfold loadComponent
  rw [show Address.ofValue s.store (.text reference) = .ok a from parsed]
  dsimp only
  rw [Home.component_relative point]

/-- Loading a component gives what the reference names, or ends with a fault of the component and leaves all as it is,
unless the home has a name that begins with a point. Then it ends with another fault. -/
theorem component_fetched (s : Session) (homes : List Home) (reference : String) (make : Bool) :
    (¬ Address.Relative reference → Fetches s homes reference make (s.loadComponent homes (.text reference) make)) ∧
    (∀ a, Address.Names reference a → a.home.toList.head? = some '.' →
      s.loadComponent homes (.text reference) make = (s, .error (Home.unanchored a.home))) ∧
    ((∃ fault, (s.loadComponent homes (.text reference) make).2 = .error fault ∧ fault.kind ≠ .component) ↔
      Address.Relative reference) := by
  have fetched (free : ¬ Address.Relative reference) :
      Fetches s homes reference make (s.loadComponent homes (.text reference) make) := by
    obtain ⟨refused, none⟩ | ⟨a, parsed, names, -⟩ := Address.parse_cases reference
    · unfold loadComponent
      rw [show Address.ofValue s.store (.text reference) = _ from refused]
      exact .unnamed none
    · exact loadComponent_fetches names parsed fun point => free ⟨a, names, point⟩
  have pointed (a : Address) (names : Address.Names reference a) (point : a.home.toList.head? = some '.') :
      s.loadComponent homes (.text reference) make = (s, .error (Home.unanchored a.home)) := by
    obtain ⟨-, none⟩ | ⟨b, parsed, -, only⟩ := Address.parse_cases reference
    · exact absurd names (none a)
    · obtain rfl := only a names
      exact loadComponent_relative parsed point
  refine ⟨fetched, pointed, fun ⟨fault, failed, other⟩ => ?_, fun ⟨a, names, point⟩ => ?_⟩
  · refine Classical.byContradiction fun free => ?_
    obtain ⟨loaded, given⟩ | ⟨cause, refused⟩ := (fetched free).outcome
    · rw [given] at failed
      cases failed
    · rw [refused] at failed
      cases failed
      exact other rfl
  · rw [pointed a names point]
    exact ⟨_, rfl, Home.unanchored_kind a.home⟩

/-- A home whose name begins with a point is not among the faults of components. -/
theorem pointed_home_raises : ∃ fault, (({} : Session).loadComponent [] (.text ".a:b") true).2 = .error fault ∧
    fault.kind ≠ .component := by
  have parsed : Address.parse ".a:b" = .ok ⟨".a:b", ".a", "b"⟩ := by decide +kernel
  exact ⟨Home.unanchored ".a", congrArg Prod.snd (loadComponent_relative parsed rfl), Home.unanchored_kind ".a"⟩

end Session

end Interaction
