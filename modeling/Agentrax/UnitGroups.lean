import Mathlib

/-! Quantities written as groups of a number and a unit, such as `1h30m`. -/
namespace Agentrax.UnitGroups

/-- Read a text against units that may each occur once, in this order. A group is worth its
number times the size of its unit. -/
def readGroups : List (String × ℕ) → List Char → Option ℕ
  | [], cs => if cs = [] then some 0 else none
  | (unit, size) :: units, cs =>
    let digits := cs.takeWhile Char.isDigit
    let rest := cs.dropWhile Char.isDigit
    if digits ≠ [] ∧ rest.takeWhile (!·.isDigit) = unit.toList then
      (readGroups units (rest.dropWhile (!·.isDigit))).map (Nat.ofDigitChars 10 digits 0 * size + ·)
    else readGroups units cs

def group (n : ℕ) (unit : String) : List Char := Nat.toDigits 10 n ++ unit.toList

/-- A name that can be told from the numbers around it. -/
def UnitName (unit : String) : Prop := unit.toList ≠ [] ∧ ∀ c ∈ unit.toList, c.isDigit = false

instance : DecidablePred UnitName := fun unit =>
  inferInstanceAs (Decidable (unit.toList ≠ [] ∧ ∀ c ∈ unit.toList, c.isDigit = false))

/-- Nothing, or another group. -/
def Follows (cs : List Char) : Prop := ∀ c, cs.head? = some c → c.isDigit = true

theorem toDigits_ne_nil (n : ℕ) : Nat.toDigits 10 n ≠ [] := by
  rcases Nat.lt_or_ge n 10 with h | h
  · simp [Nat.toDigits_of_lt_base h]
  · simp [Nat.toDigits_of_base_le (by decide) h]

theorem group_follows (n : ℕ) (unit : String) (rest : List Char) :
    Follows (group n unit ++ rest) := by
  intro c hc
  have hdigits := toDigits_ne_nil n
  rw [group, List.append_assoc, List.head?_append_of_ne_nil _ hdigits] at hc
  exact Nat.isDigit_of_mem_toDigits (by decide) (by decide) (List.mem_of_mem_head? hc)

section Scan
variable {unit : String} {rest : List Char} (n : ℕ)

theorem span_digits (hunit : UnitName unit) (rest : List Char) :
    (group n unit ++ rest).takeWhile Char.isDigit = Nat.toDigits 10 n ∧
      (group n unit ++ rest).dropWhile Char.isDigit = unit.toList ++ rest := by
  have hdigits : ∀ c ∈ Nat.toDigits 10 n, c.isDigit = true := fun c hc =>
    Nat.isDigit_of_mem_toDigits (by decide) (by decide) hc
  obtain ⟨hne, hletters⟩ := hunit
  obtain ⟨c, cs, hcs⟩ := List.exists_cons_of_ne_nil hne
  have hc : c.isDigit = false := hletters c (by simp [hcs])
  rw [group, List.append_assoc, List.takeWhile_append_of_pos hdigits,
    List.dropWhile_append_of_pos hdigits, hcs]
  simp [hc]

theorem span_letters (hunit : UnitName unit) (hrest : Follows rest) :
    (unit.toList ++ rest).takeWhile (!·.isDigit) = unit.toList ∧
      (unit.toList ++ rest).dropWhile (!·.isDigit) = rest := by
  have hletters : ∀ c ∈ unit.toList, (!c.isDigit) = true := fun c hc => by simp [hunit.2 c hc]
  rw [List.takeWhile_append_of_pos hletters, List.dropWhile_append_of_pos hletters]
  cases rest with
  | nil => simp
  | cons c cs =>
    have hc : c.isDigit = true := hrest c rfl
    simp [hc]

variable {size : ℕ} {units : List (String × ℕ)}

theorem readGroups_group (hunit : UnitName unit) (hrest : Follows rest) :
    readGroups ((unit, size) :: units) (group n unit ++ rest) =
      (readGroups units rest).map (n * size + ·) := by
  obtain ⟨hdigits, htail⟩ := span_digits n hunit rest
  obtain ⟨hletters, hdrop⟩ := span_letters hunit hrest
  have hvalue : Nat.ofDigitChars 10 (Nat.toDigits 10 n) 0 = n :=
    Nat.ofDigitChars_toDigits (by decide) (by decide)
  simp only [readGroups, hdigits, htail, hletters, hdrop, hvalue, ne_eq, toDigits_ne_nil,
    not_false_eq_true, and_self, if_true]

/-- A unit that is not there is passed over. -/
theorem readGroups_other {other : String} (hunit : UnitName unit) (hrest : Follows rest)
    (hne : unit ≠ other) :
    readGroups ((other, size) :: units) (group n unit ++ rest) =
      readGroups units (group n unit ++ rest) := by
  obtain ⟨hdigits, htail⟩ := span_digits n hunit rest
  obtain ⟨hletters, -⟩ := span_letters hunit hrest
  have hother : unit.toList ≠ other.toList := fun h => hne (String.toList_inj.mp h)
  simp only [readGroups, hdigits, htail, hletters, hother, and_false, if_false]

theorem readGroups_nil : readGroups units [] = some 0 := by
  induction units with
  | nil => rfl
  | cons x units ih => simpa [readGroups] using ih

end Scan

/-- A quantity in parts, each a number, its unit and the size of the unit. -/
abbrev Parts := List (ℕ × String × ℕ)

/-- The text of the parts that are not zero. -/
def text (parts : Parts) : List Char :=
  parts.flatMap fun part => if 0 < part.1 then group part.1 part.2.1 else []

def units (parts : Parts) : List (String × ℕ) := parts.map Prod.snd

def value (parts : Parts) : ℕ := (parts.map fun part => part.1 * part.2.2).sum

@[simp] theorem text_nil : text [] = [] := rfl

theorem text_cons (n size : ℕ) (unit : String) (parts : Parts) :
    text ((n, unit, size) :: parts) = (if 0 < n then group n unit else []) ++ text parts := by
  rw [text, List.flatMap_cons, ← text]

/-- A part that is zero is not written. -/
theorem text_zero (size : ℕ) (unit : String) (parts : Parts) :
    text ((0, unit, size) :: parts) = text parts := by
  rw [text_cons, if_neg (Nat.lt_irrefl 0), List.nil_append]

theorem text_follows (parts : Parts) : Follows (text parts) := by
  induction parts with
  | nil => exact fun c hc => (by cases hc)
  | cons part parts ih =>
    rw [text_cons]
    split_ifs with hpos
    · exact group_follows _ _ _
    · exact ih

@[simp] theorem value_nil : value [] = 0 := rfl

@[simp] theorem value_cons (n size : ℕ) (unit : String) (parts : Parts) :
    value ((n, unit, size) :: parts) = n * size + value parts := by
  rw [value, List.map_cons, List.sum_cons, ← value]

/-- The text is empty or begins with a group of one of the units. -/
theorem text_cases (parts : Parts) :
    text parts = [] ∨ ∃ part ∈ parts, ∃ rest, Follows rest ∧
      text parts = group part.1 part.2.1 ++ rest := by
  induction parts with
  | nil => exact .inl rfl
  | cons part parts ih =>
    rw [text_cons]
    split_ifs with hpos
    · exact .inr ⟨part, by simp, text parts, text_follows parts, rfl⟩
    · rcases ih with hnil | ⟨p, hp, rest, hfol, heq⟩
      · exact .inl hnil
      · exact .inr ⟨p, by simp [hp], rest, hfol, heq⟩

theorem mem_text {parts : Parts} {c : Char} (hc : c ∈ text parts) :
    c.isDigit = true ∨ ∃ part ∈ parts, c ∈ part.2.1.toList := by
  obtain ⟨part, hpart, hc⟩ := List.mem_flatMap.mp hc
  split_ifs at hc with hpos
  · rcases List.mem_append.mp hc with hdigit | hletter
    · exact .inl (Nat.isDigit_of_mem_toDigits (by decide) (by decide) hdigit)
    · exact .inr ⟨part, hpart, hletter⟩
  · cases hc

/-- The groups that are written: those of the parts that are not zero. -/
def groups (parts : Parts) : List (ℕ × String) :=
  (parts.filter fun part => 0 < part.1).map fun part => (part.1, part.2.1)

theorem text_eq_groups (parts : Parts) :
    text parts = (groups parts).flatMap fun g => group g.1 g.2 := by
  induction parts with
  | nil => rfl
  | cons part parts ih =>
    rw [text_cons, ih]
    by_cases hpos : 0 < part.1
    · simp [groups, hpos]
    · simp [groups, hpos]

theorem pos_of_mem_groups {parts : Parts} {g : ℕ × String} (hg : g ∈ groups parts) : 0 < g.1 := by
  obtain ⟨part, hpart, rfl⟩ := List.mem_map.mp hg
  simpa using (List.mem_filter.mp hpart).2

/-- The units stand in the order of the parts. -/
theorem names_groups (parts : Parts) :
    ((groups parts).map Prod.snd).Sublist (parts.map fun part => part.2.1) := by
  rw [groups, List.map_map]
  exact List.filter_sublist.map _

theorem groups_ne_nil {parts : Parts} (hvalue : 0 < value parts) : groups parts ≠ [] := by
  induction parts with
  | nil => simp at hvalue
  | cons part parts ih =>
    by_cases hpos : 0 < part.1
    · simp [groups, hpos]
    · have hzero : part.1 = 0 := Nat.eq_zero_of_not_pos hpos
      have hcons : value (part :: parts) = part.1 * part.2.2 + value parts := value_cons ..
      rw [hcons, hzero, Nat.zero_mul, Nat.zero_add] at hvalue
      have hrest : groups (part :: parts) = groups parts := by simp [groups, hpos]
      rw [hrest]
      exact ih hvalue

/-- Reading the text of some parts gives back their value. -/
theorem readGroups_text (parts : Parts) (hunits : ∀ part ∈ parts, UnitName part.2.1)
    (hnodup : (parts.map fun part => part.2.1).Nodup) :
    readGroups (units parts) (text parts) = some (value parts) := by
  induction parts with
  | nil => rfl
  | cons part parts ih =>
    have hunits' : ∀ p ∈ parts, UnitName p.2.1 := fun p hp => hunits p (by simp [hp])
    obtain ⟨hnew, hnodup'⟩ := List.nodup_cons.mp hnodup
    have hread := ih hunits' hnodup'
    have hvalue := value_cons part.1 part.2.2 part.2.1 parts
    change readGroups ((part.2.1, part.2.2) :: units parts) (text (part :: parts)) = _
    rw [text_cons, hvalue]
    split_ifs with hpos
    · rw [readGroups_group part.1 (hunits part (by simp)) (text_follows parts), hread]
      rfl
    · have hzero : part.1 = 0 := Nat.eq_zero_of_not_pos hpos
      rw [List.nil_append, hzero, Nat.zero_mul, Nat.zero_add, ← hread]
      rcases text_cases parts with hnil | ⟨p, hp, rest, hfol, heq⟩
      · rw [hnil, readGroups_nil, readGroups_nil]
      · rw [heq]
        refine readGroups_other p.1 (hunits' p hp) hfol fun hsame => hnew ?_
        exact List.mem_map.mpr ⟨p, hp, hsame⟩

end Agentrax.UnitGroups
