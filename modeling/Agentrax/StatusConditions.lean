import Agentrax.ApiTypes

/-! What can be read back from a list of status conditions. -/
namespace Agentrax.StatusConditions
open ApiTypes

/-- `apimeta.FindStatusCondition`. -/
def findStatusCondition (conds : List Condition) (type : String) : Option Condition :=
  conds.find? (·.type == type)

variable {conds : List Condition} {type : String}

theorem find_eq_none_iff : findStatusCondition conds type = none ↔ ∀ c ∈ conds, c.type ≠ type := by
  simp [findStatusCondition]

theorem type_of_find {c : Condition} (h : findStatusCondition conds type = some c) :
    c.type = type := by
  simpa using List.find?_some h

/-- The replacement keeps every type in its place. -/
theorem type_replace (c d : Condition) : (if d.type == c.type then c else d).type = d.type := by
  by_cases h : d.type = c.type <;> simp [h]

theorem find_replace (conds : List Condition) (c : Condition) (type : String) :
    findStatusCondition (conds.map fun d => if d.type == c.type then c else d) type =
      (findStatusCondition conds type).map fun d => if d.type == c.type then c else d := by
  unfold findStatusCondition
  rw [List.find?_map]
  simp only [Function.comp_def, type_replace]

theorem find_set (conds : List Condition) (c : Condition) (type : String) :
    findStatusCondition (setStatusCondition conds c) type =
      if type = c.type then some c else findStatusCondition conds type := by
  unfold setStatusCondition
  by_cases hany : conds.any (·.type == c.type) = true
  · rw [if_pos hany, find_replace]
    cases hfind : findStatusCondition conds type with
    | none =>
      have hne : type ≠ c.type := by
        rintro rfl
        obtain ⟨d, hd, htype⟩ := List.any_eq_true.mp hany
        exact find_eq_none_iff.mp hfind d hd (by simpa using htype)
      simp [hne]
    | some d =>
      rw [Option.map_some, type_of_find hfind]
      by_cases htype : type = c.type <;> simp [htype]
  · rw [if_neg hany]
    have hfind : findStatusCondition conds c.type = none := by
      rw [find_eq_none_iff]
      intro d hd htype
      exact hany (List.any_eq_true.mpr ⟨d, hd, by simpa using htype⟩)
    by_cases htype : type = c.type
    · subst htype
      unfold findStatusCondition at hfind ⊢
      simp [List.find?_append, hfind]
    · have hne : (c.type == type) = false := by simpa using fun h : c.type = type => htype h.symm
      simp [findStatusCondition, List.find?_append, htype, hne]

theorem find_remove (conds : List Condition) (removed type : String) :
    findStatusCondition (removeStatusCondition conds removed) type =
      if type = removed then none else findStatusCondition conds type := by
  split_ifs with htype
  · subst htype
    simp [find_eq_none_iff, removeStatusCondition]
  · unfold findStatusCondition removeStatusCondition
    rw [List.find?_filter]
    congr 1
    funext c
    by_cases hc : c.type = type <;> simp [hc, htype]

section Operations

/-- What one pass of a controller does to one type of condition. -/
inductive Op
  | set (c : Condition)
  | remove (type : String)
  deriving DecidableEq, Repr

def Op.subject : Op → String
  | .set c => c.type
  | .remove type => type

def Op.apply (conds : List Condition) : Op → List Condition
  | .set c => setStatusCondition conds c
  | .remove type => removeStatusCondition conds type

/-- The conditions are as the operation wants them. -/
def Op.Done (conds : List Condition) : Op → Prop
  | .set c => (∃ d ∈ conds, d.type = c.type) ∧ ∀ d ∈ conds, d.type = c.type → d = c
  | .remove type => ∀ d ∈ conds, d.type ≠ type

variable {op : Op}

theorem Op.Done.apply_eq (h : op.Done conds) : op.apply conds = conds := by
  cases op with
  | set c =>
    obtain ⟨⟨d, hd, htype⟩, hall⟩ := h
    have hany : conds.any (·.type == c.type) = true :=
      List.any_eq_true.mpr ⟨d, hd, by simpa using htype⟩
    have hsame : ∀ x ∈ conds, (if x.type == c.type then c else x) = x := by
      intro x hx
      by_cases hxc : x.type = c.type
      · simp [hall x hx hxc]
      · simp [hxc]
    rw [Op.apply, setStatusCondition, if_pos hany]
    exact (List.map_congr_left hsame).trans (List.map_id' conds)
  | remove type =>
    refine List.filter_eq_self.mpr fun d hd => ?_
    simpa using h d hd

/-- The other types are left alone. -/
theorem Op.mem_apply_iff {d : Condition} (hne : d.type ≠ op.subject) :
    d ∈ op.apply conds ↔ d ∈ conds := by
  cases op with
  | set c =>
    have hdc : d.type ≠ c.type := hne
    have hother : d ≠ c := fun h => hdc (congrArg Condition.type h)
    rw [Op.apply, setStatusCondition]
    split_ifs
    · rw [List.mem_map]
      constructor
      · rintro ⟨x, hx, rfl⟩
        by_cases hxc : x.type = c.type
        · simp [hxc] at hother
        · simpa [hxc] using hx
      · exact fun hd => ⟨d, hd, by simp [hdc]⟩
    · simp [hother]
  | remove type =>
    have hdt : d.type ≠ type := hne
    simp [Op.apply, removeStatusCondition, hdt]

theorem Op.done_apply (conds : List Condition) (op : Op) : op.Done (op.apply conds) := by
  cases op with
  | set c =>
    rw [Op.apply, setStatusCondition]
    split_ifs with hany
    · obtain ⟨d, hd, htype⟩ := List.any_eq_true.mp hany
      refine ⟨⟨c, List.mem_map.mpr ⟨d, hd, if_pos htype⟩, rfl⟩, fun x hx hxc => ?_⟩
      obtain ⟨y, -, rfl⟩ := List.mem_map.mp hx
      rw [type_replace] at hxc
      simp [hxc]
    · refine ⟨⟨c, by simp, rfl⟩, fun x hx hxc => ?_⟩
      rcases List.mem_append.mp hx with hx | hx
      · exact absurd (List.any_eq_true.mpr ⟨x, hx, by simpa using hxc⟩) hany
      · simpa using hx
  | remove type => simp [Op.Done, Op.apply, removeStatusCondition]

theorem Op.Done.other {other : Op} (h : op.Done conds) (hne : other.subject ≠ op.subject) :
    op.Done (other.apply conds) := by
  have hmem : ∀ {d : Condition}, d.type = op.subject → (d ∈ other.apply conds ↔ d ∈ conds) :=
    fun hd => mem_apply_iff fun h' => hne (h'.symm.trans hd)
  cases op with
  | set c =>
    obtain ⟨⟨d, hd, htype⟩, hall⟩ := h
    exact ⟨⟨d, (hmem htype).mpr hd, htype⟩, fun x hx hxc => hall x ((hmem hxc).mp hx) hxc⟩
  | remove type => exact fun x hx hxt => h x ((hmem hxt).mp hx) hxt

theorem Op.Done.foldl {ops : List Op} (h : op.Done conds) (hne : op.subject ∉ ops.map Op.subject) :
    op.Done (ops.foldl Op.apply conds) := by
  induction ops generalizing conds with
  | nil => exact h
  | cons other ops ih =>
    simp only [List.map_cons, List.mem_cons, not_or] at hne
    exact ih (h.other (Ne.symm hne.1)) hne.2

/-- Operations on different types have all been done at the end of a pass. -/
theorem done_foldl {ops : List Op} (hdistinct : (ops.map Op.subject).Nodup)
    (conds : List Condition) : ∀ op ∈ ops, op.Done (ops.foldl Op.apply conds) := by
  induction ops generalizing conds with
  | nil => simp
  | cons op ops ih =>
    obtain ⟨hnotin, hrest⟩ := List.nodup_cons.mp hdistinct
    refine List.forall_mem_cons.mpr ⟨(op.done_apply conds).foldl hnotin, ?_⟩
    exact ih hrest (op.apply conds)

/-- A second pass changes nothing. -/
theorem foldl_of_done {ops : List Op} (h : ∀ op ∈ ops, op.Done conds) :
    ops.foldl Op.apply conds = conds := by
  induction ops with
  | nil => rfl
  | cons op ops ih =>
    obtain ⟨hop, hops⟩ := List.forall_mem_cons.mp h
    rw [List.foldl_cons, hop.apply_eq, ih hops]

end Operations

end Agentrax.StatusConditions
