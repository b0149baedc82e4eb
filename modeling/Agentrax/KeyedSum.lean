import Mathlib

/-! Sums over finite keyed maps, and 32-bit running sums. -/
namespace Agentrax.KeyedSum

theorem sum_map_nonneg {β : Type*} {w : β → ℤ} {l : List β} (h : ∀ x ∈ l, 0 ≤ w x) :
    0 ≤ (l.map w).sum := by
  apply List.sum_nonneg
  intro z hz
  obtain ⟨x, hx, rfl⟩ := List.mem_map.mp hz
  exact h x hx

/-- Prefix sums of non-negative weights lie between zero and the whole sum. -/
theorem sum_take_bounds {β : Type*} {w : β → ℤ} {l : List β} (h : ∀ x ∈ l, 0 ≤ w x) (n : ℕ) :
    0 ≤ ((l.take n).map w).sum ∧ ((l.take n).map w).sum ≤ (l.map w).sum := by
  have htake := sum_map_nonneg (l := l.take n) fun x hx => h x (List.mem_of_mem_take hx)
  have hdrop := sum_map_nonneg (l := l.drop n) fun x hx => h x (List.mem_of_mem_drop hx)
  have hsplit : ((l.take n).map w).sum + ((l.drop n).map w).sum = (l.map w).sum := by
    rw [← List.sum_append, ← List.map_append, List.take_append_drop]
  omega

/-- Whatever is picked from a list weighs at most its positive part. -/
theorem sum_sublist_le {β : Type*} (w : β → ℤ) {s l : List β} (h : s.Sublist l) :
    (s.map w).sum ≤ (l.map fun x => max 0 (w x)).sum := by
  induction h with
  | slnil => rfl
  | cons x _ ih =>
    simp only [List.map_cons, List.sum_cons]
    omega
  | cons_cons x _ ih =>
    simp only [List.map_cons, List.sum_cons]
    omega

/-- What the elements exceed `d` by, one by one, adds up to no more than the excess of the
whole. -/
theorem sum_excess_le {β : Type*} {w : β → ℤ} {l : List β} {d : ℤ} (hd : 0 ≤ d)
    (h : ∀ x ∈ l, 0 ≤ w x) :
    (l.map fun x => max 0 (w x - d)).sum ≤ max 0 ((l.map w).sum - d) := by
  induction l with
  | nil => simp
  | cons x xs ih =>
    have hx : 0 ≤ w x := h x (by simp)
    have hxs : 0 ≤ (xs.map w).sum := sum_map_nonneg fun y hy => h y (by simp [hy])
    have hrest := ih fun y hy => h y (by simp [hy])
    simp only [List.map_cons, List.sum_cons]
    omega

variable {κ α : Type*} [DecidableEq κ]

/-- Sum of an integer weight over the entries of a map. -/
def total (f : κ → α → ℤ) (m : AList (fun _ : κ => α)) : ℤ :=
  (m.entries.map fun x => f x.1 x.2).sum

omit [DecidableEq κ] in
@[simp] theorem total_empty (f : κ → α → ℤ) : total f ∅ = 0 := rfl

private theorem sum_kerase (f : κ → α → ℤ) (k : κ) (l : List (Sigma fun _ : κ => α)) :
    (l.map fun x => f x.1 x.2).sum =
      ((l.dlookup k).elim 0 (f k)) + ((l.kerase k).map fun x => f x.1 x.2).sum := by
  induction l with
  | nil => simp
  | cons x xs ih =>
    obtain ⟨j, v⟩ := x
    by_cases hj : k = j
    · subst hj
      simp
    · rw [List.dlookup_cons_ne _ _ hj, List.kerase_cons_ne hj]
      simp only [List.map_cons, List.sum_cons]
      omega

/-- The weight of one key and the weight of the rest. -/
theorem total_eq_add_erase (f : κ → α → ℤ) (k : κ) (m : AList (fun _ : κ => α)) :
    total f m = (m.lookup k).elim 0 (f k) + total f (m.erase k) :=
  sum_kerase f k m.entries

theorem total_insert (f : κ → α → ℤ) (k : κ) (v : α) (m : AList (fun _ : κ => α)) :
    total f (m.insert k v) = f k v + total f (m.erase k) := by
  simp [total, AList.entries_insert, AList.erase]

omit [DecidableEq κ] in
theorem total_congr {f g : κ → α → ℤ} {m : AList (fun _ : κ => α)}
    (h : ∀ x ∈ m.entries, f x.1 x.2 = g x.1 x.2) : total f m = total g m := by
  unfold total
  congr 1
  exact List.map_congr_left h

omit [DecidableEq κ] in
theorem total_le_total {f g : κ → α → ℤ} {m : AList (fun _ : κ => α)}
    (h : ∀ x ∈ m.entries, f x.1 x.2 ≤ g x.1 x.2) : total f m ≤ total g m :=
  List.sum_le_sum h

omit [DecidableEq κ] in
theorem total_nonneg {f : κ → α → ℤ} {m : AList (fun _ : κ => α)}
    (h : ∀ x ∈ m.entries, 0 ≤ f x.1 x.2) : 0 ≤ total f m :=
  sum_map_nonneg h

omit [DecidableEq κ] in
theorem total_add (f g : κ → α → ℤ) (m : AList (fun _ : κ => α)) :
    total (fun k v => f k v + g k v) m = total f m + total g m := by
  simp [total, List.sum_map_add]

/-- A weight that vanishes at `k` does not see the entry of `k`. -/
theorem total_erase_of_zero {f : κ → α → ℤ} {k : κ} (h : ∀ v, f k v = 0)
    (m : AList (fun _ : κ => α)) : total f (m.erase k) = total f m := by
  rw [total_eq_add_erase f k m]
  cases m.lookup k <;> simp [h]

/-- Entries of an erased map are entries of the map. -/
theorem mem_of_mem_erase {k : κ} {m : AList (fun _ : κ => α)} {x : Sigma fun _ : κ => α}
    (h : x ∈ (m.erase k).entries) : x ∈ m.entries :=
  (List.kerase_sublist k m.entries).subset h

theorem ne_of_mem_erase {k : κ} {m : AList (fun _ : κ => α)} {x : Sigma fun _ : κ => α}
    (h : x ∈ (m.erase k).entries) : x.1 ≠ k := by
  have hk : x.1 ∈ m.erase k := AList.mem_keys.mpr (List.mem_map_of_mem h)
  exact (AList.mem_erase.mp hk).1

theorem lookup_eq_some_iff {k : κ} {v : α} {m : AList (fun _ : κ => α)} :
    m.lookup k = some v ↔ (⟨k, v⟩ : Sigma fun _ : κ => α) ∈ m.entries := by
  rw [← Option.mem_def]
  exact AList.mem_lookup_iff

/-- If every element of a list is listed in `b` or weighs at most its own entry of
the map, the list weighs at most `b` and the map together. -/
theorem sum_le_of_covered {β : Type*} [DecidableEq β] {key : β → κ} {w : β → ℤ}
    {f : κ → α → ℤ} {l b : List β} {m : AList (fun _ : κ => α)}
    (hnodup : (l.map key).Nodup) (hb : ∀ x ∈ b, 0 ≤ w x) (hm : ∀ x ∈ m.entries, 0 ≤ f x.1 x.2)
    (hcov : ∀ x ∈ l, x ∈ b ∨ ∃ v, m.lookup (key x) = some v ∧ w x ≤ f (key x) v) :
    (l.map w).sum ≤ (b.map w).sum + total f m := by
  induction l generalizing b m with
  | nil =>
    have := sum_map_nonneg hb
    have := total_nonneg hm
    simp only [List.map_nil, List.sum_nil]
    omega
  | cons x xs ih =>
    rw [List.map_cons, List.nodup_cons] at hnodup
    have hne : ∀ y ∈ xs, key y ≠ key x :=
      fun y hy heq => hnodup.1 (heq ▸ List.mem_map_of_mem hy)
    rw [List.map_cons, List.sum_cons]
    rcases hcov x (by simp) with hx | ⟨v, hv, hw⟩
    · have hrest := ih hnodup.2 (b := b.erase x) (fun y hy => hb y (List.mem_of_mem_erase hy)) hm
        fun y hy => (hcov y (by simp [hy])).imp_left fun hyb =>
          (List.mem_erase_of_ne (fun h => hne y hy (by rw [h]))).mpr hyb
      have hsplit := List.sum_map_erase w hx
      omega
    · have hrest := ih hnodup.2 (m := m.erase (key x)) hb
        (fun y hy => hm y (mem_of_mem_erase hy)) fun y hy => by
          rw [AList.lookup_erase_ne (hne y hy)]
          exact hcov y (by simp [hy])
      rw [total_eq_add_erase f (key x) m, hv]
      simp only [Option.elim_some]
      omega

/-- The entries of a map that satisfy a test. -/
def keep (test : κ → α → Bool) (m : AList (fun _ : κ => α)) : AList (fun _ : κ => α) :=
  ⟨m.entries.filter (fun x => test x.1 x.2), m.nodupKeys.sublist List.filter_sublist⟩

theorem lookup_keep_eq_some_iff {test : κ → α → Bool} {m : AList (fun _ : κ => α)} {k : κ}
    {v : α} : (keep test m).lookup k = some v ↔ m.lookup k = some v ∧ test k v = true := by
  rw [lookup_eq_some_iff, lookup_eq_some_iff]
  exact List.mem_filter

omit [DecidableEq κ] in
private theorem sum_filter (f : κ → α → ℤ) (test : κ → α → Bool)
    (l : List (Sigma fun _ : κ => α)) :
    ((l.filter fun x => test x.1 x.2).map fun x => f x.1 x.2).sum =
      (l.map fun x => if test x.1 x.2 then f x.1 x.2 else 0).sum := by
  induction l with
  | nil => rfl
  | cons x xs ih => cases h : test x.1 x.2 <;> simp [h, ih]

omit [DecidableEq κ] in
theorem total_keep (f : κ → α → ℤ) (test : κ → α → Bool) (m : AList (fun _ : κ => α)) :
    total f (keep test m) = total (fun k v => if test k v then f k v else 0) m :=
  sum_filter f test m.entries

omit [DecidableEq κ] in
/-- The same for a list of the values. -/
theorem sum_filter_values (f : α → ℤ) (test : α → Bool) (m : AList (fun _ : κ => α)) :
    (((m.entries.map (·.2)).filter test).map f).sum =
      total (fun _ v => if test v then f v else 0) m := by
  rw [List.filter_map, List.map_map]
  exact sum_filter (fun _ v => f v) (fun _ v => test v) m.entries

/-- A 32-bit running sum is the exact sum, wrapped. -/
theorem foldl_add_int32 (xs : List Int32) (a : Int32) :
    xs.foldl (· + ·) a = Int32.ofInt (a.toInt + (xs.map Int32.toInt).sum) := by
  induction xs generalizing a with
  | nil => simp
  | cons x xs ih =>
    rw [List.foldl_cons, ih, List.map_cons, List.sum_cons, ← add_assoc]
    apply Int32.toInt.inj
    simp [Int32.size, Int.add_comm]

end Agentrax.KeyedSum
