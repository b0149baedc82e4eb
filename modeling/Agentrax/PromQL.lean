import Agentrax.CanaryController
import Agentrax.UnitGroups
import Agentrax.CheckedInt64
import Agentrax.GoQuote

/-! The queries of `internal/rollout/promql.go`, and what Prometheus reads in them: durations
and the range windows of a query. -/
namespace Agentrax.PromQL
open ApiTypes UnitGroups CheckedInt64 GoQuote CanaryController

def hour : Duration := 3600000000000

def promDuration (d : Duration) : Except String String :=
  if d ≤ 0 then .ok "0s"
  else if d % second ≠ 0 then
    if d % millisecond = 0 then .ok s!"{d / millisecond}ms"
    else .error s!"duration {durationString d} has sub-millisecond precision, which PromQL range selectors cannot represent"
  else
    let hours := d / hour
    let d := d - hours * hour
    let mins := d / minute
    let d := d - mins * minute
    let secs := d / second
    .ok ((if 0 < hours then s!"{hours}h" else "") ++ (if 0 < mins then s!"{mins}m" else "") ++
      (if 0 < secs then s!"{secs}s" else ""))

/-- The canary's series of a metric over the window `d`. -/
def selection (key : NamespacedName) (metric labels d : String) : String :=
  metric ++ "\x7bnamespace=" ++ quoted key.nspace ++ ",app_kubernetes_io_name=" ++
    quoted key.name ++ ",agentrax_io_variant=\"canary\"" ++ labels ++ "\x7d[" ++ d ++ "]"

def requestCountQuery (key : NamespacedName) (window : Duration) : Except String String := do
  let d ← promDuration window
  pure ("sum(increase(" ++ selection key "http_requests_total" "" d ++ ")) or vector(0)")

def errorRateQuery (key : NamespacedName) (window : Duration) : Except String String := do
  let d ← promDuration window
  pure ("(sum(increase(" ++ selection key "http_requests_total" ",code=~\"5..\"" d ++
    ")) or vector(0)) / on() group_left clamp_min(sum(increase(" ++
    selection key "http_requests_total" "" d ++ ")) or vector(0), 1)")

def p99LatencyQuery (key : NamespacedName) (window : Duration) : Except String String := do
  let d ← promDuration window
  pure ("histogram_quantile(0.99, sum by (le) (rate(" ++
    selection key "http_request_duration_milliseconds_bucket" "" d ++ ")))")

section Durations

/-- A duration in the units of Prometheus, in milliseconds. -/
def promParts (hours mins secs millis : ℕ) : Parts :=
  [(0, "y", 31536000000), (0, "w", 604800000), (0, "d", 86400000), (hours, "h", 3600000),
    (mins, "m", 60000), (secs, "s", 1000), (millis, "ms", 1)]

def promUnits : List (String × ℕ) := units (promParts 0 0 0 0)

/-- The duration syntax of Prometheus, read in milliseconds. A duration has to fit into 64
bits of nanoseconds. -/
def readDuration (s : String) : Option ℕ :=
  if s = "" then none
  else (readGroups promUnits s.toList).filter fun v => v * 1000000 < 2^63

/-- A duration that a range selector may have. -/
def PromPositive (s : String) : Prop := ∃ v, readDuration s = some v ∧ 0 < v

instance : DecidablePred PromPositive := fun s =>
  decidable_of_iff ((readDuration s).any (0 < ·) = true) (by simp [PromPositive, Option.any_eq_true])

theorem names_promParts (hours mins secs millis : ℕ) :
    ((promParts hours mins secs millis).map fun part => part.2.1) =
      ["y", "w", "d", "h", "m", "s", "ms"] := rfl

theorem units_promParts (hours mins secs millis : ℕ) :
    units (promParts hours mins secs millis) = promUnits := rfl

theorem unitName_of_mem_promParts {hours mins secs millis : ℕ} {part : ℕ × String × ℕ}
    (hpart : part ∈ promParts hours mins secs millis) : UnitName part.2.1 := by
  have hunits : ∀ unit ∈ ["y", "w", "d", "h", "m", "s", "ms"], UnitName unit := by
    simp [UnitName]
  refine hunits _ ?_
  rw [← names_promParts hours mins secs millis]
  exact List.mem_map_of_mem hpart

theorem value_promParts (hours mins secs millis : ℕ) :
    value (promParts hours mins secs millis) =
      hours * 3600000 + mins * 60000 + secs * 1000 + millis := by
  rw [promParts]
  simp only [value_cons, value_nil, Nat.zero_mul, Nat.zero_add, Nat.add_zero, Nat.mul_one]
  rw [Nat.add_assoc, Nat.add_assoc]

theorem readGroups_promParts (hours mins secs millis : ℕ) :
    readGroups promUnits (text (promParts hours mins secs millis)) =
      some (hours * 3600000 + mins * 60000 + secs * 1000 + millis) := by
  have hnodup : ((promParts hours mins secs millis).map fun part => part.2.1).Nodup := by
    rw [names_promParts]
    decide
  rw [← value_promParts, ← units_promParts hours mins secs millis]
  exact readGroups_text _ (fun part => unitName_of_mem_promParts) hnodup

theorem toList_toString {x : Int64} (hx : 0 ≤ x.toInt) :
    (toString x).toList = Nat.toDigits 10 x.toInt.toNat := by
  change (toString x.toInt).toList = _
  obtain ⟨n, hn⟩ := Int.eq_ofNat_of_zero_le hx
  rw [hn]
  exact Nat.toList_repr

theorem toList_group {x : Int64} (hx : 0 ≤ x.toInt) (unit : String) :
    (toString x ++ unit).toList = group x.toInt.toNat unit := by
  rw [String.toList_append, toList_toString hx, group]

/-- A group is written only for a number that is not zero. -/
theorem toList_optional {x : Int64} (hx : 0 ≤ x.toInt) (unit : String) :
    (if 0 < x then toString x ++ unit else "").toList =
      if 0 < x.toInt.toNat then group x.toInt.toNat unit else [] := by
  have hpos : 0 < x ↔ 0 < x.toInt.toNat := by
    rw [Int64.lt_iff_toInt_lt, Int64.toInt_zero]
    omega
  by_cases h : 0 < x
  · rw [if_pos h, if_pos (hpos.mp h), toList_group hx]
  · rw [if_neg h, if_neg (fun h' => h (hpos.mpr h'))]
    rfl

theorem text_promParts (hours mins secs millis : ℕ) :
    text (promParts hours mins secs millis) =
      (if 0 < hours then group hours "h" else []) ++ ((if 0 < mins then group mins "m" else []) ++
        ((if 0 < secs then group secs "s" else []) ++
          (if 0 < millis then group millis "ms" else []))) := by
  rw [promParts, text_zero, text_zero, text_zero, text_cons, text_cons, text_cons, text_cons,
    text_nil, List.append_nil]

theorem toList_millis {x : Int64} (hx : 0 < x.toInt) :
    (toString x ++ "ms").toList = text (promParts 0 0 0 x.toInt.toNat) := by
  have hpos : 0 < x.toInt.toNat := by omega
  rw [toList_group hx.le, text_promParts, if_pos hpos]
  rfl

theorem toList_clock {x y z : Int64} (hx : 0 ≤ x.toInt) (hy : 0 ≤ y.toInt) (hz : 0 ≤ z.toInt) :
    ((if 0 < x then toString x ++ "h" else "") ++ (if 0 < y then toString y ++ "m" else "") ++
      (if 0 < z then toString z ++ "s" else "")).toList =
      text (promParts x.toInt.toNat y.toInt.toNat z.toInt.toNat 0) := by
  rw [String.toList_append, String.toList_append, toList_optional hx, toList_optional hy,
    toList_optional hz, text_promParts, if_neg (Nat.lt_irrefl 0), List.append_nil,
    List.append_assoc]

theorem toInt_clock {d : Duration} (hd : 0 ≤ d.toInt) :
    let rest := d - d / hour * hour
    (d / hour).toInt = d.toInt / 3600000000000 ∧
      (rest / minute).toInt = d.toInt % 3600000000000 / 60000000000 ∧
      ((rest - rest / minute * minute) / second).toInt =
        d.toInt % 3600000000000 % 60000000000 / 1000000000 := by
  intro rest
  have hrest : rest.toInt = d.toInt % 3600000000000 := toInt_sub_div_mul hd (by decide)
  have hrest_nonneg : 0 ≤ rest.toInt := by omega
  have hlast : (rest - rest / minute * minute).toInt = rest.toInt % 60000000000 :=
    toInt_sub_div_mul hrest_nonneg (by decide)
  have hlast_nonneg : 0 ≤ (rest - rest / minute * minute).toInt := by omega
  refine ⟨toInt_div_of_pos hd (by decide), ?_, ?_⟩
  · rw [← hrest]
    exact toInt_div_of_pos hrest_nonneg (by decide)
  · rw [← hrest, ← hlast]
    exact toInt_div_of_pos hlast_nonneg (by decide)

theorem promDuration_nonpos {d : Duration} (hd : d ≤ 0) : promDuration d = .ok "0s" := if_pos hd

theorem promDuration_fraction {d : Duration} (hd : 0 < d) (hfraction : d % millisecond ≠ 0) :
    ∃ err, promDuration d = .error err := by
  have hsecond : d % second ≠ 0 := by
    intro h
    refine hfraction ((mod_eq_zero_iff hd).mpr ?_)
    have hzero : d.toInt % 1000000000 = 0 := (mod_eq_zero_iff hd).mp h
    change d.toInt % 1000000 = 0
    omega
  exact ⟨_, by rw [promDuration, if_neg (Int64.not_le.mpr hd), if_pos hsecond, if_neg hfraction]⟩

/-- A positive number of milliseconds is written in the units of Prometheus. -/
theorem promDuration_parts {d : Duration} (hd : 0 < d) (hwhole : d % millisecond = 0) :
    ∃ s hours mins secs millis v, promDuration d = .ok s ∧
      s.toList = text (promParts hours mins secs millis) ∧
      hours * 3600000 + mins * 60000 + secs * 1000 + millis = v ∧ (v : ℤ) * 1000000 = d.toInt ∧
      (millis = 0 ∨ hours = 0 ∧ mins = 0 ∧ secs = 0) := by
  have hpos : 0 < d.toInt := Int64.lt_iff_toInt_lt.mp hd
  have hmillis : d.toInt % 1000000 = 0 := (mod_eq_zero_iff hd).mp hwhole
  by_cases hsecond : d % second = 0
  · have hsecs : d.toInt % 1000000000 = 0 := (mod_eq_zero_iff hd).mp hsecond
    obtain ⟨hhours, hmins, hlast⟩ := toInt_clock hpos.le
    have hdef := promDuration.eq_def d
    rw [if_neg (Int64.not_le.mpr hd), if_neg (not_not.mpr hsecond)] at hdef
    refine ⟨_, _, _, _, 0, d.toInt.toNat / 1000000, hdef,
      toList_clock (by omega) (by omega) (by omega), ?_, ?_, .inl rfl⟩
    · rw [hhours, hmins, hlast]
      omega
    · omega
  · have hquot : (d / millisecond).toInt = d.toInt / 1000000 := toInt_div_of_pos hpos.le (by decide)
    have hdef := promDuration.eq_def d
    rw [if_neg (Int64.not_le.mpr hd), if_pos hsecond, if_pos hwhole] at hdef
    refine ⟨_, 0, 0, 0, _, d.toInt.toNat / 1000000, hdef, toList_millis (by omega), ?_, ?_,
      .inr ⟨rfl, rfl, rfl⟩⟩
    · rw [hquot]
      omega
    · omega

/-- Prometheus reads back the duration that was written. -/
theorem readDuration_promDuration {d : Duration} (hd : 0 < d) (hwhole : d % millisecond = 0) :
    ∃ s v, promDuration d = .ok s ∧ readDuration s = some v ∧ (v : ℤ) * 1000000 = d.toInt := by
  obtain ⟨s, hours, mins, secs, millis, v, hs, htext, hsum, hvalue, -⟩ :=
    promDuration_parts hd hwhole
  have hpos : 0 < d.toInt := Int64.lt_iff_toInt_lt.mp hd
  have hlt := Int64.toInt_lt d
  have hread : readGroups promUnits s.toList = some v := by
    rw [htext, readGroups_promParts, hsum]
  have hne : s ≠ "" := by
    intro h
    rw [h] at hread
    have hzero : 0 = v := Option.some.inj (readGroups_nil.symm.trans hread)
    omega
  refine ⟨s, v, hs, ?_, hvalue⟩
  rw [readDuration, if_neg hne, hread, Option.filter_some, if_pos]
  exact decide_eq_true (by omega)

theorem promPositive_promDuration {d : Duration} (hd : 0 < d) (hwhole : d % millisecond = 0) :
    ∃ s, promDuration d = .ok s ∧ PromPositive s := by
  obtain ⟨s, v, hs, hread, hvalue⟩ := readDuration_promDuration hd hwhole
  have hpos : 0 < d.toInt := Int64.lt_iff_toInt_lt.mp hd
  exact ⟨s, hs, v, hread, by omega⟩

/-- Numbers that are not zero, with ever smaller units among hours, minutes and seconds, or one
number of milliseconds. -/
def Canonical (gs : List (ℕ × String)) : Prop :=
  gs ≠ [] ∧ (∀ g ∈ gs, 0 < g.1) ∧
    ((gs.map Prod.snd).Sublist ["h", "m", "s"] ∨ gs.map Prod.snd = ["ms"])

theorem groups_clock (hours mins secs : ℕ) :
    groups (promParts hours mins secs 0) =
      groups [(hours, "h", 3600000), (mins, "m", 60000), (secs, "s", 1000)] := by
  simp [groups, promParts, List.filter_cons]

theorem groups_millis {millis : ℕ} (h : 0 < millis) :
    groups (promParts 0 0 0 millis) = [(millis, "ms")] := by
  simp [groups, promParts, h]

theorem canonical_groups {hours mins secs millis : ℕ}
    (hpos : 0 < hours * 3600000 + mins * 60000 + secs * 1000 + millis)
    (hformat : millis = 0 ∨ hours = 0 ∧ mins = 0 ∧ secs = 0) :
    Canonical (groups (promParts hours mins secs millis)) := by
  refine ⟨groups_ne_nil (by rwa [value_promParts]), fun g => pos_of_mem_groups, ?_⟩
  rcases hformat with rfl | ⟨rfl, rfl, rfl⟩
  · rw [groups_clock]
    exact .inl (names_groups _)
  · rw [groups_millis (by omega)]
    exact .inr rfl

/-- A positive duration is refused exactly if it is not a whole number of milliseconds. Else it is
written in canonical groups, from which Prometheus reads the same duration. -/
theorem promDuration_round_trip (d : Duration) (hd : 0 < d) :
    ((∃ err, promDuration d = .error err) ↔ ¬ millisecond.toInt ∣ d.toInt) ∧
      ∀ s, promDuration d = .ok s → s ≠ "" ∧
        (∃ gs, Canonical gs ∧ s.toList = gs.flatMap fun g => group g.1 g.2) ∧
        ∃ v, readDuration s = some v ∧ (v : ℤ) * millisecond.toInt = d.toInt := by
  have hdvd : d % millisecond = 0 ↔ millisecond.toInt ∣ d.toInt := by
    rw [mod_eq_zero_iff hd, Int.dvd_iff_emod_eq_zero]
  by_cases hwhole : d % millisecond = 0
  · obtain ⟨s, hours, mins, secs, millis, v, hs, htext, hsum, hvalue, hformat⟩ :=
      promDuration_parts hd hwhole
    obtain ⟨s', v', hs', hread, hvalue'⟩ := readDuration_promDuration hd hwhole
    obtain rfl : s = s' := Except.ok.inj (hs.symm.trans hs')
    have hpos : 0 < d.toInt := pos_iff_toInt.mp hd
    refine ⟨⟨?_, fun h => absurd (hdvd.mp hwhole) h⟩, fun t ht => ?_⟩
    · rintro ⟨err, herr⟩
      rw [hs] at herr
      cases herr
    · obtain rfl : s = t := Except.ok.inj (hs.symm.trans ht)
      refine ⟨?_, ⟨_, canonical_groups (by omega) hformat, ?_⟩, v', hread, hvalue'⟩
      · rintro rfl
        cases hread
      · rw [htext, text_eq_groups]
  · obtain ⟨err, herr⟩ := promDuration_fraction hd hwhole
    refine ⟨⟨fun _ h => hwhole (hdvd.mpr h), fun _ => ⟨err, herr⟩⟩, fun s hs => ?_⟩
    rw [herr] at hs
    cases hs

theorem promDuration_round_trip_ninety_minutes :
    ∃ s v, promDuration (90 * minute) = .ok s ∧ readDuration s = some v ∧
      (v : ℤ) * millisecond.toInt = (90 * minute).toInt := by
  obtain ⟨hfails, hreads⟩ := promDuration_round_trip (90 * minute) (by decide)
  cases hs : promDuration (90 * minute) with
  | error err => exact absurd (by decide) (hfails.mp ⟨err, hs⟩)
  | ok s =>
    obtain ⟨-, -, v, hread, hvalue⟩ := hreads s hs
    exact ⟨s, v, rfl, hread, hvalue⟩

/-- A window never closes its own bracket. -/
theorem ne_bracket_of_promDuration {d : Duration} {s : String} (hs : promDuration d = .ok s) :
    ∀ c ∈ s.toList, c ≠ ']' := by
  by_cases hd : d ≤ 0
  · rw [promDuration_nonpos hd] at hs
    rw [← Except.ok.inj hs]
    simp
  · have hpos : 0 < d := Int64.not_le.mp hd
    by_cases hwhole : d % millisecond = 0
    · obtain ⟨s', hours, mins, secs, millis, v, hs', htext, -⟩ := promDuration_parts hpos hwhole
      obtain rfl : s = s' := Except.ok.inj (hs.symm.trans hs')
      rw [htext]
      rintro c hc rfl
      rcases mem_text hc with hdigit | ⟨part, hpart, hletter⟩
      · exact absurd hdigit (by decide)
      · have hnames : ∀ unit ∈ ["y", "w", "d", "h", "m", "s", "ms"], ']' ∉ unit.toList := by simp
        refine hnames _ ?_ hletter
        rw [← names_promParts hours mins secs millis]
        exact List.mem_map_of_mem hpart
    · obtain ⟨err, herr⟩ := promDuration_fraction hpos hwhole
      rw [herr] at hs
      cases hs

end Durations

section Windows

/-- Where a reader of PromQL is: in the expression, in a string literal, or in brackets. -/
inductive Place
  | expression
  | literal
  | escaped
  | window (read : List Char)
  deriving DecidableEq

def Place.next : Place → Char → Place
  | .expression, c => if c = '\"' then .literal else if c = '[' then .window [] else .expression
  | .literal, c => if c = '\"' then .expression else if c = '\\' then .escaped else .literal
  | .escaped, _ => .literal
  | .window read, c => if c = ']' then .expression else .window (read ++ [c])

def Place.closes : Place → Char → List String
  | .window read, c => if c = ']' then [String.ofList read] else []
  | _, _ => []

def windowsFrom : Place → List Char → List String
  | _, [] => []
  | p, c :: cs => p.closes c ++ windowsFrom (p.next c) cs

/-- The texts in brackets that a query has outside its string literals. -/
def rangeWindows (query : String) : List String := windowsFrom .expression query.toList

theorem windowsFrom_append (p : Place) (cs ds : List Char) :
    windowsFrom p (cs ++ ds) = windowsFrom p cs ++ windowsFrom (cs.foldl Place.next p) ds := by
  induction cs generalizing p with
  | nil => rfl
  | cons c cs ih => simp [windowsFrom, ih]

/-- A text that opens and closes its string literals and has no brackets. -/
def Plain (s : String) : Prop :=
  windowsFrom .expression s.toList = [] ∧ s.toList.foldl Place.next .expression = .expression

instance : DecidablePred Plain := fun s =>
  inferInstanceAs (Decidable (windowsFrom .expression s.toList = [] ∧
    s.toList.foldl Place.next .expression = .expression))

theorem Plain.append {s t : String} (hs : Plain s) (ht : Plain t) : Plain (s ++ t) := by
  unfold Plain
  rw [String.toList_append, windowsFrom_append, List.foldl_append, hs.1, hs.2]
  exact ht

theorem Plain.rangeWindows_eq_nil {s : String} (hs : Plain s) : rangeWindows s = [] := hs.1

theorem Plain.rangeWindows_append {s : String} (hs : Plain s) (t : String) :
    rangeWindows (s ++ t) = rangeWindows t := by
  rw [rangeWindows, String.toList_append, windowsFrom_append, hs.1, hs.2]
  rfl

theorem windowsFrom_literal {cs : List Char} (h : ∀ x ∈ cs, x ≠ '\"' ∧ x ≠ '\\') :
    windowsFrom .literal cs = [] ∧ cs.foldl Place.next .literal = .literal := by
  induction cs with
  | nil => exact ⟨rfl, rfl⟩
  | cons c cs ih =>
    obtain ⟨⟨hquote, hslash⟩, hcs⟩ := List.forall_mem_cons.mp h
    simpa [windowsFrom, Place.next, Place.closes, hquote, hslash] using ih hcs

/-- An escaped character does not end the string literal. -/
theorem windowsFrom_escapeChar (c : Char) :
    windowsFrom .literal (escapeChar c) = [] ∧
      (escapeChar c).foldl Place.next .literal = .literal := by
  have hescape := escape_escapeChar c
  generalize escapeChar c = cs at hescape ⊢
  cases hescape with
  | plain hquote hslash => simp [windowsFrom, Place.next, Place.closes, hquote, hslash]
  | letter => simp [windowsFrom, Place.next, Place.closes]
  | code =>
    simpa [windowsFrom, Place.next, Place.closes] using
      windowsFrom_literal fun _ => ne_of_mem_hexDigits

theorem plain_quoted (s : String) : Plain (quoted s) := by
  have hinside : ∀ cs : List Char, windowsFrom .literal (cs.flatMap escapeChar) = [] ∧
      (cs.flatMap escapeChar).foldl Place.next .literal = .literal := by
    intro cs
    induction cs with
    | nil => exact ⟨rfl, rfl⟩
    | cons c cs ih =>
      obtain ⟨hwindows, hplace⟩ := windowsFrom_escapeChar c
      rw [List.flatMap_cons, windowsFrom_append, List.foldl_append, hwindows, hplace]
      exact ih
  obtain ⟨hwindows, hplace⟩ := hinside s.toList
  have hnext : Place.next .expression '\"' = .literal := rfl
  unfold Plain quoted
  rw [String.toList_ofList, List.foldl_cons, List.foldl_append, hnext, hplace]
  refine ⟨?_, rfl⟩
  rw [windowsFrom, windowsFrom_append, hnext, hwindows, hplace]
  rfl

theorem windowsFrom_bracket {d : List Char} (hd : ∀ c ∈ d, c ≠ ']') (read rest : List Char) :
    windowsFrom (.window read) (d ++ ']' :: rest) =
      String.ofList (read ++ d) :: windowsFrom .expression rest := by
  induction d generalizing read with
  | nil => simp [windowsFrom, Place.closes, Place.next]
  | cons c cs ih =>
    have hc : c ≠ ']' := hd c (by simp)
    have hcs := ih (fun c' hc' => hd c' (by simp [hc'])) (read ++ [c])
    simpa [windowsFrom, Place.closes, Place.next, hc] using hcs

theorem rangeWindows_bracket {d : String} (hd : ∀ c ∈ d.toList, c ≠ ']') (rest : String) :
    rangeWindows ("\x7d[" ++ (d ++ ("]" ++ rest))) = d :: rangeWindows rest := by
  have hread := windowsFrom_bracket hd [] rest.toList
  rw [List.nil_append, String.ofList_toList] at hread
  simp only [rangeWindows, String.toList_append]
  exact hread

theorem rangeWindows_selection {metric labels d : String} (key : NamespacedName)
    (hmetric : Plain metric) (hlabels : Plain labels) (hd : ∀ c ∈ d.toList, c ≠ ']')
    (rest : String) :
    rangeWindows (selection key metric labels d ++ rest) = d :: rangeWindows rest := by
  have hname : Plain "\x7bnamespace=" := by decide
  have happ : Plain ",app_kubernetes_io_name=" := by decide
  have hvariant : Plain ",agentrax_io_variant=\"canary\"" := by decide
  simp only [selection, String.append_assoc]
  rw [hmetric.rangeWindows_append, hname.rangeWindows_append, (plain_quoted _).rangeWindows_append,
    happ.rangeWindows_append, (plain_quoted _).rangeWindows_append, hvariant.rangeWindows_append,
    hlabels.rangeWindows_append, rangeWindows_bracket hd]

/-- The query has range windows, and all of them are `d`. -/
def AsksFor (d query : String) : Prop := rangeWindows query ≠ [] ∧ ∀ w ∈ rangeWindows query, w = d

section Queries
variable {window : Duration} {d : String} (key : NamespacedName)

theorem asksFor_selection {opening metric closing : String} (hopening : Plain opening)
    (hmetric : Plain metric) (hclosing : Plain closing) (hd : ∀ c ∈ d.toList, c ≠ ']') :
    AsksFor d (opening ++ selection key metric "" d ++ closing) := by
  have hnone : Plain "" := by decide
  unfold AsksFor
  rw [String.append_assoc, hopening.rangeWindows_append,
    rangeWindows_selection key hmetric hnone hd, hclosing.rangeWindows_eq_nil]
  simp

variable (hd : promDuration window = .ok d)
include hd

theorem requestCountQuery_asksFor : ∃ q, requestCountQuery key window = .ok q ∧ AsksFor d q := by
  have hopening : Plain "sum(increase(" := by decide
  have hmetric : Plain "http_requests_total" := by decide
  have hclosing : Plain ")) or vector(0)" := by decide
  refine ⟨_, by rw [requestCountQuery, hd]; rfl, ?_⟩
  exact asksFor_selection key hopening hmetric hclosing (ne_bracket_of_promDuration hd)

theorem errorRateQuery_asksFor : ∃ q, errorRateQuery key window = .ok q ∧ AsksFor d q := by
  have hopening : Plain "(sum(increase(" := by decide
  have hmetric : Plain "http_requests_total" := by decide
  have hcode : Plain ",code=~\"5..\"" := by decide
  have hbetween : Plain ")) or vector(0)) / on() group_left clamp_min(sum(increase(" := by decide
  have hnone : Plain "" := by decide
  have hclosing : Plain ")) or vector(0), 1)" := by decide
  have hbracket := ne_bracket_of_promDuration hd
  refine ⟨_, by rw [errorRateQuery, hd]; rfl, ?_⟩
  unfold AsksFor
  simp only [String.append_assoc]
  rw [hopening.rangeWindows_append, rangeWindows_selection key hmetric hcode hbracket,
    hbetween.rangeWindows_append, rangeWindows_selection key hmetric hnone hbracket,
    hclosing.rangeWindows_eq_nil]
  simp

theorem p99LatencyQuery_asksFor : ∃ q, p99LatencyQuery key window = .ok q ∧ AsksFor d q := by
  have hopening : Plain "histogram_quantile(0.99, sum by (le) (rate(" := by decide
  have hmetric : Plain "http_request_duration_milliseconds_bucket" := by decide
  have hclosing : Plain ")))" := by decide
  refine ⟨_, by rw [p99LatencyQuery, hd]; rfl, ?_⟩
  exact asksFor_selection key hopening hmetric hclosing (ne_bracket_of_promDuration hd)

end Queries

end Windows

end Agentrax.PromQL
