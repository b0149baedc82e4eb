import Agentrax.PromQL

/-! The text of a query determines what it asks for. -/
namespace Agentrax.QueryIdentity
open ApiTypes CheckedInt64 GoQuote PromQL

inductive Query
  | requestCount
  | errorRate
  | p99Latency
  deriving DecidableEq, Repr

def Query.text : Query → NamespacedName → Duration → Except String String
  | .requestCount => requestCountQuery
  | .errorRate => errorRateQuery
  | .p99Latency => p99LatencyQuery

def Query.opening : Query → String
  | .requestCount => "sum(increase("
  | .errorRate => "(sum(increase("
  | .p99Latency => "histogram_quantile(0.99, sum by (le) (rate("

def Query.metric : Query → String
  | .requestCount => "http_requests_total"
  | .errorRate => "http_requests_total"
  | .p99Latency => "http_request_duration_milliseconds_bucket"

def Query.labels : Query → String
  | .requestCount => ""
  | .errorRate => ",code=~\"5..\""
  | .p99Latency => ""

theorem readDuration_of_pos {w : Duration} {s : String} (hw : 0 < w) (h : promDuration w = .ok s) :
    ∃ n : ℕ, readDuration s = some n ∧ (n : ℤ) * 1000000 = w.toInt := by
  by_cases hwhole : w % millisecond = 0
  · obtain ⟨s', n, hs', hread, hvalue⟩ := readDuration_promDuration hw hwhole
    obtain rfl := Except.ok.inj (h.symm.trans hs')
    exact ⟨n, hread, hvalue⟩
  · obtain ⟨err, herr⟩ := promDuration_fraction hw hwhole
    cases h.symm.trans herr

/-- All windows that are not positive have the same text, every other one has its own. -/
theorem promDuration_inj {v w : Duration} {s : String} (hv : promDuration v = .ok s)
    (hw : promDuration w = .ok s) : v = w ∨ v ≤ 0 ∧ w ≤ 0 := by
  have hzero : ∀ {u : Duration}, u ≤ 0 → promDuration u = .ok s → readDuration s = some 0 := by
    intro u hu h
    obtain rfl := Except.ok.inj ((promDuration_nonpos hu).symm.trans h)
    decide
  rcases Int64.lt_or_le 0 v with hvpos | hvneg
  · obtain ⟨n, hn, hvn⟩ := readDuration_of_pos hvpos hv
    have hvpos' : 0 < v.toInt := Int64.lt_iff_toInt_lt.mp hvpos
    rcases Int64.lt_or_le 0 w with hwpos | hwneg
    · obtain ⟨m, hm, hwm⟩ := readDuration_of_pos hwpos hw
      obtain rfl := Option.some.inj (hn.symm.trans hm)
      exact .inl (Int64.toInt_inj.mp (hvn.symm.trans hwm))
    · obtain rfl := Option.some.inj (hn.symm.trans (hzero hwneg hw))
      omega
  · rcases Int64.lt_or_le 0 w with hwpos | hwneg
    · obtain ⟨m, hm, hwm⟩ := readDuration_of_pos hwpos hw
      have hwpos' : 0 < w.toInt := Int64.lt_iff_toInt_lt.mp hwpos
      obtain rfl := Option.some.inj (hm.symm.trans (hzero hvneg hv))
      omega
    · exact .inr ⟨hvneg, hwneg⟩

section Selections
variable {key key' : NamespacedName} {metric labels d d' rest rest' : String}

theorem takeWhile_window {ds rest : List Char} (h : ∀ c ∈ ds, c ≠ ']') :
    (ds ++ ']' :: rest).takeWhile (· ≠ ']') = ds := by
  rw [List.takeWhile_append_of_pos fun c hc => decide_eq_true (h c hc)]
  simp

theorem selection_inj (hd : ∀ c ∈ d.toList, c ≠ ']') (hd' : ∀ c ∈ d'.toList, c ≠ ']')
    (h : selection key metric labels d ++ rest = selection key' metric labels d' ++ rest') :
    key = key' ∧ d = d' := by
  simp only [selection, String.append_assoc, String.append_right_inj] at h
  obtain ⟨hspace, h⟩ := quoted_append_inj h
  obtain ⟨hname, h⟩ := quoted_append_inj (String.append_right_inj _ |>.mp h)
  simp only [String.append_right_inj] at h
  have hlist : d.toList ++ ']' :: rest.toList = d'.toList ++ ']' :: rest'.toList := by
    simpa using congrArg String.toList h
  have hwindow : d.toList = d'.toList := by
    rw [← takeWhile_window hd, hlist, takeWhile_window hd']
  refine ⟨?_, String.toList_inj.mp hwindow⟩
  cases key
  cases key'
  exact congrArg₂ NamespacedName.mk hspace hname

/-- Every query begins with a selection of the canary's series over the window. -/
theorem text_eq {q : Query} {w : Duration} {text : String} (h : q.text key w = .ok text) :
    ∃ d rest, promDuration w = .ok d ∧
      text = q.opening ++ (selection key q.metric q.labels d ++ rest) := by
  cases hd : promDuration w with
  | error err =>
    have hnone : q.text key w = .error err := by
      cases q <;>
        simp [Query.text, requestCountQuery, errorRateQuery, p99LatencyQuery, hd, bind, Except.bind]
    cases h.symm.trans hnone
  | ok d =>
    cases q with
    | requestCount =>
      refine ⟨d, ")) or vector(0)", rfl, ?_⟩
      rw [Query.text, requestCountQuery, hd] at h
      rw [← Except.ok.inj h, String.append_assoc]
      rfl
    | errorRate =>
      refine ⟨d, ")) or vector(0)) / on() group_left clamp_min(sum(increase(" ++
        (selection key "http_requests_total" "" d ++ ")) or vector(0), 1)"), rfl, ?_⟩
      rw [Query.text, errorRateQuery, hd] at h
      rw [← Except.ok.inj h]
      simp only [String.append_assoc]
      rfl
    | p99Latency =>
      refine ⟨d, ")))", rfl, ?_⟩
      rw [Query.text, p99LatencyQuery, hd] at h
      rw [← Except.ok.inj h, String.append_assoc]
      rfl

theorem opening_inj {q q' : Query} {rest rest' : String}
    (h : q.opening ++ rest = q'.opening ++ rest') : q = q' := by
  have hlist := congrArg (fun s : String => s.toList.head?) h
  cases q <;> cases q' <;> first | rfl | simp [Query.opening] at hlist

end Selections

/-- A query is never sent for another agent, for another purpose or over another window, whatever
characters the names have. -/
theorem query_determined {q q' : Query} {key key' : NamespacedName} {v w : Duration} {text : String}
    (h : q.text key v = .ok text) (h' : q'.text key' w = .ok text) :
    q = q' ∧ key = key' ∧ (v = w ∨ v ≤ 0 ∧ w ≤ 0) := by
  obtain ⟨d, rest, hd, rfl⟩ := text_eq h
  obtain ⟨d', rest', hd', htext⟩ := text_eq h'
  obtain rfl := opening_inj htext
  obtain ⟨hkey, rfl⟩ := selection_inj (ne_bracket_of_promDuration hd)
    (ne_bracket_of_promDuration hd') (String.append_right_inj _ |>.mp htext)
  exact ⟨rfl, hkey, promDuration_inj hd hd'⟩

/-- A name that looks like the end of a matcher and the beginning of another one. -/
def hostile : NamespacedName := ⟨"team\",namespace=~\".*", "agent\n\\"⟩

theorem query_determined_hostile :
    ∃ text, requestCountQuery hostile minute = .ok text ∧
      ∀ key, requestCountQuery key minute = .ok text → key = hostile := by
  have hd : promDuration minute = .ok "1m" := by decide +kernel
  obtain ⟨text, htext, -⟩ := requestCountQuery_asksFor hostile hd
  refine ⟨text, htext, fun key hkey => ?_⟩
  exact (@query_determined .requestCount .requestCount key hostile minute minute text hkey htext).2.1

end Agentrax.QueryIdentity
