import Mathlib.Algebra.Order.Ring.Nat
import SqlSession.Metrics.Latency

/-!
# Statistics of a history of durations

As long as durations can be counted and summed, the figures are those of all durations recorded so
far: each further one makes the statistics of the longer history. Only the window of samples
forgets, and it forgets the oldest ones.
-/

namespace SqlSession.Latency

/-- The statistics of a history of durations, oldest first. -/
def ofList (l : List Nat) : Latency where
  count := l.length
  total := l.sum
  min := l.foldl Nat.min Duration.max
  max := l.foldl Nat.max 0
  samples := lastOf window l

/-- Number and sum of the durations stay in their ranges. -/
def Fits (l : List Nat) : Prop := l.length < UInt64.size ∧ l.sum ≤ Duration.max

instance (l : List Nat) : Decidable (Fits l) :=
  inferInstanceAs (Decidable (l.length < UInt64.size ∧ l.sum ≤ Duration.max))

/-- What fits does so from its beginning. -/
theorem Fits.of_append {l r : List Nat} (h : Fits (l ++ r)) : Fits l := by
  obtain ⟨hlength, hsum⟩ := h
  rw [List.length_append] at hlength
  rw [List.sum_append_nat] at hsum
  exact ⟨by omega, by omega⟩

theorem lastOf_suffix (n : Nat) (l : List Nat) : lastOf n l <:+ l := List.drop_suffix _ _

theorem length_lastOf (n : Nat) (l : List Nat) : (lastOf n l).length = Nat.min l.length n := by
  rw [lastOf, List.length_drop]
  exact Nat.sub_sub_eq_min _ _

/-- What a window forgot it does not miss when it slides on. -/
theorem lastOf_append (n : Nat) (l r : List Nat) :
    lastOf n (lastOf n l ++ r) = lastOf n (l ++ r) := by
  have hcut : lastOf n l ++ r = (l ++ r).drop (l.length - n) := by
    rw [List.drop_append_of_le_length (Nat.sub_le _ _)]
    rfl
  rw [hcut, lastOf, List.drop_drop, lastOf]
  congr 1
  rw [List.length_drop, List.length_append]
  omega

/-- One more duration makes the statistics of the longer history. -/
theorem record_ofList (l : List Nat) (d : Nat) : (ofList l).record d = ofList (l ++ [d]) := by
  simp [record, ofList, lastOf_append]

theorem record?_ofList (l : List Nat) (d : Nat) :
    (ofList l).record? d = if Fits (l ++ [d]) then some (ofList (l ++ [d])) else none := by
  have hfits : (ofList l).count + 1 < UInt64.size ∧ (ofList l).total + d ≤ Duration.max ↔
      Fits (l ++ [d]) := by
    simp [Fits, ofList]
  rw [record?, record_ofList]
  by_cases h : Fits (l ++ [d])
  · rw [if_pos h, if_pos (hfits.2 h)]
  · rw [if_neg h, if_neg (mt hfits.1 h)]

/-- Durations are recorded as long as their history fits, and make its statistics. -/
theorem recordAll?_ofList {l : List Nat} (h : Fits l) (r : List Nat) :
    (ofList l).recordAll? r = if Fits (l ++ r) then some (ofList (l ++ r)) else none := by
  induction r generalizing l with
  | nil => simp [recordAll?, h]
  | cons d r ih =>
    have hassoc : l ++ d :: r = l ++ [d] ++ r := by simp
    rw [recordAll?, record?_ofList, hassoc]
    by_cases hd : Fits (l ++ [d])
    · rw [if_pos hd]
      exact ih hd
    · rw [if_neg hd, if_neg fun hr ↦ hd hr.of_append]
      rfl

/-- The statistics are exact for durations in their order of recording. -/
structure Exact (s : Latency) (l : List Nat) : Prop where
  count : s.count = l.length
  total : s.total = l.sum
  min : l.min? = some s.min
  max : l.max? = some s.max
  /-- The samples are the last durations in their order, a thousand of them if there are so many. -/
  samples : s.samples <:+ l ∧ s.samples.length = Nat.min l.length 1000
  average : s.average = Nat.min (l.sum / l.length) (UInt64.size - 1)
  average_le : s.average ≤ s.max
  le_average : s.average < UInt64.size - 1 → s.min ≤ s.average

/-- The running minimum starts above all durations, so that it is one of them after the first. -/
theorem min?_ofList {l : List Nat} (hne : l ≠ []) (h : Fits l) : l.min? = some (ofList l).min := by
  obtain ⟨m, hm⟩ := Option.isSome_iff_exists.1 (List.isSome_min?_of_ne_nil hne)
  have hle : m ≤ Duration.max := by
    have hmul : m * l.length ≤ l.sum := List.mul_length_le_sum_of_min?_eq_some_nat hm
    have hone : m ≤ m * l.length := Nat.le_mul_of_pos_right m (List.length_pos_iff.2 hne)
    exact Nat.le_trans hone (Nat.le_trans hmul h.2)
  have hfold : (ofList l).min = Min.min Duration.max (l.min?.getD Duration.max) := List.foldl_min
  rw [hfold, hm, Option.getD_some, Nat.min_eq_right hle]

theorem max?_ofList {l : List Nat} (hne : l ≠ []) : l.max? = some (ofList l).max := by
  obtain ⟨m, hm⟩ := Option.isSome_iff_exists.1 (List.isSome_max?_of_ne_nil hne)
  have hfold : (ofList l).max = Max.max 0 (l.max?.getD 0) := List.foldl_max
  rw [hfold, hm, Option.getD_some, Nat.zero_max]

theorem average_ofList {l : List Nat} (hne : l ≠ []) :
    (ofList l).average = Nat.min (l.sum / l.length) (UInt64.size - 1) :=
  if_neg fun h ↦ hne (List.length_eq_zero_iff.1 h)

theorem average_le_max {l : List Nat} (hne : l ≠ []) : (ofList l).average ≤ (ofList l).max := by
  rw [average_ofList hne]
  exact Nat.le_trans (Nat.min_le_left _ _)
    (List.sum_div_length_le_max_of_max?_eq_some_nat (max?_ofList hne))

/-- A mean that is not cut is not below the minimum. -/
theorem min_le_average {l : List Nat} (hne : l ≠ []) (h : Fits l)
    (hcap : (ofList l).average < UInt64.size - 1) : (ofList l).min ≤ (ofList l).average := by
  rw [average_ofList hne] at hcap ⊢
  rcases Nat.le_total (l.sum / l.length) (UInt64.size - 1) with hq | hq
  · have hmin : Nat.min (l.sum / l.length) (UInt64.size - 1) = l.sum / l.length :=
      Nat.min_eq_left hq
    rw [hmin]
    exact List.le_sum_div_length_of_min?_eq_some_nat (min?_ofList hne h)
  · have hmin : Nat.min (l.sum / l.length) (UInt64.size - 1) = UInt64.size - 1 :=
      Nat.min_eq_right hq
    rw [hmin] at hcap
    exact absurd hcap (Nat.lt_irrefl _)

/-- The statistics of a history are exact once it has begun. -/
theorem exact_ofList {l : List Nat} (hne : l ≠ []) (h : Fits l) : (ofList l).Exact l where
  count := rfl
  total := rfl
  min := min?_ofList hne h
  max := max?_ofList hne
  samples := by
    dsimp only [ofList]
    exact ⟨lastOf_suffix window l, length_lastOf window l⟩
  average := average_ofList hne
  average_le := average_le_max hne
  le_average := min_le_average hne h

/-- Durations whose sum is a duration are all recorded, as long as they can be counted, and the
statistics are then exact for them. -/
theorem statistics_exact {l : List Nat} (hne : l ≠ []) (hsum : l.sum ≤ Duration.max) :
    (({} : Latency).recordAll? l = none ↔ UInt64.size ≤ l.length) ∧
      ∀ s, ({} : Latency).recordAll? l = some s → s.Exact l := by
  have hrun : ({} : Latency).recordAll? l = if Fits l then some (ofList l) else none :=
    recordAll?_ofList (l := []) ⟨by decide, by decide⟩ l
  rw [hrun]
  by_cases h : Fits l
  · have hcount : ¬UInt64.size ≤ l.length := Nat.not_le.2 h.1
    refine ⟨by simp [h, hcount], fun s hs ↦ ?_⟩
    rw [if_pos h] at hs
    rw [← Option.some.inj hs]
    exact exact_ofList hne h
  · have hcount : UInt64.size ≤ l.length := Nat.not_lt.1 fun hlt ↦ h ⟨hlt, hsum⟩
    exact ⟨by simp [h, hcount], by simp [h]⟩

/-- The longest duration has left the window, and the mean is above its cap. -/
theorem statistics_exact_sliding :
    let l : List Nat := 2 ^ 65 :: List.replicate 1000 (2 ^ 64)
    l ≠ [] ∧ l.sum ≤ Duration.max ∧ ∃ s, ({} : Latency).recordAll? l = some s ∧ s.Exact l ∧
      s.count = 1001 ∧ s.samples = List.replicate 1000 (2 ^ 64) ∧ s.max = 2 ^ 65 ∧
      s.average < s.min := by
  intro l
  have hne : l ≠ [] := List.cons_ne_nil _ _
  have hsum : l.sum ≤ Duration.max := by decide +kernel
  have hlength : l.length = 1001 := by decide +kernel
  obtain ⟨hall, hexact⟩ := statistics_exact hne hsum
  have hrun : ({} : Latency).recordAll? l ≠ none := by
    rw [Ne, hall, hlength]
    decide
  obtain ⟨s, hs⟩ := Option.ne_none_iff_exists'.1 hrun
  have h := hexact s hs
  have hmin : l.min? = some (2 ^ 64) := by decide +kernel
  have hmax : l.max? = some (2 ^ 65) := by decide +kernel
  have haverage : s.average = UInt64.size - 1 := by
    rw [h.average]
    decide +kernel
  refine ⟨hne, hsum, s, hs, h, h.count.trans hlength, ?_, ?_, ?_⟩
  · obtain ⟨hsuffix, hsize⟩ := h.samples
    rw [hlength] at hsize
    rcases List.suffix_cons_iff.1 hsuffix with heq | hrest
    · rw [heq, hlength] at hsize
      exact absurd hsize (by decide)
    · exact hrest.eq_of_length (by rw [hsize, List.length_replicate]; rfl)
  · exact Option.some.inj (h.max.symm.trans hmax)
  · rw [haverage, Option.some.inj (h.min.symm.trans hmin)]
    decide

end SqlSession.Latency
