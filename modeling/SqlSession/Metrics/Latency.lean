/-!
# Latency statistics

Durations in nanoseconds: their number, sum, extremes, and a window of the latest ones from
which percentiles are taken. A duration is at most `Duration.max`; a sum above it is no
duration.

Specification: §10.4.
-/

namespace SqlSession

/-- The longest duration: 2^64 - 1 seconds and one nanosecond short of a further second. -/
def Duration.max : Nat := (UInt64.size - 1) * 1000000000 + 999999999

/-- Statistics over recorded durations. Spec §10.4, `StatementMetrics`. -/
structure Latency where
  count : Nat := 0
  total : Nat := 0
  /-- The shortest duration, the longest possible one before any is recorded. -/
  min : Nat := Duration.max
  max : Nat := 0
  /-- The latest durations, oldest first. -/
  samples : List Nat := []
  deriving DecidableEq

namespace Latency

/-- The size of the window of samples. Spec §10.4, `MAX_LATENCY_SAMPLES`. -/
def window : Nat := 1000

/-- The last elements of a list, at most `n` of them. -/
def lastOf (n : Nat) (l : List Nat) : List Nat := l.drop (l.length - n)

/-- The statistics with one more duration, however long the sum gets. Spec §10.4, `record`. -/
def record (s : Latency) (d : Nat) : Latency where
  count := s.count + 1
  total := s.total + d
  min := Nat.min s.min d
  max := Nat.max s.max d
  samples := lastOf window (s.samples ++ [d])

/-- The statistics with one more duration, nothing if count or sum leave their range. Spec §10.4,
`record`. -/
def record? (s : Latency) (d : Nat) : Option Latency :=
  if s.count + 1 < UInt64.size ∧ s.total + d ≤ Duration.max then some (s.record d) else none

/-- The statistics with more durations in their order. -/
def recordAll? (s : Latency) : List Nat → Option Latency
  | [] => some s
  | d :: r => (s.record? d).bind fun t ↦ t.recordAll? r

/-- The mean duration rounded down, at most 2^64 - 1 nanoseconds; zero before any duration.
Spec §10.4, `average_latency`. -/
def average (s : Latency) : Nat :=
  if s.count = 0 then 0 else Nat.min (s.total / s.count) (UInt64.size - 1)

/-- The index of a percentile among `n` sorted samples: the fraction of the last index, cut to
a whole number, and zero for what is below zero or no number. -/
def percentileIndex (n : Nat) (p : Float) : Nat :=
  (Float.ofNat (n - 1) * p / 100.0).toUInt64.toNat

/-- The sample at a percentile, zero without samples. A percentile above the last sample gives
nothing. Spec §10.4, `percentile`. -/
def percentile? (s : Latency) (p : Float) : Option Nat :=
  if s.samples = [] then some 0
  else (s.samples.mergeSort)[percentileIndex s.samples.length p]?

end Latency

end SqlSession
