import Mathlib.Algebra.Order.Field.Rat
import Mathlib.Algebra.Order.Ring.Cast
import Mathlib.Tactic.Ring

/-!
# Go time: instants, durations and `Time.Sub`

A `time.Time` is a count of seconds since January 1, year 1 UTC with a
nanosecond part; a `time.Duration` is an int64 count of nanoseconds.
`Time.sub` computes the difference with int64 wraparound and saturates when
the exact difference does not fit, as Go's `Time.Sub` does. Its sign is
always the order of the two instants, so the startup filter's test
`CreationTimestamp.Sub(serverStartTime).Seconds() < 0` is `Before`.
-/

namespace Gimlet

def toInt64 (x : Int) : Int :=
  (x + 9223372036854775808) % 18446744073709551616 - 9223372036854775808

def minDuration : Int := -9223372036854775808

def maxDuration : Int := 9223372036854775807

structure Time where
  sec : Int
  nsec : Fin 1000000000
  deriving DecidableEq, Repr

namespace Time

def zero : Time := ⟨0, 0⟩

def ns (t : Time) : Int := t.sec * 1000000000 + t.nsec

def ofNs (n : Int) : Time := ⟨n / 1000000000, ⟨(n % 1000000000).toNat, by omega⟩⟩

def before (t u : Time) : Bool := t.sec < u.sec || t.sec == u.sec && t.nsec < u.nsec

def equal (t u : Time) : Bool := t.sec == u.sec && t.nsec == u.nsec

/-- `Time.Add`. Go carries the nanosecond overflow into the seconds, so the
result is the instant `d` nanoseconds after `t`. The seconds are unbounded
here; Go's agree while they stay within int64, and outside it wraps them
(or, in later releases, saturates). -/
def add (t : Time) (d : Int) : Time := ofNs (t.ns + d)

/-- `Time.Sub` for instants without a monotonic reading. -/
def sub (t u : Time) : Int :=
  let d := toInt64 (toInt64 (toInt64 (t.sec - u.sec) * 1000000000) + ((t.nsec : Int) - u.nsec))
  if (u.add d).equal t then d
  else if t.before u then minDuration
  else maxDuration

end Time

/-- `Duration.Seconds`: whole seconds plus the remainder, by Go's truncating
division. Go rounds this sum to a float64; rounding keeps its sign, the only
thing the controller reads. -/
def Duration.seconds (d : Int) : ℚ :=
  (d.tdiv 1000000000 : ℚ) + (d.tmod 1000000000 : ℚ) / 1000000000

theorem toInt64_of_mem {x : Int} (h₁ : minDuration ≤ x) (h₂ : x ≤ maxDuration) :
    toInt64 x = x := by
  unfold toInt64; unfold minDuration maxDuration at *; omega

theorem toInt64_mem (x : Int) : minDuration ≤ toInt64 x ∧ toInt64 x ≤ maxDuration := by
  unfold toInt64 minDuration maxDuration; omega

theorem toInt64_sub_mul_add (a b : Int) :
    toInt64 (toInt64 (toInt64 a * 1000000000) + b) = toInt64 (a * 1000000000 + b) := by
  unfold toInt64; omega

namespace Time

theorem ns_ofNs (n : Int) : (ofNs n).ns = n := by
  simp only [ofNs, ns]; omega

theorem equal_iff {t u : Time} : t.equal u = true ↔ t.ns = u.ns := by
  obtain ⟨s, n, hn⟩ := t; obtain ⟨s', n', hn'⟩ := u
  simp only [equal, ns, Bool.and_eq_true, beq_iff_eq, Fin.mk.injEq]
  omega

theorem before_iff {t u : Time} : t.before u = true ↔ t.ns < u.ns := by
  obtain ⟨s, n, hn⟩ := t; obtain ⟨s', n', hn'⟩ := u
  simp only [before, ns, Bool.or_eq_true, decide_eq_true_eq, Bool.and_eq_true, beq_iff_eq,
    Fin.mk_lt_mk]
  omega

theorem sub_eq (t u : Time) : t.sub u = max minDuration (min maxDuration (t.ns - u.ns)) := by
  have hd : toInt64 (toInt64 (toInt64 (t.sec - u.sec) * 1000000000) + ((t.nsec : Int) - u.nsec))
      = toInt64 (t.ns - u.ns) := by
    rw [toInt64_sub_mul_add]; congr 1; unfold ns; ring
  have hm := toInt64_mem (t.ns - u.ns)
  simp only [sub, hd, equal_iff, add, ns_ofNs]
  split_ifs with h₁ h₂
  · have : minDuration ≤ t.ns - u.ns ∧ t.ns - u.ns ≤ maxDuration := by omega
    rw [toInt64_of_mem this.1 this.2]; omega
  all_goals
    rw [before_iff] at h₂
    have : ¬ (minDuration ≤ t.ns - u.ns ∧ t.ns - u.ns ≤ maxDuration) := fun h =>
      h₁ (by rw [toInt64_of_mem h.1 h.2]; ring)
    unfold minDuration maxDuration at *; omega

theorem sub_neg_iff (t u : Time) : t.sub u < 0 ↔ t.before u = true := by
  rw [sub_eq, before_iff]; unfold minDuration maxDuration; omega

end Time

theorem Duration.seconds_eq (d : Int) : Duration.seconds d = (d : ℚ) / 1000000000 := by
  have h : (d : ℚ) = (d.tdiv 1000000000 : ℚ) * 1000000000 + (d.tmod 1000000000 : ℚ) := by
    exact_mod_cast (Int.tdiv_add_tmod' d 1000000000).symm
  rw [Duration.seconds, h]; ring

theorem Duration.seconds_neg_iff (d : Int) : Duration.seconds d < 0 ↔ d < 0 := by
  rw [Duration.seconds_eq, div_lt_iff₀ (by norm_num), zero_mul, Int.cast_lt_zero]

instance Duration.decidableSecondsNeg (d : Int) : Decidable (Duration.seconds d < 0) :=
  decidable_of_iff (d < 0) (Duration.seconds_neg_iff d).symm

/-- The startup filter's test is `Before`, for every pair of instants,
including those whose difference saturates. -/
theorem Time.seconds_sub_neg_iff (t u : Time) :
    Duration.seconds (t.sub u) < 0 ↔ t.before u = true := by
  rw [Duration.seconds_neg_iff, Time.sub_neg_iff]

end Gimlet
