import Gimlet.Time

/-!
# Alert thresholds

`pkg/dashboard/alert/threshold.go`. `ToThreshold` picks the strategy by the
alert's type: a pod alert fires once the pod has kept its state for longer than
the wait time, an event alert once its events come at least as often as
expected, and at least as many. `podStrategy.isFired` multiplies the wait time
by `time.Minute`, so it reads the wait time as a count of minutes, in int64
arithmetic. The event strategy's rate is float64 arithmetic, which Lean's
`Float` follows.
-/

namespace Gimlet

structure Alert where
  type : String
  lastStateChange : Int
  count : Int
  deriving DecidableEq, Repr

def unixToInternal : Int := 62135596800

/-- `time.Unix(sec, 0)`: Go adds the epoch offset in int64, so it wraps for
the last `unixToInternal` seconds below the int64 limit. -/
def Time.unix (sec : Int) : Time := ⟨toInt64 (sec + unixToInternal), 0⟩

def minute : Int := 60000000000

/-- `Duration.Minutes`: whole minutes plus the remainder, in float64. -/
def Duration.minutes (d : Int) : Float :=
  Float.ofInt (d.tdiv minute) + Float.ofInt (d.tmod minute) / 60000000000

inductive Threshold
  | podStrategy (pod : Alert) (waitTime : Int)
  | eventStrategy (event : Alert) (expectedCountPerMinute : Float) (expectedCount : Int)

def toThreshold (a : Alert) (waitTime expectedCount : Int) (expectedCountPerMinute : Float) :
    Threshold :=
  if a.type = "pod" then .podStrategy a waitTime
  else .eventStrategy a expectedCountPerMinute expectedCount

/-- `isFired`, at the instant `now` that `time.Now()` and `time.Since` read. -/
def Threshold.isFired (now : Time) : Threshold → Bool
  | .podStrategy pod waitTime =>
    let podLastStateChangeTime := Time.unix pod.lastStateChange
    let waitTime := now.add (toInt64 (-minute * waitTime))
    podLastStateChangeTime.before waitTime
  | .eventStrategy event expectedCountPerMinute expectedCount =>
    let lastStateChangeInMinutes := Duration.minutes (now.sub (Time.unix event.lastStateChange))
    let countPerMinute := Float.ofInt event.count / lastStateChangeInMinutes
    countPerMinute >= expectedCountPerMinute && event.count >= expectedCount

def Threshold.toAlert : Threshold → Alert
  | .podStrategy pod _ => pod
  | .eventStrategy event _ _ => event

end Gimlet
