/-!
# Durations

A duration is a number of whole seconds below `2 ^ 64` and a number of nanoseconds below one
second. `Duration.toNanos` is the view every operation is described by: the order of durations is
the order of their nanoseconds, and `saturatingMul` is the product of the nanoseconds, held at
`Duration.longest` when it does not fit.

A wait does not last longer than `longestWait`, whatever duration it is asked for.
-/

namespace WorkerPool

/-- One second in nanoseconds. -/
abbrev nanosPerSecond : Nat := 1000000000

/-- One millisecond in nanoseconds. -/
abbrev nanosPerMilli : Nat := 1000000

/-- The longest wait there is, in milliseconds: thirty years of 365 days. -/
def longestWait : Nat := 946080000000

/-- How long a wait of that many milliseconds lasts. -/
def waited (ms : Nat) : Nat :=
  min ms longestWait

/-- A span of time in whole seconds and the nanoseconds beyond them. -/
@[ext] structure Duration where
  secs : Nat
  nanos : Nat
  secs_lt : secs < UInt64.size := by decide
  nanos_lt : nanos < nanosPerSecond := by decide
deriving DecidableEq, Repr

namespace Duration

/-- No time at all. -/
def zero : Duration where
  secs := 0
  nanos := 0

instance : Inhabited Duration := ⟨zero⟩

/-- The greatest duration there is. -/
def longest : Duration where
  secs := 18446744073709551615
  nanos := 999999999

/-- The whole duration in nanoseconds. -/
def toNanos (d : Duration) : Nat :=
  d.secs * nanosPerSecond + d.nanos

/-- The duration in whole milliseconds; what is left of a millisecond is dropped. -/
def toMillis (d : Duration) : Nat :=
  d.toNanos / nanosPerMilli

/-- The first whole millisecond at which the duration is over. -/
def ceilMillis (d : Duration) : Nat :=
  (d.toNanos + (nanosPerMilli - 1)) / nanosPerMilli

/-- Whether the duration is no time at all. -/
def isZero (d : Duration) : Bool :=
  d.secs == 0 && d.nanos == 0

/-- The duration of `s` seconds and `n` nanoseconds, where `n` may be a second or more: whole seconds
of `n` carry over, and what does not fit is `none`. -/
def ofParts? (s n : Nat) : Option Duration :=
  if h : s + n / nanosPerSecond < UInt64.size then
    some ⟨s + n / nanosPerSecond, n % nanosPerSecond, h, Nat.mod_lt _ (by decide)⟩
  else
    none

/-- The duration of `s` seconds and `n` nanoseconds, or the greatest one if that does not fit. -/
def ofPartsSaturating (s n : Nat) : Duration :=
  (ofParts? s n).getD longest

/-- The duration of that many nanoseconds, or the greatest one if there are too many. -/
def ofNanos (n : Nat) : Duration :=
  ofPartsSaturating 0 n

/-- The duration of that many milliseconds, or the greatest one if there are too many. -/
def ofMillis (ms : Nat) : Duration :=
  ofPartsSaturating (ms / 1000) (ms % 1000 * nanosPerMilli)

/-- The duration of that many seconds, or the greatest one if there are too many. -/
def ofSecs (s : Nat) : Duration :=
  ofPartsSaturating s 0

/-- The duration `k` times over: seconds and nanoseconds are multiplied apart and the nanoseconds
carry into the seconds; a product that does not fit is the greatest duration. -/
def saturatingMul (d : Duration) (k : Nat) : Duration :=
  ofPartsSaturating (d.secs * k) (d.nanos * k)

/-- Seconds decide, and among equal seconds the nanoseconds. -/
def le (a b : Duration) : Bool :=
  a.secs < b.secs || (a.secs == b.secs && a.nanos ≤ b.nanos)

/-- The shorter of two durations. -/
def min (a b : Duration) : Duration := if a.le b then a else b

/-- The longer of two durations. -/
def max (a b : Duration) : Duration := if a.le b then b else a

/-- The duration in seconds as a floating-point number. -/
def toSecsFloat (d : Duration) : Float :=
  d.secs.toUInt64.toFloat + d.nanos.toUInt64.toFloat / nanosPerSecond.toUInt64.toFloat

@[simp] theorem toNanos_zero : zero.toNanos = 0 := rfl

/-- Durations are told apart by their nanoseconds, since the parts below a second are carried over. -/
theorem toNanos_injective {a b : Duration} (h : a.toNanos = b.toNanos) : a = b := by
  have ha := a.nanos_lt
  have hb := b.nanos_lt
  simp only [toNanos, nanosPerSecond] at h ha hb
  ext <;> omega

/-- No duration is longer than the longest one, so that saturating at it loses nothing below. -/
theorem toNanos_le_longest (d : Duration) : d.toNanos ≤ longest.toNanos := by
  have hs := d.secs_lt
  have hn := d.nanos_lt
  simp only [toNanos, longest, nanosPerSecond, UInt64.size] at *
  omega

/-- Carrying keeps the number of nanoseconds. -/
theorem toNanos_of_ofParts? {s n : Nat} {d : Duration} (h : ofParts? s n = some d) :
    d.toNanos = s * nanosPerSecond + n := by
  unfold ofParts? at h
  split at h
  · cases h
    simp only [toNanos, nanosPerSecond]
    omega
  · cases h

/-- Carrying fails exactly when there are more nanoseconds than the greatest duration has. -/
theorem ofParts?_eq_none_iff {s n : Nat} :
    ofParts? s n = none ↔ longest.toNanos < s * nanosPerSecond + n := by
  simp only [ofParts?, toNanos, longest, nanosPerSecond, UInt64.size, dite_eq_right_iff, reduceCtorEq,
    imp_false]
  omega

/-- Parts that do not fit a duration make the longest one, and all others make the duration that they say. -/
theorem toNanos_ofPartsSaturating (s n : Nat) :
    (ofPartsSaturating s n).toNanos = Min.min (s * nanosPerSecond + n) longest.toNanos := by
  unfold ofPartsSaturating
  cases h : ofParts? s n with
  | none =>
    have := ofParts?_eq_none_iff.mp h
    simp only [Option.getD_none]
    omega
  | some d =>
    have fits := toNanos_le_longest d
    have := toNanos_of_ofParts? h
    simp only [Option.getD_some]
    omega

/-- As many nanoseconds as fit a duration, and the longest one beyond that. -/
theorem toNanos_ofNanos (n : Nat) : (ofNanos n).toNanos = Min.min n longest.toNanos := by
  simp [ofNanos, toNanos_ofPartsSaturating]

/-- Multiplying stops at the longest duration. -/
theorem toNanos_saturatingMul (d : Duration) (k : Nat) :
    (d.saturatingMul k).toNanos = Min.min (d.toNanos * k) longest.toNanos := by
  rw [saturatingMul, toNanos_ofPartsSaturating]
  congr 1
  simp only [toNanos, Nat.add_mul, Nat.mul_assoc, Nat.mul_comm k]

/-- Durations are ordered as their nanoseconds are. -/
theorem le_iff_toNanos {a b : Duration} : a.le b = true ↔ a.toNanos ≤ b.toNanos := by
  have ha := a.nanos_lt
  have hb := b.nanos_lt
  simp only [nanosPerSecond] at ha hb
  simp only [le, toNanos, nanosPerSecond, Bool.or_eq_true, decide_eq_true_eq, Bool.and_eq_true,
    beq_iff_eq]
  omega

/-- There is one way only to write down no time at all. -/
theorem isZero_iff {d : Duration} : d.isZero = true ↔ d = zero := by
  simp [isZero, Duration.ext_iff, zero]

end Duration

end WorkerPool
