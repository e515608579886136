import AetherRelay.Config

namespace AetherRelay

-- u64::saturating_mul
def saturatingMul (a b : Nat) : Nat := min (a*b) (2^64-1)

-- `draw` is the value random_range picks; a value outside the range is no pick.
def decorrelatedJitter (base cap prevSleep : Duration) (draw : Nat) : Option Duration :=
  let baseMs := asMillis base
  let capMs := asMillis cap
  let prevMs := asMillis prevSleep
  let high := max (saturatingMul prevMs 3) baseMs
  if baseMs ≤ draw ∧ draw ≤ high then some (fromMillis (min draw capMs)) else none

end AetherRelay
