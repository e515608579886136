import Mathlib.Logic.Function.Basic
import AetherRelay.Config
import AetherRelay.Db.Models

namespace AetherRelay

inductive CircuitState where
  | closed
  | open
  | halfOpen
deriving DecidableEq, Repr

structure CircuitBreaker where
  state : CircuitState
  failureCount : UInt32
  failureThreshold : UInt32
  recoveryTimeout : Duration
  openUntil : Option Instant
  probeInFlight : Bool
deriving DecidableEq

namespace CircuitBreaker

def new (failureThreshold : UInt32) (recoveryTimeout : Duration) : CircuitBreaker :=
  ⟨.closed,0,failureThreshold,recoveryTimeout,none,false⟩

-- The method `state`: the open window may have elapsed since the last call.
def observe (cb : CircuitBreaker) (now : Instant) : CircuitBreaker :=
  match cb.state,cb.openUntil with
  | .open,some til => if til ≤ now then {cb with state:=.halfOpen} else cb
  | _,_ => cb

def canAttempt (cb : CircuitBreaker) (now : Instant) : CircuitBreaker × Bool :=
  let seen := cb.observe now
  match seen.state with
  | .closed => (seen,true)
  | .halfOpen => if seen.probeInFlight then (seen,false) else ({seen with probeInFlight:=true},true)
  | .open => (seen,false)

def recordSuccess (cb : CircuitBreaker) : CircuitBreaker :=
  {cb with failureCount:=0,state:=.closed,openUntil:=none,probeInFlight:=false}

-- u32 addition wraps in a release build.
def recordFailure (cb : CircuitBreaker) (now : Instant) : CircuitBreaker :=
  let counted := {cb with failureCount:=cb.failureCount+1}
  let tripped := if counted.failureThreshold ≤ counted.failureCount ∨ counted.state = .halfOpen then
      {counted with state:=.open,openUntil:=some (now + counted.recoveryTimeout)}
    else counted
  {tripped with probeInFlight:=false}

def record (cb : CircuitBreaker) (success : Bool) (now : Instant) : CircuitBreaker :=
  if success then cb.recordSuccess else cb.recordFailure now

end CircuitBreaker

abbrev Breakers := Uuid → Option CircuitBreaker

namespace Breakers

-- map.entry(endpoint_id).or_insert_with(..)
def entry (breakers : Breakers) (threshold : UInt32) (recovery : Duration) (endpointId : Uuid) : CircuitBreaker :=
  (breakers endpointId).getD (.new threshold recovery)

-- if let Some(breaker) = map.get_mut(endpoint_id) { record the outcome }
def record (breakers : Breakers) (endpointId : Uuid) (success : Bool) (now : Instant) : Breakers :=
  match breakers endpointId with
  | some cb => Function.update breakers endpointId (some (cb.record success now))
  | none => breakers

end Breakers
end AetherRelay
