import Mathlib.Data.String.Basic

namespace AetherRelay

-- std::time::Duration and the distance between two Instants, in nanoseconds.
abbrev Duration := Nat
abbrev Instant := Nat

def fromMillis (ms : Nat) : Duration := ms * 1000000
def fromSecs (secs : Nat) : Duration := secs * 1000000000
-- as_millis() as u64
def asMillis (d : Duration) : Nat := (d / 1000000) % 2^64

structure ServerConfig where
  bodyLimitBytes : Nat

structure AuthConfig where
  apiKeys : List String

structure WorkerConfig where
  pollIntervalMs : UInt64
  maxAttempts : UInt32
  backoffBaseMs : UInt64
  backoffCapMs : UInt64
  circuitFailureThreshold : UInt32
  circuitRecoveryTimeoutSecs : UInt64

structure AppConfig where
  server : ServerConfig
  auth : AuthConfig
  worker : WorkerConfig

-- config/default.toml
def AppConfig.default : AppConfig where
  server := ⟨1048576⟩
  auth := ⟨[]⟩
  worker := ⟨100,5,1000,60000,5,30⟩

structure DispatchLoopConfig where
  pollInterval : Duration
  maxAttempts : UInt32
  backoffBase : Duration
  backoffCap : Duration
  circuitFailureThreshold : UInt32
  circuitRecovery : Duration

def DispatchLoopConfig.fromAppConfig (cfg : AppConfig) : DispatchLoopConfig where
  pollInterval := fromMillis cfg.worker.pollIntervalMs.toNat
  maxAttempts := cfg.worker.maxAttempts
  backoffBase := fromMillis cfg.worker.backoffBaseMs.toNat
  backoffCap := fromMillis cfg.worker.backoffCapMs.toNat
  circuitFailureThreshold := cfg.worker.circuitFailureThreshold
  circuitRecovery := fromSecs cfg.worker.circuitRecoveryTimeoutSecs.toNat

end AetherRelay
