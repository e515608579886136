import AetherRelay.Worker.CircuitBreaker

namespace AetherRelay.CircuitBreaker

inductive Call where
  | state
  | canAttempt
  | recordSuccess
  | recordFailure
deriving DecidableEq, Repr

structure Heard where
  call : Call
  instant : Instant
  admitted : Bool
deriving DecidableEq

def respond (cb : CircuitBreaker) (call : Call) (now : Instant) : CircuitBreaker × Bool :=
  match call with
  | .state => (cb.observe now,false)
  | .canAttempt => cb.canAttempt now
  | .recordSuccess => (cb.recordSuccess,false)
  | .recordFailure => (cb.recordFailure now,false)

-- A breaker after some calls, the latest call first, and what they were answered.
def life (threshold : UInt32) (recovery : Duration) : List (Call × Instant) → CircuitBreaker × List Heard
  | [] => (.new threshold recovery,[])
  | (call,now) :: earlier =>
    let before := life threshold recovery earlier
    let answer := respond before.1 call now
    (answer.1,⟨call,now,answer.2⟩ :: before.2)

-- The recorded outcomes alone, the latest first. Reads leave no trace.
def outcomes (calls : List (Call × Instant)) : List (Bool × Instant) :=
  calls.filterMap fun call => match call.1 with
    | .recordSuccess => some (true,call.2)
    | .recordFailure => some (false,call.2)
    | _ => none

def failures : List (Bool × Instant) → Nat
  | (false,_) :: earlier => failures earlier + 1
  | _ => 0

def lastFailure (past : List (Bool × Instant)) : Option Instant :=
  (past.find? (fun outcome => outcome.1 = false)).map (·.2)

def tripsAt (threshold : UInt32) : Nat := max 1 threshold.toNat

def pending : List Heard → Bool
  | [] => false
  | ⟨.recordSuccess,_,_⟩ :: _ | ⟨.recordFailure,_,_⟩ :: _ => false
  | ⟨_,_,admitted⟩ :: earlier => admitted || pending earlier

-- The stored fields against the history. The stored state may lag behind the
-- clock: it is only known to be half-open once the deadline has passed.
structure Follows (threshold : UInt32) (recovery : Duration) (past : List (Bool × Instant)) (waiting : Bool)
    (last : Instant) (cb : CircuitBreaker) : Prop where
  bound : cb.failureThreshold = threshold
  window : cb.recoveryTimeout = recovery
  count : cb.failureCount.toNat = failures past
  closed : failures past < tripsAt threshold → cb.state = .closed
  tripped : tripsAt threshold ≤ failures past → ∃ tf, lastFailure past = some tf ∧
    cb.openUntil = some (tf+recovery) ∧ (cb.state = .open ∨ cb.state = .halfOpen ∧ tf+recovery ≤ last) ∧
    cb.probeInFlight = waiting

section
variable {threshold : UInt32} {recovery : Duration} {past : List (Bool × Instant)} {waiting : Bool}
  {last now : Instant} {cb : CircuitBreaker}

theorem new_follows : Follows threshold recovery [] false now (.new threshold recovery) where
  bound := rfl
  window := rfl
  count := rfl
  closed _ := rfl
  tripped many := by
    unfold tripsAt failures at many
    omega

theorem Follows.later (follows : Follows threshold recovery past waiting last cb) (later : last ≤ now) :
    Follows threshold recovery past waiting now cb := by
  refine ⟨follows.bound,follows.window,follows.count,follows.closed,fun many => ?_⟩
  obtain ⟨tf,failed,deadline,stored,flag⟩ := follows.tripped many
  refine ⟨tf,failed,deadline,?_,flag⟩
  rcases stored with shut | ⟨half,passed⟩
  · exact .inl shut
  · exact .inr ⟨half,Nat.le_trans passed later⟩

theorem observe_of_closed (stored : cb.state = .closed) : cb.observe now = cb := by
  unfold observe
  rw [stored]

theorem observe_tripped (deadline : cb.openUntil = some til)
    (stored : cb.state = .open ∨ cb.state = .halfOpen ∧ til ≤ last) (later : last ≤ now) :
    cb.observe now = {cb with state := if til ≤ now then .halfOpen else .open} := by
  obtain ⟨state,count,bound,window,openUntil,flag⟩ := cb
  cases deadline
  rcases stored with shut | ⟨half,passed⟩
  · cases shut
    unfold observe
    by_cases due : til ≤ now <;> simp [due]
  · cases half
    rw [if_pos (Nat.le_trans passed later)]
    rfl

theorem Follows.observe (follows : Follows threshold recovery past waiting last cb) (later : last ≤ now) :
    Follows threshold recovery past waiting now (cb.observe now) := by
  by_cases many : tripsAt threshold ≤ failures past
  · obtain ⟨tf,failed,deadline,stored,flag⟩ := follows.tripped many
    rw [observe_tripped deadline stored later]
    refine ⟨follows.bound,follows.window,follows.count,fun few => absurd many (Nat.not_le.mpr few),?_⟩
    intro _
    refine ⟨tf,failed,deadline,?_,flag⟩
    by_cases due : tf+recovery ≤ now
    · exact .inr ⟨if_pos due,due⟩
    · exact .inl (if_neg due)
  · have shut := follows.closed (Nat.not_le.mp many)
    rw [observe_of_closed shut]
    exact ⟨follows.bound,follows.window,follows.count,follows.closed,fun trips => absurd trips many⟩

theorem Follows.state_closed (follows : Follows threshold recovery past waiting last cb) (later : last ≤ now) :
    (cb.observe now).state = .closed ↔ failures past < tripsAt threshold := by
  by_cases many : tripsAt threshold ≤ failures past
  · obtain ⟨tf,_,deadline,stored,_⟩ := follows.tripped many
    rw [observe_tripped deadline stored later]
    refine ⟨fun shut => ?_,fun few => absurd many (Nat.not_le.mpr few)⟩
    dsimp only at shut
    split at shut <;> cases shut
  · have few := Nat.not_le.mp many
    rw [observe_of_closed (follows.closed few)]
    exact ⟨fun _ => few,fun _ => follows.closed few⟩

theorem Follows.state_open (follows : Follows threshold recovery past waiting last cb) (later : last ≤ now) :
    (cb.observe now).state = .open ↔
      tripsAt threshold ≤ failures past ∧ ∃ tf, lastFailure past = some tf ∧ now < tf+recovery := by
  by_cases many : tripsAt threshold ≤ failures past
  · obtain ⟨tf,failed,deadline,stored,_⟩ := follows.tripped many
    rw [observe_tripped deadline stored later]
    simp [many,failed]
  · rw [observe_of_closed (follows.closed (Nat.not_le.mp many)),follows.closed (Nat.not_le.mp many)]
    simp [many]

theorem Follows.state_halfOpen (follows : Follows threshold recovery past waiting last cb) (later : last ≤ now) :
    (cb.observe now).state = .halfOpen ↔
      tripsAt threshold ≤ failures past ∧ ∃ tf, lastFailure past = some tf ∧ tf+recovery ≤ now := by
  by_cases many : tripsAt threshold ≤ failures past
  · obtain ⟨tf,failed,deadline,stored,_⟩ := follows.tripped many
    rw [observe_tripped deadline stored later]
    simp [many,failed]
  · rw [observe_of_closed (follows.closed (Nat.not_le.mp many)),follows.closed (Nat.not_le.mp many)]
    simp [many]

theorem Follows.probe (follows : Follows threshold recovery past waiting last cb)
    (half : cb.state = .halfOpen) : cb.probeInFlight = waiting := by
  by_cases many : tripsAt threshold ≤ failures past
  · obtain ⟨tf,_,_,_,flag⟩ := follows.tripped many
    exact flag
  · rw [follows.closed (Nat.not_le.mp many)] at half
    cases half

theorem canAttempt_of_closed (stored : (cb.observe now).state = .closed) :
    cb.canAttempt now = (cb.observe now,true) := by
  simp only [canAttempt,stored]

theorem canAttempt_of_open (stored : (cb.observe now).state = .open) :
    cb.canAttempt now = (cb.observe now,false) := by
  simp only [canAttempt,stored]

theorem canAttempt_of_taken (stored : (cb.observe now).state = .halfOpen)
    (taken : (cb.observe now).probeInFlight = true) : cb.canAttempt now = (cb.observe now,false) := by
  simp only [canAttempt,stored,taken,if_true]

theorem canAttempt_of_free (stored : (cb.observe now).state = .halfOpen)
    (free : (cb.observe now).probeInFlight = false) :
    cb.canAttempt now = ({cb.observe now with probeInFlight:=true},true) := by
  simp only [canAttempt,stored,free,Bool.false_eq_true,if_false]

theorem Follows.canAttempt_iff (follows : Follows threshold recovery past waiting last cb) (later : last ≤ now) :
    (cb.canAttempt now).2 = true ↔
      (cb.observe now).state = .closed ∨ (cb.observe now).state = .halfOpen ∧ waiting = false := by
  have seen := follows.observe later
  cases stored : (cb.observe now).state with
  | closed => simp [canAttempt_of_closed stored]
  | «open» => simp [canAttempt_of_open stored]
  | halfOpen =>
    have flag := seen.probe stored
    cases waiting with
    | true => simp [canAttempt_of_taken stored flag]
    | false => simp [canAttempt_of_free stored flag]

theorem Follows.canAttempt (follows : Follows threshold recovery past waiting last cb) (later : last ≤ now) :
    Follows threshold recovery past ((cb.canAttempt now).2 || waiting) now (cb.canAttempt now).1 := by
  have seen := follows.observe later
  cases stored : (cb.observe now).state with
  | closed =>
    rw [canAttempt_of_closed stored]
    refine ⟨seen.bound,seen.window,seen.count,seen.closed,fun many => ?_⟩
    obtain ⟨tf,_,_,other,_⟩ := seen.tripped many
    simp [stored] at other
  | «open» =>
    rw [canAttempt_of_open stored]
    exact seen
  | halfOpen =>
    have flag := seen.probe stored
    cases waiting with
    | true =>
      rw [canAttempt_of_taken stored flag]
      exact seen
    | false =>
      rw [canAttempt_of_free stored flag]
      refine ⟨seen.bound,seen.window,seen.count,seen.closed,fun many => ?_⟩
      obtain ⟨tf,failed,deadline,other,_⟩ := seen.tripped many
      exact ⟨tf,failed,deadline,other,rfl⟩

theorem recordSuccess_follows (kept : cb.failureThreshold = threshold) (window : cb.recoveryTimeout = recovery) :
    Follows threshold recovery ((true,now) :: past) false now cb.recordSuccess where
  bound := kept
  window := window
  count := rfl
  closed _ := rfl
  tripped many := by
    unfold tripsAt failures at many
    omega

theorem failureCount_next (count : cb.failureCount.toNat = n) (room : n+1 < 2^32) : (cb.failureCount+1).toNat = n+1 := by
  rw [UInt32.toNat_add,count]
  exact Nat.mod_eq_of_lt room

-- A half-open circuit has tripped already, so the counter decides alone.
theorem trips_exact (count : cb.failureCount.toNat = n) (bound : cb.failureThreshold = threshold) (room : n+1 < 2^32)
    (closed : n < tripsAt threshold → cb.state = .closed) :
    (cb.failureThreshold ≤ cb.failureCount+1 ∨ cb.state = .halfOpen) ↔ tripsAt threshold ≤ n+1 := by
  have reached : cb.failureThreshold ≤ cb.failureCount+1 ↔ tripsAt threshold ≤ n+1 := by
    rw [UInt32.le_iff_toNat_le,failureCount_next count room,bound]
    unfold tripsAt
    omega
  refine ⟨fun either => ?_,fun many => .inl (reached.mpr many)⟩
  rcases either with full | half
  · exact reached.mp full
  · by_cases many : tripsAt threshold ≤ n
    · omega
    · rw [closed (Nat.not_le.mp many)] at half
      cases half

theorem Follows.recordFailure (follows : Follows threshold recovery past waiting last cb)
    (room : failures past + 1 < 2^32) :
    Follows threshold recovery ((false,now) :: past) false now (cb.recordFailure now) := by
  have counted := failureCount_next follows.count room
  have decided := trips_exact follows.count follows.bound room follows.closed
  unfold CircuitBreaker.recordFailure
  by_cases many : tripsAt threshold ≤ failures past + 1
  · simp only [if_pos (decided.mpr many)]
    refine ⟨follows.bound,follows.window,counted,fun few => absurd many (Nat.not_le.mpr few),fun _ => ?_⟩
    exact ⟨now,rfl,by rw [follows.window],.inl rfl,rfl⟩
  · simp only [if_neg (mt decided.mp many)]
    refine ⟨follows.bound,follows.window,counted,fun _ => ?_,fun trips => absurd trips many⟩
    apply follows.closed
    omega

def Ordered (calls : List (Call × Instant)) : Prop := calls.Pairwise fun late early => early.2 ≤ late.2

theorem observe_settings (cb : CircuitBreaker) (now : Instant) : (cb.observe now).failureThreshold = cb.failureThreshold ∧
    (cb.observe now).recoveryTimeout = cb.recoveryTimeout := by
  unfold observe
  split
  · split <;> exact ⟨rfl,rfl⟩
  · exact ⟨rfl,rfl⟩

theorem respond_settings (cb : CircuitBreaker) (method : Call) (now : Instant) :
    (respond cb method now).1.failureThreshold = cb.failureThreshold ∧
    (respond cb method now).1.recoveryTimeout = cb.recoveryTimeout := by
  cases method with
  | state => exact observe_settings cb now
  | canAttempt =>
    have seen := observe_settings cb now
    unfold respond
    cases stored : (cb.observe now).state with
    | closed => simpa only [canAttempt_of_closed stored] using seen
    | «open» => simpa only [canAttempt_of_open stored] using seen
    | halfOpen =>
      cases flag : (cb.observe now).probeInFlight with
      | true => simpa only [canAttempt_of_taken stored flag] using seen
      | false => simpa only [canAttempt_of_free stored flag] using seen
  | recordSuccess => exact ⟨rfl,rfl⟩
  | recordFailure =>
    simp only [respond,recordFailure]
    split <;> exact ⟨rfl,rfl⟩

theorem life_settings (threshold : UInt32) (recovery : Duration) (calls : List (Call × Instant)) :
    (life threshold recovery calls).1.failureThreshold = threshold ∧
      (life threshold recovery calls).1.recoveryTimeout = recovery := by
  induction calls with
  | nil => exact ⟨rfl,rfl⟩
  | cons call earlier ih =>
    obtain ⟨method,now⟩ := call
    obtain ⟨bound,window⟩ := respond_settings (life threshold recovery earlier).1 method now
    exact ⟨bound.trans ih.1,window.trans ih.2⟩

-- By induction on the calls. Only the failures since the last success are
-- counted, so a bound on these at the end is a bound at every step that matters.
theorem life_follows (threshold : UInt32) (recovery : Duration) (calls : List (Call × Instant)) (ordered : Ordered calls)
    (few : failures (outcomes calls) < 2^32) (bounded : ∀ call ∈ calls, call.2 ≤ now) :
    Follows threshold recovery (outcomes calls) (pending (life threshold recovery calls).2) now
      (life threshold recovery calls).1 := by
  induction calls generalizing now with
  | nil => exact new_follows
  | cons call earlier ih =>
    obtain ⟨method,at_⟩ := call
    obtain ⟨before,rest⟩ := List.pairwise_cons.mp ordered
    have later : at_ ≤ now := bounded _ List.mem_cons_self
    cases method with
    | state => exact ((ih rest few before).observe (Nat.le_refl at_)).later later
    | canAttempt => exact ((ih rest few before).canAttempt (Nat.le_refl at_)).later later
    | recordSuccess =>
      obtain ⟨bound,window⟩ := life_settings threshold recovery earlier
      exact (recordSuccess_follows bound window).later later
    | recordFailure =>
      have fewer : failures (outcomes earlier) < 2^32 := Nat.lt_trans (Nat.lt_succ_self _) few
      exact ((ih rest fewer before).recordFailure few).later later

theorem life_refines_history (threshold : UInt32) (recovery : Duration) (calls : List (Call × Instant))
    (now : Instant) (ordered : Ordered calls) (bounded : ∀ call ∈ calls, call.2 ≤ now)
    (few : failures (outcomes calls) < 2^32) :
    (((life threshold recovery calls).1.observe now).state = .closed ↔
      failures (outcomes calls) < tripsAt threshold) ∧
    (((life threshold recovery calls).1.observe now).state = .open ↔
      tripsAt threshold ≤ failures (outcomes calls) ∧
        ∃ tf, lastFailure (outcomes calls) = some tf ∧ now < tf+recovery) ∧
    (((life threshold recovery calls).1.observe now).state = .halfOpen ↔
      tripsAt threshold ≤ failures (outcomes calls) ∧
        ∃ tf, lastFailure (outcomes calls) = some tf ∧ tf+recovery ≤ now) ∧
    (((life threshold recovery calls).1.canAttempt now).2 = true ↔
      ((life threshold recovery calls).1.observe now).state = .closed ∨
        ((life threshold recovery calls).1.observe now).state = .halfOpen ∧
          pending (life threshold recovery calls).2 = false) ∧
    (∀ others, Ordered others → (∀ call ∈ others, call.2 ≤ now) → outcomes others = outcomes calls →
      ((life threshold recovery others).1.observe now).state =
        ((life threshold recovery calls).1.observe now).state) := by
  have follows := life_follows threshold recovery calls ordered few bounded
  refine ⟨follows.state_closed (Nat.le_refl now),follows.state_open (Nat.le_refl now),
    follows.state_halfOpen (Nat.le_refl now),follows.canAttempt_iff (Nat.le_refl now),?_⟩
  intro others ordered' bounded' same
  have follows' := life_follows threshold recovery others ordered' (same ▸ few) bounded'
  rw [same] at follows'
  cases seen : ((life threshold recovery calls).1.observe now).state with
  | closed => exact (follows'.state_closed (Nat.le_refl now)).mpr ((follows.state_closed (Nat.le_refl now)).mp seen)
  | «open» => exact (follows'.state_open (Nat.le_refl now)).mpr ((follows.state_open (Nat.le_refl now)).mp seen)
  | halfOpen =>
    exact (follows'.state_halfOpen (Nat.le_refl now)).mpr ((follows.state_halfOpen (Nat.le_refl now)).mp seen)

theorem life_refines_history_probed :
    ((life 1 10 [(.canAttempt,12),(.state,3),(.recordFailure,1)]).1.observe 15).state = .halfOpen ∧
      ¬ ((life 1 10 [(.canAttempt,12),(.state,3),(.recordFailure,1)]).1.canAttempt 15).2 = true := by
  obtain ⟨_,_,half,admits,_⟩ := life_refines_history 1 10 [(.canAttempt,12),(.state,3),(.recordFailure,1)] 15
    (by unfold Ordered; decide) (by decide) (by decide)
  have seen := half.mpr ⟨by decide,1,rfl,by decide⟩
  refine ⟨seen,fun accepted => ?_⟩
  rcases admits.mp accepted with shut | ⟨_,idle⟩
  · exact absurd (seen.symm.trans shut) (by decide)
  · exact absurd idle (by decide)

end
end AetherRelay.CircuitBreaker
