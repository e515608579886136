import Mathlib.Algebra.GroupWithZero.Nat
import Mathlib.Algebra.Order.BigOperators.Group.List
import AetherRelay.Lib.Measure
import AetherRelay.System.PassEffect

namespace AetherRelay

structure CircuitBreaker.Rested (cb : CircuitBreaker) : Prop where
  free : cb.probeInFlight = false
  timed : cb.state = .open → cb.openUntil ≠ none

namespace CircuitBreaker

theorem new_rested (threshold : UInt32) (recovery : Duration) : (new threshold recovery).Rested :=
  ⟨rfl,fun wrong => by cases wrong⟩

theorem Rested.admitted {cb : CircuitBreaker} (rested : cb.Rested) (late : ∀ til, cb.openUntil = some til → til ≤ now) :
    (cb.canAttempt now).2 = true := by
  obtain ⟨free,timed⟩ := rested
  obtain ⟨state,failures,threshold,recovery,window,probe⟩ := cb
  have free : probe = false := free
  subst free
  cases state with
  | closed => rfl
  | halfOpen => rfl
  | «open» =>
    cases window with
    | none => exact absurd rfl (timed rfl)
    | some til =>
      have passed : til ≤ now := late til rfl
      simp [canAttempt,observe,passed]

theorem recorded_rested {cb : CircuitBreaker} (admitted : (cb.canAttempt now).2 = true) (success : Bool)
    (later : Instant) : ((cb.canAttempt now).1.record success later).Rested := by
  have known : (cb.canAttempt now).1.state ≠ .open := by
    intro is
    unfold canAttempt at is admitted
    dsimp only at is admitted
    cases seen : (cb.observe now).state with
    | closed => simp [seen] at is
    | halfOpen =>
      simp only [seen] at is
      split at is <;> simp [seen] at is
    | «open» => simp [seen] at admitted
  cases success with
  | true => exact ⟨rfl,fun wrong => by cases wrong⟩
  | false =>
    refine ⟨rfl,fun is => ?_⟩
    simp only [record,recordFailure,Bool.false_eq_true,if_false] at is ⊢
    split at is
    · rename_i tripped
      rw [if_pos tripped]
      simp
    · exact absurd is known

end CircuitBreaker

def share (cfg : DispatchLoopConfig) (st : EventStatus) (attempts : Nat) : Nat :=
  if st = .received then max 1 (cfg.maxAttempts.toNat - attempts) else 0

def Db.workload (cfg : DispatchLoopConfig) (db : Db) : Nat :=
  (db.incomingEvents.rows.map fun e => share cfg e.status (db.attemptCount e.id)).sum

theorem share_received (cfg : DispatchLoopConfig) (attempts : Nat) : 1 ≤ share cfg .received attempts := by
  rw [share,if_pos rfl]
  exact Nat.le_max_left _ _

theorem share_delivered (cfg : DispatchLoopConfig) (answer : Answer) (attempts : Nat) :
    share cfg (statusAfter cfg (attempts+1) answer) (attempts+1) < share cfg .received attempts := by
  have some' := share_received cfg attempts
  unfold statusAfter
  split
  · exact some'
  · split
    · exact some'
    · rename_i failed left
      simp only [share,if_true]
      omega

theorem workload_zero {cfg : DispatchLoopConfig} {db : Db} :
    db.workload cfg = 0 ↔ ∀ e ∈ db.incomingEvents.rows, e.status ≠ .received := by
  rw [Db.workload,List.sum_eq_zero_iff]
  constructor
  · intro none e member waiting
    have zero := none _ (List.mem_map_of_mem member)
    have some' := share_received cfg (db.attemptCount e.id)
    rw [waiting] at zero
    omega
  · intro none n member
    obtain ⟨e,inside,rfl⟩ := List.mem_map.mp member
    exact if_neg (none e inside)

section
variable {cfg : DispatchLoopConfig} {answer : Answer} {row : IncomingEventRecord} {before after : Db}

theorem DeliveryWrites.attemptCount (writes : DeliveryWrites cfg answer row before after) (k : Uuid) :
    after.attemptCount k = before.attemptCount k + if k = row.id then 1 else 0 := by
  obtain ⟨a,rows,event,_⟩ := writes.attempts
  rw [Db.attemptCount,Db.attempts,rows,List.filter_append,List.length_append,Db.attemptCount,Db.attempts]
  congr 1
  by_cases mine : k = row.id
  · simp [mine,event]
  · have other : a.eventId ≠ k := by
      rw [event]
      exact Ne.symm mine
    simp [mine,other]

theorem DeliveryWrites.workload (writes : DeliveryWrites cfg answer row before after) (head : Oldest before row) :
    after.workload cfg < before.workload cfg := by
  have mine : share cfg (statusAfter cfg (before.attemptCount row.id + 1) answer) (after.attemptCount row.id) <
      share cfg row.status (before.attemptCount row.id) := by
    rw [writes.attemptCount,if_pos rfl,head.waiting]
    exact share_delivered cfg answer _
  rw [Db.workload,Db.workload,writes.events,List.map_map]
  apply List.sum_lt_sum
  · intro e member
    simp only [Function.comp_apply]
    split
    · rename_i same
      obtain rfl := Table.eq_of_key member head.stored same
      exact Nat.le_of_lt mine
    · rename_i other
      rw [writes.attemptCount,if_neg other]
      exact Nat.le_refl _
  · refine ⟨row,head.stored,?_⟩
    simp only [Function.comp_apply,if_true]
    exact mine

structure Worked (before after : Db) : Prop where
  rows : ∀ k row, before.event k = some row → ∃ st, after.event k = some (row.withStatus st) ∧
    (row.status ≠ .received → st = row.status) ∧
    (row.status = .received → st = .received ∨ st = .delivered ∨
      (st = .failed ∧ ∃ letter ∈ after.deadLetterQueue.rows, letter.eventId = k))
  letters : ∀ k, (∃ letter ∈ before.deadLetterQueue.rows, letter.eventId = k) →
    ∃ letter ∈ after.deadLetterQueue.rows, letter.eventId = k

theorem Worked.refl (db : Db) : Worked db db := by
  refine ⟨fun k row found => ⟨row.status,?_,fun _ => rfl,fun waiting => .inl waiting⟩,fun _ there => there⟩
  rw [found,IncomingEventRecord.withStatus_self]

theorem Worked.trans (one : Worked a b) (two : Worked b c) : Worked a c := by
  refine ⟨fun k row found => ?_,fun k there => two.letters k (one.letters k there)⟩
  obtain ⟨st,middle,settled,waiting⟩ := one.rows k row found
  obtain ⟨st',last,settled',waiting'⟩ := two.rows k _ middle
  rw [IncomingEventRecord.withStatus_twice] at last
  rw [IncomingEventRecord.withStatus_status] at settled' waiting'
  refine ⟨st',last,fun was => ?_,fun was => ?_⟩
  · have same := settled was
    subst same
    exact settled' was
  · rcases waiting was with is | is | ⟨is,there⟩
    · exact waiting' is
    · exact .inr (.inl ((settled' (by simp [is])).trans is))
    · exact .inr (.inr ⟨(settled' (by simp [is])).trans is,two.letters k there⟩)

theorem DeliveryWrites.worked (writes : DeliveryWrites cfg answer row before after) (head : Oldest before row) :
    Worked before after := by
  have filed : statusAfter cfg (before.attemptCount row.id + 1) answer = .failed →
      ∃ letter ∈ after.deadLetterQueue.rows, letter.eventId = row.id := by
    intro failed
    obtain ⟨letter,rows,event,_⟩ := writes.filed failed
    exact ⟨letter,by rw [rows]; exact List.mem_append_right _ (List.mem_singleton_self _),event⟩
  constructor
  · intro k e found
    obtain ⟨stored,named⟩ := Db.event_mem found
    by_cases mine : e.id = row.id
    · obtain rfl := Table.eq_of_key stored head.stored mine
      refine ⟨statusAfter cfg (before.attemptCount e.id + 1) answer,?_,fun was => absurd head.waiting was,fun _ => ?_⟩
      · apply Table.lookup_exact.mpr
        rw [writes.events]
        exact ⟨List.mem_map.mpr ⟨e,stored,if_pos rfl⟩,named⟩
      · cases status : statusAfter cfg (before.attemptCount e.id + 1) answer with
        | received => exact .inl rfl
        | delivered => exact .inr (.inl rfl)
        | failed =>
          rw [← named]
          exact .inr (.inr ⟨rfl,filed status⟩)
        | processing =>
          unfold statusAfter at status
          split at status
          · cases status
          · split at status <;> cases status
    · refine ⟨e.status,?_,fun _ => rfl,fun waiting => .inl waiting⟩
      apply Table.lookup_exact.mpr
      rw [writes.events,IncomingEventRecord.withStatus_self]
      exact ⟨List.mem_map.mpr ⟨e,stored,if_neg mine⟩,named⟩
  · rintro k ⟨letter,stored,named⟩
    by_cases failed : statusAfter cfg (before.attemptCount row.id + 1) answer = .failed
    · by_cases mine : k = row.id
      · rw [mine]
        exact filed failed
      · obtain ⟨new,rows,_⟩ := writes.filed failed
        refine ⟨letter,?_,named⟩
        rw [rows]
        exact List.mem_append_left _ (List.mem_filter.mpr ⟨stored,by simpa [named] using mine⟩)
    · rw [writes.kept failed]
      exact ⟨letter,stored,named⟩

end

def passStep (x : Externals) (cfg : DispatchLoopConfig) (w : World) (inp : Point → Input) : Option World :=
  some (runDispatchOnce x cfg inp w).1

def Patient (w : World) (inp : Point → Input) : Prop :=
  ∀ row cb til, w.db.nextReceived = some row → w.breakers row.endpointId = some cb → cb.openUntil = some til →
    til ≤ (inp .checkBreaker).instant

structure AtRest (x : Externals) (w : World) : Prop where
  supplied : w.Supplied x
  breakers : ∀ k cb, w.breakers k = some cb → cb.Rested
  room : ∀ e ∈ w.db.incomingEvents.rows, e.status = .received → w.db.attemptCount e.id + 1 < 2^32

def Happening.isPost : Happening → Bool
  | .posted _ _ _ _ => true
  | _ => false

def World.requests (w : World) : Nat := w.history.countP (·.isPost)

inductive Pace (cfg : DispatchLoopConfig) (w next : World) : Prop where
  | idle (done : w.db.workload cfg = 0) (same : next = w)
  | delivered (answer : Answer) (head : Oldest w.db row) (writes : DeliveryWrites cfg answer row w.db next.db)
      (breakers : ∀ k cb, next.breakers k = some cb → cb.Rested) (sent : next.requests = w.requests+1)

section
variable {x : Externals} {cfg : DispatchLoopConfig} {w next : World} {inp : Point → Input}

theorem AtRest.pace (rest : AtRest x w) (clean : Clean inp) (patient : Patient w inp) :
    Pace cfg w (runDispatchOnce x cfg inp w).1 := by
  have room : RoomForOne w.db := by
    intro row head
    obtain ⟨stored,waiting⟩ := Db.nextReceived_status head
    exact rest.room row stored waiting
  have effect : PassEffect cfg inp w (runDispatchOnce x cfg inp w).1 (runDispatchOnce x cfg inp w).2 :=
    runDispatchOnce_effect rest.supplied clean room
  generalize (runDispatchOnce x cfg inp w).2 = outcome at effect
  generalize ended : (runDispatchOnce x cfg inp w).1 = next at effect
  cases effect with
  | idle empty => exact .idle (workload_zero.mpr empty) rfl
  | @deferred row _ head refused db breakers history =>
    have first := Db.nextReceived_exact.mpr ⟨head.stored,head.waiting,head.first⟩
    have admitted : (admission cfg inp w row.endpointId).2 = true := by
      unfold admission Breakers.entry
      cases known : w.breakers row.endpointId with
      | none => exact (CircuitBreaker.new_rested _ _).admitted fun til wrong => by cases wrong
      | some cb => exact (rest.breakers _ cb known).admitted fun til shut => patient row cb til first known shut
    rw [admitted] at refused
    cases refused
  | @settled row _ endpoint head admitted parent writes breakers history =>
    refine .delivered (inp .await).answer head writes (fun k cb known => ?_) ?_
    · rw [breakers] at known
      by_cases mine : k = row.endpointId
      · rw [mine,Function.update_self] at known
        obtain rfl := Option.some.inj known
        exact CircuitBreaker.recorded_rested admitted _ _
      · rw [Function.update_of_ne mine] at known
        exact rest.breakers k cb known
    · simp [World.requests,history,Happening.isPost]

theorem Pace.lowers (pace : Pace cfg w next) : next.db.workload cfg < w.db.workload cfg ∨ next.db.workload cfg = 0 := by
  cases pace with
  | idle done same => exact .inr (same ▸ done)
  | delivered answer head writes breakers sent => exact .inl (writes.workload head)

theorem Pace.worked (pace : Pace cfg w next) : Worked w.db next.db := by
  cases pace with
  | idle done same => exact same ▸ .refl w.db
  | delivered answer head writes breakers sent => exact writes.worked head

theorem Pace.frugal (pace : Pace cfg w next) :
    next.requests + next.db.workload cfg ≤ w.requests + w.db.workload cfg := by
  cases pace with
  | idle done same => exact same ▸ Nat.le_refl _
  | delivered answer head writes breakers sent =>
    have less := writes.workload head
    omega

theorem Pace.room (pace : Pace cfg w next)
    (old : ∀ e ∈ w.db.incomingEvents.rows, e.status = .received → w.db.attemptCount e.id + 1 < 2^32) :
    ∀ e ∈ next.db.incomingEvents.rows, e.status = .received → next.db.attemptCount e.id + 1 < 2^32 := by
  cases pace with
  | idle done same => exact same ▸ old
  | @delivered row answer head writes breakers sent =>
    intro e member waiting
    rw [writes.events] at member
    obtain ⟨was,stored,rfl⟩ := List.mem_map.mp member
    by_cases mine : was.id = row.id
    · rw [if_pos mine] at waiting ⊢
      have small : cfg.maxAttempts.toNat < 2^32 := cfg.maxAttempts.toNat_lt
      rw [IncomingEventRecord.withStatus_status] at waiting
      unfold statusAfter at waiting
      split at waiting
      · cases waiting
      · split at waiting
        · cases waiting
        · rw [IncomingEventRecord.withStatus_id,writes.attemptCount,if_pos mine,mine]
          omega
    · rw [if_neg mine] at waiting ⊢
      rw [writes.attemptCount,if_neg mine]
      exact old was stored waiting

theorem AtRest.passed (rest : AtRest x w) (clean : Clean inp) (patient : Patient w inp) :
    AtRest x (runDispatchOnce x cfg inp w).1 := by
  have pace : Pace cfg w (runDispatchOnce x cfg inp w).1 := rest.pace clean patient
  refine ⟨runDispatchOnce_supplied inp rest.supplied,?_,pace.room rest.room⟩
  cases pace with
  | idle done same =>
    rw [same]
    exact rest.breakers
  | delivered answer head writes breakers sent => exact breakers

-- Whatever the downstream servers answer, the queue is worked off: after as many
-- passes as it can cause deliveries it is empty, every event that waited in it is
-- DELIVERED or parked with a letter, all other events are as they were, and no more
-- requests were sent than passes were needed.
theorem queue_worked_off (rest : AtRest x w)
    (path : Transition.Run (passStep x cfg) (fun w inp => Clean inp ∧ Patient w inp) w inputs t)
    (long : w.db.workload cfg ≤ inputs.length) :
    t.db.nextReceived = none ∧
    (∀ k row, w.db.event k = some row → row.status = .received →
      t.db.event k = some (row.withStatus .delivered) ∨ (t.db.event k = some (row.withStatus .failed) ∧
        ∃ letter ∈ t.db.deadLetterQueue.rows, letter.eventId = k)) ∧
    (∀ k row, w.db.event k = some row → row.status ≠ .received → t.db.event k = some row) ∧
    t.requests ≤ w.requests + w.db.workload cfg := by
  have kept : ∀ u inp v, AtRest x u → Clean inp ∧ Patient u inp → passStep x cfg u inp = some v → AtRest x v := by
    rintro u inp v resting ⟨clean,patient⟩ moved
    cases Option.some.inj moved
    exact resting.passed clean patient
  have paced : ∀ u inp v, AtRest x u → Clean inp ∧ Patient u inp → passStep x cfg u inp = some v → Pace cfg u v := by
    rintro u inp v resting ⟨clean,patient⟩ moved
    cases Option.some.inj moved
    exact resting.pace clean patient
  have empty : t.db.workload cfg = 0 :=
    path.finished (fun u => u.db.workload cfg) (AtRest x) kept
      (fun u inp v resting allowed moved => (paced u inp v resting allowed moved).lowers) rest long
  have done : AtRest x t ∧ Worked w.db t.db ∧ t.requests + t.db.workload cfg ≤ w.requests + w.db.workload cfg := by
    refine path.preserves
      (fun u => AtRest x u ∧ Worked w.db u.db ∧ u.requests + u.db.workload cfg ≤ w.requests + w.db.workload cfg)
      ?_ ⟨rest,.refl w.db,Nat.le_refl _⟩
    rintro u inp v ⟨resting,worked,frugal⟩ allowed moved
    have pace := paced u inp v resting allowed moved
    exact ⟨kept u inp v resting allowed moved,worked.trans pace.worked,Nat.le_trans pace.frugal frugal⟩
  obtain ⟨_,worked,frugal⟩ := done
  have drained := workload_zero.mp empty
  refine ⟨Db.nextReceived_none.mpr drained,fun k row found waiting => ?_,fun k row found settled => ?_,by omega⟩
  · obtain ⟨st,now,_,outcome⟩ := worked.rows k row found
    rcases outcome waiting with is | is | ⟨is,letter⟩
    · subst is
      exact absurd rfl (drained _ (Db.event_mem now).1)
    · exact .inl (is ▸ now)
    · exact .inr ⟨is ▸ now,letter⟩
  · obtain ⟨st,now,same,_⟩ := worked.rows k row found
    rw [now,same settled,IncomingEventRecord.withStatus_self]

theorem atRest_restarted {cfg : AppConfig} {s : System.State} (supplied : System.Supplied x s)
    (room : ∀ e ∈ s.world.db.incomingEvents.rows, e.status = .received → s.world.db.attemptCount e.id + 1 < 2^32) :
    AtRest x (System.terminate cfg s).world :=
  ⟨supplied.world.keep rfl rfl fun _ member => member,fun k cb known => (by cases known),room⟩

end

def refusing : Point → Input := fun _ => ⟨none,0,0,.error "connection refused",0⟩

theorem queue_worked_off_parked :
    ∃ s t, Transition.exec (System.step .tabletop System.budgetOfOne) (System.boot System.budgetOfOne)
        System.registerAndAccept = some s ∧
      Transition.Run (passStep .tabletop (System.loopConfig System.budgetOfOne)) (fun w inp => Clean inp ∧ Patient w inp)
        (System.terminate System.budgetOfOne s).world [refusing] t ∧
      t.db.nextReceived = none := by
  have ran : (Transition.exec (System.step .tabletop System.budgetOfOne) (System.boot System.budgetOfOne)
      System.registerAndAccept).map (fun s => (s.world.db.workload (System.loopConfig System.budgetOfOne),
        s.world.db.incomingEvents.rows.map fun e => s.world.db.attemptCount e.id)) = some (1,[0]) := by decide +kernel
  obtain ⟨s,reached,seen⟩ := Option.map_eq_some_iff.mp ran
  obtain ⟨work,counts⟩ := Prod.mk.inj seen
  have supplied := (System.boot_booted .tabletop System.budgetOfOne).supplied_after
    (Transition.Run.check (fun _ _ => True) reached (.all fun _ _ => trivial))
  have room : ∀ e ∈ s.world.db.incomingEvents.rows, e.status = .received →
      s.world.db.attemptCount e.id + 1 < 2^32 := by
    intro e member _
    have listed := List.mem_map_of_mem (f:=fun e => s.world.db.attemptCount e.id) member
    rw [counts,List.mem_singleton] at listed
    omega
  have path : Transition.Run (passStep .tabletop (System.loopConfig System.budgetOfOne))
      (fun w inp => Clean inp ∧ Patient w inp) (System.terminate System.budgetOfOne s).world ([] ++ [refusing]) _ :=
    .snoc .nil ⟨fun _ => rfl,fun row cb til _ known => by cases known⟩ rfl
  have done := queue_worked_off (atRest_restarted supplied room) path (Nat.le_of_eq work)
  exact ⟨s,_,reached,path,done.1⟩

end AetherRelay
