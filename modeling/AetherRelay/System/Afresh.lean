import AetherRelay.System.Record

namespace AetherRelay

def Record.failures (r : Record) : Nat := r.answers.countP (fun a => !a.success)

-- `n` attempts have been recorded since `base`, each for a failed request, and
-- one more may follow.
structure HasBudget (m base n : Nat) (r : Record) : Prop where
  left : n < max 1 m
  paid : base + n ≤ r.failures

def DispatchPc.Afresh (m base n : Nat) (r : Record) : DispatchPc → Prop
  | .updateBreaker _ _ answer | .insertAttempt _ answer =>
    r.status = some .processing ∧ HasBudget m base n r ∧ (answer.success = false → base + n + 1 ≤ r.failures)
  | .updateStatus d answer _ =>
    r.status = some .processing ∧ n = d.attemptCount+1 ∧ n ≤ max 1 m ∧
      (answer.success = false → base + n ≤ r.failures)
  | .insertDeadLetter _ _ _ => r.status = some .failed
  | .done _ (.ok _) => True
  | _ => r.status = some .processing ∧ HasBudget m base n r

def WorkerPc.Afresh (m base n : Nat) (r : Record) : WorkerPc → Prop
  | .dispatching _ _ pc => pc.Afresh m base n r
  | .requeueing _ _ => r.status = some .processing ∧ HasBudget m base n r
  | _ => True

-- What holds of an event whose attempts are counted from one again: `attempts`
-- are the rows that count.
structure Afresh (m base : Nat) (attempts : List DeliveryAttempt) (r : Record) (point : Prop) : Prop where
  numbers : attempts.map (·.attemptNumber) = List.range' 1 attempts.length
  point : point
  waiting : r.status = some .received → HasBudget m base attempts.length r
  failed : r.status = some .failed → base + m ≤ r.failures

namespace Record

theorem failures_answered (r : Record) (answer : Answer) :
    Record.failures {r with answers:=answer :: r.answers} = r.failures + (if answer.success then 0 else 1) := by
  unfold failures
  rw [List.countP_cons]
  cases answer.success <;> rfl

end Record

theorem HasBudget.mono (old : HasBudget m base n r) (more : r.failures ≤ r'.failures) : HasBudget m base n r' :=
  ⟨old.left,Nat.le_trans old.paid more⟩

theorem WorkerPc.Afresh.congr {pc : WorkerPc} (old : pc.Afresh m base n r) (status : r'.status = r.status)
    (failures : r'.failures = r.failures) : pc.Afresh m base n r' := by
  have budget : HasBudget m base n r → HasBudget m base n r' := fun has => has.mono (Nat.le_of_eq failures.symm)
  cases pc with
  | idle => trivial
  | finished result => trivial
  | requeueing k cause => exact ⟨status.trans old.1,budget old.2⟩
  | dispatching claimed parent pc =>
    cases pc with
    | updateBreaker d mode answer => exact ⟨status.trans old.1,budget old.2.1,fun no => failures ▸ old.2.2 no⟩
    | insertAttempt d answer => exact ⟨status.trans old.1,budget old.2.1,fun no => failures ▸ old.2.2 no⟩
    | updateStatus d answer now =>
      exact ⟨status.trans old.1,old.2.1,old.2.2.1,fun no => failures ▸ old.2.2.2 no⟩
    | insertDeadLetter d answer now => exact status.trans old
    | done k result =>
      cases result with
      | ok value => trivial
      | error cause => exact ⟨status.trans old.1,budget old.2⟩
    | _ => exact ⟨status.trans old.1,budget old.2⟩

theorem Afresh.congr {pc : WorkerPc} (old : Afresh m base attempts r (engaged → pc.Afresh m base attempts.length r))
    (status : r'.status = r.status) (failures : r'.failures = r.failures) :
    Afresh m base attempts r' (engaged → pc.Afresh m base attempts.length r') where
  numbers := old.numbers
  point has := (old.point has).congr status failures
  waiting now := (old.waiting (status.symm.trans now)).mono (Nat.le_of_eq failures.symm)
  failed now := failures ▸ old.failed (status.symm.trans now)

section
variable {x : Externals} {cfg : DispatchLoopConfig} {inp : Input} {w next : World} {pc after : DispatchPc}
  {attempts : List DeliveryAttempt} {new : Uuid}

theorem DispatchStep.afresh (effect : DispatchStep x cfg inp w pc next after) (live : inp.fault = none)
    (elsewhere : ∀ d answer, pc ≠ .insertAttempt d answer)
    (old : Afresh cfg.maxAttempts.toNat base attempts (w.record pc.eventId)
      (pc.Afresh cfg.maxAttempts.toNat base attempts.length (w.record pc.eventId))) :
    Afresh cfg.maxAttempts.toNat base attempts (next.record pc.eventId)
      (after.Afresh cfg.maxAttempts.toNat base attempts.length (next.record pc.eventId)) := by
  obtain ⟨numbers,point,waiting,failed⟩ := old
  have small : cfg.maxAttempts.toNat < 2^32 := cfg.maxAttempts.toNat_lt
  cases effect with
  | selectEvent _ found => exact ⟨numbers,point,waiting,failed⟩
  | selectEndpoint _ found => exact ⟨numbers,point,waiting,failed⟩
  | countAttempts _ fits => exact ⟨numbers,point,waiting,failed⟩
  | withheld refused => exact ⟨numbers,point,waiting,failed⟩
  | admitted open' => exact ⟨numbers,point,waiting,failed⟩
  | @requeueDeferred _ d _ =>
    obtain ⟨held,budget⟩ := point
    have held : (w.record d.eventId).status = some .processing := held
    refine (World.record_withStatus w d.eventId .received).symm ▸ ⟨numbers,trivial,fun _ => ⟨budget.left,budget.paid⟩,?_⟩
    intro now
    rw [Record.status_withStatus,held] at now
    cases now
  | @send _ d mode =>
    refine (World.record_posted w d.eventId d.endpointId d.targetUrl d.rawBody).symm ▸ ?_
    exact ⟨numbers,⟨point.1,point.2.left,point.2.paid⟩,fun now => ⟨(waiting now).left,(waiting now).paid⟩,failed⟩
  | @await _ d mode =>
    obtain ⟨held,budget⟩ := point
    have held : (w.record d.eventId).status = some .processing := held
    have budget : HasBudget cfg.maxAttempts.toNat base attempts.length (w.record d.eventId) := budget
    have counted := (w.record d.eventId).failures_answered inp.answer
    have more : (w.record d.eventId).failures ≤
        Record.failures {w.record d.eventId with answers:=inp.answer :: (w.record d.eventId).answers} := by
      rw [counted]
      exact Nat.le_add_right _ _
    refine (World.record_answered w d.eventId inp.answer).symm ▸ ⟨numbers,⟨held,budget.mono more,?_⟩,?_,?_⟩
    · intro no
      rw [counted,no]
      exact Nat.succ_le_succ budget.paid
    · intro now
      exact budget.mono more
    · intro now
      cases held.symm.trans now
  | updateBreaker => exact ⟨numbers,point,waiting,failed⟩
  | insertAttempt _ stored => exact absurd rfl (elsewhere _ _)
  | @exhausted d answer _ now _ spent =>
    obtain ⟨held,count,few,paid⟩ := point
    have held : (w.record d.eventId).status = some .processing := held
    obtain ⟨no,high⟩ := settledStatus_failed spent
    have paid : base + attempts.length ≤ (w.record d.eventId).failures := paid no
    have parked : ((w.record d.eventId).withStatus .failed).status = some .failed := by
      rw [Record.status_withStatus,held]
      rfl
    refine (World.record_withStatus w d.eventId .failed).symm ▸ ⟨numbers,parked,?_,fun _ => ?_⟩
    · intro waits
      cases parked.symm.trans waits
    · rw [Delivery.attemptNum_fits (by omega),← count] at high
      exact Nat.le_trans (Nat.add_le_add_left high base) paid
  | @settled d answer _ now _ other =>
    obtain ⟨held,count,few,paid⟩ := point
    have held : (w.record d.eventId).status = some .processing := held
    have after : ((w.record d.eventId).withStatus (settledStatus cfg d answer)).status =
        some (settledStatus cfg d answer) := by
      rw [Record.status_withStatus,held]
      rfl
    refine (World.record_withStatus w d.eventId (settledStatus cfg d answer)).symm ▸ ⟨numbers,trivial,?_,?_⟩
    · intro waits
      obtain ⟨no,left⟩ := settledStatus_received (Option.some.inj (after.symm.trans waits))
      rw [Delivery.attemptNum_fits (by omega),← count] at left
      exact ⟨by omega,paid no⟩
    · intro gone
      exact absurd (Option.some.inj (after.symm.trans gone)) other
  | @insertDeadLetter _ d answer now _ _ stored =>
    refine (World.record_replaceLetter (n:=w.drawn+1) stored).symm ▸ ?_
    exact ⟨numbers,trivial,fun waits => ⟨(waiting waits).left,(waiting waits).paid⟩,failed⟩
  | failed cause =>
    refine ⟨numbers,?_,waiting,failed⟩
    have blocked := perform_error live cause
    cases pc with
    | insertDeadLetter d answer now =>
      have gone : (w.record d.eventId).row = none := blocked
      have held : (w.record d.eventId).status = some .failed := point
      rw [Record.status,gone] at held
      cases held
    | insertAttempt d answer => exact absurd rfl (elsewhere _ _)
    | selectEvent e => exact point
    | selectEndpoint e endpointId body => exact point
    | countAttempts e endpointId body url => exact point
    | _ => exact blocked.elim

theorem insertAttempt_afresh (now' : Nat) (stored : w.db.insertAttempt (d.attempt answer new now) = .ok db)
    (exact' : d.attemptCount = attempts.length)
    (old : Afresh cfg.maxAttempts.toNat base attempts (w.record d.eventId)
      (DispatchPc.Afresh cfg.maxAttempts.toNat base attempts.length (w.record d.eventId) (.insertAttempt d answer))) :
    Afresh cfg.maxAttempts.toNat base (attempts ++ [d.attempt answer new now])
      (World.record {w with db:=db,drawn:=w.drawn+1} d.eventId)
      (DispatchPc.Afresh cfg.maxAttempts.toNat base (attempts ++ [d.attempt answer new now]).length
        (World.record {w with db:=db,drawn:=w.drawn+1} d.eventId) (.updateStatus d answer now')) := by
  obtain ⟨numbers,⟨held,budget,paid⟩,waiting,failed⟩ := old
  have held : (w.record d.eventId).status = some .processing := held
  have small : cfg.maxAttempts.toNat < 2^32 := cfg.maxAttempts.toNat_lt
  have left := budget.left
  have number : d.attemptNum = attempts.length+1 := by
    rw [← exact']
    exact Delivery.attemptNum_fits (by omega)
  have longer : (attempts ++ [d.attempt answer new now]).length = attempts.length+1 := List.length_append
  have record := World.record_insertAttempt (n:=w.drawn+1) stored
  change World.record _ d.eventId = _ at record
  rw [record]
  refine ⟨?_,⟨held,?_,?_,?_⟩,?_,?_⟩
  · rw [List.map_append,numbers,longer,List.range'_concat,List.map_singleton]
    simp only [Delivery.attempt,number]
    rw [Nat.one_mul,Nat.add_comm]
  · rw [longer,exact']
  · rw [longer]
    exact left
  · rw [longer]
    exact paid
  · intro waits
    cases held.symm.trans waits
  · intro gone
    cases held.symm.trans gone

theorem WorkerStep.afresh {worker done : Worker} (effect : WorkerStep x cfg inp w worker next done)
    (supplied : w.Supplied x) (live : inp.fault = none) (coherent : worker.Coherent)
    (elsewhere : ∀ claimed parent d answer, worker.pc = .dispatching claimed parent (.insertAttempt d answer) →
      d.eventId ≠ e)
    (old : Afresh cfg.maxAttempts.toNat base attempts (w.record e)
      (worker.engaged = some e → worker.pc.Afresh cfg.maxAttempts.toNat base attempts.length (w.record e))) :
    Afresh cfg.maxAttempts.toNat base attempts (next.record e)
      (done.engaged = some e → done.pc.Afresh cfg.maxAttempts.toNat base attempts.length (next.record e)) := by
  by_cases touched : worker.engaged = some e ∨ done.engaged = some e
  · obtain ⟨pc,p⟩ := worker
    obtain ⟨after,q⟩ := done
    cases effect.concerns coherent touched with
    | claim clean head =>
      rename_i row
      have waits : (w.record row.id).status = some .received := Db.nextReceived_waiting head
      have held : ((w.record row.id).withStatus .processing).status = some .processing := by
        rw [Record.status_withStatus,waits]
        rfl
      have budget := old.waiting waits
      refine (World.record_withStatus w row.id .processing).symm ▸ ⟨old.numbers,fun _ => ⟨held,budget.left,budget.paid⟩,?_,?_⟩
      · intro now
        cases held.symm.trans now
      · intro now
        cases held.symm.trans now
    | @dispatch pc _ _ _ _ moved =>
      have apart : ∀ d answer, pc ≠ .insertAttempt d answer := by
        intro d answer same
        subst same
        exact elsewhere _ _ _ _ rfl rfl
      have each := moved.afresh live apart ⟨old.numbers,old.point moved.engaged,old.waiting,old.failed⟩
      exact ⟨each.numbers,fun _ => each.point,each.waiting,each.failed⟩
    | errored cause =>
      rw [World.record_log rfl rfl]
      exact ⟨old.numbers,fun _ => old.point rfl,old.waiting,old.failed⟩
    | requeued clean =>
      obtain ⟨held,budget⟩ := old.point rfl
      refine (World.record_withStatus w e .received).symm ▸ ⟨old.numbers,fun none => (by cases none),?_,?_⟩
      · intro _
        exact ⟨budget.left,budget.paid⟩
      · intro now
        rw [Record.status_withStatus,held] at now
        cases now
    | stranded fault => rw [live] at fault; cases fault
  · have before : worker.engaged ≠ some e := fun has => touched (.inl has)
    have after : done.engaged ≠ some e := fun has => touched (.inr has)
    rw [effect.frame supplied coherent before after]
    exact ⟨old.numbers,fun has => absurd has after,old.waiting,old.failed⟩

theorem WorkerStep.keeps_attempts {worker done : Worker} (effect : WorkerStep x cfg inp w worker next done)
    (elsewhere : ∀ claimed parent d answer, worker.pc = .dispatching claimed parent (.insertAttempt d answer) →
      d.eventId ≠ e) : next.db.attempts e = w.db.attempts e := by
  cases effect with
  | dispatch moved =>
    cases moved with
    | insertAttempt live stored =>
      exact (Db.attempts_insertAttempt stored).trans (if_neg (elsewhere _ _ _ _ rfl))
    | insertDeadLetter live stored =>
      obtain ⟨_,_,_,_,attempts⟩ := Db.replaceLetter_parts stored
      exact Db.attempts_congr attempts
    | _ => rfl
  | _ => rfl

theorem WorkerStep.records {worker done : Worker} (effect : WorkerStep x cfg inp w worker next done)
    (at' : worker.pc = .dispatching claimed parent (.insertAttempt d answer)) (supplied : w.Supplied x)
    (live : inp.fault = none) (present : w.db.event d.eventId ≠ none) :
    ∃ db, w.db.insertAttempt (d.attempt answer (x.nowV7 w.drawn) inp.now) = .ok db ∧
      next = {w with db:=db,drawn:=w.drawn+1} ∧ done.pc = .dispatching claimed parent (.updateStatus d answer inp.now) := by
  cases effect with
  | dispatch moved =>
    cases at'
    cases moved with
    | insertAttempt _ stored => exact ⟨_,stored,rfl,rfl⟩
    | failed cause =>
      rcases perform_error live cause with taken | gone
      · exact absurd taken supplied.fresh_attempt
      · exact absurd gone present
  | _ => cases at'

end

namespace ReplayPc

def clearing : ReplayPc → Bool
  | .deleteAttempts _ _ => true
  | _ => false

def counting (pc : ReplayPc) (r : Record) : List DeliveryAttempt := if pc.clearing = true then [] else r.attempts

def Begun (dlqId e : Uuid) : ReplayPc → Prop
  | .deleteAttempts id k | .deleteLetter id k => id = dlqId ∧ k = e
  | .done result => result = .ok e
  | _ => False

end ReplayPc

namespace System
variable {x : Externals} {cfg : AppConfig} {s t : State} {a : Action} {e dlqId : Uuid} {r : Nat}

-- What can interleave with one call of replay_dlq: its own statements and those of
-- the passes of the loop.
def Action.oneCall (r : Nat) : Action → Bool
  | .worker i _ => i = 0
  | .replay k _ => k = r
  | _ => false

def State.countable (s : State) : Bool :=
  match (s.workers 0).pc with
  | .dispatching _ _ (.countAttempts k _ _ _) => s.world.db.attemptCount k < 2^32
  | _ => true

structure Interleaves (r : Nat) (s : State) (a : Action) : Prop where
  live : a.live = true
  party : a.oneCall r = true
  fits : s.countable = true

instance : Decidable (Interleaves r s a) :=
  decidable_of_iff (a.live = true ∧ a.oneCall r = true ∧ s.countable = true)
    ⟨fun ⟨live,party,fits⟩ => ⟨live,party,fits⟩,fun ⟨live,party,fits⟩ => ⟨live,party,fits⟩⟩

-- The pass records an attempt of `e` while the replay has still to clear the old
-- ones, or under a number it has counted before they were cleared.
def crosses (r : Nat) (e : Uuid) (s : State) : Action → Bool
  | .worker i _ => match (s.workers i).pc with
    | .dispatching _ _ (.insertAttempt d _) => d.eventId = e &&
      ((s.replays[r]?).any ReplayPc.clearing || d.attemptCount ≠ s.world.db.attemptCount e)
    | _ => false
  | _ => false

theorem crosses_apart (apart : crosses r e s (.worker i inp) = false) (present : s.replays[r]? = some pc)
    (at' : (s.workers i).pc = .dispatching claimed parent (.insertAttempt d answer)) (same : d.eventId = e) :
    pc.clearing = false ∧ d.attemptCount = s.world.db.attemptCount e := by
  subst same
  simpa [crosses,at',present] using apart

structure Parked (dlqId e : Uuid) (s : State) : Prop where
  status : s.world.db.status e = some .failed
  letter : ∃ row ∈ s.world.db.letters e, row.id = dlqId
  free : (s.workers 0).engaged ≠ some e

structure Restarted (cfg : AppConfig) (dlqId e : Uuid) (base : Nat) (pc : ReplayPc) (s : State) : Prop where
  begun : pc.Begun dlqId e
  afresh : Afresh (loopConfig cfg).maxAttempts.toNat base (pc.counting (s.world.record e)) (s.world.record e)
    ((s.workers 0).engaged = some e → (s.workers 0).pc.Afresh (loopConfig cfg).maxAttempts.toNat base
      (pc.counting (s.world.record e)).length (s.world.record e))

inductive Party (x : Externals) (cfg : AppConfig) (r : Nat) (s t : State) : Action → Prop where
  | worker (live : inp.fault = none)
      (effect : WorkerStep x (loopConfig cfg) inp s.world (s.workers 0) t.world (t.workers 0))
      (replays : t.replays = s.replays) : Party x cfg r s t (.worker 0 inp)
  | replay (live : inp.fault = none) (present : s.replays[r]? = some pc) (effect : ReplayStep inp s.world pc t.world after)
      (replays : t.replays[r]? = some after) (workers : t.workers = s.workers) : Party x cfg r s t (.replay r inp)

theorem Interleaves.moves (allowed : Interleaves r s a) (moved : step x cfg s a = some t) : Party x cfg r s t a := by
  obtain ⟨live,party,_⟩ := allowed
  cases step_sound moved with
  | worked _ effect =>
    obtain rfl : _ = 0 := of_decide_eq_true party
    exact .worker (Action.live_worker.mp live) (by simpa using effect) rfl
  | replayed _ present effect =>
    obtain rfl : _ = r := of_decide_eq_true party
    have inside : _ < s.replays.length := (List.getElem?_eq_some_iff.mp present).1
    exact .replay (Option.isNone_iff_eq_none.mp live) present effect (by simp [inside]) rfl
  | _ => cases party

theorem Interleaves.fewer (allowed : Interleaves r s a)
    (at' : (s.workers 0).pc = .dispatching claimed parent (.countAttempts k endpointId rawBody targetUrl)) :
    s.world.db.attemptCount k < 2^32 := by
  have fits := allowed.fits
  unfold State.countable at fits
  rw [at'] at fits
  exact of_decide_eq_true fits

theorem Parked.worker (old : Parked dlqId e s) (supplied : Supplied x s)
    (effect : WorkerStep x (loopConfig cfg) inp s.world (s.workers 0) t.world (t.workers 0)) : Parked dlqId e t := by
  have coherent := supplied.coherent 0
  have free : (t.workers 0).engaged ≠ some e := by
    intro has
    rcases (effect.moves coherent).engages has with before | ⟨_,row,head,same⟩
    · exact old.free before
    · have waits := Db.nextReceived_waiting head
      rw [same,old.status] at waits
      cases waits
  have record := effect.frame supplied.world coherent old.free free
  have row : t.world.db.event e = s.world.db.event e := congrArg Record.row record
  have letters : t.world.db.letters e = s.world.db.letters e := congrArg Record.letters record
  refine ⟨?_,?_,free⟩
  · rw [Db.status,row]
    exact old.status
  · rw [letters]
    exact old.letter

theorem Parked.selects (old : Parked dlqId e s) (found : s.world.db.letter dlqId = some row) : row.eventId = e := by
  obtain ⟨other,member,same⟩ := old.letter
  obtain ⟨stored,event⟩ := List.mem_filter.mp member
  obtain ⟨stored',same'⟩ := Table.lookup_exact.mp found
  rw [Table.eq_of_key stored' stored (same'.trans same.symm)]
  simpa using event

theorem Parked.restarts (old : Parked dlqId e s) (live : inp.fault = none)
    (effect : ReplayStep inp s.world (.updateStatus dlqId e) t.world after) (workers : t.workers = s.workers) :
    Restarted cfg dlqId e (s.world.record e).failures after t := by
  generalize ended : t.world = next at effect
  cases effect with
  | requeued _ =>
    have parked : (s.world.record e).status = some .failed := old.status
    have waits : ((s.world.record e).withStatus .received).status = some .received := by
      rw [Record.status_withStatus,parked]
      rfl
    have record : t.world.record e = (s.world.record e).withStatus .received := by
      rw [ended]
      exact World.record_withStatus s.world e .received
    refine ⟨⟨rfl,rfl⟩,?_⟩
    rw [record]
    refine ⟨rfl,?_,fun _ => ⟨Nat.lt_of_lt_of_le Nat.zero_lt_one (Nat.le_max_left _ _),Nat.le_refl _⟩,?_⟩
    · intro has
      rw [workers] at has
      exact absurd has old.free
    · intro gone
      cases waits.symm.trans gone
  | failed cause reason =>
    rcases reason with struck | ⟨_,start,_⟩
    · exact absurd live struck
    · cases start

theorem Restarted.worker (old : Restarted cfg dlqId e base pc s) (supplied : Supplied x s) (live : inp.fault = none)
    (present : s.replays[r]? = some pc)
    (effect : WorkerStep x (loopConfig cfg) inp s.world (s.workers 0) t.world (t.workers 0))
    (apart : crosses r e s (.worker 0 inp) = false) : Restarted cfg dlqId e base pc t := by
  refine ⟨old.begun,?_⟩
  have afresh := old.afresh
  by_cases records : ∃ claimed parent d answer,
      (s.workers 0).pc = .dispatching claimed parent (.insertAttempt d answer) ∧ d.eventId = e
  · obtain ⟨claimed,parent,d,answer,at',same⟩ := records
    subst same
    have engaged : (s.workers 0).engaged = some d.eventId := by
      unfold Worker.engaged
      rw [at']
      rfl
    have point := afresh.point engaged
    rw [at'] at point
    have row : s.world.db.event d.eventId ≠ none := by
      intro gone
      have held : s.world.db.status d.eventId = some .processing := point.1
      rw [Db.status,gone] at held
      cases held
    obtain ⟨db,stored,moved,next⟩ := effect.records at' supplied.world live row
    obtain ⟨open',count⟩ := crosses_apart apart present at' rfl
    have counted : pc.counting (s.world.record d.eventId) = s.world.db.attempts d.eventId := by
      rw [ReplayPc.counting,open']
      rfl
    rw [counted] at point afresh
    have done := insertAttempt_afresh inp.now stored count ⟨afresh.numbers,point,afresh.waiting,afresh.failed⟩
    have longer : pc.counting (t.world.record d.eventId) =
        s.world.db.attempts d.eventId ++ [d.attempt answer (x.nowV7 s.world.drawn) inp.now] := by
      rw [ReplayPc.counting,open']
      change t.world.db.attempts d.eventId = _
      rw [moved]
      exact (Db.attempts_insertAttempt stored).trans (if_pos rfl)
    rw [longer,moved,next]
    exact ⟨done.numbers,fun _ => done.point,done.waiting,done.failed⟩
  · have elsewhere : ∀ claimed parent d answer,
        (s.workers 0).pc = .dispatching claimed parent (.insertAttempt d answer) → d.eventId ≠ e :=
      fun claimed parent d answer at' same => records ⟨claimed,parent,d,answer,at',same⟩
    have counted : pc.counting (t.world.record e) = pc.counting (s.world.record e) := by
      unfold ReplayPc.counting
      split
      · rfl
      · exact effect.keeps_attempts elsewhere
    rw [counted]
    exact effect.afresh supplied.world live (supplied.coherent 0) elsewhere afresh

theorem Restarted.replay_step (old : Restarted cfg dlqId e base pc s) (live : inp.fault = none)
    (effect : ReplayStep inp s.world pc t.world after) (workers : t.workers = s.workers) :
    Restarted cfg dlqId e base after t := by
  obtain ⟨begun,afresh⟩ := old
  rw [← workers] at afresh
  generalize ended : t.world = next at effect
  cases effect with
  | found _ row => cases begun
  | requeued _ => cases begun
  | @cleared _ id k _ =>
    obtain ⟨rfl,rfl⟩ := begun
    have record : t.world.record k = {s.world.record k with attempts:=[]} := by
      rw [ended]
      exact Record.ext rfl ((Db.attempts_deleteAttempts ..).trans (if_pos rfl)) rfl rfl rfl
    refine ⟨⟨rfl,rfl⟩,?_⟩
    rw [record]
    exact afresh.congr rfl rfl
  | @removed _ id k _ =>
    obtain ⟨rfl,rfl⟩ := begun
    have record : t.world.record k =
        {s.world.record k with letters:=(s.world.record k).letters.filter (fun d => d.id ≠ id)} := by
      rw [ended,World.record_log rfl rfl]
      exact Record.ext rfl rfl (Db.letters_deleteLetter ..) rfl rfl
    refine ⟨rfl,?_⟩
    rw [record]
    exact afresh.congr rfl rfl
  | failed cause reason =>
    rcases reason with struck | ⟨_,start,_⟩
    · exact absurd live struck
    · subst start
      cases begun

end System
end AetherRelay
