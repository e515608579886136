import AetherRelay.Lib.Credit
import AetherRelay.System.Order
import AetherRelay.System.Progress
import AetherRelay.System.Resends

namespace AetherRelay

-- The sections a pass may still take until it has sent its request or lies down to
-- sleep. Once it has sent it, the thirteen of the next pass are among them.
def DispatchPc.left : DispatchPc → Nat
  | .selectEvent _ => 12
  | .selectEndpoint _ _ _ => 11
  | .countAttempts _ _ _ _ => 10
  | .checkBreaker _ => 9
  | .requeueDeferred _ | .send _ _ => 8
  | .await _ _ => 20
  | .updateBreaker _ _ _ => 19
  | .insertAttempt _ _ => 18
  | .updateStatus _ _ _ => 17
  | .insertDeadLetter _ _ _ => 16
  | .done _ (.ok result) => if result.deferred then 7 else 15
  | .done _ (.error _) => 7

def WorkerPc.left : WorkerPc → Nat
  | .idle => 13
  | .dispatching _ _ pc => pc.left
  | .requeueing _ _ => 6
  | .finished (.ok .deferred) | .finished (.error _) => 5
  | .finished _ => 14

def DispatchPc.requesting : DispatchPc → Bool
  | .send _ _ => true
  | _ => false

def WorkerPc.requesting : WorkerPc → Bool
  | .dispatching _ _ pc => pc.requesting
  | _ => false

def WorkerPc.sleeps : WorkerPc → Bool
  | .finished (.ok .deferred) | .finished (.error _) => true
  | _ => false

theorem WorkerPc.left_le (pc : WorkerPc) : pc.left ≤ 20 := by
  cases pc with
  | dispatching claimed parent pc =>
    cases pc with
    | done e result =>
      cases result with
      | ok value =>
        simp only [WorkerPc.left,DispatchPc.left]
        split <;> omega
      | error cause => simp [WorkerPc.left,DispatchPc.left]
    | _ => simp [WorkerPc.left,DispatchPc.left]
  | finished result =>
    cases result with
    | ok outcome => cases outcome <;> simp [WorkerPc.left]
    | error cause => simp [WorkerPc.left]
  | _ => simp [WorkerPc.left]

section
variable {x : Externals} {cfg : DispatchLoopConfig} {inp : Input} {w next : World} {e : Uuid}

theorem DispatchStep.paced {pc after : DispatchPc} (effect : DispatchStep x cfg inp w pc next after) :
    after.left + 1 ≤ pc.left + 13 * pc.requesting.toNat := by
  cases effect with
  | failed cause =>
    cases pc with
    | done id result => cases cause
    | _ => simp [DispatchPc.left,DispatchPc.requesting]
  | _ => simp [DispatchPc.left,DispatchPc.requesting,DispatchResult.withheld,DispatchResult.of]

theorem WorkerStep.paced {worker done : Worker} (effect : WorkerStep x cfg inp w worker next done)
    (busy : worker.pc = .idle → w.db.nextReceived ≠ none) :
    done.pc.left + 1 ≤ worker.pc.left + 13 * worker.pc.requesting.toNat + 13 * worker.pc.sleeps.toNat := by
  cases effect with
  | empty live none => exact absurd none (busy rfl)
  | dispatch moved => exact Nat.le_add_right_of_le moved.paced
  | returned result =>
    cases deferred : result.deferred <;>
      (simp only [WorkerPc.left,DispatchPc.left,deferred,Bool.false_eq_true,if_true,if_false]; omega)
  | slept waits delay =>
    rcases waits with rfl | ⟨cause,rfl⟩ <;> (simp only [WorkerPc.left,WorkerPc.sleeps,Bool.toNat_true]; omega)
  | _ =>
    simp only [WorkerPc.left,DispatchPc.left]
    omega

theorem DispatchStep.sent {pc after : DispatchPc} (effect : DispatchStep x cfg inp w pc next after) :
    (w.record pc.eventId).posts + pc.requesting.toNat ≤ (next.record pc.eventId).posts := by
  cases effect with
  | @send _ d mode => exact (World.record_posted w d.eventId d.endpointId d.targetUrl d.rawBody).symm ▸ Nat.le_refl _
  | @await _ d mode => exact (World.record_answered w d.eventId inp.answer).symm ▸ Nat.le_refl _
  | failed cause =>
    cases pc with
    | send d mode => cases cause
    | _ => exact Nat.le_refl _
  | _ => exact Nat.le_refl _

theorem WorkerStep.sent {worker done : Worker} (effect : WorkerStep x cfg inp w worker next done)
    (coherent : worker.Coherent) (touched : worker.engaged = some e ∨ done.engaged = some e) :
    (w.record e).posts + worker.pc.requesting.toNat ≤ (next.record e).posts := by
  obtain ⟨pc,p⟩ := worker
  obtain ⟨after,q⟩ := done
  cases effect.concerns coherent touched with
  | dispatch moved => exact moved.sent
  | errored cause =>
    rw [World.record_log rfl rfl]
    exact Nat.le_refl _
  | _ => exact Nat.le_refl _

theorem WorkerStep.requests {worker done : Worker} (effect : WorkerStep x cfg inp w worker next done) :
    next.requests = w.requests + worker.pc.requesting.toNat := by
  cases effect with
  | dispatch moved =>
    cases moved with
    | failed cause =>
      rename_i pc _ _ _ _
      cases pc with
      | send d mode => cases cause
      | _ => rfl
    | _ => simp [World.requests,Happening.isPost,WorkerPc.requesting,DispatchPc.requesting,updateBreaker,checkBreaker]
  | _ => simp [World.requests,Happening.isPost,WorkerPc.requesting,DispatchPc.requesting]

end

def expects (maxAttempts : Nat) (r : Record) (worker : Worker) (e : Uuid) : Nat :=
  if r.status = some .received ∨ worker.engaged = some e then due maxAttempts r (worker.chance maxAttempts e) else 0

section
variable {x : Externals} {cfg : DispatchLoopConfig} {inp : Input} {w next : World} {e : Uuid} {maxAttempts : Nat}
  {r after : Record} {worker : Worker}

theorem expects_le (maxAttempts : Nat) (r : Record) (worker : Worker) (e : Uuid) :
    expects maxAttempts r worker e ≤ due maxAttempts r (worker.chance maxAttempts e) := by
  unfold expects
  split
  · exact Nat.le_refl _
  · exact Nat.zero_le _

theorem expects_open (open' : r.status = some .received ∨ worker.engaged = some e) :
    expects maxAttempts r worker e = due maxAttempts r (worker.chance maxAttempts e) := if_pos open'

theorem expects_other {done : Worker} (before : worker.engaged ≠ some e) (later : done.engaged ≠ some e) :
    expects maxAttempts r done e = expects maxAttempts r worker e := by
  unfold expects
  rw [Worker.chance_other before,Worker.chance_other later]
  simp [before,later]

theorem WorkerStep.expects {done : Worker} (effect : WorkerStep x cfg inp w worker next done)
    (supplied : w.Supplied x) (coherent : worker.Coherent) (touched : worker.engaged = some e ∨ done.engaged = some e)
    (reckoned : worker.engaged = some e → worker.pc.Reckoned (w.record e)) :
    expects cfg.maxAttempts.toNat (next.record e) done e + worker.pc.requesting.toNat ≤
      expects cfg.maxAttempts.toNat (w.record e) worker e + (worker.mishap inp e).toNat := by
  have open' : (w.record e).status = some .received ∨ worker.engaged = some e := by
    by_cases engaged : worker.engaged = some e
    · exact .inr engaged
    · rcases (effect.moves coherent).engages (touched.resolve_left engaged) with was | ⟨_,row,head,named⟩
      · exact .inr was
      · subst named
        exact .inl (Db.nextReceived_waiting head)
  have balance := (effect.spends supplied coherent touched reckoned).1
  have sent := effect.sent coherent touched
  have bound := expects_le cfg.maxAttempts.toNat (next.record e) done e
  have mishap : (worker.mishap inp e).toNat = if worker.mishap inp e then 1 else 0 := by
    cases worker.mishap inp e <;> rfl
  rw [expects_open open',mishap]
  omega

theorem expects_requeued :
    expects maxAttempts (r.withStatus .received) worker e ≤ expects maxAttempts r worker e + max 1 maxAttempts := by
  by_cases open' : r.status = some .received ∨ worker.engaged = some e
  · rw [expects_open open']
    have low := expects_le maxAttempts (r.withStatus .received) worker e
    have back := due_requeued maxAttempts r (worker.chance maxAttempts e)
    omega
  · obtain ⟨_,idle⟩ := not_or.mp open'
    have low := expects_le maxAttempts (r.withStatus .received) worker e
    rw [Worker.chance_other idle] at low
    refine Nat.le_trans low (Nat.le_add_left_of_le ?_)
    cases there : r.row with
    | none =>
      rw [due_withStatus_gone there]
      exact Nat.zero_le _
    | some row =>
      rw [due_withStatus there,if_pos rfl,Record.spare]
      omega

theorem expects_cleared :
    expects maxAttempts {r with attempts:=[]} worker e ≤ expects maxAttempts r worker e + max 1 maxAttempts := by
  have status : ({r with attempts:=[]} : Record).status = r.status := rfl
  have given := due_cleared maxAttempts r (worker.chance maxAttempts e)
  unfold expects
  rw [status]
  split
  · omega
  · exact Nat.zero_le _

theorem expects_gone (gone : r.row = none) : expects maxAttempts r worker e = 0 := by
  have low := expects_le maxAttempts r worker e
  rw [due_gone gone] at low
  exact Nat.le_zero.mp low

theorem expects_start (loop : DispatchLoopConfig) :
    expects maxAttempts r (.start loop) e ≤ expects maxAttempts r worker e := by
  have idle : (Worker.start loop).engaged ≠ some e := by simp
  by_cases waiting : r.status = some .received
  · rw [expects_open (.inl waiting),expects_open (.inl waiting),Worker.chance_other idle]
    exact due_mono (Nat.zero_le _)
  · have none : expects maxAttempts r (.start loop) e = 0 := if_neg (not_or.mpr ⟨waiting,idle⟩)
    rw [none]
    exact Nat.zero_le _

theorem WorkerStep.expects_apart {done : Worker} (effect : WorkerStep x cfg inp w worker next done)
    (supplied : w.Supplied x) (coherent : worker.Coherent) (before : worker.engaged ≠ some e)
    (later : done.engaged ≠ some e) :
    AetherRelay.expects maxAttempts (next.record e) done e = AetherRelay.expects maxAttempts (w.record e) worker e := by
  rw [effect.frame supplied coherent before later]
  exact expects_other before later

theorem WorkerStep.touches_one {done : Worker} {k : Uuid} (effect : WorkerStep x cfg inp w worker next done)
    (coherent : worker.Coherent) (touched : worker.engaged = some e ∨ done.engaged = some e) (other : k ≠ e) :
    worker.engaged ≠ some k ∧ done.engaged ≠ some k := by
  have once : ∀ {i}, done.engaged = some i → worker.engaged = some i ∨ worker.engaged = none := by
    intro i engaged
    rcases (effect.moves coherent).engages engaged with was | ⟨free,_⟩
    · exact .inl was
    · exact .inr (by rw [Worker.engaged,free]; rfl)
  constructor
  · intro mine
    rcases touched with before | later
    · rw [mine] at before
      exact other (Option.some.inj before)
    · rcases once later with was | free
      · rw [mine] at was
        exact other (Option.some.inj was)
      · rw [mine] at free
        cases free
  · intro mine
    rcases touched with before | later
    · rcases once mine with was | free
      · rw [before] at was
        exact other (Option.some.inj was).symm
      · rw [before] at free
        cases free
    · rw [mine] at later
      exact other (Option.some.inj later)

end

def ReplayPc.reopens : ReplayPc → Bool
  | .updateStatus _ _ | .deleteAttempts _ _ => true
  | _ => false

namespace System
variable {x : Externals} {cfg : AppConfig} {s t : State} {a : Action} {k : Uuid} {row : IncomingEventRecord}
  {A : Finset Uuid}

def Waits (s : State) (k : Uuid) : Prop := s.world.db.status k = some .received ∨ (s.workers 0).held = some k

instance : Decidable (Waits s k) := inferInstanceAs (Decidable (_ ∨ _))

-- What is served before the row is settled: the rows the queue puts no later than
-- it, and the one in hand.
def ahead (s : State) (row : IncomingEventRecord) : Finset Uuid :=
  ((s.world.db.incomingEvents.rows.filter fun e => Db.queueOrder e ≤ Db.queueOrder row).map (·.id) ++
    (s.workers 0).engaged.toList).toFinset

def wait (cfg : AppConfig) (s : State) (A : Finset Uuid) : Nat :=
  ∑ e ∈ A, expects (budget cfg) (s.world.record e) (s.workers 0) e

def sections (_ : State) : Action → Nat
  | .worker _ _ => 1
  | _ => 0

-- What holds the queue up, in requests: a replay, a section that goes wrong, a pass
-- that is slept off, the end of the process. No other request does.
def delay (cfg : AppConfig) (s : State) : Action → Nat
  | .replay r _ => if (s.replays[r]?).any ReplayPc.reopens then max 1 (budget cfg) else 0
  | .worker i inp => (inp.fault.isSome || (s.workers i).pc.wraps).toNat + (s.workers i).pc.sleeps.toNat
  | .kill | .shutdown => 1
  | _ => 0

theorem Step.arrival (moved : Step x cfg s a t) (supplied : Supplied x s) (onTime : OnTime s a)
    (fresh : s.world.db.event k = none) (found : t.world.db.event k = some row) :
    k = x.nowV7 s.world.drawn ∧ row.createdAt = t.clock := by
  have change := moved.row supplied k
  rw [fresh,found] at change
  cases change with
  | created drawn status origin logged =>
    refine ⟨drawn,?_⟩
    have kept : a.deletes = false := by
      cases origin with
      | call made => rw [made]; rfl
      | request made => rw [made]; rfl
    have ticket : row.withStatus .received ∈ t.world.db.tickets := Db.ticket_of_event found
    have unknown : row.withStatus .received ∉ s.world.db.tickets := by
      intro member
      obtain ⟨st,there⟩ := Db.ticket_of_mem member
      rw [IncomingEventRecord.withStatus_id,(Db.event_mem found).2,fresh] at there
      cases there
    cases moved.line supplied kept with
    | same tickets told more =>
      rw [tickets] at ticket
      exact absurd ticket unknown
    | joined last asked stamp named waiting tickets told untouched drew =>
      rw [tickets] at ticket
      rcases List.mem_append.mp ticket with old | new
      · exact absurd old unknown
      · have same : row.withStatus .received = last := List.mem_singleton.mp new
        have stamped : row.createdAt = last.createdAt := by
          rw [← same]
          rfl
        rw [stamped,stamp,(moved.clock onTime).2 _ asked]

def Stamped (x : Externals) (s : State) : Prop :=
  ∀ k row, s.world.db.event k = some row → row.createdAt ≤ s.clock ∧ ∀ n, s.world.drawn ≤ n → k < x.nowV7 n

theorem Step.stamped (moved : Step x cfg s a t) (growing : StrictMono x.nowV7) (supplied : Supplied x s)
    (onTime : OnTime s a) (old : Stamped x s) : Stamped x t := by
  intro k row found
  have clock := (moved.clock onTime).1
  have drawn := moved.drawn supplied
  cases before : s.world.db.event k with
  | none =>
    obtain ⟨named,stamp⟩ := moved.arrival supplied onTime before found
    refine ⟨Nat.le_of_eq stamp,fun n high => ?_⟩
    have spent : Spent x t.world k := (moved.supplied supplied).world.store _ (Db.ids_event found)
    have passed : s.world.drawn < t.world.drawn := by
      by_contra low
      exact spent s.world.drawn (Nat.le_of_not_lt low) named.symm
    rw [named]
    exact growing (Nat.lt_of_lt_of_le passed high)
  | some event =>
    obtain ⟨stamp,later⟩ := old k event before
    have spent : Spent x s.world k := supplied.world.store _ (Db.ids_event before)
    obtain ⟨was,same,columns⟩ := moved.columns supplied spent found
    rw [before] at same
    cases same
    rw [columns]
    exact ⟨Nat.le_trans stamp clock,fun n high => later n (Nat.le_trans drawn high)⟩

structure Serving (x : Externals) (cfg : AppConfig) (A : Finset Uuid) (row : IncomingEventRecord) (s : State) : Prop where
  supplied : Supplied x s
  tallied : ∀ e, ∃ n, Tallied x cfg e s n
  clock : row.createdAt ≤ s.clock
  later : ∀ n, s.world.drawn ≤ n → row.id < x.nowV7 n
  spent : ∀ e ∈ A, Spent x s.world e
  stands : ∀ e event, s.world.db.event e = some event → Db.queueOrder event ≤ Db.queueOrder row → e ∈ A
  hand : ∀ e, (s.workers 0).engaged = some e → e ∈ A
  stays : ∀ event, s.world.db.event row.id = some event → Db.queueOrder event = Db.queueOrder row

theorem Waits.free (waits : Waits s k) (free : (s.workers 0).pc.stage = .free) : s.world.db.status k = some .received := by
  rcases waits with waiting | holds
  · exact waiting
  · rw [Worker.held,free] at holds
    cases holds

theorem Serving.head (old : Serving x cfg A row s) (waits : Waits s row.id) (free : (s.workers 0).pc.stage = .free)
    (head : s.world.db.nextReceived = some first) : first.id ∈ A := by
  obtain ⟨event,found,waiting⟩ := Db.status_some.mp (waits.free free)
  have oldest := Db.nextReceived_oldest head (Db.event_mem found).1 waiting
  rw [old.stays event found] at oldest
  exact old.stands first.id first (Db.nextReceived_event head) oldest

theorem Serving.busy (waits : Waits s k) (idle : (s.workers 0).pc = .idle) : s.world.db.nextReceived ≠ none := by
  intro empty
  obtain ⟨event,found,waiting⟩ := Db.status_some.mp (waits.free (by rw [idle]; rfl))
  exact Db.nextReceived_none.mp empty event (Db.event_mem found).1 waiting

theorem Step.serving (moved : Step x cfg s a t) (alone : a.single = true) (onTime : OnTime s a) (waits : Waits s row.id)
    (old : Serving x cfg A row s) : Serving x cfg A row t := by
  have clock := (moved.clock onTime).1
  have drawn := moved.drawn old.supplied
  have known : ∀ {k event old'}, t.world.db.event k = some event → s.world.db.event k = some old' →
      Db.queueOrder event = Db.queueOrder old' := by
    intro k event was found before
    have spent : Spent x s.world k := old.supplied.world.store _ (Db.ids_event before)
    obtain ⟨event',same,columns⟩ := moved.columns old.supplied spent found
    rw [before] at same
    cases same
    rw [columns]
    rfl
  constructor
  · exact moved.supplied old.supplied
  · intro e
    obtain ⟨n,tallied⟩ := old.tallied e
    exact ⟨_,moved.tallied alone tallied⟩
  · exact Nat.le_trans old.clock clock
  · exact fun n high => old.later n (Nat.le_trans drawn high)
  · exact fun e member => (old.spent e member).mono drawn
  · intro e event found early
    cases before : s.world.db.event e with
    | some was => exact old.stands e was before (known found before ▸ early)
    | none =>
      obtain ⟨named,stamp⟩ := moved.arrival old.supplied onTime before found
      -- A newcomer stands behind the row that waits.
      have behind : Db.queueOrder row < Db.queueOrder event := by
        apply Prod.Lex.toLex_lt_toLex.mpr
        rcases Nat.lt_or_eq_of_le (Nat.le_trans old.clock clock) with less | equal
        · exact .inl (stamp ▸ less)
        · refine .inr ⟨equal.trans stamp.symm,?_⟩
          rw [(Db.event_mem found).2,named]
          exact old.later _ (Nat.le_refl _)
      exact absurd early (not_le.mpr behind)
  · intro e engaged
    rcases moved.worker 0 with same | ⟨_,start⟩ | ⟨inp,_,effect⟩
    · exact old.hand e (same ▸ engaged)
    · rw [start] at engaged
      cases engaged
    · rcases (effect.moves (old.supplied.coherent 0)).engages engaged with was | ⟨free,first,head,named⟩
      · exact old.hand e was
      · exact named ▸ old.head waits free head
  · intro event found
    cases before : s.world.db.event row.id with
    | some was => exact (known found before).trans (old.stays was before)
    | none =>
      obtain ⟨named,_⟩ := moved.arrival old.supplied onTime before found
      exact absurd (named ▸ old.later _ (Nat.le_refl _)) (lt_irrefl _)

structure Paid (cfg : AppConfig) (A : Finset Uuid) (s : State) (a : Action) (t : State) : Prop where
  requests : t.world.requests + wait cfg t A ≤ s.world.requests + wait cfg s A + delay cfg s a
  turns : 13 * wait cfg t A + (t.workers 0).pc.left + sections s a ≤
    13 * wait cfg s A + (s.workers 0).pc.left + 13 * delay cfg s a

theorem Paid.outside (less : wait cfg t A ≤ wait cfg s A + delay cfg s a)
    (requests : t.world.requests = s.world.requests) (workers : t.workers = s.workers) (none : sections s a = 0) :
    Paid cfg A s a t := by
  constructor
  · rw [requests]
    omega
  · rw [workers,none]
    omega

theorem Paid.ended (one : delay cfg s a = 1) (none : sections s a = 0) : Paid cfg A s a (terminate cfg s) := by
  have less : wait cfg (terminate cfg s) A ≤ wait cfg s A :=
    Finset.sum_le_sum fun e _ => expects_start (loopConfig cfg)
  have requests : (terminate cfg s).world.requests = s.world.requests := rfl
  have left : ((terminate cfg s).workers 0).pc.left = 13 := rfl
  constructor
  · rw [requests]
    omega
  · rw [left,one,none]
    omega

-- A section of the pass is paid for by the request it sends, or else by what is
-- still left of its turn.
theorem Step.pays_pass (moved : Step x cfg s (.worker 0 inp) t) (waits : Waits s row.id) (old : Serving x cfg A row s) :
    Paid cfg A s (.worker 0 inp) t := by
  cases moved with
  | worked live effect =>
    rename_i next after
    have coherent := old.supplied.coherent 0
    have paced := effect.paced (Serving.busy waits)
    have requests := effect.requests
    have sum : wait cfg {s with world:=next,workers:=Function.update s.workers 0 after,clock:=inp.now} A +
        (s.workers 0).pc.requesting.toNat ≤ wait cfg s A + (inp.fault.isSome || (s.workers 0).pc.wraps).toNat := by
      unfold wait
      dsimp only
      rw [Function.update_self]
      by_cases touched : ∃ e, (s.workers 0).engaged = some e ∨ after.engaged = some e
      · obtain ⟨e,touched⟩ := touched
        have member : e ∈ A := by
          rcases touched with before | later
          · exact old.hand e before
          · rcases (effect.moves coherent).engages later with was | ⟨free,first,head,named⟩
            · exact old.hand e was
            · exact named ▸ old.head waits free head
        refine Credit.sum_spent member (fun k _ other => ?_) ?_
        · obtain ⟨before,later⟩ := effect.touches_one coherent touched other
          exact Nat.le_of_eq (effect.expects_apart old.supplied.world coherent before later)
        · obtain ⟨n,tallied⟩ := old.tallied e
          have mine := effect.expects old.supplied.world coherent touched tallied.reckoned
          have mishap : ((s.workers 0).mishap inp e).toNat ≤ (inp.fault.isSome || (s.workers 0).pc.wraps).toNat := by
            unfold Worker.mishap
            cases (inp.fault.isSome || (s.workers 0).pc.wraps) <;> simp [Bool.toNat_le]
          exact Nat.le_trans mine (Nat.add_le_add_left mishap _)
      · have apart : ∀ e, (s.workers 0).engaged ≠ some e ∧ after.engaged ≠ some e :=
          fun e => not_or.mp fun is => touched ⟨e,is⟩
        have silent : (s.workers 0).pc.requesting = false := by
          cases at' : (s.workers 0).pc with
          | dispatching claimed parent pc =>
            cases pc with
            | send d mode =>
              have engaged : (s.workers 0).engaged = some d.eventId := by
                rw [Worker.engaged,at']
                rfl
              exact absurd engaged (apart d.eventId).1
            | _ => rfl
          | _ => rfl
        rw [silent]
        apply Nat.le_add_right_of_le
        apply Finset.sum_le_sum
        intro e _
        exact Nat.le_of_eq (effect.expects_apart old.supplied.world coherent (apart e).1 (apart e).2)
    constructor
    · simp only [delay]
      omega
    · simp only [delay,sections,Function.update_self]
      omega

theorem Step.requests_outside (moved : Step x cfg s a t) (others : ∀ i inp, a ≠ .worker i inp) :
    t.world.requests = s.world.requests := by
  obtain ⟨new,log,history⟩ := moved.log
  rw [World.requests,history]
  cases log with
  | posted pass at' => exact absurd pass (others _ _)
  | _ => simp [World.requests,Happening.isPost]

theorem Step.pays_replay (moved : Step x cfg s (.replay r inp) t) :
    wait cfg t A ≤ wait cfg s A + delay cfg s (.replay r inp) := by
  cases moved with
  | replayed live present effect =>
    rename_i pc next after
    have asked : delay cfg s (.replay r inp) = if pc.reopens then max 1 (budget cfg) else 0 := by
      simp only [delay,present,Option.any_some]
    rw [asked]
    unfold wait
    dsimp only
    cases effect with
    | found clean letter => exact Nat.le_refl _
    | @requeued _ dlqId eventId clean =>
      have reopened : ReplayPc.reopens (.updateStatus dlqId eventId) = true := rfl
      rw [if_pos reopened]
      refine Credit.sum_given (e:=eventId) (fun k _ other => ?_) ?_
      · have record := (s.world.record_setStatus eventId k .received).trans (if_neg other)
        rw [record]
      · rw [World.record_withStatus]
        exact expects_requeued
    | @cleared _ dlqId eventId clean =>
      have reopened : ReplayPc.reopens (.deleteAttempts dlqId eventId) = true := rfl
      rw [if_pos reopened]
      have attempts := Db.attempts_deleteAttempts s.world.db eventId
      refine Credit.sum_given (e:=eventId) (fun k _ other => ?_) ?_
      · have kept := attempts k
        rw [if_neg other] at kept
        have record : World.record {s.world with db:=s.world.db.deleteAttempts eventId} k = s.world.record k :=
          Record.ext rfl kept rfl rfl rfl
        rw [record]
      · have none := attempts eventId
        rw [if_pos rfl] at none
        have record : World.record {s.world with db:=s.world.db.deleteAttempts eventId} eventId =
            {s.world.record eventId with attempts:=[]} := Record.ext rfl none rfl rfl rfl
        rw [record]
        exact expects_cleared
    | @removed _ dlqId eventId clean =>
      apply Nat.le_add_right_of_le
      apply Finset.sum_le_sum
      intro k _
      have record : (({s.world with db:=s.world.db.deleteLetter dlqId} : World).log (.replayed eventId)).record k =
          {s.world.record k with letters:=(s.world.record k).letters.filter (fun d => d.id ≠ dlqId)} := by
        rw [World.record_log rfl rfl]
        exact Record.ext rfl rfl (Db.letters_deleteLetter s.world.db dlqId k) rfl rfl
      rw [record]
      exact Nat.le_refl _
    | failed error cause => exact Nat.le_add_right _ _

theorem Step.pays_outside (moved : Step x cfg s a t) (old : Serving x cfg A row s) (others : ∀ i inp, a ≠ .worker i inp)
    (quiet : a.replays = false) (workers : t.workers = s.workers) : wait cfg t A ≤ wait cfg s A := by
  unfold wait
  rw [workers]
  apply Finset.sum_le_sum
  intro e member
  have change := moved.record (k:=e) old.supplied others
  generalize s.world.record e = r at change
  generalize t.world.record e = after at change
  cases change with
  | same => exact Nat.le_refl _
  | created drawn waiting => exact absurd drawn.symm (old.spent e member _ (Nat.le_refl _))
  | removed asked was settled =>
    rw [expects_gone rfl]
    exact Nat.zero_le _
  | requeued asked => rw [quiet] at asked; cases asked
  | cleared asked => rw [quiet] at asked; cases asked
  | unlisted asked dlqId => rw [quiet] at asked; cases asked

theorem Step.pays (moved : Step x cfg s a t) (alone : a.single = true) (waits : Waits s row.id)
    (old : Serving x cfg A row s) : Paid cfg A s a t := by
  have requests := moved.requests_outside
  have others : (∀ i inp, a ≠ .worker i inp) → a.replays = false → t.workers = s.workers → sections s a = 0 →
      Paid cfg A s a t :=
    fun apart quiet same none =>
      .outside (Nat.le_add_right_of_le (moved.pays_outside old apart quiet same)) (requests apart) same none
  cases moved with
  | worked live effect =>
    rename_i inp next after i
    have first : i = 0 := of_decide_eq_true alone
    subst first
    exact (Step.worked live effect).pays_pass waits old
  | replayed live present effect =>
    have moved : Step x cfg s _ _ := .replayed live present effect
    exact .outside moved.pays_replay (requests (by simp)) rfl rfl
  | replayStarted live => exact .outside (Nat.le_add_right _ _) rfl rfl rfl
  | killed live => exact .ended rfl rfl
  | shutDown live quiet => exact .ended rfl rfl
  | _ => exact others (by simp) rfl rfl rfl

theorem ahead_serving (growing : StrictMono x.nowV7)
    (past : Transition.Run (step x cfg) (fun u a => a.single = true ∧ OnTime u a) (boot cfg) earlier s)
    (found : s.world.db.event row.id = some row) : Serving x cfg (ahead s row) row s := by
  have known : Supplied x s ∧ Stamped x s ∧ ∀ e, ∃ n, Tallied x cfg e s n := by
    refine past.preserves (fun u => Supplied x u ∧ Stamped x u ∧ ∀ e, ∃ n, Tallied x cfg e u n) ?_ ?_
    · intro u a v old allowed moved
      obtain ⟨supplied,stamped,tallied⟩ := old
      have moved := step_sound moved
      refine ⟨moved.supplied supplied,moved.stamped growing supplied allowed.2 stamped,fun e => ?_⟩
      obtain ⟨n,before⟩ := tallied e
      exact ⟨_,moved.tallied allowed.1 before⟩
    · have start := boot_booted x cfg
      exact ⟨start.supplied,fun k event found => (by cases found),fun e => ⟨_,start.tallied⟩⟩
  obtain ⟨supplied,stamped,tallied⟩ := known
  obtain ⟨clock,later⟩ := stamped row.id row found
  have listed : ∀ e, e ∈ ahead s row ↔
      (∃ event ∈ s.world.db.incomingEvents.rows, Db.queueOrder event ≤ Db.queueOrder row ∧ event.id = e) ∨
        (s.workers 0).engaged = some e := by
    intro e
    simp [ahead,and_assoc]
  constructor
  · exact supplied
  · exact tallied
  · exact clock
  · exact later
  · intro e member
    rcases (listed e).mp member with ⟨event,stored,_,named⟩ | engaged
    · exact named ▸ supplied.world.store _ (Db.ids_event (Db.event_of_mem stored))
    · exact supplied.spent_engaged engaged
  · intro e event there early
    obtain ⟨stored,named⟩ := Db.event_mem there
    exact (listed e).mpr (.inl ⟨event,stored,early,named⟩)
  · exact fun e engaged => (listed e).mpr (.inr engaged)
  · intro event there
    rw [found] at there
    cases there
    rfl

-- While an event waits the worker takes thirteen sections at most for each request
-- that was still to be expected for it, for what stood ahead of it and for what was
-- in hand, and as many for each delay. What arrives in the meantime is not among them.
theorem waits_paid_for (growing : StrictMono x.nowV7)
    (past : Transition.Run (step x cfg) (fun u a => a.single = true ∧ OnTime u a) (boot cfg) earlier s)
    (found : s.world.db.event k = some row)
    (path : Transition.Run (Transition.watch (step x cfg) (Transition.charge sections (delay cfg)))
      (fun o a => (a.single = true ∧ OnTime o.state a) ∧ Waits o.state k) ⟨s,⟨0,0⟩⟩ actions o) :
    o.notes.used ≤ 13 * (wait cfg s (ahead s row) + o.notes.granted) + 20 ∧
    o.state.world.requests ≤ s.world.requests + wait cfg s (ahead s row) + o.notes.granted := by
  obtain rfl := (Db.event_mem found).2
  have start : Serving x cfg (ahead s row) row s := ahead_serving growing past found
  have kept : ∀ (o : Transition.Watched State Transition.Account) a t, Serving x cfg (ahead s row) row o.state →
      (a.single = true ∧ OnTime o.state a) ∧ Waits o.state row.id → step x cfg o.state a = some t →
      Serving x cfg (ahead s row) row t :=
    fun o a t old allowed moved => (step_sound moved).serving allowed.1.1 allowed.1.2 allowed.2 old
  have paid : ∀ (o : Transition.Watched State Transition.Account) a t, Serving x cfg (ahead s row) row o.state →
      (a.single = true ∧ OnTime o.state a) ∧ Waits o.state row.id → step x cfg o.state a = some t →
      Paid cfg (ahead s row) o.state a t :=
    fun o a t old allowed moved => (step_sound moved).pays allowed.1.1 allowed.2 old
  have turns := path.solvent (fun u => 13 * wait cfg u (ahead s row) + (u.workers 0).pc.left) 1 13
    (Serving x cfg (ahead s row) row) kept (fun o a t old allowed moved => by
      have bill := (paid o a t old allowed moved).turns
      omega) start
  have requests := path.solvent (fun u => u.world.requests + wait cfg u (ahead s row)) 0 1
    (Serving x cfg (ahead s row) row) kept (fun o a t old allowed moved => by
      have bill := (paid o a t old allowed moved).requests
      omega) start
  have first := (s.workers 0).pc.left_le
  exact ⟨by omega,by omega⟩

instance : Decidable (OnTime s a) := inferInstanceAs (Decidable (∀ inp ∈ a.input, s.clock ≤ inp.now))

def passAndArrival : List Action :=
  Action.pass 0 4 (.response .ok) ++ .accept "1" "key-2" [] "{}" ⟨none,0,0,.error "",0⟩ ::
    Action.pass 0 6 (.response .ok)

theorem waits_paid_for_first :
    ∃ s o row, Transition.Run (step .tabletop .default) (fun u a => a.single = true ∧ OnTime u a) (boot .default)
        registerAndAccept s ∧ s.world.db.event "11" = some row ∧
      Transition.Run (Transition.watch (step .tabletop .default) (Transition.charge sections (delay .default)))
        (fun o a => (a.single = true ∧ OnTime o.state a) ∧ Waits o.state "11") ⟨s,⟨0,0⟩⟩ passAndArrival o ∧
      ¬Waits o.state "11" ∧ o.notes.used = 10 ∧ wait .default s (ahead s row) = 5 ∧
      10 ≤ 13 * (5 + o.notes.granted) + 20 := by
  have ran : (Transition.exec (Transition.guard (step .tabletop .default) (fun u a => a.single = true ∧ OnTime u a))
      (boot .default) registerAndAccept).bind (fun s => (s.world.db.event "11").bind fun row =>
        (Transition.exec (Transition.guard (Transition.watch (step .tabletop .default)
          (Transition.charge sections (delay .default)))
          (fun o a => (a.single = true ∧ OnTime o.state a) ∧ Waits o.state "11")) ⟨s,⟨0,0⟩⟩ passAndArrival).map
            fun o => (o.notes.used,wait .default s (ahead s row),decide (Waits o.state "11"))) =
      some (10,5,false) := by decide +kernel
  obtain ⟨s,reached,ran⟩ := Option.bind_eq_some_iff.mp ran
  obtain ⟨row,found,ran⟩ := Option.bind_eq_some_iff.mp ran
  obtain ⟨o,passed,seen⟩ := Option.map_eq_some_iff.mp ran
  simp only [Prod.mk.injEq,decide_eq_false_iff_not] at seen
  obtain ⟨used,due,settled⟩ := seen
  have past := Transition.Run.guarded reached
  have path := Transition.Run.guarded passed
  have bound := (waits_paid_for (x := .tabletop) Externals.tally_grows past found path).1
  rw [used,due] at bound
  exact ⟨s,o,row,past,found,path,settled,used,due,bound⟩

end System
end AetherRelay
