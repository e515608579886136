import AetherRelay.Lib.Ownership
import AetherRelay.System.Record

namespace AetherRelay

-- `sent` requests have been made and `stored` attempts recorded for a row that
-- may be sent again. Rows of an earlier process may carry attempts this one did
-- not make, so the requests are bounded by the attempts and not equal to them.
-- The last case is the count the attempt number cannot hold any more.
def Room (maxAttempts sent stored : Nat) : Prop :=
  sent = 0 ∨ (sent ≤ stored ∧ stored < maxAttempts) ∨ (sent ≤ 1 ∧ 2^32 ≤ stored)

def Unanswered (r : Record) : Prop := ∀ a ∈ r.answers, a.success = false

structure Ready (maxAttempts : Nat) (r : Record) : Prop where
  room : Room maxAttempts r.posts r.attempts.length
  open' : Unanswered r

structure Counted (d : Delivery) (r : Record) : Prop where
  held : r.status = some .processing
  count : d.attemptCount = r.attempts.length
  fits : d.attemptCount < 2^32

def Sent (maxAttempts stored : Nat) (r : Record) : Prop := ∃ sent, r.posts = sent+1 ∧ Room maxAttempts sent stored

def DispatchPc.Metered (maxAttempts : Nat) (r : Record) : DispatchPc → Prop
  | .selectEvent _ | .selectEndpoint _ _ _ | .countAttempts _ _ _ _ =>
    r.status = some .processing ∧ Ready maxAttempts r
  | .checkBreaker d | .requeueDeferred d | .send d _ => Counted d r ∧ Ready maxAttempts r
  | .await d _ => Counted d r ∧ Sent maxAttempts d.attemptCount r ∧ Unanswered r
  | .updateBreaker d _ answer | .insertAttempt d answer =>
    Counted d r ∧ Sent maxAttempts d.attemptCount r ∧ (answer.success = false → Unanswered r)
  | .updateStatus d answer _ =>
    r.status = some .processing ∧ r.attempts.length = d.attemptCount+1 ∧ d.attemptCount < 2^32 ∧
      Sent maxAttempts d.attemptCount r ∧ (answer.success = false → Unanswered r)
  | .insertDeadLetter _ _ _ | .done _ (.ok _) => True
  | .done _ (.error _) => r.row = none ∨ Ready maxAttempts r

def WorkerPc.Metered (maxAttempts : Nat) (r : Record) : WorkerPc → Prop
  | .dispatching _ _ pc => pc.Metered maxAttempts r
  | .requeueing _ _ => r.row = none ∨ Ready maxAttempts r
  | _ => True

theorem Room.bound (room : Room maxAttempts sent stored) (fits : stored < 2^32) : sent+1 ≤ max 1 maxAttempts := by
  rcases room with rfl | ⟨low,high⟩ | ⟨_,beyond⟩
  · exact Nat.le_max_left 1 maxAttempts
  · exact le_trans (by omega) (Nat.le_max_right 1 maxAttempts)
  · omega

theorem Room.again (room : Room maxAttempts sent stored) (fits : stored < 2^32) (small : maxAttempts < 2^32)
    (left : (stored+1) % 2^32 < maxAttempts) : Room maxAttempts (sent+1) (stored+1) := by
  by_cases wraps : stored+1 < 2^32
  · rw [Nat.mod_eq_of_lt wraps] at left
    rcases room with rfl | ⟨low,high⟩ | ⟨_,beyond⟩
    · exact .inr (.inl ⟨by omega,left⟩)
    · exact .inr (.inl ⟨by omega,left⟩)
    · omega
  · rcases room with rfl | ⟨low,high⟩ | ⟨_,beyond⟩
    · exact .inr (.inr ⟨by omega,by omega⟩)
    · omega
    · omega

theorem Ready.withStatus (ready : Ready maxAttempts r) (st : EventStatus) : Ready maxAttempts (r.withStatus st) :=
  ⟨ready.room,ready.open'⟩

section
variable {x : Externals} {cfg : DispatchLoopConfig} {inp : Input} {w next : World} {pc after : DispatchPc}

structure Metering (maxAttempts : Nat) (r : Record) (point : Prop) : Prop where
  point : point
  bound : r.posts ≤ max 1 maxAttempts
  waiting : r.status = some .received → Ready maxAttempts r

theorem DispatchStep.metered (effect : DispatchStep x cfg inp w pc next after) (supplied : w.Supplied x)
    (live : inp.fault = none)
    (old : Metering cfg.maxAttempts.toNat (w.record pc.eventId) (pc.Metered cfg.maxAttempts.toNat (w.record pc.eventId))) :
    Metering cfg.maxAttempts.toNat (next.record pc.eventId)
      (after.Metered cfg.maxAttempts.toNat (next.record pc.eventId)) := by
  obtain ⟨point,bound,waiting⟩ := old
  have small : cfg.maxAttempts.toNat < 2^32 := cfg.maxAttempts.toNat_lt
  cases effect with
  | selectEvent _ found => exact ⟨point,bound,waiting⟩
  | selectEndpoint _ found => exact ⟨point,bound,waiting⟩
  | countAttempts _ fits => exact ⟨⟨⟨point.1,rfl,fits⟩,point.2⟩,bound,waiting⟩
  | withheld refused => exact ⟨point,bound,waiting⟩
  | admitted open' => exact ⟨point,bound,waiting⟩
  | @requeueDeferred _ d _ =>
    refine (World.record_withStatus w d.eventId .received).symm ▸ ?_
    exact ⟨trivial,bound,fun _ => point.2.withStatus _⟩
  | @send _ d mode =>
    obtain ⟨counted,ready⟩ := point
    have room : Room cfg.maxAttempts.toNat (w.record d.eventId).posts d.attemptCount := counted.count ▸ ready.room
    refine (World.record_posted w d.eventId d.endpointId d.targetUrl d.rawBody).symm ▸ ?_
    refine ⟨⟨⟨counted.held,counted.count,counted.fits⟩,⟨_,rfl,room⟩,ready.open'⟩,room.bound counted.fits,?_⟩
    intro received
    cases counted.held.symm.trans received
  | @await _ d mode =>
    obtain ⟨counted,sent,clean⟩ := point
    refine (World.record_answered w d.eventId inp.answer).symm ▸ ?_
    refine ⟨⟨⟨counted.held,counted.count,counted.fits⟩,sent,fun failed a member => ?_⟩,bound,fun received => ?_⟩
    · rcases List.mem_cons.mp member with rfl | older
      · exact failed
      · exact clean a older
    · cases counted.held.symm.trans received
  | updateBreaker => exact ⟨point,bound,waiting⟩
  | @insertAttempt _ d answer _ _ stored =>
    obtain ⟨counted,sent,clean⟩ := point
    refine (World.record_insertAttempt (n := w.drawn+1) stored).symm ▸ ?_
    refine ⟨⟨counted.held,?_,counted.fits,sent,clean⟩,bound,fun received => ?_⟩
    · have count : d.attemptCount = (w.record d.eventId).attempts.length := counted.count
      change ((w.record d.eventId).attempts ++ [_]).length = d.attemptCount+1
      simp [count]
    · cases counted.held.symm.trans received
  | @exhausted d answer _ now _ spent =>
    refine (World.record_withStatus w d.eventId .failed).symm ▸ ?_
    have held : (w.record d.eventId).status = some .processing := point.1
    refine ⟨trivial,bound,fun received => ?_⟩
    rw [Record.status_withStatus,held] at received
    cases received
  | @settled d answer _ now _ other =>
    obtain ⟨processing,count,fits,⟨sent,posts,room⟩,clean⟩ := point
    have held : (w.record d.eventId).status = some .processing := processing
    have posts : (w.record d.eventId).posts = sent+1 := posts
    have count : (w.record d.eventId).attempts.length = d.attemptCount+1 := count
    refine (World.record_withStatus w d.eventId (settledStatus cfg d answer)).symm ▸ ?_
    refine ⟨trivial,bound,fun received => ?_⟩
    rw [Record.status_withStatus,held,Option.map_some,Option.some.injEq] at received
    obtain ⟨failed,left⟩ := settledStatus_received received
    refine ⟨?_,clean failed⟩
    change Room _ (w.record d.eventId).posts (w.record d.eventId).attempts.length
    rw [posts,count]
    exact room.again fits small left
  | @insertDeadLetter _ d answer now _ _ stored =>
    refine (World.record_replaceLetter (n := w.drawn+1) stored).symm ▸ ?_
    exact ⟨trivial,bound,fun received => ⟨(waiting received).room,(waiting received).open'⟩⟩
  | failed cause =>
    refine ⟨?_,bound,waiting⟩
    have blocked := perform_error live cause
    cases pc with
    | selectEvent e => exact .inl blocked
    | selectEndpoint e endpointId body => exact .inr point.2
    | countAttempts e endpointId body url => exact .inr point.2
    | insertDeadLetter d answer now => exact .inl blocked
    | insertAttempt d answer =>
      rcases blocked with taken | gone
      · exact absurd taken supplied.fresh_attempt
      · exact .inl gone
    | _ => exact blocked.elim

theorem WorkerStep.metered {worker done : Worker} (effect : WorkerStep x cfg inp w worker next done)
    (supplied : w.Supplied x) (live : inp.fault = none) (coherent : worker.Coherent)
    (touched : worker.engaged = some e ∨ done.engaged = some e)
    (old : Metering cfg.maxAttempts.toNat (w.record e) (worker.pc.Metered cfg.maxAttempts.toNat (w.record e))) :
    Metering cfg.maxAttempts.toNat (next.record e) (done.pc.Metered cfg.maxAttempts.toNat (next.record e)) := by
  obtain ⟨pc,p⟩ := worker
  obtain ⟨after,q⟩ := done
  cases effect.concerns coherent touched with
  | claim clean head =>
    rename_i row
    have waiting : (w.record row.id).status = some .received := Db.nextReceived_waiting head
    refine (World.record_withStatus w row.id .processing).symm ▸ ?_
    have processing : ((w.record row.id).withStatus .processing).status = some .processing := by
      rw [Record.status_withStatus,waiting]; rfl
    refine ⟨⟨processing,(old.waiting waiting).withStatus _⟩,old.bound,fun received => ?_⟩
    cases processing.symm.trans received
  | dispatch moved => exact moved.metered supplied live old
  | errored cause =>
    rw [World.record_log rfl rfl]
    exact ⟨old.point,old.bound,old.waiting⟩
  | requeued clean =>
    refine (World.record_withStatus w e .received).symm ▸ ?_
    refine ⟨trivial,old.bound,fun received => ?_⟩
    rcases old.point with gone | ready
    · rw [Record.status_withStatus,Record.status,gone] at received
      cases received
    · exact ready.withStatus _
  | stranded fault => exact ⟨trivial,old.bound,old.waiting⟩

end

theorem WorkerPc.metered_free {pc : WorkerPc} (free : pc.stage = .free) : pc.Metered maxAttempts r := by
  cases pc with
  | idle => trivial
  | finished result => trivial
  | requeueing e cause => cases free
  | dispatching claimed parent pc =>
    cases pc with
    | done e result =>
      cases result with
      | ok value => trivial
      | error cause => cases free
    | _ => cases free

theorem WorkerPc.Metered.removed {pc : WorkerPc} (old : pc.Metered maxAttempts r) (was : r.row = some row)
    (settled : row.status.pending = false) :
    pc.Metered maxAttempts {r with row:=none,attempts:=[],letters:=[]} := by
  have idle : r.status ≠ some .processing := by
    intro processing
    rw [Record.status,was,Option.map_some,Option.some.injEq] at processing
    rw [processing] at settled
    cases settled
  cases pc with
  | idle => trivial
  | finished result => trivial
  | requeueing e cause => exact .inl rfl
  | dispatching claimed parent pc =>
    cases pc with
    | selectEvent e => exact absurd old.1 idle
    | selectEndpoint e endpointId body => exact absurd old.1 idle
    | countAttempts e endpointId body url => exact absurd old.1 idle
    | updateStatus d answer now => exact absurd old.1 idle
    | insertDeadLetter d answer now => trivial
    | done e result =>
      cases result with
      | ok value => trivial
      | error cause => exact .inl rfl
    | _ => exact absurd old.1.held idle

def Closed (history : List Happening) : Prop :=
  ∀ newer e endpointId url body older, history = newer ++ .posted e endpointId url body :: older →
    ∀ a, .answered e a ∈ older → a.success = false

theorem Closed.cons (old : Closed history)
    (sound : ∀ e endpointId url body, h = .posted e endpointId url body →
      ∀ a, .answered e a ∈ history → a.success = false) : Closed (h :: history) := by
  intro newer e endpointId url body older parts a member
  cases newer with
  | nil =>
    obtain ⟨rfl,rfl⟩ := List.cons.inj parts
    exact sound e endpointId url body rfl a member
  | cons head rest =>
    obtain ⟨_,parts⟩ := List.cons.inj parts
    exact old rest e endpointId url body older parts a member

theorem Moved.engaging (moved : Moved fault db before next after)
    (was : ∀ e, before.engaged = some e → db.status e ≠ some .received) :
    (∀ e, after.engaged = some e → next.status e ≠ some .received ∧
      (before.engaged = some e ∨ ¬db.status e ≠ some .received)) ∧
    ∀ e, db.status e ≠ some .received → before.engaged ≠ some e → next.status e ≠ some .received := by
  cases moved with
  | claim live head =>
    rename_i row
    have waiting := Db.nextReceived_waiting head
    constructor
    · intro e has
      obtain rfl : row.id = e := Option.some.inj has
      rw [Db.status_setStatus,if_pos rfl,waiting]
      exact ⟨by simp,.inr (by simp)⟩
    · intro e idle _
      rw [Db.status_setStatus]
      split
      · cases db.status e <;> simp
      · exact idle
  | stay same =>
    exact ⟨fun e has => ⟨(Db.status_congr same).symm ▸ was e has,.inl has⟩,fun e idle _ => (Db.status_congr same).symm ▸ idle⟩
  | settle st final =>
    rename_i k
    constructor
    · intro e has
      split at has
      · rename_i failed
        obtain rfl : k = e := Option.some.inj has
        rw [Db.status_setStatus,if_pos rfl,failed]
        exact ⟨by cases db.status k <;> simp,.inl rfl⟩
      · cases has
    · intro e idle other
      rw [Db.status_setStatus,if_neg (by rintro rfl; exact other rfl)]
      exact idle
  | park same => exact ⟨fun e has => (by cases has),fun e idle _ => (Db.status_congr same).symm ▸ idle⟩
  | parkFailed gone => exact ⟨fun e has => ⟨was e has,.inl has⟩,fun e idle _ => idle⟩
  | stranded struck => exact ⟨fun e has => (by cases has),fun e idle _ => idle⟩

namespace System
variable {x : Externals} {cfg : AppConfig} {s t : State} {a : Action}

def budget (cfg : AppConfig) : Nat := cfg.worker.maxAttempts.toNat

structure Metered (x : Externals) (cfg : AppConfig) (s : State) : Prop where
  supplied : Supplied x s
  alone : Ownership.Exclusive Worker.engaged s.workers (fun e => s.world.db.status e ≠ some .received)
  waiting : ∀ e, (s.world.record e).status = some .received → Ready (budget cfg) (s.world.record e)
  bound : ∀ e, (s.world.record e).posts ≤ max 1 (budget cfg)
  passes : ∀ i e, (s.workers i).engaged = some e → (s.workers i).pc.Metered (budget cfg) (s.world.record e)
  past : Closed s.world.history

theorem Booted.metered (start : Booted x cfg s) : Metered x cfg s := by
  have silent : ∀ e, (s.world.record e).posts = 0 ∧ (s.world.record e).answers = [] := by
    intro e
    simp [World.record,start.history]
  refine ⟨start.supplied,.nothing fun i => by rw [start.workers]; rfl,?_,?_,?_,?_⟩
  · exact fun e _ => ⟨.inl (silent e).1,fun a member => by rw [(silent e).2] at member; cases member⟩
  · exact fun e => (silent e).1 ▸ Nat.zero_le _
  · exact fun i e engaged => by rw [start.workers] at engaged; cases engaged
  · intro newer e endpointId url body older parts
    rw [start.history] at parts
    simp at parts

theorem Step.closed (moved : Step x cfg s a t) (old : Metered x cfg s) : Closed t.world.history := by
  obtain ⟨new,log,history⟩ := moved.log
  rw [history]
  cases log with
  | silent => exact old.past
  | posted pass at' =>
    rename_i i inp claimed parent d mode
    apply old.past.cons
    intro e endpointId url body same answer member
    cases same
    have engaged : (s.workers i).engaged = some d.eventId := by
      simp [Worker.engaged,at',WorkerPc.stage,DispatchPc.stage,DispatchPc.eventId,Stage.engaged]
    have metered := old.passes i d.eventId engaged
    rw [at'] at metered
    exact metered.2.open' answer (World.mem_answers.mpr member)
  | _ => exact old.past.cons fun e endpointId url body same => by cases same

theorem RecordStep.metering (step : RecordStep x s a k r after) (fresh : a.replays = false)
    (old : Metering maxAttempts r True) : Metering maxAttempts after True := by
  cases step with
  | same => exact old
  | created drawn waiting => exact ⟨trivial,Nat.zero_le _,fun _ => ⟨.inl rfl,fun a member => by cases member⟩⟩
  | removed asked was settled => exact ⟨trivial,old.bound,fun received => by cases received⟩
  | requeued asked => rw [fresh] at asked; cases asked
  | cleared asked => rw [fresh] at asked; cases asked
  | unlisted asked dlqId => rw [fresh] at asked; cases asked

theorem RecordStep.engaged (step : RecordStep x s a k r after) (fresh : a.replays = false)
    (spent : Spent x s.world k) {pc : WorkerPc} (old : pc.Metered maxAttempts r) :
    pc.Metered maxAttempts after ∧ (r.status ≠ some .received → after.status ≠ some .received) := by
  cases step with
  | same => exact ⟨old,fun idle => idle⟩
  | created drawn waiting => exact absurd drawn.symm (spent _ (Nat.le_refl _))
  | removed asked was settled => exact ⟨old.removed was settled,fun _ received => by cases received⟩
  | requeued asked => rw [fresh] at asked; cases asked
  | cleared asked => rw [fresh] at asked; cases asked
  | unlisted asked dlqId => rw [fresh] at asked; cases asked

theorem Metered.metering (old : Metered x cfg s) (e : Uuid) :
    Metering (budget cfg) (s.world.record e) True := ⟨trivial,old.bound e,old.waiting e⟩

theorem Step.metered_outside (moved : Step x cfg s a t) (fresh : a.replays = false)
    (others : ∀ i inp, a ≠ .worker i inp) (same : t.workers = s.workers) (old : Metered x cfg s) :
    Metered x cfg t := by
  have change : ∀ e, RecordStep x s a e (s.world.record e) (t.world.record e) :=
    fun e => moved.record old.supplied others
  have step : ∀ e, Metering (budget cfg) (t.world.record e) True :=
    fun e => (change e).metering fresh (old.metering e)
  have hands : ∀ i e, (s.workers i).engaged = some e → _ :=
    fun i e engaged => (change e).engaged fresh (old.supplied.spent_engaged engaged) (old.passes i e engaged)
  refine ⟨moved.supplied old.supplied,?_,fun e => (step e).waiting,fun e => (step e).bound,?_,moved.closed old⟩
  · rw [same]
    exact old.alone.outside fun i e engaged idle => (hands i e engaged).2 idle
  · rw [same]
    exact fun i e engaged => (hands i e engaged).1

theorem Step.metered (moved : Step x cfg s a t) (live : a.live = true) (fresh : a.replays = false)
    (stays : a.ends = false) (old : Metered x cfg s) : Metered x cfg t := by
  cases moved with
  | worked up effect =>
    rename_i inp next after i
    have moved := Step.worked up effect
    have coherent := old.supplied.coherent i
    have clean := Action.live_worker.mp live
    obtain ⟨got,others⟩ := (effect.moves coherent).engaging fun e has => old.alone.taken i e has
    have alone := old.alone.move got others
    have step : ∀ e, Metering (budget cfg) (next.record e) True ∧
        (after.engaged = some e → after.pc.Metered (budget cfg) (next.record e)) := by
      intro e
      by_cases touched : (s.workers i).engaged = some e ∨ after.engaged = some e
      · have known : (s.workers i).pc.Metered (budget cfg) (s.world.record e) := by
          by_cases before : (s.workers i).engaged = some e
          · exact old.passes i e before
          · rcases (effect.moves coherent).engages (touched.resolve_left before) with was | ⟨free,_⟩
            · exact absurd was before
            · exact WorkerPc.metered_free free
        have metered := effect.metered old.supplied.world clean coherent touched
          ⟨known,old.bound e,old.waiting e⟩
        exact ⟨⟨trivial,metered.bound,metered.waiting⟩,fun _ => metered.point⟩
      · obtain ⟨before,now⟩ := not_or.mp touched
        rw [effect.frame old.supplied.world coherent before now]
        exact ⟨old.metering e,fun has => absurd has now⟩
    refine ⟨moved.supplied old.supplied,alone,fun e => (step e).1.waiting,fun e => (step e).1.bound,?_,
      moved.closed old⟩
    refine (Function.forall_update_iff s.workers fun _ worker => ∀ e, worker.engaged = some e →
      worker.pc.Metered (budget cfg) (next.record e)).mpr ⟨fun e has => (step e).2 has,fun j other e has => ?_⟩
    have before : (s.workers i).engaged ≠ some e := fun mine => other (old.alone.alone j i e has mine)
    have now : after.engaged ≠ some e := by
      intro mine
      rcases (got e mine).2 with was | free
      · exact before was
      · exact free (old.alone.taken j e has)
    rw [effect.frame old.supplied.world coherent before now]
    exact old.passes j e has
  | created up effect => exact (Step.created up effect).metered_outside fresh (by simp) rfl old
  | deleted up effect => exact (Step.deleted up effect).metered_outside fresh (by simp) rfl old
  | accepted up effect => exact (Step.accepted up effect).metered_outside fresh (by simp) rfl old
  | ingestStarted up gates => exact (Step.ingestStarted up gates).metered_outside fresh (by simp) rfl old
  | ingested up there effect => exact (Step.ingested up there effect).metered_outside fresh (by simp) rfl old
  | replayStarted up => cases fresh
  | replayed up there effect => cases fresh
  | killed up => cases stays
  | shutDown up done => cases stays
  | restarted down => exact (Step.restarted down).metered_outside rfl (by simp) rfl old

-- The passes never share an event, an event is sent at most as often as the
-- budget allows, at least once being allowed, and never after a success.
theorem delivery_bounded (start : Booted x cfg s)
    (path : Transition.Run (step x cfg) (fun _ a => (a.live && !a.replays && !a.ends) = true) s actions t) :
    (∀ i j e, (t.workers i).engaged = some e → (t.workers j).engaged = some e → i = j) ∧
    (∀ e, (t.world.record e).posts ≤ max 1 (budget cfg)) ∧
    ∀ newer e endpointId url body older, t.world.history = newer ++ .posted e endpointId url body :: older →
      ∀ a, .answered e a ∈ older → a.success = false := by
  have metered : Metered x cfg t := by
    refine path.preserves (Metered x cfg) (fun u a v old allowed moved => ?_) start.metered
    obtain ⟨⟨live,fresh⟩,stays⟩ : (a.live = true ∧ a.replays = false) ∧ a.ends = false := by
      simpa using allowed
    exact (step_sound moved).metered live fresh stays old
  exact ⟨metered.alone.alone,metered.bound,metered.past⟩

theorem delivery_bounded_retry :
    ∃ t, Transition.Run (step .tabletop .default) (fun _ a => (a.live && !a.replays && !a.ends) = true) (boot .default)
        (registerAndAccept ++ Action.pass 0 13 (.error "timeout") ++ Action.pass 1 7 (.response .ok)) t ∧
      (t.world.record "11").posts ≤ 5 := by
  have served : (Transition.exec (step .tabletop .default) (boot .default) (registerAndAccept ++
      Action.pass 0 13 (.error "timeout") ++ Action.pass 1 7 (.response .ok))).isSome = true := by
    decide +kernel
  obtain ⟨t,reached⟩ := Option.isSome_iff_exists.mp served
  have path := Transition.Run.check (fun _ a => (a.live && !a.replays && !a.ends) = true) reached (.all (by decide))
  exact ⟨t,path,(delivery_bounded (boot_booted _ _) path).2.1 "11"⟩

end System
end AetherRelay
