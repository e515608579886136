import Mathlib.Data.Option.Defs
import AetherRelay.Worker.Stage

namespace AetherRelay

inductive Agrees (R : α → β → Prop) : Except ε α → Except ε β → Prop where
  | ok (same : R a b) : Agrees R (.ok a) (.ok b)
  | error (e : ε) : Agrees R (.error e) (.error e)

theorem Agrees.map {R : α → β → Prop} {S : γ → δ → Prop} {one : Except ε α} {two : Except ε β} {f : α → γ} {g : β → δ}
    (old : Agrees R one two) (lift : ∀ a b, R a b → S (f a) (g b)) : Agrees S (one.map f) (two.map g) := by
  cases old with
  | ok same => exact .ok (lift _ _ same)
  | error e => exact .error e

theorem Agrees.equal {one two : Except ε α} (same : one = two) : Agrees Eq one two := by
  subst same
  cases one with
  | ok a => exact .ok rfl
  | error e => exact .error e

theorem Agrees.statement {R : α → β → Prop} {one : Except SqlError α} {two : Except SqlError β}
    (old : Agrees R one two) (inp : Input) : Agrees R (statement inp one) (statement inp two) := by
  unfold AetherRelay.statement
  cases inp.fault with
  | some e => exact .error _
  | none =>
    cases old with
    | ok same => exact .ok same
    | error e => exact .error _

-- The same memory over two stores, one of which is an edit of the other. What
-- has been logged is left aside.
structure Mirrors (f : Db → Db) (a b : World) : Prop where
  db : a.db = f b.db
  breakers : a.breakers = b.breakers
  drawn : a.drawn = b.drawn

-- The pass with another number in its local attempt_count, as long as it has
-- still to use it.
def Delivery.recount (d : Delivery) (n : Nat → Nat) : Delivery := {d with attemptCount:=n d.attemptCount}

def DispatchPc.recount (n : Nat → Nat) : DispatchPc → DispatchPc
  | .checkBreaker d => .checkBreaker (d.recount n)
  | .requeueDeferred d => .requeueDeferred (d.recount n)
  | .send d mode => .send (d.recount n) mode
  | .await d mode => .await (d.recount n) mode
  | .updateBreaker d mode answer => .updateBreaker (d.recount n) mode answer
  | .insertAttempt d answer => .insertAttempt (d.recount n) answer
  | pc => pc

structure Parallel (x : Externals) (f : Db → Db) (n : Nat → Nat) (w : World) (pc : DispatchPc) : Prop where
  event : (f w.db).event pc.eventId = w.db.event pc.eventId
  endpoint : ∀ id, (f w.db).endpoint id = w.db.endpoint id
  status : ∀ st, (f w.db).setStatus pc.eventId st = f (w.db.setStatus pc.eventId st)
  letter : ∀ row : DeadLetter, row.eventId = pc.eventId → row.id = x.nowV7 w.drawn →
    Agrees (fun a b => a = f b) ((f w.db).replaceLetter row) (w.db.replaceLetter row)
  count : ∀ id endpointId rawBody targetUrl, pc = .countAttempts id endpointId rawBody targetUrl →
    (f w.db).attemptCount id = n (w.db.attemptCount id) ∧ w.db.attemptCount id < 2^32 ∧ n (w.db.attemptCount id) < 2^32
  attempt : ∀ d answer, pc = .insertAttempt d answer → n d.attemptCount = d.attemptCount ∧
    ∀ row : DeliveryAttempt, row.eventId = d.eventId → row.id = x.nowV7 w.drawn →
      Agrees (fun a b => a = f b) ((f w.db).insertAttempt row) (w.db.insertAttempt row)

section
variable {x : Externals} {cfg : DispatchLoopConfig} {f : Db → Db} {n : Nat → Nat} {a b : World} {pc : DispatchPc}

@[simp] theorem DispatchPc.recount_eventId (pc : DispatchPc) : (pc.recount n).eventId = pc.eventId := by
  cases pc <;> rfl

theorem Mirrors.log (mirrors : Mirrors f a b) (h : Happening) : Mirrors f (a.log h) (b.log h) :=
  ⟨mirrors.db,mirrors.breakers,mirrors.drawn⟩

theorem perform_mirrors (cfg : DispatchLoopConfig) (mirrors : Mirrors f a b) (parallel : Parallel x f n b pc) (inp : Input) :
    Agrees (fun p q => Mirrors f p.1 q.1 ∧ p.2 = q.2.recount n) ((pc.recount n).perform x cfg inp a)
      (pc.perform x cfg inp b) := by
  obtain ⟨db,breakers,drawn⟩ := mirrors
  cases pc with
  | selectEvent id =>
    have event : a.db.event id = b.db.event id := by rw [db]; exact parallel.event
    have same : selectEvent a inp id = selectEvent b inp id := by simp only [selectEvent,event]
    refine (Agrees.equal same).map ?_
    intro p _ equal
    subst equal
    exact ⟨⟨db,breakers,drawn⟩,rfl⟩
  | selectEndpoint id endpointId rawBody =>
    have endpoint : a.db.endpoint endpointId = b.db.endpoint endpointId := by rw [db]; exact parallel.endpoint endpointId
    have same : selectTarget a inp endpointId = selectTarget b inp endpointId := by simp only [selectTarget,endpoint]
    refine (Agrees.equal same).map ?_
    intro url _ equal
    subst equal
    exact ⟨⟨db,breakers,drawn⟩,rfl⟩
  | countAttempts id endpointId rawBody targetUrl =>
    obtain ⟨count,few,few'⟩ := parallel.count id endpointId rawBody targetUrl rfl
    have number : a.db.attemptCount id = n (b.db.attemptCount id) := by rw [db]; exact count
    have counted : Agrees (fun p q => p = n q) (countAttempts a inp id) (countAttempts b inp id) := by
      simp only [countAttempts,number,if_pos few,if_pos few']
      exact (Agrees.ok (R:=fun p q => p = n q) rfl).statement inp
    refine counted.map ?_
    intro _ count equal
    subst equal
    exact ⟨⟨db,breakers,drawn⟩,rfl⟩
  | checkBreaker d =>
    have entry : a.breakers.entry cfg.circuitFailureThreshold cfg.circuitRecovery d.endpointId =
        b.breakers.entry cfg.circuitFailureThreshold cfg.circuitRecovery d.endpointId := by rw [breakers]
    have verdict : (checkBreaker cfg a inp d.endpointId).2 = (checkBreaker cfg b inp d.endpointId).2 := by
      simp only [checkBreaker,breakers]
    refine .ok ⟨⟨db,?_,drawn⟩,?_⟩
    · simp only [Delivery.recount,breakers]
    · change (if (checkBreaker cfg a inp d.endpointId).2 = true then DispatchPc.requeueDeferred (d.recount n)
          else .send (d.recount n) ((a.breakers.entry cfg.circuitFailureThreshold cfg.circuitRecovery
            d.endpointId).observe inp.instant).state) =
        DispatchPc.recount n (if (checkBreaker cfg b inp d.endpointId).2 = true then .requeueDeferred d
          else .send d ((b.breakers.entry cfg.circuitFailureThreshold cfg.circuitRecovery
            d.endpointId).observe inp.instant).state)
      rw [verdict,entry]
      cases (checkBreaker cfg b inp d.endpointId).2 <;> rfl
  | requeueDeferred d =>
    refine Agrees.map (R:=Mirrors f) (.statement (.ok ⟨?_,breakers,drawn⟩) inp) fun p q same => ⟨same,rfl⟩
    simp only [Delivery.recount,db]
    exact parallel.status .received
  | send d mode => exact .ok ⟨⟨db,breakers,drawn⟩,rfl⟩
  | await d mode => exact .ok ⟨⟨db,breakers,drawn⟩,rfl⟩
  | updateBreaker d mode answer =>
    refine .ok ⟨⟨db,?_,drawn⟩,rfl⟩
    simp only [Delivery.recount,updateBreaker,breakers]
  | insertAttempt d answer =>
    obtain ⟨count,inserts⟩ := parallel.attempt d answer rfl
    have same : d.recount n = d := by simp only [Delivery.recount,count]
    have stored := inserts (d.attempt answer (x.nowV7 b.drawn) inp.now) rfl rfl
    rw [← db] at stored
    simp only [DispatchPc.recount,same,DispatchPc.perform,insertAttempt,drawn]
    refine Agrees.map (R:=Mirrors f) (.statement (stored.map fun p q moved => ?_) inp) fun p q same => ⟨same,rfl⟩
    exact ⟨moved,breakers,rfl⟩
  | updateStatus d answer now =>
    refine Agrees.map (R:=Mirrors f) (.statement (.ok ⟨?_,breakers,drawn⟩) inp) fun p q same => ⟨same,?_⟩
    · split <;> rfl
    · simp only [db]
      exact parallel.status _
  | insertDeadLetter d answer now =>
    have stored := parallel.letter (d.letter answer (x.nowV7 b.drawn) now) rfl rfl
    rw [← db] at stored
    simp only [DispatchPc.recount,DispatchPc.perform,insertDeadLetter,drawn]
    refine Agrees.map (R:=Mirrors f) (.statement (stored.map fun p q moved => ?_) inp) fun p q same => ⟨same,rfl⟩
    exact ⟨moved,breakers,rfl⟩
  | done id result => exact .ok ⟨⟨db,breakers,drawn⟩,rfl⟩

@[simp] theorem DispatchPc.recount_id (pc : DispatchPc) : pc.recount id = pc := by
  cases pc <;> rfl

theorem DispatchPc.recount_running (running : ∀ id r, pc ≠ .done id r) : ∀ id r, pc.recount n ≠ .done id r := by
  intro id r same
  cases pc with
  | done id' r' => exact running id' r' rfl
  | _ => cases same

end

def WorkerPc.recount (e : Uuid) (n : Nat → Nat) : WorkerPc → WorkerPc
  | .dispatching claimed parent pc => .dispatching claimed parent (pc.recount (if pc.eventId = e then n else id))
  | pc => pc

def Worker.recount (e : Uuid) (n : Nat → Nat) (worker : Worker) : Worker := ⟨worker.pc.recount e n,worker.prevSleep⟩

structure Abreast (x : Externals) (f : Db → Db) (e : Uuid) (n : Nat → Nat) (w : World) (pc : WorkerPc) : Prop where
  claim : pc = .idle → (f w.db).nextReceived = w.db.nextReceived ∧ ∀ row, w.db.nextReceived = some row →
    (f w.db).setStatus row.id .processing = f (w.db.setStatus row.id .processing)
  pass : ∀ claimed parent inner, pc = .dispatching claimed parent inner → (∀ id r, inner ≠ .done id r) →
    Parallel x f (if inner.eventId = e then n else id) w inner
  requeue : ∀ id error, pc = .requeueing id error → (f w.db).setStatus id .received = f (w.db.setStatus id .received)

section
variable {x : Externals} {cfg : DispatchLoopConfig} {f : Db → Db} {n : Nat → Nat} {a b : World} {e : Uuid}

theorem claim_mirrors (mirrors : Mirrors f a b) (next : (f b.db).nextReceived = b.db.nextReceived)
    (status : ∀ row, b.db.nextReceived = some row →
      (f b.db).setStatus row.id .processing = f (b.db.setStatus row.id .processing)) (inp : Input) :
    Agrees (fun p q => Mirrors f p.1 q.1 ∧ p.2 = q.2) (claimNextEvent a inp) (claimNextEvent b inp) := by
  have head : a.db.nextReceived = b.db.nextReceived := by rw [mirrors.db]; exact next
  unfold claimNextEvent
  rw [head]
  cases taken : b.db.nextReceived with
  | none => exact .statement (.ok ⟨mirrors,rfl⟩) inp
  | some row =>
    refine .statement (.ok ⟨⟨?_,mirrors.breakers,mirrors.drawn⟩,rfl⟩) inp
    rw [mirrors.db]
    exact status row taken

theorem workerStep_mirrors {worker : Worker} (cfg : DispatchLoopConfig) (mirrors : Mirrors f a b)
    (abreast : Abreast x f e n b worker.pc)
    (inp : Input) :
    Option.Rel (fun p q => Mirrors f p.1 q.1 ∧ p.2 = q.2.recount e n) (workerStep x cfg inp a (worker.recount e n))
      (workerStep x cfg inp b worker) := by
  obtain ⟨pc,p⟩ := worker
  cases pc with
  | idle =>
    obtain ⟨next,status⟩ := abreast.claim rfl
    have claims := claim_mirrors mirrors next status inp
    simp only [Worker.recount,WorkerPc.recount,workerStep]
    generalize claimNextEvent a inp = one at claims ⊢
    generalize claimNextEvent b inp = two at claims ⊢
    cases claims with
    | error e => exact .some ⟨mirrors,rfl⟩
    | @ok one two same =>
      obtain ⟨claimed,taken⟩ := one
      obtain ⟨claimed',taken'⟩ := two
      obtain ⟨same,rfl⟩ := same
      cases taken with
      | none => exact .some ⟨same,rfl⟩
      | some ids => exact .some ⟨same,rfl⟩
  | requeueing id error =>
    have put : Agrees (Mirrors f) (requeueEvent a inp id) (requeueEvent b inp id) := by
      refine .statement (.ok ⟨?_,mirrors.breakers,mirrors.drawn⟩) inp
      rw [mirrors.db]
      exact abreast.requeue id error rfl
    simp only [Worker.recount,WorkerPc.recount,workerStep]
    generalize requeueEvent a inp id = one at put ⊢
    generalize requeueEvent b inp id = two at put ⊢
    cases put with
    | error e => exact .some ⟨mirrors,rfl⟩
    | ok same => exact .some ⟨same,rfl⟩
  | finished result =>
    have sleeps : Option.Rel (fun p q => Mirrors f p.1 q.1 ∧ p.2 = q.2.recount e n)
        ((decorrelatedJitter cfg.backoffBase cfg.backoffCap p inp.draw).map fun delay =>
          (a.log (.slept delay),(⟨.idle,delay⟩ : Worker)))
        ((decorrelatedJitter cfg.backoffBase cfg.backoffCap p inp.draw).map fun delay =>
          (b.log (.slept delay),(⟨.idle,delay⟩ : Worker))) := by
      cases decorrelatedJitter cfg.backoffBase cfg.backoffCap p inp.draw with
      | none => exact .none
      | some delay => exact .some ⟨mirrors.log _,rfl⟩
    cases result with
    | error cause => exact sleeps
    | ok outcome =>
      cases outcome with
      | deferred => exact sleeps
      | settled => exact .some ⟨mirrors,rfl⟩
      | idle => exact .some ⟨mirrors.log _,rfl⟩
  | dispatching claimed parent pc =>
    by_cases done : ∃ id r, pc = .done id r
    · obtain ⟨id,r,rfl⟩ := done
      cases r with
      | ok result => exact .some ⟨mirrors.log _,rfl⟩
      | error cause => exact .some ⟨mirrors.log _,rfl⟩
    · have running : ∀ id r, pc ≠ .done id r := fun id r same => done ⟨id,r,same⟩
      have agrees := perform_mirrors cfg mirrors (abreast.pass claimed parent pc rfl running) inp
      simp only [Worker.recount,WorkerPc.recount]
      rw [workerStep_dispatching running,workerStep_dispatching (DispatchPc.recount_running running)]
      cases performed : pc.perform x cfg inp b with
      | error cause =>
        rw [performed] at agrees
        generalize done : (pc.recount (if pc.eventId = e then n else id)).perform x cfg inp a = one at agrees
        cases agrees
        rw [dispatchStep_error performed,dispatchStep_error done,DispatchPc.recount_eventId]
        exact .some ⟨mirrors,rfl⟩
      | ok result =>
        rw [performed] at agrees
        generalize done : (pc.recount (if pc.eventId = e then n else id)).perform x cfg inp a = one at agrees
        cases agrees with
        | @ok one _ same =>
          obtain ⟨next,after⟩ := one
          obtain ⟨next',after'⟩ := result
          obtain ⟨same,rfl⟩ := same
          have event : after'.eventId = pc.eventId := (perform_sound running performed).same_event
          rw [dispatchStep_ok running performed,dispatchStep_ok (DispatchPc.recount_running running) done]
          refine .some ⟨same,?_⟩
          simp only [event]

theorem Worker.recount_id (worker : Worker) : worker.recount e id = worker := by
  obtain ⟨pc,p⟩ := worker
  cases pc with
  | dispatching claimed parent pc => simp only [Worker.recount,WorkerPc.recount,ite_self,DispatchPc.recount_id]
  | _ => rfl

end
end AetherRelay
