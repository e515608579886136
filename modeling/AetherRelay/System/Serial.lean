import AetherRelay.Api.ReplayEdits
import AetherRelay.System.Afresh

namespace AetherRelay

namespace ReplayPc
variable {dlqId e k new : Uuid} {pc : ReplayPc}

-- The three writes of the replay, parted where it stands: those it has made, and
-- those it has still to make.
def written (dlqId e : Uuid) : ReplayPc → Db → Db
  | .selectLetter _, db | .updateStatus _ _, db => db
  | .deleteAttempts _ _, db => db.setStatus e .received
  | .deleteLetter _ _, db => (db.setStatus e .received).deleteAttempts e
  | .done _, db => ((db.setStatus e .received).deleteAttempts e).deleteLetter dlqId

def unwritten (dlqId e : Uuid) : ReplayPc → Db → Db
  | .selectLetter _, db | .updateStatus _ _, db => ((db.setStatus e .received).deleteAttempts e).deleteLetter dlqId
  | .deleteAttempts _ _, db => (db.deleteAttempts e).deleteLetter dlqId
  | .deleteLetter _ _, db => db.deleteLetter dlqId
  | .done _, db => db

theorem unwritten_written (db : Db) : pc.unwritten dlqId e (pc.written dlqId e db) =
    ((db.setStatus e .received).deleteAttempts e).deleteLetter dlqId := by
  cases pc <;> rfl

theorem written_aside (other : k ≠ e) (fresh : new ≠ dlqId) : Aside (pc.written dlqId e) k new := by
  cases pc with
  | selectLetter id => exact .nothing
  | updateStatus id k => exact .nothing
  | deleteAttempts id k => exact Db.setStatus_aside other _
  | deleteLetter id k => exact Db.deleteAttempts_aside.comp (Db.setStatus_aside other _)
  | done result =>
    exact (Db.deleteLetter_aside fresh).comp (Db.deleteAttempts_aside.comp (Db.setStatus_aside other _))

theorem written_uncounted (other : k ≠ e) : Uncounted (pc.written dlqId e) k new := by
  cases pc with
  | selectLetter id => exact .nothing
  | updateStatus id k => exact .nothing
  | deleteAttempts id k => exact Db.setStatus_uncounted other _
  | deleteLetter id k => exact (Db.deleteAttempts_uncounted other).comp (Db.setStatus_uncounted other _)
  | done result =>
    exact Db.deleteLetter_uncounted.comp ((Db.deleteAttempts_uncounted other).comp (Db.setStatus_uncounted other _))

theorem unwritten_aside (begun : pc.Begun dlqId e) (fresh : new ≠ dlqId) : Aside (pc.unwritten dlqId e) k new := by
  cases pc with
  | selectLetter id => cases begun
  | updateStatus id k => cases begun
  | deleteAttempts id k => exact (Db.deleteLetter_aside fresh).comp Db.deleteAttempts_aside
  | deleteLetter id k => exact Db.deleteLetter_aside fresh
  | done result => exact .nothing

theorem unwritten_uncounted (begun : pc.Begun dlqId e) (apart : k ≠ e ∨ pc.clearing = false) :
    Uncounted (pc.unwritten dlqId e) k new := by
  cases pc with
  | selectLetter id => cases begun
  | updateStatus id k => cases begun
  | deleteAttempts id k =>
    rcases apart with other | cleared
    · exact Db.deleteLetter_uncounted.comp (Db.deleteAttempts_uncounted other)
    · cases cleared
  | deleteLetter id k => exact Db.deleteLetter_uncounted
  | done result => exact .nothing

theorem unwritten_events (begun : pc.Begun dlqId e) (db : Db) :
    (pc.unwritten dlqId e db).incomingEvents = db.incomingEvents := by
  cases pc with
  | selectLetter id => cases begun
  | updateStatus id k => cases begun
  | _ => rfl

theorem unwritten_status (begun : pc.Begun dlqId e) (db : Db) (st : EventStatus) :
    (pc.unwritten dlqId e db).setStatus k st = pc.unwritten dlqId e (db.setStatus k st) := by
  cases pc with
  | selectLetter id => cases begun
  | updateStatus id k => cases begun
  | _ => rfl

theorem unwritten_count (db : Db) : (pc.unwritten dlqId e db).attemptCount k ≤ db.attemptCount k := by
  have fewer : (db.deleteAttempts e).attemptCount k ≤ db.attemptCount k := by
    unfold Db.attemptCount
    rw [Db.attempts_deleteAttempts]
    split
    · exact Nat.zero_le _
    · exact Nat.le_refl _
  cases pc with
  | deleteLetter id k => exact Nat.le_refl _
  | done result => exact Nat.le_refl _
  | _ => exact fewer

end ReplayPc

section
variable {x : Externals} {f : Db → Db} {w : World} {e dlqId : Uuid} {pc : ReplayPc}

theorem Parallel.apart {pc : DispatchPc} (aside : Aside f pc.eventId (x.nowV7 w.drawn))
    (uncounted : Uncounted f pc.eventId (x.nowV7 w.drawn)) (supplied : w.Supplied x)
    (fits : ∀ k endpointId rawBody targetUrl, pc = .countAttempts k endpointId rawBody targetUrl →
      w.db.attemptCount k < 2^32) : Parallel x f id w pc where
  event := aside.event _
  endpoint := aside.endpoint _
  status := aside.status _
  letter := aside.letter _
  count := by
    intro k endpointId rawBody targetUrl equal
    subst equal
    have few := fits k endpointId rawBody targetUrl rfl
    exact ⟨uncounted.count _,few,few⟩
  attempt := by
    intro d answer equal
    subst equal
    exact ⟨rfl,fun row event fresh => uncounted.attempt _ row event fresh supplied.fresh_attempt⟩

theorem Parallel.recounted {pc : DispatchPc} (aside : Aside f pc.eventId (x.nowV7 w.drawn)) (supplied : w.Supplied x)
    (less : (f w.db).attemptCount pc.eventId ≤ w.db.attemptCount pc.eventId)
    (fits : ∀ k endpointId rawBody targetUrl, pc = .countAttempts k endpointId rawBody targetUrl →
      w.db.attemptCount k < 2^32)
    (records : ∀ d answer, pc = .insertAttempt d answer → Uncounted f d.eventId (x.nowV7 w.drawn) ∧
      d.attemptCount = w.db.attemptCount d.eventId) :
    Parallel x f (fun _ => (f w.db).attemptCount pc.eventId) w pc where
  event := aside.event _
  endpoint := aside.endpoint _
  status := aside.status _
  letter := aside.letter _
  count := by
    intro k endpointId rawBody targetUrl equal
    subst equal
    have few := fits k endpointId rawBody targetUrl rfl
    exact ⟨rfl,few,Nat.lt_of_le_of_lt less few⟩
  attempt := by
    intro d answer equal
    subst equal
    obtain ⟨uncounted,count⟩ := records d answer rfl
    refine ⟨(uncounted.count _).trans count.symm,fun row event fresh => ?_⟩
    exact uncounted.attempt _ row event fresh supplied.fresh_attempt

theorem written_abreast {worker : Worker} (supplied : w.Supplied x) (listed : dlqId ∈ w.db.ids)
    (free : worker.engaged ≠ some e)
    (fits : ∀ claimed parent k endpointId rawBody targetUrl,
      worker.pc = .dispatching claimed parent (.countAttempts k endpointId rawBody targetUrl) →
      w.db.attemptCount k < 2^32)
    (claims : worker.pc = .idle → pc.written dlqId e = id) : Abreast x (pc.written dlqId e) e id w worker.pc where
  claim idle := by
    rw [claims idle]
    exact ⟨rfl,fun _ _ => rfl⟩
  pass claimed parent inner at' running := by
    have other : inner.eventId ≠ e := by
      intro same
      apply free
      unfold Worker.engaged
      rw [at',← same]
      exact DispatchPc.engaged_running running
    have fresh : x.nowV7 w.drawn ≠ dlqId := supplied.store dlqId listed w.drawn (Nat.le_refl _)
    rw [ite_self]
    refine .apart (ReplayPc.written_aside other fresh) (ReplayPc.written_uncounted other) supplied ?_
    intro k endpointId rawBody targetUrl equal
    subst equal
    exact fits claimed parent k endpointId rawBody targetUrl at'
  requeue k cause at' := by
    have other : k ≠ e := by
      intro equal
      subst equal
      apply free
      unfold Worker.engaged
      rw [at']
      rfl
    have fresh : x.nowV7 w.drawn ≠ dlqId := supplied.store dlqId listed w.drawn (Nat.le_refl _)
    exact (ReplayPc.written_aside other fresh).status _ _

theorem unwritten_abreast {worker : Worker} (supplied : w.Supplied x) (spent : Spent x w dlqId)
    (begun : pc.Begun dlqId e)
    (fits : ∀ claimed parent k endpointId rawBody targetUrl,
      worker.pc = .dispatching claimed parent (.countAttempts k endpointId rawBody targetUrl) →
      w.db.attemptCount k < 2^32)
    (apart : ∀ claimed parent d answer, worker.pc = .dispatching claimed parent (.insertAttempt d answer) →
      d.eventId = e → pc.clearing = false ∧ d.attemptCount = w.db.attemptCount e) :
    Abreast x (pc.unwritten dlqId e) e (fun _ => (pc.unwritten dlqId e w.db).attemptCount e) w worker.pc where
  claim _ := ⟨Db.nextReceived_congr (ReplayPc.unwritten_events begun _),fun _ _ => ReplayPc.unwritten_status begun _ _⟩
  pass claimed parent inner at' running := by
    have fresh : x.nowV7 w.drawn ≠ dlqId := spent w.drawn (Nat.le_refl _)
    by_cases own : inner.eventId = e
    · subst own
      rw [if_pos rfl]
      refine .recounted (ReplayPc.unwritten_aside begun fresh) supplied (ReplayPc.unwritten_count _) ?_ ?_
      · intro k endpointId rawBody targetUrl equal
        subst equal
        exact fits claimed parent k endpointId rawBody targetUrl at'
      · intro d answer equal
        subst equal
        obtain ⟨cleared,count⟩ := apart claimed parent d answer at' rfl
        exact ⟨ReplayPc.unwritten_uncounted begun (.inr cleared),count⟩
    · rw [if_neg own]
      refine .apart (ReplayPc.unwritten_aside begun fresh) (ReplayPc.unwritten_uncounted begun (.inl own)) supplied ?_
      intro k endpointId rawBody targetUrl equal
      subst equal
      exact fits claimed parent k endpointId rawBody targetUrl at'
  requeue k cause at' := ReplayPc.unwritten_status begun _ _

end

namespace WorkerPc

def between : WorkerPc → Bool
  | .idle | .finished _ => true
  | _ => false

theorem recount_between {pc : WorkerPc} (between : pc.between = true) : pc.recount e n = pc := by
  cases pc with
  | idle => rfl
  | finished result => rfl
  | _ => cases between

theorem between_recount (pc : WorkerPc) : (pc.recount e n).between = pc.between := by
  cases pc <;> rfl

theorem recount_inserts {pc : WorkerPc} (at' : pc.recount e n = .dispatching claimed parent (.insertAttempt d answer)) :
    ∃ d', pc = .dispatching claimed parent (.insertAttempt d' answer) ∧ d'.eventId = d.eventId := by
  cases pc with
  | dispatching claimed' parent' pc =>
    cases pc with
    | insertAttempt d' answer' =>
      cases at'
      exact ⟨d',rfl,rfl⟩
    | _ => cases at'
  | _ => cases at'

end WorkerPc

theorem WorkerStep.recorded {x : Externals} {w next : World} {worker done : Worker}
    (effect : WorkerStep x cfg inp w worker next done)
    (at' : worker.pc = .dispatching claimed parent (.insertAttempt d answer)) : done.recount e n = done := by
  cases effect with
  | dispatch moved =>
    cases at'
    cases moved with
    | insertAttempt live stored => rfl
    | failed cause => rfl
  | _ => cases at'

namespace System
variable {x : Externals} {cfg : AppConfig} {s t u z : State} {e dlqId : Uuid} {r : Nat} {inp : Input}
  {actions : List Action} {pc after : ReplayPc}

def calm : Input := ⟨none,0,0,.error "",0⟩

def call (r : Nat) : List Action := List.replicate 4 (.replay r calm)

def passes (actions : List Action) : List Action := actions.filter (fun a => !a.replays)

-- The replay and the passes one after another: the same passes in the same order
-- with the whole call between two of them.
inductive Serialized (x : Externals) (cfg : AppConfig) (r : Nat) (e : Uuid) (s : State) (actions : List Action) :
    State → Prop where
  | order (parts : before ++ later = passes actions) (first : Transition.exec (step x cfg) s before = some a)
      (between : (a.workers 0).pc.between = true) (replay : Transition.exec (step x cfg) a (call r) = some b)
      (replayed : b.replays[r]? = some (.done (.ok e))) (last : Transition.exec (step x cfg) b later = some c) :
      Serialized x cfg r e s actions c

theorem replay_once (x : Externals) (cfg : AppConfig) (inp : Input) (up : s.running = true) (present : s.replays[r]? = some pc)
    (moved : replayStep inp s.world pc = some (next,after)) :
    ∃ t, step x cfg s (.replay r inp) = some t ∧ t.running = true ∧ t.workers = s.workers ∧ t.world = next ∧
      t.replays[r]? = some after := by
  have inside : r < s.replays.length := (List.getElem?_eq_some_iff.mp present).1
  refine ⟨{s with world:=next,replays:=s.replays.set r after,clock:=inp.now},?_,up,rfl,rfl,by simp [inside]⟩
  simp only [step,up,if_true,serve,present,Option.bind_eq_bind,Option.bind_some,moved]
  rfl

theorem step_worker (up : s.running = true) (moved : workerStep x (loopConfig cfg) inp s.world (s.workers i) = some (next,worker)) :
    step x cfg s (.worker i inp) =
      some {s with world:=next,workers:=Function.update s.workers i worker,clock:=inp.now} := by
  simp only [step,up,if_true,serve,Option.bind_eq_bind,moved,Option.bind_some]
  rfl

theorem worker_step (up : s.running = true) (moved : step x cfg s (.worker i inp) = some t) :
    workerStep x (loopConfig cfg) inp s.world (s.workers i) = some (t.world,t.workers i) := by
  simp only [step,up,if_true,serve] at moved
  obtain ⟨⟨next,worker⟩,inner,equal⟩ := Option.bind_eq_some_iff.mp moved
  cases equal
  rw [inner]
  simp

theorem call_run (x : Externals) (cfg : AppConfig) (up : s.running = true)
    (ready : s.replays[r]? = some (.selectLetter dlqId))
    (found : s.world.db.letter dlqId = some row) :
    ∃ t, Transition.exec (step x cfg) s (call r) = some t ∧ t.running = true ∧ t.workers = s.workers ∧
      t.world.db = ((s.world.db.setStatus row.eventId .received).deleteAttempts row.eventId).deleteLetter dlqId ∧
      t.world.breakers = s.world.breakers ∧ t.world.drawn = s.world.drawn ∧
      t.replays[r]? = some (.done (.ok row.eventId)) := by
  have select : replayStep calm s.world (.selectLetter dlqId) =
      some (s.world,.updateStatus dlqId row.eventId) := by
    simp only [replayStep,ReplayPc.perform,selectLetter,statement,calm,found,Except.map]
  obtain ⟨a,first,up,workersA,worldA,here⟩ := replay_once x cfg calm up ready select
  obtain ⟨b,second,up,workersB,worldB,here⟩ := replay_once x cfg calm up here rfl
  obtain ⟨c,third,up,workersC,worldC,here⟩ := replay_once x cfg calm up here rfl
  obtain ⟨t,fourth,up,workersT,worldT,here⟩ := replay_once x cfg calm up here rfl
  refine ⟨t,?_,up,?_,?_,?_,?_,here⟩
  · simp only [call,List.replicate,Transition.exec,first,second,third,fourth,Option.bind_some]
  · rw [workersT,workersC,workersB,workersA]
  · rw [worldT,worldC,worldB,worldA]
    rfl
  · rw [worldT,worldC,worldB,worldA]
    rfl
  · rw [worldT,worldC,worldB,worldA]
    rfl

-- While no pass has to come after the replay: `z` is where the passes alone lead,
-- and the writes the replay has made are the whole difference.
structure Early (x : Externals) (cfg : AppConfig) (r : Nat) (dlqId e : Uuid) (s : State) (actions : List Action)
    (pc : ReplayPc) (u z : State) : Prop where
  alone : Transition.exec (step x cfg) s (passes actions) = some z
  running : z.running = true
  supplied : Supplied x z
  ready : z.replays[r]? = some (.selectLetter dlqId)
  parked : Parked dlqId e z
  mirrors : Mirrors (pc.written dlqId e) u.world z.world
  worker : u.workers 0 = z.workers 0

-- From the first pass on that comes after it: `z` has the whole call behind it,
-- and the writes still to come are the whole difference.
structure Late (x : Externals) (cfg : AppConfig) (r : Nat) (dlqId e : Uuid) (s : State) (actions : List Action)
    (pc : ReplayPc) (u z : State) : Prop where
  begun : pc.Begun dlqId e
  order : Serialized x cfg r e s actions z
  running : z.running = true
  spent : Spent x u.world dlqId
  mirrors : Mirrors (pc.unwritten dlqId e) z.world u.world
  worker : z.workers 0 = (u.workers 0).recount e (fun _ => z.world.db.attemptCount e)

theorem passes_worker (actions : List Action) (i : Nat) (inp : Input) :
    passes (actions ++ [.worker i inp]) = passes actions ++ [.worker i inp] := by
  unfold passes
  rw [List.filter_append]
  rfl

theorem passes_replay (actions : List Action) (r : Nat) (inp : Input) :
    passes (actions ++ [.replay r inp]) = passes actions := by
  unfold passes
  rw [List.filter_append]
  exact List.append_nil _

theorem Parked.found (parked : Parked dlqId e s) :
    ∃ row, s.world.db.letter dlqId = some row ∧ row.eventId = e := by
  obtain ⟨row,member,same⟩ := parked.letter
  obtain ⟨stored,event⟩ := List.mem_filter.mp member
  exact ⟨row,Table.lookup_exact.mpr ⟨stored,same⟩,by simpa using event⟩

theorem Parked.listed (parked : Parked dlqId e s) : dlqId ∈ s.world.db.ids := by
  obtain ⟨row,member,same⟩ := parked.letter
  simp only [Db.ids,List.mem_append]
  exact .inr (List.mem_map.mpr ⟨row,List.mem_of_mem_filter member,same⟩)

theorem Early.fits (early : Early x cfg r dlqId e s actions pc u z) (allowed : Interleaves r u a)
    (at' : (z.workers 0).pc = .dispatching claimed parent (.countAttempts k endpointId rawBody targetUrl)) :
    z.world.db.attemptCount k < 2^32 := by
  have other : k ≠ e := by
    intro equal
    subst equal
    apply early.parked.free
    unfold Worker.engaged
    rw [at']
    rfl
  have few := allowed.fewer (early.worker ▸ at')
  have uncounted : Uncounted (pc.written dlqId e) k dlqId := ReplayPc.written_uncounted other
  rwa [early.mirrors.db,uncounted.count] at few

theorem Early.step_pass (early : Early x cfg r dlqId e s actions pc u z) (up : u.running = true)
    (allowed : Interleaves r u (.worker 0 inp)) (moved : step x cfg u (.worker 0 inp) = some t)
    (claims : (u.workers 0).pc = .idle → pc.written dlqId e = id) :
    ∃ z, Early x cfg r dlqId e s (actions ++ [.worker 0 inp]) pc t z := by
  have ran := worker_step up moved
  have abreast : Abreast x (pc.written dlqId e) e id z.world (z.workers 0).pc := written_abreast early.supplied.world early.parked.listed early.parked.free
    (fun _ _ _ _ _ _ at' => early.fits allowed at') (early.worker ▸ claims)
  have mirrored := workerStep_mirrors (loopConfig cfg) early.mirrors abreast inp
  rw [Worker.recount_id,← early.worker,ran] at mirrored
  generalize ended : workerStep x (loopConfig cfg) inp z.world (u.workers 0) = result at mirrored
  cases mirrored with
  | @some _ two same =>
    obtain ⟨next,worker⟩ := two
    obtain ⟨mirrors,equal⟩ := same
    rw [early.worker] at ended
    have stepped := step_worker early.running ended
    have sound := step_sound stepped
    refine ⟨{z with world:=next,workers:=Function.update z.workers 0 worker,clock:=inp.now},?_⟩
    refine ⟨?_,early.running,sound.supplied early.supplied,early.ready,?_,mirrors,?_⟩
    · rw [passes_worker]
      exact Transition.exec_snoc early.alone stepped
    · have effect : WorkerStep x (loopConfig cfg) inp z.world (z.workers 0) next
          (Function.update z.workers 0 worker 0) := by simpa using workerStep_sound ended
      exact early.parked.worker early.supplied effect
    · rw [Worker.recount_id] at equal
      simpa using equal

theorem Early.step_call (early : Early x cfg r dlqId e s actions pc u z)
    (place : pc = .selectLetter dlqId ∨ pc = .updateStatus dlqId e ∨ pc.Begun dlqId e) (live : inp.fault = none)
    (effect : ReplayStep inp u.world pc t.world after) (workers : t.workers = u.workers) :
    Early x cfg r dlqId e s (actions ++ [.replay r inp]) after t z ∧ (after = .updateStatus dlqId e ∨ after.Begun dlqId e) := by
  obtain ⟨alone,running,supplied,ready,parked,mirrors,worker⟩ := early
  rw [← passes_replay actions r inp] at alone
  rw [← workers] at worker
  generalize ended : t.world = next at effect
  cases effect with
  | found _ row =>
    rcases place with start | start | begun
    · cases start
      rw [mirrors.db] at row
      have same := parked.selects row
      subst same
      exact ⟨⟨alone,running,supplied,ready,parked,ended ▸ mirrors,worker⟩,.inl rfl⟩
    · cases start
    · cases begun
  | requeued _ =>
    rcases place with start | start | begun
    · cases start
    · cases start
      refine ⟨⟨alone,running,supplied,ready,parked,?_,worker⟩,.inr ⟨rfl,rfl⟩⟩
      rw [ended]
      exact ⟨congrArg (Db.setStatus · e .received) mirrors.db,mirrors.breakers,mirrors.drawn⟩
    · cases begun
  | cleared _ =>
    rcases place with start | start | begun
    · cases start
    · cases start
    · obtain ⟨rfl,rfl⟩ := begun
      refine ⟨⟨alone,running,supplied,ready,parked,?_,worker⟩,.inr ⟨rfl,rfl⟩⟩
      rw [ended]
      exact ⟨congrArg (Db.deleteAttempts · _) mirrors.db,mirrors.breakers,mirrors.drawn⟩
  | removed _ =>
    rcases place with start | start | begun
    · cases start
    · cases start
    · obtain ⟨rfl,rfl⟩ := begun
      refine ⟨⟨alone,running,supplied,ready,parked,?_,worker⟩,.inr rfl⟩
      rw [ended]
      exact ⟨congrArg (Db.deleteLetter · _) mirrors.db,mirrors.breakers,mirrors.drawn⟩
  | failed cause reason =>
    rcases reason with struck | ⟨id,start,gone⟩
    · exact absurd live struck
    · subst start
      obtain ⟨row,found,_⟩ := parked.found
      rcases place with start | start | begun
      · cases start
        rw [mirrors.db] at gone
        cases gone.symm.trans found
      · cases start
      · cases begun

theorem Early.late (early : Early x cfg r dlqId e s actions pc u z) (begun : pc.Begun dlqId e)
    (between : (u.workers 0).pc.between = true) : ∃ z, Late x cfg r dlqId e s actions pc u z := by
  obtain ⟨row,found,same⟩ := early.parked.found
  obtain ⟨v,called,up,workers,db,breakers,drawn,here⟩ := call_run x cfg early.running early.ready found
  rw [same] at db here
  refine ⟨v,begun,?_,up,?_,⟨?_,?_,?_⟩,?_⟩
  · exact .order (List.append_nil _) early.alone (early.worker ▸ between) called here rfl
  · intro n high
    rw [early.mirrors.drawn] at high
    exact early.supplied.world.store dlqId early.parked.listed n high
  · rw [db,early.mirrors.db,ReplayPc.unwritten_written]
  · exact breakers.trans early.mirrors.breakers.symm
  · exact drawn.trans early.mirrors.drawn.symm
  · rw [workers,← early.worker]
    unfold Worker.recount
    rw [WorkerPc.recount_between between]

theorem Serialized.pass (order : Serialized x cfg r e s actions z) (moved : step x cfg z (.worker i inp) = some t) :
    Serialized x cfg r e s (actions ++ [.worker i inp]) t := by
  cases order with
  | order parts first between replay replayed last =>
    refine .order ?_ first between replay replayed (Transition.exec_snoc last moved)
    rw [passes_worker,← parts,List.append_assoc]

theorem Serialized.call (order : Serialized x cfg r e s actions z) (inp : Input) :
    Serialized x cfg r e s (actions ++ [.replay r inp]) z := by
  cases order with
  | order parts first between replay replayed last =>
    rw [← passes_replay actions r inp] at parts
    exact .order parts first between replay replayed last

theorem Late.step_pass (late : Late x cfg r dlqId e s actions pc u z) (supplied : Supplied x u) (up : u.running = true)
    (allowed : Interleaves r u (.worker 0 inp)) (apart : crosses r e u (.worker 0 inp) = false)
    (present : u.replays[r]? = some pc) (moved : step x cfg u (.worker 0 inp) = some t) :
    ∃ z, Late x cfg r dlqId e s (actions ++ [.worker 0 inp]) pc t z := by
  have ran := worker_step up moved
  have effect := workerStep_sound ran
  have abreast := unwritten_abreast supplied.world late.spent late.begun
    (fun _ _ _ _ _ _ at' => allowed.fewer at') (fun _ _ _ _ at' same => crosses_apart apart present at' same)
  have mirrored := workerStep_mirrors (loopConfig cfg) late.mirrors abreast inp
  rw [← late.mirrors.db,← late.worker,ran] at mirrored
  generalize ended : workerStep x (loopConfig cfg) inp z.world (z.workers 0) = result at mirrored
  cases mirrored with
  | @some one _ same =>
    obtain ⟨next,worker⟩ := one
    obtain ⟨mirrors,equal⟩ := same
    have equal : worker = (t.workers 0).recount e fun _ => z.world.db.attemptCount e := equal
    have recounted : worker = (t.workers 0).recount e fun _ => next.db.attemptCount e := by
      by_cases records : ∃ claimed parent d answer,
          (u.workers 0).pc = .dispatching claimed parent (.insertAttempt d answer) ∧ d.eventId = e
      · obtain ⟨claimed,parent,d,answer,at',_⟩ := records
        rw [equal,effect.recorded at',effect.recorded at']
      · have kept := (workerStep_sound ended).keeps_attempts (e:=e) fun claimed parent d answer at' same => by
          rw [late.worker] at at'
          obtain ⟨d',before,event⟩ := WorkerPc.recount_inserts at'
          exact records ⟨claimed,parent,d',answer,before,event.trans same⟩
        have count : next.db.attemptCount e = z.world.db.attemptCount e := congrArg List.length kept
        rw [equal,count]
    have stepped := step_worker late.running ended
    refine ⟨{z with world:=next,workers:=Function.update z.workers 0 worker,clock:=inp.now},late.begun,
      late.order.pass stepped,late.running,?_,mirrors,?_⟩
    · exact late.spent.mono (effect.supplied supplied.world (supplied.known 0)).2.1
    · simpa using recounted

theorem Late.step_call (late : Late x cfg r dlqId e s actions pc u z) (live : inp.fault = none)
    (effect : ReplayStep inp u.world pc t.world after) (workers : t.workers = u.workers) :
    Late x cfg r dlqId e s (actions ++ [.replay r inp]) after t z := by
  obtain ⟨begun,order,running,spent,mirrors,worker⟩ := late
  rw [← workers] at worker
  have order := order.call inp
  generalize ended : t.world = next at effect
  cases effect with
  | found _ row => cases begun
  | requeued _ => cases begun
  | cleared _ =>
    obtain ⟨rfl,rfl⟩ := begun
    refine ⟨⟨rfl,rfl⟩,order,running,?_,?_,worker⟩
    · rw [ended]
      exact spent
    · rw [ended]
      exact ⟨mirrors.db,mirrors.breakers,mirrors.drawn⟩
  | removed _ =>
    obtain ⟨rfl,rfl⟩ := begun
    refine ⟨rfl,order,running,?_,?_,worker⟩
    · rw [ended]
      exact spent
    · rw [ended]
      exact ⟨mirrors.db,mirrors.breakers,mirrors.drawn⟩
  | failed cause reason =>
    rcases reason with struck | ⟨_,start,_⟩
    · exact absurd live struck
    · subst start
      cases begun

end System
end AetherRelay
