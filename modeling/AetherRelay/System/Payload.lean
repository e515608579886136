import AetherRelay.System.Wire

namespace AetherRelay
variable {x : Externals} {cfg : AppConfig} {client : Client} {wire later : List Hop}

def Taken (wire : List Hop) (body : Bytes) : Prop :=
  ∃ e url status location, .replied e (.post url body) (.response status location) ∈ wire ∧ status.isSuccess = true

theorem Taken.mono (old : Taken wire body) (more : ∀ h ∈ wire, h ∈ later) : Taken later body := by
  obtain ⟨e,url,status,location,seen,good⟩ := old
  exact ⟨e,url,status,location,more _ seen,good⟩

def Hop.takes (body : Bytes) : Hop → Bool
  | .replied _ req (.response status _) => status.isSuccess && decide (req.method = .post) && decide (req.body = some body)
  | _ => false

theorem Taken.any (taken : Taken wire body) : wire.any (Hop.takes body) = true := by
  obtain ⟨e,url,status,location,seen,good⟩ := taken
  refine List.any_eq_true.mpr ⟨_,seen,?_⟩
  simp [Hop.takes,Request.post,good]

def DispatchPc.load : DispatchPc → Option (Uuid × Bytes)
  | .selectEndpoint e _ rawBody | .countAttempts e _ rawBody _ => some (e,rawBody)
  | .checkBreaker d | .requeueDeferred d | .send d _ | .await d _ | .updateBreaker d _ _ | .insertAttempt d _
  | .updateStatus d _ _ | .insertDeadLetter d _ _ => some (d.eventId,d.rawBody)
  | .selectEvent _ | .done _ _ => none

def DispatchPc.Answered (wire : List Hop) : DispatchPc → Prop
  | .updateBreaker d _ answer | .insertAttempt d answer | .updateStatus d answer _ =>
    answer.success = true → Taken wire d.rawBody
  | _ => True

def Flight.Of (wire : List Hop) (pc : WorkerPc) : Flight → Prop
  | .asking _ req past => ∃ claimed parent d mode, pc = .dispatching claimed parent (.await d mode) ∧
      Asks d.targetUrl d.rawBody past req
  | .returned answer => ∃ claimed parent d mode, pc = .dispatching claimed parent (.await d mode) ∧
      (answer.success = true → Taken wire d.rawBody)

theorem DispatchPc.load_eventId {pc : DispatchPc} (loaded : pc.load = some (e,body)) : pc.eventId = e := by
  cases pc <;> cases loaded <;> rfl

theorem DispatchPc.Answered.mono {pc : DispatchPc} (old : pc.Answered wire) (more : ∀ h ∈ wire, h ∈ later) :
    pc.Answered later := by
  cases pc with
  | updateBreaker d mode answer => exact fun good => (old good).mono more
  | insertAttempt d answer => exact fun good => (old good).mono more
  | updateStatus d answer now => exact fun good => (old good).mono more
  | _ => trivial

theorem Flight.Of.mono {flight : Flight} (old : flight.Of wire pc) (more : ∀ h ∈ wire, h ∈ later) :
    flight.Of later pc := by
  cases flight with
  | asking e req past => exact old
  | returned answer =>
    obtain ⟨claimed,parent,d,mode,at',taken⟩ := old
    exact ⟨claimed,parent,d,mode,at',fun good => (taken good).mono more⟩

theorem Flight.Of.awaits {flight : Flight} (old : flight.Of wire pc) : pc.offWire = false := by
  cases flight with
  | asking e req past =>
    obtain ⟨_,_,_,_,rfl,_⟩ := old
    rfl
  | returned answer =>
    obtain ⟨_,_,_,_,rfl,_⟩ := old
    rfl

theorem DispatchStep.load {w next : World} (effect : DispatchStep x loop inp w pc next after)
    (loaded : after.load = some (e,body)) :
    pc.load = some (e,body) ∨ ∃ row, w.db.event e = some row ∧ row.rawBody = body := by
  cases effect with
  | selectEvent live found =>
    cases loaded
    exact .inr ⟨_,found,rfl⟩
  | requeueDeferred live => cases loaded
  | settled live other => cases loaded
  | insertDeadLetter live stored => cases loaded
  | failed cause => cases loaded
  | _ => exact .inl loaded

theorem DispatchStep.answered {w next : World} (effect : DispatchStep x loop inp w pc next after)
    (old : pc.Answered wire)
    (awaited : ∀ d mode, pc = .await d mode → inp.answer.success = true → Taken wire d.rawBody) :
    after.Answered wire := by
  cases effect with
  | await => exact awaited _ _ rfl
  | updateBreaker => exact old
  | insertAttempt live stored => exact old
  | _ => trivial

theorem WorkerStep.load {w next : World} (effect : WorkerStep x loop inp w worker next done)
    (at' : done.pc = .dispatching claimed parent pc) (loaded : pc.load = some (e,body)) :
    (∃ claimed parent pc, worker.pc = .dispatching claimed parent pc ∧ pc.load = some (e,body)) ∨
      ∃ row, w.db.event e = some row ∧ row.rawBody = body := by
  cases effect with
  | claim live head => cases at'; cases loaded
  | dispatch moved =>
    cases at'
    rcases moved.load loaded with before | read
    · exact .inl ⟨_,_,_,rfl,before⟩
    · exact .inr read
  | _ => cases at'

theorem WorkerStep.answered {w next : World} (effect : WorkerStep x loop inp w worker next done)
    (at' : done.pc = .dispatching claimed parent pc)
    (old : ∀ claimed parent pc, worker.pc = .dispatching claimed parent pc → pc.Answered wire)
    (awaited : ∀ claimed parent d mode, worker.pc = .dispatching claimed parent (.await d mode) →
      inp.answer.success = true → Taken wire d.rawBody) : pc.Answered wire := by
  cases effect with
  | claim live head => cases at'; trivial
  | dispatch moved =>
    cases at'
    refine moved.answered (old _ _ _ rfl) fun d mode same => awaited claimed parent d mode ?_
    rw [same]
  | _ => cases at'

theorem WorkerStep.delivers {w next : World} (effect : WorkerStep x loop inp w worker next after)
    (before : w.db.status k ≠ some .delivered) (now : next.db.status k = some .delivered) :
    ∃ claimed parent d answer time, worker.pc = .dispatching claimed parent (.updateStatus d answer time) ∧
      d.eventId = k ∧ answer.success = true := by
  have other : ∀ {e st}, st ≠ .delivered → (w.db.setStatus e st).status k ≠ some .delivered := by
    intro e st final same
    rw [Db.status_setStatus] at same
    split at same
    · obtain ⟨_,_,is⟩ := Option.map_eq_some_iff.mp same
      exact final is
    · exact before same
  cases effect with
  | claim live head => exact absurd now (other (by decide))
  | requeued live => exact absurd now (other (by decide))
  | dispatch moved =>
    cases moved with
    | requeueDeferred live => exact absurd now (other (by decide))
    | exhausted live spent => exact absurd now (other (by decide))
    | @settled d answer _ time live failed =>
      by_cases same : k = d.eventId
      · subst same
        refine ⟨_,_,d,answer,time,rfl,rfl,?_⟩
        by_contra bad
        have elsewhere : settledStatus loop d answer ≠ .delivered := by
          unfold settledStatus
          rw [if_neg bad]
          split <;> decide
        exact other elsewhere now
      · simp only [Db.status_setStatus,if_neg same] at now
        exact absurd now before
    | insertAttempt live stored =>
      obtain ⟨_,_,_,events,_⟩ := Db.insertAttempt_parts stored
      simp only [Db.status_congr events] at now
      exact absurd now before
    | insertDeadLetter live stored =>
      obtain ⟨_,_,_,events,_⟩ := Db.replaceLetter_parts stored
      simp only [Db.status_congr events] at now
      exact absurd now before
    | _ => exact absurd now before
  | _ => exact absurd now before

namespace System
variable {s t : State} {a : Action} {k : Uuid}

theorem Step.body (moved : Step x cfg s a t) (supplied : Supplied x s) (spent : Spent x s.world k)
    (found : t.world.db.event k = some event) :
    ∃ old, s.world.db.event k = some old ∧ old.rawBody = event.rawBody := by
  obtain ⟨old,before,same⟩ := moved.columns supplied spent found
  exact ⟨old,before,by rw [same]; rfl⟩

theorem Step.sends (moved : Step x cfg s (.worker i inp) t)
    (at' : (s.workers i).pc = .dispatching claimed parent (.send d mode)) :
    (t.workers i).pc = .dispatching claimed parent (.await d mode) := by
  cases moved with
  | worked live effect =>
    simp only [Function.update_self]
    generalize s.workers i = worker at effect at'
    cases effect with
    | dispatch moved =>
      cases at'
      cases moved with
      | send => rfl
      | failed cause => cases cause
    | _ => cases at'

theorem Step.delivers (moved : Step x cfg s a t) (supplied : Supplied x s)
    (before : s.world.db.status k ≠ some .delivered) (now : t.world.db.status k = some .delivered) :
    ∃ i claimed parent d answer time, (s.workers i).pc = .dispatching claimed parent (.updateStatus d answer time) ∧
      d.eventId = k ∧ answer.success = true := by
  have change := moved.row supplied k
  obtain ⟨event,found,status⟩ := Db.status_some.mp now
  rw [found] at change
  generalize was : s.world.db.event k = old at change
  cases change with
  | same => exact absurd (Db.status_some.mpr ⟨event,was,status⟩) before
  | created drawn received origin logged =>
    rw [status] at received
    cases received
  | requeued stale at' => cases status
  | claimed pass free head holds => cases status
  | @settled i inp _ pass holds st final dropped =>
    subst pass
    cases moved with
    | worked live effect => exact ⟨i,effect.delivers before now⟩

structure Honest (x : Externals) (s : Wired) : Prop where
  supplied : Supplied x s.relay
  loads : ∀ i claimed parent pc e body, (s.relay.workers i).pc = .dispatching claimed parent pc →
    pc.load = some (e,body) → ∀ event, s.relay.world.db.event e = some event → event.rawBody = body
  answers : ∀ i claimed parent pc, (s.relay.workers i).pc = .dispatching claimed parent pc → pc.Answered s.wire
  flights : ∀ i flight, s.flights i = some flight → flight.Of s.wire (s.relay.workers i).pc
  delivered : ∀ k event, s.relay.world.db.event k = some event → event.status = .delivered →
    Taken s.wire event.rawBody

-- A server that ends an exchange with a 2xx does so before any 301, 302 or 303
-- has been followed in it.
def KeepsBody (s : Wired) : WireAction → Prop
  | .reply i (.response status _) => status.isSuccess = true → ∀ reply ∈ s.past i, reply.rewrites = false
  | _ => True

instance (s : Wired) (a : WireAction) : Decidable (KeepsBody s a) :=
  match a with
  | .relay _ | .reply _ (.broken _) => .isTrue trivial
  | .reply i (.response status _) =>
    inferInstanceAs (Decidable (status.isSuccess = true → ∀ reply ∈ s.past i, reply.rewrites = false))

theorem Honest.pass {s : Wired} (old : Honest x s) (at' : (s.relay.workers i).pc = .dispatching claimed parent pc)
    (loaded : pc.load = some (e,body)) : Spent x s.relay.world e := by
  apply old.supplied.known i e
  rw [at',← DispatchPc.load_eventId loaded]
  exact List.mem_cons_of_mem _ (List.mem_cons_of_mem _ pc.eventId_mem)

theorem Honest.step {s : Wired} (old : Honest x s) (moved : Step x cfg s.relay a t)
    (more : ∀ h ∈ s.wire, h ∈ later)
    (awaited : ∀ i inp claimed parent d mode, a = .worker i inp →
      (s.relay.workers i).pc = .dispatching claimed parent (.await d mode) →
      inp.answer.success = true → Taken s.wire d.rawBody)
    (flights : ∀ i flight, aloft i = some flight → flight.Of later (t.workers i).pc) : Honest x ⟨t,aloft,later⟩ := by
  refine ⟨moved.supplied old.supplied,?_,?_,flights,?_⟩
  · intro i claimed parent pc e body at' loaded event found
    have kept : Spent x s.relay.world e → (∀ was, s.relay.world.db.event e = some was → was.rawBody = body) →
        event.rawBody = body := by
      intro spent reads
      obtain ⟨was,before,same⟩ := moved.body old.supplied spent found
      rw [← same]
      exact reads was before
    rcases moved.worker i with same | ⟨_,start⟩ | ⟨inp,_,effect⟩
    · have at' : (s.relay.workers i).pc = .dispatching claimed parent pc := same ▸ at'
      exact kept (old.pass at' loaded) (old.loads i _ _ _ _ _ at' loaded)
    · simp [start,Worker.start] at at'
    · rcases effect.load at' loaded with ⟨claimed,parent,pc,before,loaded⟩ | ⟨was,stored,same⟩
      · exact kept (old.pass before loaded) (old.loads i _ _ _ _ _ before loaded)
      · apply kept (old.supplied.world.store e (Db.ids_event stored))
        intro other found
        rw [stored] at found
        cases found
        exact same
  · intro i claimed parent pc at'
    rcases moved.worker i with same | ⟨_,start⟩ | ⟨inp,acted,effect⟩
    · exact (old.answers i claimed parent pc (same ▸ at')).mono more
    · simp [start,Worker.start] at at'
    · refine (effect.answered at' (old.answers i) ?_).mono more
      exact fun claimed parent d mode here => awaited i inp claimed parent d mode acted here
  · intro k event found status
    have now : t.world.db.status k = some .delivered := Db.status_some.mpr ⟨event,found,status⟩
    by_cases before : s.relay.world.db.status k = some .delivered
    · obtain ⟨was,stored,is⟩ := Db.status_some.mp before
      obtain ⟨same,stored',body⟩ := moved.body old.supplied (old.supplied.world.store k (Db.ids_event stored)) found
      rw [stored] at stored'
      cases stored'
      rw [← body]
      exact (old.delivered k was stored is).mono more
    · obtain ⟨i,claimed,parent,d,answer,time,at',rfl,good⟩ := moved.delivers old.supplied before now
      have spent : Spent x s.relay.world d.eventId := old.pass at' rfl
      obtain ⟨was,stored,body⟩ := moved.body old.supplied spent found
      have taken := old.answers i _ _ _ at' good
      rw [← body,old.loads i _ _ _ _ _ at' rfl was stored]
      exact taken.mono more

theorem Honest.reply {s : Wired} (old : Honest x s) (more : ∀ h ∈ s.wire, h ∈ later)
    (flight : Flight.Of later (s.relay.workers i).pc f) :
    Honest x {s with flights:=Function.update s.flights i (some f),wire:=later} where
  supplied := old.supplied
  loads := old.loads
  answers j _ _ _ at' := (old.answers j _ _ _ at').mono more
  flights := by
    refine (Function.forall_update_iff s.flights fun j flight => ∀ f, flight = some f → f.Of _ _).mpr
      ⟨?_,fun j _ f aloft => (old.flights j f aloft).mono more⟩
    intro g same
    cases same
    exact flight
  delivered k event found status := (old.delivered k event found status).mono more

theorem WireStep.honest {s t : Wired} {a : WireAction} (moved : WireStep client x cfg s a t) (keeps : KeepsBody s a)
    (old : Honest x s) : Honest x t := by
  have more : ∀ h ∈ s.wire, h ∈ t.wire := fun h seen => moved.wire seen
  cases moved with
  | @followed i e req past reply after aloft next =>
    obtain ⟨claimed,parent,d,mode,at',asks⟩ := old.flights i _ aloft
    obtain ⟨status,location,rfl,redirects,few,rfl⟩ := Client.next_request next
    exact old.reply more ⟨claimed,parent,d,mode,at',asks.redirected status location⟩
  | @answered i e req past reply answer aloft next =>
    obtain ⟨claimed,parent,d,mode,at',asks⟩ := old.flights i _ aloft
    refine old.reply more ⟨claimed,parent,d,mode,at',fun good => ?_⟩
    obtain ⟨status,location,rfl,success⟩ := Client.next_success next good
    have same : s.past i = past := by rw [Wired.past,aloft]
    have post := asks.posts.mp (same ▸ keeps success)
    refine ⟨e,req.url,status,location,?_,success⟩
    rw [← post]
    exact List.mem_cons_self
  | @sent i claimed parent d mode inp t at' moved =>
    apply old.step moved more
    · intro j _ _ _ _ _ acted here
      cases acted
      rw [at'] at here
      cases here
    · refine (Function.forall_update_iff s.flights fun j flight => ∀ f, flight = some f → f.Of _ (t.workers j).pc).mpr
        ⟨?_,fun j other f aloft => ?_⟩
      · intro f same
        cases same
        exact ⟨claimed,parent,d,mode,moved.sends at',.first⟩
      · rw [moved.others other]
        exact (old.flights j f aloft).mono more
  | @returned i claimed parent d mode answer inp t at' aloft moved =>
    apply old.step moved more
    · intro j _ _ _ _ _ acted here good
      cases acted
      obtain ⟨_,_,_,_,same,taken⟩ := old.flights i _ aloft
      rw [same] at here
      cases here
      exact taken good
    · refine (Function.forall_update_iff s.flights fun j flight => ∀ f, flight = some f → f.Of _ (t.workers j).pc).mpr
        ⟨fun f same => (by cases same),fun j other f aloft => ?_⟩
      rw [moved.others other]
      exact old.flights j f aloft
  | @worked i inp t off moved =>
    apply old.step moved more
    · intro j _ _ _ _ _ acted here
      cases acted
      rw [here] at off
      cases off
    · intro j f aloft
      have flight := old.flights j f aloft
      by_cases mine : j = i
      · subst mine
        rw [flight.awaits] at off
        cases off
      · rw [moved.others mine]
        exact flight
  | @served a t other moved =>
    apply old.step moved more
    · intro j inp _ _ _ _ acted
      exact absurd acted (other j inp)
    · intro j f aloft
      split at aloft
      · cases aloft
      · rename_i stays
        rcases moved.worker j with same | ⟨ends,_⟩ | ⟨inp,acted,_⟩
        · rw [same]
          exact old.flights j f aloft
        · exact absurd ends stays
        · exact absurd acted (other j inp)

theorem boot_honest (x : Externals) (cfg : AppConfig) : Honest x (Wired.boot cfg) := by
  refine ⟨(boot_booted x cfg).supplied,?_,?_,?_,?_⟩
  · exact fun i claimed parent pc e body at' => by cases at'
  · exact fun i claimed parent pc at' => by cases at'
  · exact fun i flight aloft => by cases aloft
  · exact fun k event found => by cases found

def Wired.DeliveredTaken (s : Wired) : Prop :=
  ∀ k event, s.relay.world.db.event k = some event → event.status = .delivered → Taken s.wire event.rawBody

-- As long as no exchange goes through a redirect that drops the body and still
-- ends well, DELIVERED means that some server took the payload.
theorem delivered_taken {t : Wired}
    (path : Transition.Run (wireStep client x cfg) KeepsBody (Wired.boot cfg) actions t) : t.DeliveredTaken := by
  have honest : Honest x t := path.preserves (Honest x)
    (fun u a v old keeps moved => (wireStep_sound moved).honest keeps old) (boot_honest x cfg)
  exact honest.delivered

theorem delivered_taken_elsewhere :
    ∃ t event, Transition.Run (wireStep .limited .tabletop .default) KeepsBody (Wired.boot .default)
        (delivering [.response .temporaryRedirect (some "https://hooks.example.com/moved"),.response .ok none]) t ∧
      t.relay.world.db.event "11" = some event ∧ event.status = .delivered ∧ Taken t.wire event.rawBody := by
  have ran : (Transition.exec (Transition.guard (wireStep .limited .tabletop .default) KeepsBody) (Wired.boot .default)
      (delivering [.response .temporaryRedirect (some "https://hooks.example.com/moved"),.response .ok none])).map
      (fun t => t.relay.world.db.status "11") = some (some .delivered) := by decide +kernel
  obtain ⟨t,reached,delivered⟩ := Option.map_eq_some_iff.mp ran
  obtain ⟨event,found,status⟩ := Db.status_some.mp delivered
  have path := Transition.Run.guarded reached
  exact ⟨t,event,path,found,status,delivered_taken path "11" event found status⟩

-- A 302 turns the delivery into a GET, whose 200 says nothing of the payload.
theorem delivered_by_get :
    ∃ t, Transition.exec (wireStep .limited .tabletop .default) (Wired.boot .default)
        (delivering [.response .found (some "https://hooks.example.com/moved"),.response .ok none]) = some t ∧
      ¬t.DeliveredTaken := by
  have ran : (Transition.exec (wireStep .limited .tabletop .default) (Wired.boot .default)
      (delivering [.response .found (some "https://hooks.example.com/moved"),.response .ok none])).map
      (fun t => ((t.relay.world.db.event "11").map fun event => (event.status,event.rawBody),
        t.wire.any (Hop.takes [123,125]))) = some (some (.delivered,[123,125]),false) := by decide +kernel
  obtain ⟨t,reached,seen⟩ := Option.map_eq_some_iff.mp ran
  simp only [Prod.mk.injEq] at seen
  obtain ⟨row,none⟩ := seen
  obtain ⟨event,found,same⟩ := Option.map_eq_some_iff.mp row
  obtain ⟨status,body⟩ := Prod.mk.inj same
  refine ⟨t,reached,fun all => ?_⟩
  have taken := (all "11" event found status).any
  rw [body,none] at taken
  cases taken

end System
end AetherRelay
