import AetherRelay.Lib.Lockstep
import AetherRelay.System.Supply
import AetherRelay.Api.Listing
import AetherRelay.Worker.View

namespace AetherRelay

-- An error as it looks to someone who may know that the server failed, and not on what.
def AppError.masked : AppError → AppError
  | .config _ => .config ""
  | .database _ => .database (.failure "")
  | .internal _ => .internal ""
  | e => e

theorem AppError.masked_response (e : AppError) : e.masked.intoResponse = e.intoResponse := by
  cases e <;> rfl

def masked (r : Except AppError α) : Except AppError α := r.mapError AppError.masked

def shown (r : Except AppError α) : Except AppError.Response α := r.mapError AppError.intoResponse

def Input.masked (inp : Input) : Input := {inp with fault:=inp.fault.map fun _ => .failure ""}

def Happening.masked : Happening → Happening
  | .rejected endpointId key e => .rejected endpointId key e.masked
  | h => h

def DispatchPc.masked : DispatchPc → DispatchPc
  | .done e r => .done e (AetherRelay.masked r)
  | pc => pc

def WorkerPc.masked : WorkerPc → WorkerPc
  | .idle => .idle
  | .dispatching claimed parent pc => .dispatching claimed parent pc.masked
  | .requeueing e cause => .requeueing e cause.masked
  | .finished r => .finished (AetherRelay.masked r)

def Worker.masked (worker : Worker) : Worker := {worker with pc:=worker.pc.masked}

def ReplayPc.masked : ReplayPc → ReplayPc
  | .done r => .done (AetherRelay.masked r)
  | pc => pc

def IngestPc.masked : IngestPc → IngestPc
  | .done r => .done (AetherRelay.masked r)
  | pc => pc

def ReplayPc.response : ReplayPc → Option (Except AppError.Response Uuid)
  | .done r => some (shown r)
  | _ => none

def IngestPc.response : IngestPc → Option (Except AppError.Response (String × Uuid))
  | .done r => some (shown r)
  | _ => none

def textless : View where
  store := id
  told := List.map Happening.masked
  nextReceived _ := rfl
  event _ _ := rfl
  targetUrl _ _ := rfl
  attemptCount _ _ := rfl
  letter _ _ := rfl
  setStatus _ _ _ := rfl
  deleteAttempts _ _ := rfl
  deleteLetter _ _ := rfl
  attemptStored _ _ := (congrFun Except.map_id _).symm
  letterStored _ _ := (congrFun Except.map_id _).symm
  note h hs worked := by
    cases h with
    | rejected endpointId key e => cases worked
    | _ => rfl

def World.masked (w : World) : World := textless.world w

section
variable {α β : Type*}

theorem masked_map (f : α → β) (r : Except AppError α) : masked (r.map f) = (masked r).map f := by
  cases r <;> rfl

theorem masked_cases {r r' : Except AppError α} (same : masked r = masked r') :
    (∃ a, r = .ok a ∧ r' = .ok a) ∨ ∃ e e', r = .error e ∧ r' = .error e' ∧ e.masked = e'.masked := by
  cases r with
  | ok a =>
    cases r' with
    | ok b => cases same; exact .inl ⟨a,rfl,rfl⟩
    | error e => cases same
  | error e =>
    cases r' with
    | ok b => cases same
    | error e' => exact .inr ⟨e,e',rfl,rfl,Except.error.inj same⟩

theorem masked_error (same : e.masked = e'.masked) : masked (.error e : Except AppError α) = masked (.error e') :=
  congrArg Except.error same

theorem shown_masked {r r' : Except AppError α} (same : masked r = masked r') : shown r = shown r' := by
  obtain ⟨a,rfl,rfl⟩ | ⟨e,e',rfl,rfl,alike⟩ := masked_cases same
  · rfl
  · refine congrArg Except.error ?_
    rw [← e.masked_response,alike,e'.masked_response]

end

theorem AppError.masked_masked (e : AppError) : e.masked.masked = e.masked := by
  cases e <;> rfl

theorem masked_masked {α : Type*} (r : Except AppError α) : masked (masked r) = masked r := by
  cases r with
  | ok a => rfl
  | error e => exact congrArg Except.error e.masked_masked

theorem ReplayPc.response_masked (pc : ReplayPc) : pc.masked.response = pc.response := by
  cases pc with
  | done r => exact congrArg some (shown_masked (AetherRelay.masked_masked r))
  | _ => rfl

theorem IngestPc.response_masked (pc : IngestPc) : pc.masked.response = pc.response := by
  cases pc with
  | done r => exact congrArg some (shown_masked (AetherRelay.masked_masked r))
  | _ => rfl

section
variable {α : Type*} (x : Externals) (cfg : DispatchLoopConfig) (inp : Input) (w : World)

theorem statement_masked (result : Except SqlError α) : masked (statement inp.masked result) = masked (statement inp result) := by
  unfold statement Input.masked
  cases inp.fault with
  | some e => rfl
  | none => rfl

theorem statement_alike {inp inp' : Input} (same : inp.masked = inp'.masked) (result : Except SqlError α) :
    masked (statement inp result) = masked (statement inp' result) := by
  rw [← statement_masked,same,statement_masked]

theorem perform_masked (pc : DispatchPc) : masked (pc.perform x cfg inp.masked w) = masked (pc.perform x cfg inp w) := by
  cases pc with
  | checkBreaker d => rfl
  | send d mode => rfl
  | await d mode => rfl
  | updateBreaker d mode answer => rfl
  | done e r => rfl
  | selectEvent e => simp only [DispatchPc.perform,selectEvent,masked_map,statement_masked]
  | selectEndpoint e endpointId body => simp only [DispatchPc.perform,selectTarget,masked_map,statement_masked]
  | countAttempts e endpointId body url => simp only [DispatchPc.perform,countAttempts,masked_map,statement_masked]
  | requeueDeferred d => simp only [DispatchPc.perform,requeueEvent,masked_map,statement_masked]
  | insertAttempt d answer =>
    simp only [DispatchPc.perform,insertAttempt,masked_map,statement_masked]
    rfl
  | updateStatus d answer now => simp only [DispatchPc.perform,updateStatus,masked_map,statement_masked]
  | insertDeadLetter d answer now => simp only [DispatchPc.perform,insertDeadLetter,masked_map,statement_masked]

theorem DispatchPc.masked_running {pc : DispatchPc} (running : ∀ e r, pc ≠ .done e r) : pc.masked = pc := by
  cases pc with
  | done e r => exact absurd rfl (running e r)
  | _ => rfl

theorem workerStep_unread (worker : Worker) :
    (workerStep x cfg inp.masked w worker.masked).map (fun p => (p.1,p.2.masked)) =
      (workerStep x cfg inp w worker).map fun p => (p.1,p.2.masked) := by
  obtain ⟨pc,p⟩ := worker
  cases pc with
  | idle =>
    have claims : masked (claimNextEvent w inp.masked) = masked (claimNextEvent w inp) := statement_masked inp _
    simp only [Worker.masked,WorkerPc.masked,workerStep]
    obtain ⟨⟨next,taken⟩,one,other⟩ | ⟨e,e',one,other,alike⟩ := masked_cases claims
    · rw [one,other]
    · rw [one,other]
      simp only [Option.map_some,masked_error alike]
  | requeueing e cause =>
    have requeues : masked (requeueEvent w inp.masked e) = masked (requeueEvent w inp e) := statement_masked inp _
    have text : AetherRelay.masked (.error cause.masked : Except AppError DispatchOutcome) = AetherRelay.masked (.error cause) :=
      masked_error cause.masked_masked
    simp only [Worker.masked,WorkerPc.masked,workerStep]
    obtain ⟨next,one,other⟩ | ⟨_,_,one,other,_⟩ := masked_cases requeues
    · rw [one,other]
      simp only [Option.map_some,text]
    · rw [one,other]
      simp only [Option.map_some,text]
  | finished result =>
    cases result with
    | error cause => rfl
    | ok outcome => cases outcome <;> rfl
  | dispatching claimed parent pc =>
    by_cases done : ∃ e r, pc = .done e r
    · obtain ⟨e,r,rfl⟩ := done
      cases r with
      | ok result => rfl
      | error cause =>
        simp only [Worker.masked,WorkerPc.masked,DispatchPc.masked,masked,Except.mapError,workerStep,Option.map_some,
          AppError.masked_masked]
        rfl
    · have running : ∀ e r, pc ≠ .done e r := fun e r same => done ⟨e,r,same⟩
      have same := perform_masked x cfg inp w pc
      simp only [Worker.masked,WorkerPc.masked,DispatchPc.masked_running running]
      rw [workerStep_dispatching running,workerStep_dispatching running]
      obtain ⟨result,one,other⟩ | ⟨e,e',one,other,alike⟩ := masked_cases same
      · rw [dispatchStep_ok running one,dispatchStep_ok running other]
      · rw [dispatchStep_error one,dispatchStep_error other]
        simp only [Option.map_some,DispatchPc.masked,masked_error alike]

theorem replayStep_unread (pc : ReplayPc) :
    (replayStep inp.masked w pc.masked).map (fun p => (p.1,p.2.masked)) =
      (replayStep inp w pc).map fun p => (p.1,p.2.masked) := by
  have performs : masked (pc.perform inp.masked w) = masked (pc.perform inp w) := by
    cases pc with
    | selectLetter dlqId =>
      have reads := statement_masked inp (.ok (w.db.letter dlqId))
      have found : masked (selectLetter w inp.masked dlqId) = masked (selectLetter w inp dlqId) := by
        unfold selectLetter
        obtain ⟨row,one,other⟩ | ⟨e,e',one,other,alike⟩ := masked_cases reads
        · rw [one,other]
        · rw [one,other]
          exact masked_error alike
      simp only [ReplayPc.perform,masked_map,found]
    | updateStatus dlqId eventId => simp only [ReplayPc.perform,masked_map,statement_masked]
    | deleteAttempts dlqId eventId => simp only [ReplayPc.perform,masked_map,statement_masked]
    | deleteLetter dlqId eventId => simp only [ReplayPc.perform,masked_map,statement_masked]
    | done result => rfl
  cases pc with
  | done result => rfl
  | _ =>
    simp only [ReplayPc.masked,replayStep]
    obtain ⟨result,one,other⟩ | ⟨e,e',one,other,alike⟩ := masked_cases performs
    · rw [one,other]
    · rw [one,other]
      simp only [Option.map_some,masked_error alike]

end

section
variable (x : Externals) (cfg : AppConfig) (inp : Input) (w : World)

def masks (p : World × Except AppError α) : World × Except AppError α := (p.1.masked,masked p.2)

theorem World.masked_log (w : World) (h : Happening) : (w.log h).masked = w.masked.log h.masked := rfl

theorem Happening.masked_masked (h : Happening) : h.masked.masked = h.masked := by
  cases h with
  | rejected endpointId key e => exact congrArg (Happening.rejected endpointId key) e.masked_masked
  | _ => rfl

theorem told_masked (history : List Happening) : (history.map Happening.masked).map Happening.masked = history.map Happening.masked := by
  rw [List.map_map]
  exact List.map_congr_left fun h _ => h.masked_masked

theorem World.masked_with (db : Db) (n : Nat) :
    World.masked {w.masked with db:=db,drawn:=n} = World.masked {w with db:=db,drawn:=n} := by
  have told := told_masked w.history
  simp only [World.masked,View.world,textless,told]

theorem World.masked_masked : w.masked.masked = w.masked := w.masked_with w.db w.drawn

theorem masks_rejected (endpointId : Uuid) (key : String) (alike : e.masked = e'.masked) :
    masks (α := α) (w.masked.log (.rejected endpointId key e),.error e) = masks (w.log (.rejected endpointId key e'),.error e') := by
  simp only [masks,World.masked_log,World.masked_masked,masked_error alike,Happening.masked,alike]

theorem masks_refused (alike : e.masked = e'.masked) : masks (α := α) (w.masked,.error e) = masks (w,.error e') := by
  simp only [masks,World.masked_masked,masked_error alike]

theorem acceptEvent_unread (endpointId : Uuid) (key : String) (rawBody : Bytes) (headers : String) :
    masks (acceptEvent x inp.masked w.masked endpointId key rawBody headers) =
      masks (acceptEvent x inp w endpointId key rawBody headers) := by
  have reads := statement_masked inp (.ok (w.db.eventByKey endpointId key))
  have db : w.masked.db = w.db := rfl
  simp only [acceptEvent,db]
  obtain ⟨existing,one,other⟩ | ⟨e,e',one,other,alike⟩ := masked_cases reads
  · rw [one,other]
    cases existing with
    | some row => exact masks_rejected w endpointId key rfl
    | none =>
      have drawn : w.masked.drawn = w.drawn := rfl
      have now : inp.masked.now = inp.now := rfl
      simp only [drawn,now]
      cases w.db.insertEvent ⟨x.nowV7 w.drawn,endpointId,key,rawBody,headers,.received,inp.now⟩ with
      | error failure => exact masks_rejected w endpointId key rfl
      | ok db => simp only [masks,World.masked_log,World.masked_with]
  · rw [one,other]
    exact masks_rejected w endpointId key alike

theorem createEndpoint_unread (headers : HeaderMap) (req : CreateEndpointRequest) :
    masks (createEndpoint x cfg inp.masked w.masked headers req) = masks (createEndpoint x cfg inp w headers req) := by
  have db : w.masked.db = w.db := rfl
  have drawn : w.masked.drawn = w.drawn := rfl
  have now : inp.masked.now = inp.now := rfl
  have inserts := statement_masked inp
    (w.db.insertEndpoint ⟨x.nowV7 w.drawn,req.name,req.provider,req.secret,req.targetUrl,inp.now⟩)
  simp only [createEndpoint,db,drawn,now]
  cases verifyApiKey headers cfg.auth.apiKeys with
  | error e => exact masks_refused w rfl
  | ok u =>
    cases validateNewEndpoint x req with
    | error e => exact masks_refused w rfl
    | ok u =>
      obtain ⟨db,one,other⟩ | ⟨e,e',one,other,alike⟩ := masked_cases inserts
      · simp only [one,other,masks,World.masked_log,World.masked_with]
      · simp only [one,other,masks_refused w alike]

theorem deleteEndpoint_unread (headers : HeaderMap) (id : Uuid) :
    masks (deleteEndpoint cfg inp.masked w.masked headers id) = masks (deleteEndpoint cfg inp w headers id) := by
  have db : w.masked.db = w.db := rfl
  have counts := statement_masked inp (.ok (w.db.pendingCount id))
  simp only [deleteEndpoint,db]
  cases verifyApiKey headers cfg.auth.apiKeys with
  | error e => exact masks_refused w rfl
  | ok u =>
    obtain ⟨pending,one,other⟩ | ⟨e,e',one,other,alike⟩ := masked_cases counts
    · simp only [one,other]
      split
      · exact masks_refused w rfl
      · cases w.db.endpoint id with
        | none => exact masks_refused w rfl
        | some row =>
          have left := w.masked_with (w.db.deleteEndpoint id) w.drawn
          exact congrArg (fun u => (u,masked (.ok ()))) (congrArg (World.log · (.endpointDeleted id)) left)
    · simp only [one,other,masks_refused w alike]

theorem ingestStep_unread (pc : IngestPc) :
    (ingestStep x inp.masked w.masked pc.masked).map (fun p => (p.1.masked,p.2.masked)) =
      (ingestStep x inp w pc).map fun p => (p.1.masked,p.2.masked) := by
  have db : w.masked.db = w.db := rfl
  have now : inp.masked.now = inp.now := rfl
  cases pc with
  | done result => rfl
  | selectEndpoint req key =>
    have reads := statement_masked inp (.ok (w.db.endpoint req.endpointId))
    simp only [IngestPc.masked,ingestStep,lookupEndpoint,db]
    obtain ⟨row,one,other⟩ | ⟨e,e',one,other,alike⟩ := masked_cases reads
    · rw [one,other]
      cases row <;> simp only [Option.map_some,World.masked_masked]
    · rw [one,other]
      simp only [Option.map_some,World.masked_masked,masked_error alike]
  | verify req key endpoint =>
    simp only [IngestPc.masked,ingestStep,now]
    cases verifyIngest x endpoint req inp.now <;> simp only [Option.map_some,World.masked_masked]
  | accept req key provider =>
    have accepts := acceptEvent_unread x inp w req.endpointId key req.body (headersJson x req.headers)
    obtain ⟨world,result⟩ := Prod.mk.inj accepts
    simp only [IngestPc.masked,ingestStep,Option.map_some,masked_map,world,result]

theorem moves_masked {mask : β → β} {o o' moved : Option (World × β)} (seen : moved = o.map fun p => (p.1.masked,p.2))
    (unread : o.map (fun p => (p.1,mask p.2)) = o'.map fun p => (p.1,mask p.2)) :
    moved.map (fun p => (p.1.masked,mask p.2)) = o'.map fun p => (p.1.masked,mask p.2) := by
  have both := congrArg (Option.map fun p => (World.masked p.1,p.2)) unread
  rw [Option.map_map,Option.map_map] at both
  rw [seen,Option.map_map]
  refine Eq.trans ?_ both
  refine congrArg (Option.map · _) (funext fun p => ?_)
  exact congrArg (·,mask p.2) p.1.masked_masked

theorem workerStep_masked (loop : DispatchLoopConfig) (worker : Worker) :
    (workerStep x loop inp.masked w.masked worker.masked).map (fun p => (p.1.masked,p.2.masked)) =
      (workerStep x loop inp w worker).map fun p => (p.1.masked,p.2.masked) :=
  moves_masked (textless.workerStep_seen x loop inp.masked w worker.masked) (workerStep_unread x loop inp w worker)

theorem replayStep_masked (pc : ReplayPc) :
    (replayStep inp.masked w.masked pc.masked).map (fun p => (p.1.masked,p.2.masked)) =
      (replayStep inp w pc).map fun p => (p.1.masked,p.2.masked) :=
  moves_masked (textless.replayStep_seen inp.masked w pc.masked) (replayStep_unread inp w pc)

end

namespace System
variable {x : Externals} {cfg : AppConfig} {s t : State} {a b : Action}

def State.masked (s : State) : State :=
  {s with
    world := s.world.masked
    workers := fun i => (s.workers i).masked
    replays := s.replays.map ReplayPc.masked
    ingests := s.ingests.map IngestPc.masked}

def Action.masked : Action → Action
  | .createEndpoint headers req inp => .createEndpoint headers req inp.masked
  | .deleteEndpoint headers id inp => .deleteEndpoint headers id inp.masked
  | .accept endpointId key rawBody headers inp => .accept endpointId key rawBody headers inp.masked
  | .startIngest req inp => .startIngest req inp.masked
  | .ingest r inp => .ingest r inp.masked
  | .startReplay headers dlqId inp => .startReplay headers dlqId inp.masked
  | .replay r inp => .replay r inp.masked
  | .worker i inp => .worker i inp.masked
  | a => a

theorem drained_masked (s : State) : drained s.masked = drained s := by
  have ingests : ∀ pc : IngestPc, pc.masked.answered = pc.answered := by
    intro pc
    cases pc <;> rfl
  have replays : ∀ pc : ReplayPc, pc.masked.answered = pc.answered := by
    intro pc
    cases pc <;> rfl
  simp [drained,State.masked,List.all_map,Function.comp_def,ingests,replays]

theorem Worker.masked_masked (worker : Worker) : worker.masked.masked = worker.masked := by
  obtain ⟨pc,p⟩ := worker
  cases pc with
  | idle => rfl
  | requeueing e cause => exact congrArg (fun c => Worker.mk (.requeueing e c) p) cause.masked_masked
  | finished r => exact congrArg (fun r => Worker.mk (.finished r) p) (AetherRelay.masked_masked r)
  | dispatching claimed parent pc =>
    cases pc with
    | done e r => exact congrArg (fun r => Worker.mk (.dispatching claimed parent (.done e r)) p) (AetherRelay.masked_masked r)
    | _ => rfl

theorem replays_masked (pcs : List ReplayPc) : (pcs.map ReplayPc.masked).map ReplayPc.masked = pcs.map ReplayPc.masked := by
  rw [List.map_map]
  refine List.map_congr_left fun pc _ => ?_
  cases pc with
  | done r => exact congrArg ReplayPc.done (AetherRelay.masked_masked r)
  | _ => rfl

theorem ingests_masked (pcs : List IngestPc) : (pcs.map IngestPc.masked).map IngestPc.masked = pcs.map IngestPc.masked := by
  rw [List.map_map]
  refine List.map_congr_left fun pc _ => ?_
  cases pc with
  | done r => exact congrArg IngestPc.done (AetherRelay.masked_masked r)
  | _ => rfl

theorem masked_world (world : w.masked = w'.masked) (clock : Nat) :
    State.masked {s.masked with world:=w,clock:=clock} = State.masked {s with world:=w',clock:=clock} := by
  simp only [State.masked,world,Worker.masked_masked,replays_masked,ingests_masked]

theorem masked_parts {f : α → β} {o o' : Option α} (same : o.map f = o'.map f) :
    (o = none ∧ o' = none) ∨ ∃ p q, o = some p ∧ o' = some q ∧ f p = f q := by
  cases o with
  | none => exact .inl ⟨rfl,Option.map_eq_none_iff.mp same.symm⟩
  | some p =>
    obtain ⟨q,other,equal⟩ := Option.map_eq_some_iff.mp same.symm
    exact .inr ⟨p,q,rfl,other,equal.symm⟩

theorem terminate_masked (s : State) : (terminate cfg s.masked).masked = (terminate cfg s).masked := by
  have told := told_masked s.world.history
  simp only [terminate,State.masked,World.masked,View.world,textless,told]
  rfl

theorem serve_masked (s : State) (a : Action) :
    (serve x cfg s.masked a.masked).map State.masked = (serve x cfg s a).map State.masked := by
  have world : s.masked.world = s.world.masked := rfl
  cases a with
  | createEndpoint headers req inp =>
    have left := congrArg Prod.fst (createEndpoint_unread x cfg inp s.world headers req)
    exact congrArg some (masked_world left inp.now)
  | deleteEndpoint headers id inp =>
    have left := congrArg Prod.fst (deleteEndpoint_unread cfg inp s.world headers id)
    exact congrArg some (masked_world left inp.now)
  | accept endpointId key rawBody headers inp =>
    have left := congrArg Prod.fst (acceptEvent_unread x inp s.world endpointId key rawBody headers)
    exact congrArg some (masked_world left inp.now)
  | startIngest req inp =>
    have logged : (s.world.masked.log (.ingestReceived req)).masked = (s.world.log (.ingestReceived req)).masked :=
      congrArg (World.log · (.ingestReceived req)) s.world.masked_masked
    refine congrArg some ?_
    simp only [State.masked,List.map_append,Worker.masked_masked,replays_masked,ingests_masked,logged]
    rfl
  | startReplay headers dlqId inp =>
    refine congrArg some ?_
    simp only [State.masked,List.map_append,World.masked_masked,Worker.masked_masked,replays_masked,ingests_masked]
    rfl
  | ingest r inp =>
    have asked : s.masked.ingests[r]? = s.ingests[r]?.map IngestPc.masked := List.getElem?_map ..
    simp only [Action.masked,serve,asked,world]
    cases s.ingests[r]? with
    | none => rfl
    | some pc =>
      obtain ⟨one,other⟩ | ⟨p,q,one,other,alike⟩ := masked_parts (ingestStep_unread x inp s.world pc)
      · simp only [Option.map_some,bind,Option.bind_some,one,other]
        rfl
      · obtain ⟨left,stands⟩ := Prod.mk.inj alike
        simp only [Option.map_some,bind,Option.bind_some,one,other,pure,State.masked,List.map_set,left,stands,
          Worker.masked_masked,replays_masked,ingests_masked]
        rfl
  | replay r inp =>
    have asked : s.masked.replays[r]? = s.replays[r]?.map ReplayPc.masked := List.getElem?_map ..
    simp only [Action.masked,serve,asked,world]
    cases s.replays[r]? with
    | none => rfl
    | some pc =>
      obtain ⟨one,other⟩ | ⟨p,q,one,other,alike⟩ := masked_parts (replayStep_masked inp s.world pc)
      · simp only [Option.map_some,bind,Option.bind_some,one,other]
        rfl
      · obtain ⟨left,stands⟩ := Prod.mk.inj alike
        simp only [Option.map_some,bind,Option.bind_some,one,other,pure,State.masked,List.map_set,left,stands,
          Worker.masked_masked,replays_masked,ingests_masked]
        rfl
  | worker i inp =>
    have mine : s.masked.workers i = (s.workers i).masked := rfl
    simp only [Action.masked,serve,mine,world]
    obtain ⟨one,other⟩ | ⟨p,q,one,other,alike⟩ := masked_parts (workerStep_masked x inp s.world (loopConfig cfg) (s.workers i))
    · simp only [bind,one,other]
      rfl
    · obtain ⟨left,stands⟩ := Prod.mk.inj alike
      have passes : (fun j => (Function.update (fun k => (s.workers k).masked) i p.2 j).masked) =
          fun j => (Function.update s.workers i q.2 j).masked := by
        funext j
        by_cases same : j = i
        · subst same
          simpa using stands
        · simp [same,Worker.masked_masked]
      simp only [bind,Option.bind_some,one,other,pure,Option.map_some,State.masked,left,passes,replays_masked,ingests_masked]
      rfl
  | kill => exact congrArg some (terminate_masked s)
  | shutdown =>
    simp only [Action.masked,serve,drained_masked]
    split
    · exact congrArg some (terminate_masked s)
    · rfl
  | restart => rfl

theorem step_masked (s : State) (a : Action) :
    (step x cfg s.masked a.masked).map State.masked = (step x cfg s a).map State.masked := by
  have lives : s.masked.running = s.running := rfl
  unfold step
  rw [lives]
  split
  · exact serve_masked s a
  · cases a with
    | restart =>
      have left := s.world.masked_with s.world.db s.world.drawn
      refine congrArg some ?_
      simp only [State.masked,Worker.masked_masked,replays_masked,ingests_masked]
      exact congrArg (fun world => State.mk world true s.clock _ _ _) left
    | _ => rfl

theorem step_unread (s t : State) (a b : Action) (alike : s.masked = t.masked) (same : a.masked = b.masked) :
    (step x cfg s a).map State.masked = (step x cfg t b).map State.masked := by
  rw [← step_masked,← step_masked t,alike,same]

structure Indistinct (x : Externals) (cfg : AppConfig) (s t : State) : Prop where
  store : s.world.db = t.world.db
  worked : s.world.history.filter Happening.worked = t.world.history.filter Happening.worked
  ingests : s.ingests.map IngestPc.response = t.ingests.map IngestPc.response
  replays : s.replays.map ReplayPc.response = t.replays.map ReplayPc.response
  creates : ∀ inp inp' headers req, inp.masked = inp'.masked →
    shown (createEndpoint x cfg inp s.world headers req).2 = shown (createEndpoint x cfg inp' t.world headers req).2
  deletes : ∀ inp inp' headers id, inp.masked = inp'.masked →
    shown (deleteEndpoint cfg inp s.world headers id).2 = shown (deleteEndpoint cfg inp' t.world headers id).2
  endpoints : ∀ inp inp' headers, inp.masked = inp'.masked →
    shown (listEndpoints cfg inp s.world headers) = shown (listEndpoints cfg inp' t.world headers)
  letters : ∀ inp inp' headers, inp.masked = inp'.masked →
    shown (listDlq cfg inp s.world headers) = shown (listDlq cfg inp' t.world headers)

theorem worked_masked (history : List Happening) :
    (history.map Happening.masked).filter Happening.worked = history.filter Happening.worked := by
  have same : Happening.worked ∘ Happening.masked = Happening.worked := funext fun h => by cases h <;> rfl
  rw [List.filter_map,same]
  refine (List.map_congr_left fun h inside => ?_).trans (List.map_id _)
  have worked := List.of_mem_filter inside
  cases h with
  | rejected endpointId key e => cases worked
  | _ => rfl

theorem State.indistinct (alike : s.masked = t.masked) : Indistinct x cfg s t := by
  have world : s.world.masked = t.world.masked := congrArg State.world alike
  have store : s.world.masked.db = t.world.masked.db := congrArg World.db world
  have store : s.world.db = t.world.db := store
  refine ⟨store,?_,?_,?_,?_,?_,?_,?_⟩
  · have told : s.world.history.map Happening.masked = t.world.history.map Happening.masked := congrArg World.history world
    rw [← worked_masked,told,worked_masked]
  · have asked : s.ingests.map IngestPc.masked = t.ingests.map IngestPc.masked := congrArg State.ingests alike
    have seen := congrArg (List.map IngestPc.response) asked
    simpa only [List.map_map,Function.comp_def,IngestPc.response_masked] using seen
  · have asked : s.replays.map ReplayPc.masked = t.replays.map ReplayPc.masked := congrArg State.replays alike
    have seen := congrArg (List.map ReplayPc.response) asked
    simpa only [List.map_map,Function.comp_def,ReplayPc.response_masked] using seen
  · intro inp inp' headers req same
    have one := createEndpoint_unread x cfg inp s.world headers req
    have other := createEndpoint_unread x cfg inp' t.world headers req
    rw [same,world] at one
    exact shown_masked (congrArg Prod.snd (one.symm.trans other))
  · intro inp inp' headers id same
    have one := deleteEndpoint_unread cfg inp s.world headers id
    have other := deleteEndpoint_unread cfg inp' t.world headers id
    rw [same,world] at one
    exact shown_masked (congrArg Prod.snd (one.symm.trans other))
  · intro inp inp' headers same
    unfold listEndpoints
    rw [store]
    cases verifyApiKey headers cfg.auth.apiKeys with
    | error e => rfl
    | ok u => exact shown_masked (statement_alike same _)
  · intro inp inp' headers same
    unfold listDlq
    rw [store]
    cases verifyApiKey headers cfg.auth.apiKeys with
    | error e => rfl
    | ok u => exact shown_masked (statement_alike same _)

-- What the errors of the store say is between the relay and its log: two relays whose
-- statements fail at the same points, on whatever, go through the same run, and
-- nobody who calls them, is called by them or reads the file can tell them apart.
theorem error_texts_do_not_show {pairs : List (Action × Action)} (alike : s.masked = t.masked)
    (asked : ∀ actions ∈ pairs, actions.1.masked = actions.2.masked)
    (reached : Transition.exec (step x cfg) s (pairs.map (·.1)) = some s') :
    ∃ t', Transition.exec (step x cfg) t (pairs.map (·.2)) = some t' ∧ Indistinct x cfg s' t' := by
  have path : Transition.EachStep (Transition.both (step x cfg)) (fun _ actions => actions.1.masked = actions.2.masked) (s,t) pairs :=
    .all asked
  have unseen := Transition.exec_unseen (fun s t a b alike same => step_unread s t a b alike same) alike path
  rw [reached] at unseen
  obtain ⟨t',reached',same⟩ := Option.map_eq_some_iff.mp unseen.symm
  exact ⟨t',reached',State.indistinct same.symm⟩

def struck (cause : String) : Input := ⟨some (.failure cause),0,0,.error "",0⟩

def troubled : List (String → Action) :=
  registerAndAccept.map (fun a _ => a) ++
    [fun _ => .startIngest ⟨"1",[("idempotency-key",[107])],[]⟩ ⟨none,0,0,.error "",0⟩,
     fun cause => .ingest 0 (struck cause),
     fun cause => .worker 0 (struck cause),
     fun cause => .accept "1" "key-2" [] "{}" (struck cause)]

theorem error_texts_do_not_show_struck :
    ∃ s t, Transition.exec (step .tabletop .default) (boot .default) (troubled.map (· "disk I/O error")) = some s ∧
      Transition.exec (step .tabletop .default) (boot .default) (troubled.map (· "database is locked")) = some t ∧
      Indistinct .tabletop .default s t ∧
      s.ingests.map IngestPc.response = [some (.error ⟨500,"DATABASE_ERROR","Internal server error"⟩)] := by
  let pairs : List (Action × Action) := troubled.map fun a => (a "disk I/O error",a "database is locked")
  have asked : ∀ actions ∈ pairs, actions.1.masked = actions.2.masked := by
    intro actions member
    obtain ⟨a,among,rfl⟩ := List.mem_map.mp member
    rcases List.mem_append.mp among with plain | failing
    · obtain ⟨a,_,rfl⟩ := List.mem_map.mp plain
      rfl
    · simp only [List.mem_cons,List.not_mem_nil,or_false] at failing
      rcases failing with rfl | rfl | rfl | rfl <;> rfl
  have ran : (Transition.exec (step .tabletop .default) (boot .default) (troubled.map (· "disk I/O error"))).map
      (fun s => decide (s.ingests.map IngestPc.response = [some (.error ⟨500,"DATABASE_ERROR","Internal server error"⟩)])) =
      some true := by
    decide +kernel
  obtain ⟨s,reached,answered⟩ := Option.map_eq_some_iff.mp ran
  have one : pairs.map (·.1) = troubled.map (· "disk I/O error") := List.map_map ..
  have other : pairs.map (·.2) = troubled.map (· "database is locked") := List.map_map ..
  obtain ⟨t,reached',indistinct⟩ := error_texts_do_not_show rfl asked (one ▸ reached)
  exact ⟨s,t,reached,other ▸ reached',indistinct,of_decide_eq_true answered⟩

end System
end AetherRelay
