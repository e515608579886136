import AetherRelay.Lib.Lockstep
import AetherRelay.System.Rows
import AetherRelay.Api.Listing
import AetherRelay.Worker.View

namespace AetherRelay

-- A secret as it looks to someone who may only know whether there is one.
def hidden (secret : String) : String := if secret = "" then "" else "hidden"

theorem hidden_empty : hidden secret = "" ↔ secret = "" := by
  unfold hidden
  split <;> simp_all

def EndpointRecord.hide (row : EndpointRecord) : EndpointRecord := {row with secret:=hidden row.secret}

theorem EndpointRecord.hide_id (row : EndpointRecord) : row.hide.id = row.id := rfl

def CreateEndpointRequest.hide (req : CreateEndpointRequest) : CreateEndpointRequest := {req with secret:=hidden req.secret}

def Happening.hide : Happening → Happening
  | .endpointCreated row => .endpointCreated row.hide
  | h => h

def IngestPc.hide : IngestPc → IngestPc
  | .verify req key endpoint => .verify req key endpoint.hide
  | pc => pc

namespace Db

def hide (db : Db) : Db where
  endpoints := db.endpoints.revise EndpointRecord.hide EndpointRecord.hide_id
  incomingEvents := db.incomingEvents
  deliveryAttempts := db.deliveryAttempts
  deadLetterQueue := db.deadLetterQueue
  keyUnique := db.keyUnique
  letterUnique := db.letterUnique
  eventParent e member := by
    rw [Table.lookup_revise,Option.isSome_map]
    exact db.eventParent e member
  attemptParent := db.attemptParent
  letterParent := db.letterParent

section
variable (db : Db)

@[simp] theorem hide_eventByKey (e : Uuid) (key : String) : db.hide.eventByKey e key = db.eventByKey e key := rfl
@[simp] theorem hide_pendingCount (k : Uuid) : db.hide.pendingCount k = db.pendingCount k := rfl

@[simp] theorem hide_endpoint (k : Uuid) : db.hide.endpoint k = (db.endpoint k).map (·.hide) :=
  Table.lookup_revise db.endpoints EndpointRecord.hide EndpointRecord.hide_id k

@[simp] theorem hide_setStatus (k : Uuid) (st : EventStatus) : db.hide.setStatus k st = (db.setStatus k st).hide :=
  Db.ext rfl rfl rfl rfl

@[simp] theorem hide_deleteAttempts (k : Uuid) : db.hide.deleteAttempts k = (db.deleteAttempts k).hide :=
  Db.ext rfl rfl rfl rfl

@[simp] theorem hide_deleteLetter (k : Uuid) : db.hide.deleteLetter k = (db.deleteLetter k).hide :=
  Db.ext rfl rfl rfl rfl

theorem hide_keys : db.hide.endpoints.rows.map (·.id) = db.endpoints.rows.map (·.id) := by
  simp only [hide,Table.revise,List.map_map]
  rfl

theorem hide_parent (k : Uuid) : (db.hide.endpoints.lookup k).isSome = (db.endpoints.lookup k).isSome := by
  have found := hide_endpoint db k
  unfold endpoint at found
  rw [found,Option.isSome_map]

@[simp] theorem hide_insertEndpoint (row : EndpointRecord) :
    db.hide.insertEndpoint row.hide = (db.insertEndpoint row).map hide := by
  have keys := hide_keys db
  unfold insertEndpoint
  by_cases fresh : row.id ∉ db.endpoints.rows.map (·.id)
  · have fresh' : row.hide.id ∉ db.hide.endpoints.rows.map (·.id) := by rw [keys]; exact fresh
    rw [dif_pos fresh,dif_pos fresh']
    refine congrArg Except.ok (Db.ext (Table.ext ?_) rfl rfl rfl)
    simp [Table.insert,hide,Table.revise]
  · have taken : ¬row.hide.id ∉ db.hide.endpoints.rows.map (·.id) := by rw [keys]; exact fresh
    rw [dif_neg fresh,dif_neg taken]
    rfl

@[simp] theorem hide_insertEvent (row : IncomingEventRecord) :
    db.hide.insertEvent row = (db.insertEvent row).map hide := by
  have parents := hide_parent db row.endpointId
  unfold insertEvent
  by_cases fresh : row.id ∉ db.incomingEvents.rows.map (·.id)
  · have fresh' : row.id ∉ db.hide.incomingEvents.rows.map (·.id) := fresh
    rw [dif_pos fresh,dif_pos fresh']
    by_cases unused : db.eventByKey row.endpointId row.idempotencyKey = none
    · have unused' : db.hide.eventByKey row.endpointId row.idempotencyKey = none := unused
      rw [dif_pos unused,dif_pos unused']
      by_cases parent : (db.endpoints.lookup row.endpointId).isSome = true
      · rw [dif_pos parent,dif_pos (parents.trans parent)]
        exact congrArg Except.ok (Db.ext rfl rfl rfl rfl)
      · rw [dif_neg parent,dif_neg (parents ▸ parent)]
        rfl
    · have used : ¬db.hide.eventByKey row.endpointId row.idempotencyKey = none := unused
      rw [dif_neg unused,dif_neg used]
      rfl
  · have taken : ¬row.id ∉ db.hide.incomingEvents.rows.map (·.id) := fresh
    rw [dif_neg fresh,dif_neg taken]
    rfl

@[simp] theorem hide_insertAttempt (row : DeliveryAttempt) :
    db.hide.insertAttempt row = (db.insertAttempt row).map hide := by
  unfold insertAttempt
  by_cases fresh : row.id ∉ db.deliveryAttempts.rows.map (·.id)
  · have fresh' : row.id ∉ db.hide.deliveryAttempts.rows.map (·.id) := fresh
    rw [dif_pos fresh,dif_pos fresh']
    by_cases parent : (db.incomingEvents.lookup row.eventId).isSome = true
    · have parent' : (db.hide.incomingEvents.lookup row.eventId).isSome = true := parent
      rw [dif_pos parent,dif_pos parent']
      exact congrArg Except.ok (Db.ext rfl rfl rfl rfl)
    · have gone : ¬(db.hide.incomingEvents.lookup row.eventId).isSome = true := parent
      rw [dif_neg parent,dif_neg gone]
      rfl
  · have taken : ¬row.id ∉ db.hide.deliveryAttempts.rows.map (·.id) := fresh
    rw [dif_neg fresh,dif_neg taken]
    rfl

@[simp] theorem hide_replaceLetter (row : DeadLetter) :
    db.hide.replaceLetter row = (db.replaceLetter row).map hide := by
  unfold replaceLetter
  by_cases parent : (db.incomingEvents.lookup row.eventId).isSome = true
  · have parent' : (db.hide.incomingEvents.lookup row.eventId).isSome = true := parent
    rw [dif_pos parent,dif_pos parent']
    exact congrArg Except.ok (Db.ext rfl rfl rfl rfl)
  · have gone : ¬(db.hide.incomingEvents.lookup row.eventId).isSome = true := parent
    rw [dif_neg parent,dif_neg gone]
    rfl

@[simp] theorem hide_deleteEndpoint (k : Uuid) : db.hide.deleteEndpoint k = (db.deleteEndpoint k).hide := by
  refine Db.ext (Table.ext ?_) rfl rfl rfl
  simp only [deleteEndpoint,hide,Table.revise,Table.retain,List.filter_map]
  rfl

end
end Db

namespace World

def hide (w : World) : World := {w with db:=w.db.hide,history:=w.history.map Happening.hide}

@[simp] theorem hide_db (w : World) : w.hide.db = w.db.hide := rfl
@[simp] theorem hide_drawn (w : World) : w.hide.drawn = w.drawn := rfl

end World

def secretless : View where
  store := Db.hide
  told := List.map Happening.hide
  nextReceived _ := rfl
  event _ _ := rfl
  targetUrl db k := by
    rw [Db.hide_endpoint,Option.map_map]
    rfl
  attemptCount _ _ := rfl
  letter _ _ := rfl
  setStatus := Db.hide_setStatus
  deleteAttempts := Db.hide_deleteAttempts
  deleteLetter := Db.hide_deleteLetter
  attemptStored := Db.hide_insertAttempt
  letterStored := Db.hide_replaceLetter
  note h hs worked := by
    cases h with
    | endpointCreated row => cases worked
    | _ => rfl

section
variable (x : Externals) (cfg : AppConfig) (inp : Input) (w : World)

theorem workerStep_hide (loop : DispatchLoopConfig) (worker : Worker) :
    workerStep x loop inp w.hide worker = (workerStep x loop inp w worker).map fun p => (p.1.hide,p.2) :=
  secretless.workerStep_seen x loop inp w worker

theorem replayStep_hide (pc : ReplayPc) :
    replayStep inp w.hide pc = (replayStep inp w pc).map fun p => (p.1.hide,p.2) :=
  secretless.replayStep_seen inp w pc

theorem acceptEvent_hide (endpointId : Uuid) (key : String) (rawBody : Bytes) (headers : String) :
    acceptEvent x inp w.hide endpointId key rawBody headers =
      ((acceptEvent x inp w endpointId key rawBody headers).1.hide,(acceptEvent x inp w endpointId key rawBody headers).2) := by
  simp only [acceptEvent,World.hide_db,Db.hide_eventByKey,World.hide_drawn,Db.hide_insertEvent]
  cases statement inp (.ok (w.db.eventByKey endpointId key)) with
  | error e => rfl
  | ok existing =>
    cases existing with
    | some row => rfl
    | none => cases w.db.insertEvent ⟨x.nowV7 w.drawn,endpointId,key,rawBody,headers,.received,inp.now⟩ <;> rfl

theorem deleteEndpoint_hide (headers : HeaderMap) (id : Uuid) :
    deleteEndpoint cfg inp w.hide headers id = ((deleteEndpoint cfg inp w headers id).1.hide,(deleteEndpoint cfg inp w headers id).2) := by
  simp only [deleteEndpoint,World.hide_db,Db.hide_pendingCount,Db.hide_endpoint]
  cases verifyApiKey headers cfg.auth.apiKeys with
  | error e => rfl
  | ok u =>
    dsimp only
    cases statement inp (.ok (w.db.pendingCount id)) with
    | error e => rfl
    | ok pending =>
      dsimp only
      split
      · rfl
      · cases w.db.endpoint id with
        | none => rfl
        | some row =>
          dsimp only [Option.map_some]
          rw [Db.hide_deleteEndpoint]
          rfl

theorem validateNewEndpoint_hide (req : CreateEndpointRequest) : validateNewEndpoint x req.hide = validateNewEndpoint x req := by
  have empty : (hidden req.secret = "") = (req.secret = "") := propext hidden_empty
  simp only [validateNewEndpoint,CreateEndpointRequest.hide,empty]

theorem createEndpoint_hide (headers : HeaderMap) (req : CreateEndpointRequest) :
    createEndpoint x cfg inp w.hide headers req.hide =
      ((createEndpoint x cfg inp w headers req).1.hide,(createEndpoint x cfg inp w headers req).2) := by
  simp only [createEndpoint,validateNewEndpoint_hide]
  cases verifyApiKey headers cfg.auth.apiKeys with
  | error e => rfl
  | ok u =>
    dsimp only
    cases validateNewEndpoint x req with
    | error e => rfl
    | ok u =>
      dsimp only
      have stored := Db.hide_insertEndpoint w.db ⟨x.nowV7 w.drawn,req.name,req.provider,req.secret,req.targetUrl,inp.now⟩
      have same : statement inp (w.hide.db.insertEndpoint
          ⟨x.nowV7 w.hide.drawn,req.hide.name,req.hide.provider,req.hide.secret,req.hide.targetUrl,inp.now⟩) =
          (statement inp (w.db.insertEndpoint
            ⟨x.nowV7 w.drawn,req.name,req.provider,req.secret,req.targetUrl,inp.now⟩)).map Db.hide := by
        rw [← statement_map,← stored]
        rfl
      rw [same]
      cases statement inp (w.db.insertEndpoint ⟨x.nowV7 w.drawn,req.name,req.provider,req.secret,req.targetUrl,inp.now⟩) <;> rfl

theorem startIngest_hide (req : IngestRequest) :
    startIngest cfg w.hide req = ((startIngest cfg w req).1.hide,(startIngest cfg w req).2.hide) := by
  simp only [startIngest]
  cases admitIngest cfg req <;> rfl

def IngestPc.verifies : IngestPc → Bool
  | .verify _ _ _ => true
  | _ => false

theorem ingestStep_hide {pc : IngestPc} (other : pc.verifies = false) :
    ingestStep x inp w.hide pc.hide = (ingestStep x inp w pc).map fun p => (p.1.hide,p.2.hide) := by
  cases pc with
  | done result => rfl
  | verify req key endpoint => cases other
  | selectEndpoint req key =>
    simp only [IngestPc.hide,ingestStep,lookupEndpoint,World.hide_db,Db.hide_endpoint]
    unfold statement
    cases inp.fault with
    | some e => rfl
    | none => cases w.db.endpoint req.endpointId <;> rfl
  | accept req key provider =>
    simp only [IngestPc.hide,ingestStep,acceptEvent_hide]
    cases (acceptEvent x inp w req.endpointId key req.body (headersJson x req.headers)).2 <;> rfl

end

namespace System
variable {x : Externals} {cfg : AppConfig} {s t : State} {a b : Action}

def State.hide (s : State) : State := {s with world:=s.world.hide,ingests:=s.ingests.map IngestPc.hide}

def Action.hide : Action → Action
  | .createEndpoint headers req inp => .createEndpoint headers req.hide inp
  | a => a

def checking (s : State) : Action → Option (IngestRequest × String × EndpointRecord × Input)
  | .ingest r inp =>
    match s.ingests[r]? with
    | some (.verify req key endpoint) => some (req,key,endpoint,inp)
    | _ => none
  | _ => none

theorem step_hide (other : checking s a = none) : step x cfg s.hide a.hide = (step x cfg s a).map State.hide := by
  have lives : s.hide.running = s.running := rfl
  unfold step
  rw [lives]
  split
  · cases a with
    | createEndpoint headers req inp =>
      have same := createEndpoint_hide x cfg inp s.world headers req
      have world : s.hide.world = s.world.hide := rfl
      simp only [Action.hide,serve,world,same]
      rfl
    | deleteEndpoint headers id inp =>
      have same := deleteEndpoint_hide cfg inp s.world headers id
      have world : s.hide.world = s.world.hide := rfl
      simp only [Action.hide,serve,world,same]
      rfl
    | accept endpointId key rawBody headers inp =>
      have same := acceptEvent_hide x inp s.world endpointId key rawBody headers
      have world : s.hide.world = s.world.hide := rfl
      simp only [Action.hide,serve,world,same]
      rfl
    | startIngest req inp =>
      have same := startIngest_hide cfg s.world req
      have world : s.hide.world = s.world.hide := rfl
      simp only [Action.hide,serve,world,same]
      simp [State.hide]
    | ingest r inp =>
      have world : s.hide.world = s.world.hide := rfl
      have asked : s.hide.ingests[r]? = s.ingests[r]?.map IngestPc.hide := by simp [State.hide]
      simp only [Action.hide,serve,world,asked]
      cases there : s.ingests[r]? with
      | none => rfl
      | some pc =>
        have quiet : pc.verifies = false := by
          cases pc with
          | verify req key endpoint => simp [checking,there] at other
          | _ => rfl
        have same := ingestStep_hide x inp s.world quiet
        simp only [Option.map_some,bind,Option.bind_some,same]
        cases ingestStep x inp s.world pc with
        | none => rfl
        | some moved => simp [State.hide,List.map_set]
    | startReplay headers dlqId inp => rfl
    | replay r inp =>
      have world : s.hide.world = s.world.hide := rfl
      have asked : s.hide.replays[r]? = s.replays[r]? := rfl
      simp only [Action.hide,serve,world,asked]
      cases s.replays[r]? with
      | none => rfl
      | some pc =>
        simp only [bind,Option.bind_some,replayStep_hide]
        cases replayStep inp s.world pc <;> rfl
    | worker i inp =>
      have world : s.hide.world = s.world.hide := rfl
      have mine : s.hide.workers = s.workers := rfl
      simp only [Action.hide,serve,world,mine,workerStep_hide,bind]
      cases workerStep x (loopConfig cfg) inp s.world (s.workers i) <;> rfl
    | kill => rfl
    | shutdown =>
      have same : drained s.hide = drained s := by
        have answered : ∀ pc : IngestPc, pc.hide.answered = pc.answered := by
          intro pc
          cases pc <;> rfl
        simp [drained,State.hide,List.all_map,Function.comp_def,answered]
      simp only [Action.hide,serve,same]
      split <;> rfl
    | restart => rfl
  · cases a <;> rfl

theorem checking_parts (checks : checking s a = some (req,key,endpoint,inp)) :
    ∃ r, a = .ingest r inp ∧ s.ingests[r]? = some (.verify req key endpoint) := by
  unfold checking at checks
  split at checks
  · rename_i r inp
    split at checks
    · rename_i there
      cases checks
      exact ⟨r,rfl,there⟩
    · cases checks
  · cases checks

theorem checking_some {r : Nat} (there : s.ingests[r]? = some (.verify req key endpoint)) (inp : Input) :
    checking s (.ingest r inp) = some (req,key,endpoint,inp) := by
  simp only [checking,there]

structure Confidential (x : Externals) (pair : State × State) (actions : Action × Action) : Prop where
  asked : actions.1.hide = actions.2.hide
  verdict : ∀ req key endpoint endpoint' inp, checking pair.1 actions.1 = some (req,key,endpoint,inp) →
    checking pair.2 actions.2 = some (req,key,endpoint',inp) →
    verifyIngest x endpoint req inp.now = verifyIngest x endpoint' req inp.now

theorem hide_parts (alike : s.hide = t.hide) : s.world.hide = t.world.hide ∧ s.running = t.running ∧ s.clock = t.clock ∧
    s.workers = t.workers ∧ s.replays = t.replays ∧ s.ingests.map IngestPc.hide = t.ingests.map IngestPc.hide := by
  simpa only [State.hide,State.mk.injEq] using alike

theorem checking_alike (alike : s.hide = t.hide) (asked : a.hide = b.hide)
    (checks : checking s a = some (req,key,endpoint,inp)) :
    ∃ endpoint', checking t b = some (req,key,endpoint',inp) ∧ endpoint.hide = endpoint'.hide := by
  obtain ⟨r,rfl,there⟩ := checking_parts checks
  have same : b = .ingest r inp := by
    cases b with
    | createEndpoint headers req inp => cases asked
    | _ => exact asked.symm
  obtain ⟨_,_,_,_,_,ingests⟩ := hide_parts alike
  have here := congrArg (·[r]?) ingests
  simp only [List.getElem?_map,there,Option.map_some] at here
  obtain ⟨pc,there',hides⟩ := Option.map_eq_some_iff.mp here.symm
  cases pc with
  | verify req' key' endpoint' =>
    simp only [IngestPc.hide,IngestPc.verify.injEq] at hides
    obtain ⟨rfl,rfl,hides⟩ := hides
    rw [same]
    exact ⟨endpoint',checking_some there' inp,hides.symm⟩
  | _ => cases hides

theorem verify_alike (alike : s.hide = t.hide) (checks : checking s a = some (req,key,endpoint,inp))
    (checks' : checking t b = some (req,key,endpoint',inp)) (asked : a.hide = b.hide) (hides : endpoint.hide = endpoint'.hide)
    (verdict : verifyIngest x endpoint req inp.now = verifyIngest x endpoint' req inp.now) :
    (step x cfg s a).map State.hide = (step x cfg t b).map State.hide := by
  obtain ⟨r,rfl,there⟩ := checking_parts checks
  obtain ⟨r',rfl,there'⟩ := checking_parts checks'
  cases asked
  have provider : endpoint.hide.provider = endpoint'.hide.provider := congrArg EndpointRecord.provider hides
  simp only [EndpointRecord.hide] at provider
  obtain ⟨world,running,_,workers,replays,ingests⟩ := hide_parts alike
  simp only [step,running,serve,there,there',bind,Option.bind_some,ingestStep,verdict]
  split
  · cases verifyIngest x endpoint' req inp.now with
    | error e => simp [State.hide,List.map_set,world,workers,replays,ingests]
    | ok u => simp [State.hide,List.map_set,world,workers,replays,ingests,provider]
  · rfl

theorem step_alike (s t : State) (a b : Action) (alike : s.hide = t.hide) (confidential : Confidential x (s,t) (a,b)) :
    (step x cfg s a).map State.hide = (step x cfg t b).map State.hide := by
  obtain ⟨asked,verdict⟩ := confidential
  cases checks : checking s a with
  | some check =>
    obtain ⟨req,key,endpoint,inp⟩ := check
    obtain ⟨endpoint',checks',hides⟩ := checking_alike alike asked checks
    exact verify_alike alike checks checks' asked hides (verdict req key endpoint endpoint' inp checks checks')
  | none =>
    have other : checking t b = none := by
      cases checks' : checking t b with
      | none => rfl
      | some check =>
        obtain ⟨req,key,endpoint,inp⟩ := check
        obtain ⟨endpoint',found,_⟩ := checking_alike alike.symm asked.symm checks'
        rw [checks] at found
        cases found
    rw [← step_hide checks,← step_hide other,alike]
    exact congrArg (step x cfg t.hide) asked

theorem newestFirst_hide (rows : List EndpointRecord) :
    (newestFirst (·.createdAt) (rows.map EndpointRecord.hide)).map (·.response) =
      (newestFirst (·.createdAt) rows).map (·.response) := by
  have kept : (newestFirst (·.createdAt) rows).map EndpointRecord.hide =
      newestFirst (·.createdAt) (rows.map EndpointRecord.hide) :=
    List.map_insertionSort _ _ _ _ fun _ _ _ _ => Iff.rfl
  rw [← kept,List.map_map]
  rfl

theorem listEndpoints_hide (cfg : AppConfig) (inp : Input) (w : World) (headers : HeaderMap) :
    listEndpoints cfg inp w.hide headers = listEndpoints cfg inp w headers := by
  have shown := newestFirst_hide w.db.endpoints.rows
  unfold listEndpoints
  cases verifyApiKey headers cfg.auth.apiKeys with
  | error e => rfl
  | ok u =>
    dsimp only
    rw [← shown]
    rfl

theorem hide_deadLetterQueue (alike : s.world.hide = t.world.hide) :
    s.world.db.deadLetterQueue = t.world.db.deadLetterQueue :=
  congrArg (fun w => w.db.deadLetterQueue) alike

-- Whatever is asked of the management API next is answered alike. The answers to
-- ingests and replays are in the state, which is compared as a whole.
structure AnswersAlike (x : Externals) (cfg : AppConfig) (s t : State) : Prop where
  creates : ∀ inp headers req req', req.hide = req'.hide →
    (createEndpoint x cfg inp s.world headers req).2 = (createEndpoint x cfg inp t.world headers req').2
  deletes : ∀ inp headers id,
    (deleteEndpoint cfg inp s.world headers id).2 = (deleteEndpoint cfg inp t.world headers id).2
  endpoints : ∀ inp headers, listEndpoints cfg inp s.world headers = listEndpoints cfg inp t.world headers
  letters : ∀ inp headers, listDlq cfg inp s.world headers = listDlq cfg inp t.world headers

theorem State.answersAlike (alike : s.hide = t.hide) : AnswersAlike x cfg s t := by
  obtain ⟨world,_⟩ := hide_parts alike
  refine ⟨?_,?_,?_,?_⟩
  · intro inp headers req req' asked
    have one := createEndpoint_hide x cfg inp s.world headers req
    have other := createEndpoint_hide x cfg inp t.world headers req'
    rw [world,asked] at one
    exact (Prod.mk.inj (one.symm.trans other)).2
  · intro inp headers id
    have one := deleteEndpoint_hide cfg inp s.world headers id
    have other := deleteEndpoint_hide cfg inp t.world headers id
    rw [world] at one
    exact (Prod.mk.inj (one.symm.trans other)).2
  · intro inp headers
    rw [← listEndpoints_hide,← listEndpoints_hide cfg inp t.world,world]
  · intro inp headers
    simp only [listDlq,hide_deadLetterQueue world]

-- As long as the same signatures pass at both, two relays that were given different
-- secrets cannot be told apart by what they send, answer, store or list.
theorem secrets_do_not_show (alike : s.hide = t.hide)
    (confidential : Transition.EachStep (Transition.both (step x cfg)) (Confidential x) (s,t) pairs)
    (reached : Transition.exec (step x cfg) s (pairs.map (·.1)) = some s') :
    ∃ t', Transition.exec (step x cfg) t (pairs.map (·.2)) = some t' ∧ s'.hide = t'.hide ∧ AnswersAlike x cfg s' t' := by
  have unseen := Transition.exec_unseen step_alike alike confidential
  rw [reached] at unseen
  obtain ⟨t',reached',same⟩ := Option.map_eq_some_iff.mp unseen.symm
  exact ⟨t',reached',same.symm,State.answersAlike same.symm⟩

def verdictsAgree (x : Externals) (pair : State × State) (actions : Action × Action) : Bool :=
  match checking pair.1 actions.1,checking pair.2 actions.2 with
  | some (req,_,endpoint,inp),some (req',_,endpoint',inp') =>
    verifyIngest x endpoint req inp.now = verifyIngest x endpoint' req' inp'.now
  | _,_ => true

theorem confidential_of (asked : actions.1.hide = actions.2.hide) (agree : verdictsAgree x pair actions = true) :
    Confidential x pair actions := by
  refine ⟨asked,?_⟩
  intro req key endpoint endpoint' inp checks checks'
  simpa [verdictsAgree,checks,checks'] using agree

def twoSecrets : List (Action × Action) :=
  (.createEndpoint [] ⟨"orders","generic","secret","https://hooks.example.com/in"⟩ ⟨none,0,0,.error "",0⟩,
   .createEndpoint [] ⟨"orders","generic","another","https://hooks.example.com/in"⟩ ⟨none,0,0,.error "",0⟩) ::
  (([.startIngest ⟨"1",[("idempotency-key",[107]),("x-signature",[48,48])],[]⟩ ⟨none,0,0,.error "",0⟩,
    .ingest 0 ⟨none,0,0,.error "",0⟩,.ingest 0 ⟨none,0,0,.error "",0⟩,
    .accept "1" "key-1" [] "{}" ⟨none,0,0,.error "",0⟩] : List Action) ++ Action.pass 0 12 (.response .ok)).map fun a => (a,a)

theorem secrets_do_not_show_two :
    ∃ s' t', Transition.exec (step .tabletop .default) (boot .default) (twoSecrets.map (·.1)) = some s' ∧
      Transition.exec (step .tabletop .default) (boot .default) (twoSecrets.map (·.2)) = some t' ∧
      s'.hide = t'.hide ∧ AnswersAlike .tabletop .default s' t' ∧
      (s'.world.db.endpoint "1").map (·.secret) = some "secret" ∧
      (t'.world.db.endpoint "1").map (·.secret) = some "another" := by
  have asked : ∀ actions ∈ twoSecrets, actions.1.hide = actions.2.hide := by
    intro actions member
    rcases List.mem_cons.mp member with rfl | later
    · rfl
    · obtain ⟨a,_,rfl⟩ := List.mem_map.mp later
      rfl
  have ran : (Transition.exec (Transition.guard (Transition.both (step .tabletop .default))
      (fun pair actions => verdictsAgree .tabletop pair actions = true)) (boot .default,boot .default) twoSecrets).isSome = true := by
    decide +kernel
  obtain ⟨pair,guarded⟩ := Option.isSome_iff_exists.mp ran
  have agree := (Transition.Run.guarded guarded).each
  have confidential := ((Transition.EachStep.all asked).both agree).imp fun pair actions both =>
    confidential_of both.1 both.2
  have first : (Transition.exec (step .tabletop .default) (boot .default) (twoSecrets.map (·.1))).map
      (fun s => (s.world.db.endpoint "1").map (·.secret)) = some (some "secret") := by
    decide +kernel
  have second : (Transition.exec (step .tabletop .default) (boot .default) (twoSecrets.map (·.2))).map
      (fun s => (s.world.db.endpoint "1").map (·.secret)) = some (some "another") := by
    decide +kernel
  obtain ⟨s',reached,holds⟩ := Option.map_eq_some_iff.mp first
  obtain ⟨t',reached',same,alike⟩ := secrets_do_not_show rfl confidential reached
  rw [reached'] at second
  exact ⟨s',t',reached,reached',same,alike,holds,Option.some.inj second⟩

end System
end AetherRelay
