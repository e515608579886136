import AetherRelay.Lib.Commit
import AetherRelay.Api.IngestWhole
import AetherRelay.Worker.View
import AetherRelay.System.Authenticity

namespace AetherRelay

def Happening.notice : Happening → Bool
  | .ingestReceived _ | .rejected _ _ _ => true
  | _ => false

def effects : View where
  store db := db
  told := List.filter fun h => !h.notice
  nextReceived _ := rfl
  event _ _ := rfl
  targetUrl _ _ := rfl
  attemptCount _ _ := rfl
  letter _ _ := rfl
  setStatus _ _ _ := rfl
  deleteAttempts _ _ := rfl
  deleteLetter _ _ := rfl
  attemptStored db row := by cases db.insertAttempt row <;> rfl
  letterStored db row := by cases db.replaceLetter row <;> rfl
  note h hs worked := by cases h <;> first | rfl | cases worked

section
variable {x : Externals} {cfg : AppConfig} {inp : Input} {w w' : World}

theorem effects_exact : effects.world w = effects.world w' ↔ w.db = w'.db ∧ w.breakers = w'.breakers ∧
    w.drawn = w'.drawn ∧ effects.told w.history = effects.told w'.history := by
  simp only [View.world,World.mk.injEq]
  rfl

theorem effects_told (hs : List Happening) : effects.told hs = hs.filter fun h => !h.notice := rfl

theorem effects_notice {h : Happening} (notice : h.notice = true) : effects.world (w.log h) = effects.world w := by
  refine effects_exact.mpr ⟨rfl,rfl,rfl,?_⟩
  simp [effects_told,notice]

theorem effects_log (same : effects.world w = effects.world w') (h : Happening) :
    effects.world (w.log h) = effects.world (w'.log h) := by
  obtain ⟨db,breakers,drawn,history⟩ := effects_exact.mp same
  refine effects_exact.mpr ⟨db,breakers,drawn,?_⟩
  rw [effects_told,effects_told] at history
  simp only [effects_told,World.log_history,List.filter_cons,history]

theorem View.matched {v : View} {f : World → Option (World × β)} (seen : ∀ u, f (v.world u) = (f u).map fun p => (v.world p.1,p.2))
    (same : v.world w' = v.world w) (moved : f w = some (next,b)) : ∃ next', f w' = some (next',b) ∧ v.world next' = v.world next := by
  have equal : (f w').map (fun p => (v.world p.1,p.2)) = (f w).map fun p => (v.world p.1,p.2) := by
    rw [← seen,← seen,same]
  rw [moved] at equal
  obtain ⟨⟨next',b'⟩,stepped,parts⟩ := Option.map_eq_some_iff.mp equal
  obtain ⟨world,rfl⟩ := Prod.mk.inj parts
  exact ⟨next',stepped,world⟩

theorem createEndpoint_refused (refused : (createEndpoint x cfg inp w headers req).2 = .error e) :
    (createEndpoint x cfg inp w headers req).1 = w := by
  unfold createEndpoint at refused ⊢
  split
  · rfl
  · rename_i allowed
    rw [allowed] at refused
    dsimp only at refused
    split
    · rfl
    · rename_i valid
      rw [valid] at refused
      dsimp only at refused ⊢
      split
      · rfl
      · rename_i stored
        rw [stored] at refused
        cases refused

theorem createEndpoint_alike (x : Externals) (cfg : AppConfig) (inp : Input) (headers : HeaderMap) (req : CreateEndpointRequest)
    (same : effects.world w = effects.world w') :
    effects.world (createEndpoint x cfg inp w headers req).1 = effects.world (createEndpoint x cfg inp w' headers req).1 ∧
      (createEndpoint x cfg inp w headers req).2 = (createEndpoint x cfg inp w' headers req).2 := by
  obtain ⟨db,breakers,drawn,history⟩ := effects_exact.mp same
  unfold createEndpoint
  cases verifyApiKey headers cfg.auth.apiKeys with
  | error e => exact ⟨same,rfl⟩
  | ok u =>
    dsimp only
    cases validateNewEndpoint x req with
    | error e => exact ⟨same,rfl⟩
    | ok u =>
      dsimp only
      rw [db,drawn]
      cases statement inp (w'.db.insertEndpoint ⟨x.nowV7 w'.drawn,req.name,req.provider,req.secret,req.targetUrl,inp.now⟩) with
      | error e => exact ⟨same,rfl⟩
      | ok stored =>
        dsimp only
        refine ⟨effects_log ?_ _,rfl⟩
        exact effects_exact.mpr ⟨rfl,breakers,rfl,history⟩

theorem deleteEndpoint_refused (refused : (deleteEndpoint cfg inp w headers k).2 = .error e) :
    (deleteEndpoint cfg inp w headers k).1 = w := by
  unfold deleteEndpoint at refused ⊢
  split
  · rfl
  · rename_i allowed
    rw [allowed] at refused
    dsimp only at refused
    split
    · rfl
    · rename_i pending counted
      rw [counted] at refused
      dsimp only at refused ⊢
      split
      · rfl
      · rename_i free
        rw [if_neg free] at refused
        split
        · rfl
        · rename_i row present
          rw [present] at refused
          cases refused

theorem deleteEndpoint_alike (cfg : AppConfig) (inp : Input) (headers : HeaderMap) (k : Uuid)
    (same : effects.world w = effects.world w') :
    effects.world (deleteEndpoint cfg inp w headers k).1 = effects.world (deleteEndpoint cfg inp w' headers k).1 ∧
      (deleteEndpoint cfg inp w headers k).2 = (deleteEndpoint cfg inp w' headers k).2 := by
  obtain ⟨db,breakers,drawn,history⟩ := effects_exact.mp same
  unfold deleteEndpoint
  rw [db]
  cases verifyApiKey headers cfg.auth.apiKeys with
  | error e => exact ⟨same,rfl⟩
  | ok u =>
    dsimp only
    cases statement inp (.ok (w'.db.pendingCount k)) with
    | error e => exact ⟨same,rfl⟩
    | ok pending =>
      dsimp only
      split
      · exact ⟨same,rfl⟩
      · cases w'.db.endpoint k with
        | none => exact ⟨same,rfl⟩
        | some row =>
          dsimp only
          refine ⟨effects_log ?_ _,rfl⟩
          exact effects_exact.mpr ⟨rfl,breakers,drawn,history⟩

theorem acceptEvent_refused (refused : (acceptEvent x inp w endpointId key body headers).2 = .error e) :
    effects.world (acceptEvent x inp w endpointId key body headers).1 = effects.world w := by
  have effect := acceptEvent_step x inp w endpointId key body headers
  rw [refused] at effect
  generalize (acceptEvent x inp w endpointId key body headers).1 = next at effect ⊢
  cases effect with
  | refused e cause => exact effects_notice rfl

theorem acceptEvent_alike (x : Externals) (inp : Input) (endpointId : Uuid) (key : String) (body : Bytes) (headers : String)
    (same : effects.world w = effects.world w') :
    effects.world (acceptEvent x inp w endpointId key body headers).1 =
        effects.world (acceptEvent x inp w' endpointId key body headers).1 ∧
      (acceptEvent x inp w endpointId key body headers).2 = (acceptEvent x inp w' endpointId key body headers).2 := by
  obtain ⟨db,breakers,drawn,history⟩ := effects_exact.mp same
  unfold acceptEvent
  rw [db,drawn]
  cases statement inp (.ok (w'.db.eventByKey endpointId key)) with
  | error e => exact ⟨effects_log same _,rfl⟩
  | ok existing =>
    cases existing with
    | some row => exact ⟨effects_log same _,rfl⟩
    | none =>
      dsimp only
      cases w'.db.insertEvent ⟨x.nowV7 w'.drawn,endpointId,key,body,headers,.received,inp.now⟩ with
      | error failure => exact ⟨effects_log same _,rfl⟩
      | ok stored =>
        dsimp only
        refine ⟨effects_log ?_ _,rfl⟩
        exact effects_exact.mpr ⟨rfl,breakers,rfl,history⟩

end

namespace System

-- The relay as its users may think of it: a request to ingest is one action. The
-- sections of an ingest are no actions of their own.
inductive Deed where
  | handleIngest (req : IngestRequest) (lookup check store : Input)
  | act (a : Action)

def deedStep (x : Externals) (cfg : AppConfig) (s : State) : Deed → Option State
  | .handleIngest req lookup check store =>
    if s.running = true then
      some {s with world:=(handleIngest x cfg lookup check store s.world req).1,clock:=store.now}
    else none
  | .act (.startIngest _ _) | .act (.ingest _ _) => none
  | .act a => step x cfg s a

def Granted (x : Externals) (cfg : AppConfig) (s : State) : Deed → Prop
  | .handleIngest req lookup check store => ∃ answer, (handleIngest x cfg lookup check store s.world req).2 = .ok answer
  | .act (.createEndpoint headers req inp) => ∃ row, (createEndpoint x cfg inp s.world headers req).2 = .ok row
  | .act (.deleteEndpoint headers id inp) => (deleteEndpoint cfg inp s.world headers id).2 = .ok ()
  | .act (.accept endpointId key rawBody headers inp) =>
    ∃ eventId, (acceptEvent x inp s.world endpointId key rawBody headers).2 = .ok eventId
  | .act (.startReplay headers _ _) => verifyApiKey headers cfg.auth.apiKeys = .ok ()
  | .act _ => True

def Action.asks : Action → Prop
  | .createEndpoint _ _ _ | .deleteEndpoint _ _ _ | .accept _ _ _ _ _ | .startIngest _ _ | .ingest _ _
  | .startReplay _ _ _ => True
  | _ => False

-- The action at which a deed takes effect. An ingest does at the insert of its event,
-- its endpoint being looked up there and its signature checked when it really was; a
-- replay has another place when refused ones are not counted.
def Tells (earlier : List Action) : Action → Deed → Prop
  | .ingest _ inp,.handleIngest req lookup check store => lookup = inp ∧ store = inp ∧
      (∃ inp0, .startIngest req inp0 ∈ earlier) ∧ ∃ r, .ingest r check ∈ earlier
  | .replay _ inp,.act (.replay _ inp') => inp' = inp
  | a,.act a' => a' = a
  | _,_ => False

structure Alike (s v : State) : Prop where
  running : v.running = s.running
  workers : v.workers = s.workers
  world : effects.world v.world = effects.world s.world
  replays : v.replays.filter (fun pc => !pc.answered) = s.replays.filter (fun pc => !pc.answered)

section
variable {x : Externals} {cfg : AppConfig} {s t v : State} {a : Action} {earlier later : List Action} {w next : World}
  {k : Uuid} {parent : EndpointRecord}

def Steady (x : Externals) (w : World) (k : Uuid) (row : EndpointRecord) : Prop :=
  Spent x w k ∧ ∀ now, w.db.endpoint k = some now → now = row

def Handling (x : Externals) (cfg : AppConfig) (earlier : List Action) (w : World) : IngestPc → Prop
  | .selectEndpoint req key => (∃ inp, .startIngest req inp ∈ earlier) ∧ admitIngest cfg req = .ok key
  | .verify req key endpoint => (∃ inp, .startIngest req inp ∈ earlier) ∧ admitIngest cfg req = .ok key ∧
      Steady x w req.endpointId endpoint
  | .accept req key provider => (∃ inp, .startIngest req inp ∈ earlier) ∧ admitIngest cfg req = .ok key ∧
      ∃ endpoint, Steady x w req.endpointId endpoint ∧ endpoint.provider = provider ∧
        ∃ r check, .ingest r check ∈ earlier ∧ verifyIngest x endpoint req check.now = .ok ()
  | .done _ => True

theorem Handling.mono {pc : IngestPc} (old : Handling x cfg earlier w pc) (more : ∀ a ∈ earlier, a ∈ later)
    (steady : ∀ k row, Steady x w k row → Steady x next k row) : Handling x cfg later next pc := by
  cases pc with
  | selectEndpoint req key =>
    obtain ⟨⟨inp,asked⟩,admitted⟩ := old
    exact ⟨⟨inp,more _ asked⟩,admitted⟩
  | verify req key endpoint =>
    obtain ⟨⟨inp,asked⟩,admitted,row⟩ := old
    exact ⟨⟨inp,more _ asked⟩,admitted,steady _ _ row⟩
  | accept req key provider =>
    obtain ⟨⟨inp,asked⟩,admitted,endpoint,row,named,r,check,checked,valid⟩ := old
    exact ⟨⟨inp,more _ asked⟩,admitted,endpoint,steady _ _ row,named,r,check,more _ checked,valid⟩
  | done result => trivial

theorem Step.steady (moved : Step x cfg s a t) (supplied : Supplied x s) (old : Steady x s.world k parent) :
    Steady x t.world k parent := by
  obtain ⟨spent,same⟩ := old
  refine ⟨spent.mono (moved.drawn supplied),?_⟩
  have change := moved.endpoint k
  generalize s.world.db.endpoint k = before at same change
  generalize t.world.db.endpoint k = after at change
  cases change with
  | same => exact same
  | created drawn => exact absurd drawn.symm (spent _ (Nat.le_refl _))
  | removed asked => intro now gone; cases gone

theorem ingestStep_store (moved : ingestStep x inp w pc = some (next,after)) : next = w ∨
    ∃ req key provider result, pc = .accept req key provider ∧
      acceptEvent x inp w req.endpointId key req.body (headersJson x req.headers) = (next,result) := by
  cases pc with
  | done result => cases moved
  | selectEndpoint req key =>
    simp only [ingestStep,Option.some.injEq] at moved
    split at moved <;> cases moved <;> exact .inl rfl
  | verify req key endpoint =>
    simp only [ingestStep,Option.some.injEq] at moved
    split at moved <;> cases moved <;> exact .inl rfl
  | accept req key provider =>
    cases Option.some.inj moved
    exact .inr ⟨req,key,provider,_,rfl,rfl⟩

theorem Alike.drained (alike : Alike s v) (none' : v.ingests = []) (quiet : drained s = true) : drained v = true := by
  simp only [System.drained,Bool.and_eq_true] at quiet ⊢
  have left : s.replays.filter (fun pc => !pc.answered) = [] := by
    apply List.filter_eq_nil_iff.mpr
    intro pc member
    simp [List.all_eq_true.mp quiet.1 pc member]
  have gone := alike.replays.trans left
  refine ⟨List.all_eq_true.mpr fun pc member => ?_,by simp [none']⟩
  simpa using List.filter_eq_nil_iff.mp gone pc member

theorem Alike.terminated (alike : Alike s v) : Alike (terminate cfg s) (terminate cfg v) := by
  obtain ⟨db,_,drawn,history⟩ := effects_exact.mp alike.world
  exact ⟨rfl,rfl,effects_exact.mpr ⟨db,rfl,drawn,history⟩,rfl⟩

theorem running_step (live : s.running = true) : step x cfg s a = serve x cfg s a := if_pos live

theorem Alike.stored (alike : Alike s v) {req : IngestRequest} (place : Handling x cfg earlier s.world (.accept req key provider))
    (accepted : acceptEvent x inp s.world req.endpointId key req.body (headersJson x req.headers) = (next,.ok eventId)) :
    ∃ check next', (∃ inp0, Action.startIngest req inp0 ∈ earlier) ∧ (∃ r, Action.ingest r check ∈ earlier) ∧
      handleIngest x cfg inp check inp v.world req = (next',.ok (provider,eventId)) ∧ effects.world next' = effects.world next := by
  obtain ⟨asked,admitted,endpoint,⟨_,steady⟩,rfl,r,check,checked,valid⟩ := place
  obtain ⟨db,_⟩ := effects_exact.mp alike.world
  have arrived : effects.world (v.world.log (.ingestReceived req)) = effects.world s.world :=
    (effects_notice rfl).trans alike.world
  obtain ⟨same,answer⟩ := acceptEvent_alike x inp req.endpointId key req.body (headersJson x req.headers) arrived
  rw [accepted] at same answer
  have effect := acceptEvent_step x inp s.world req.endpointId key req.body (headersJson x req.headers)
  rw [accepted] at effect
  cases effect with
  | stored live unused inserted =>
    obtain ⟨_,_,⟨parent,present⟩,_⟩ := Db.insertEvent_parts inserted
    have found : lookupEndpoint v.world inp req.endpointId = .ok endpoint := by
      have here : v.world.db.endpoint req.endpointId = some endpoint := by
        rw [db,present,steady parent present]
      simp only [lookupEndpoint,statement,live,here]
    refine ⟨check,_,asked,⟨r,checked⟩,?_,same⟩
    exact handleIngest_ok admitted found valid (Prod.ext rfl answer)

theorem Alike.step (alike : Alike s v) (none' : v.ingests = []) (way : ∀ pc ∈ s.ingests, Handling x cfg earlier s.world pc)
    (moved : step x cfg s a = some t) :
    (a.asks ∧ Alike t v) ∨ ∃ b w, Tells earlier a b ∧ Granted x cfg v b ∧ deedStep x cfg v b = some w ∧ Alike t w ∧ w.ingests = [] := by
  obtain ⟨running,workers,world,replays⟩ := alike
  by_cases live : s.running = true
  · have up : v.running = true := running.trans live
    rw [running_step live] at moved
    cases a with
    | createEndpoint headers req inp =>
      cases Option.some.inj moved
      obtain ⟨same,answer⟩ := createEndpoint_alike x cfg inp headers req world
      cases outcome : (createEndpoint x cfg inp s.world headers req).2 with
      | error e =>
        rw [createEndpoint_refused outcome]
        exact .inl ⟨trivial,running,workers,world,replays⟩
      | ok row =>
        exact .inr ⟨.act (.createEndpoint headers req inp),_,rfl,⟨row,answer.trans outcome⟩,running_step up,
          ⟨running,workers,same,replays⟩,none'⟩
    | deleteEndpoint headers k inp =>
      cases Option.some.inj moved
      obtain ⟨same,answer⟩ := deleteEndpoint_alike cfg inp headers k world
      cases outcome : (deleteEndpoint cfg inp s.world headers k).2 with
      | error e =>
        rw [deleteEndpoint_refused outcome]
        exact .inl ⟨trivial,running,workers,world,replays⟩
      | ok u =>
        exact .inr ⟨.act (.deleteEndpoint headers k inp),_,rfl,answer.trans outcome,running_step up,
          ⟨running,workers,same,replays⟩,none'⟩
    | accept endpointId key body headers inp =>
      cases Option.some.inj moved
      obtain ⟨same,answer⟩ := acceptEvent_alike x inp endpointId key body headers world
      cases outcome : (acceptEvent x inp s.world endpointId key body headers).2 with
      | error e =>
        exact .inl ⟨trivial,running,workers,world.trans (acceptEvent_refused outcome).symm,replays⟩
      | ok eventId =>
        exact .inr ⟨.act (.accept endpointId key body headers inp),_,rfl,⟨eventId,answer.trans outcome⟩,running_step up,
          ⟨running,workers,same,replays⟩,none'⟩
    | startIngest req inp =>
      cases Option.some.inj moved
      exact .inl ⟨trivial,running,workers,world.trans (effects_notice rfl).symm,replays⟩
    | ingest r inp =>
      obtain ⟨pc,present,moved⟩ := Option.bind_eq_some_iff.mp moved
      obtain ⟨⟨next,after⟩,inner,equal⟩ := Option.bind_eq_some_iff.mp moved
      cases equal
      have place := way pc (List.mem_of_getElem? present)
      rcases ingestStep_store inner with rfl | ⟨req,key,provider,result,rfl,inner⟩
      · exact .inl ⟨trivial,running,workers,world,replays⟩
      · cases result with
        | error e =>
          have same := acceptEvent_refused (congrArg Prod.snd inner)
          rw [inner] at same
          exact .inl ⟨trivial,running,workers,world.trans same.symm,replays⟩
        | ok eventId =>
          obtain ⟨check,next',asked,checked,whole,same⟩ := Alike.stored ⟨running,workers,world,replays⟩ place inner
          refine .inr ⟨.handleIngest req inp check inp,{v with world:=next',clock:=inp.now},⟨rfl,rfl,asked,checked⟩,
            ⟨_,congrArg Prod.snd whole⟩,?_,⟨running,workers,same,replays⟩,none'⟩
          simp only [deedStep,if_pos up,whole]
    | startReplay headers dlqId inp =>
      cases Option.some.inj moved
      cases allowed : verifyApiKey headers cfg.auth.apiKeys with
      | error e =>
        refine .inl ⟨trivial,running,workers,world,?_⟩
        have turnedAway : startReplay cfg headers dlqId = .done (.error e) := by rw [startReplay,allowed]
        rw [turnedAway,List.filter_append,replays]
        simp [ReplayPc.answered]
      | ok u =>
        refine .inr ⟨.act (.startReplay headers dlqId inp),_,rfl,allowed,running_step up,⟨running,workers,world,?_⟩,none'⟩
        rw [List.filter_append,List.filter_append,replays]
    | replay r inp =>
      obtain ⟨pc,present,moved⟩ := Option.bind_eq_some_iff.mp moved
      obtain ⟨⟨next,after⟩,inner,equal⟩ := Option.bind_eq_some_iff.mp moved
      cases equal
      have waiting : (!pc.answered) = true := by
        cases pc with
        | done result => cases inner
        | _ => rfl
      obtain ⟨q,seated,moves⟩ := Transition.seat replays present waiting
      obtain ⟨next',stepped,same⟩ := View.matched (f:=fun u => replayStep inp u pc) (fun u => effects.replayStep_seen inp u pc)
        world inner
      refine .inr ⟨.act (.replay q inp),{v with world:=next',replays:=v.replays.set q after,clock:=inp.now},rfl,trivial,?_,
        ⟨running,workers,same,moves after⟩,none'⟩
      refine (running_step up).trans ?_
      simp only [serve,seated,stepped,bind,Option.bind_some,pure]
    | worker i inp =>
      obtain ⟨⟨next,after⟩,inner,equal⟩ := Option.bind_eq_some_iff.mp moved
      cases equal
      obtain ⟨next',stepped,same⟩ :=
        View.matched (f:=fun u => workerStep x (loopConfig cfg) inp u (s.workers i))
          (fun u => effects.workerStep_seen x (loopConfig cfg) inp u (s.workers i)) world inner
      refine .inr ⟨.act (.worker i inp),{v with world:=next',workers:=Function.update v.workers i after,clock:=inp.now},
        rfl,trivial,?_,⟨running,congrArg (Function.update · i after) workers,same,replays⟩,none'⟩
      refine (running_step up).trans ?_
      simp only [serve,workers,stepped,bind,Option.bind_some,pure]
    | kill =>
      cases Option.some.inj moved
      exact .inr ⟨.act .kill,_,rfl,trivial,running_step up,Alike.terminated ⟨running,workers,world,replays⟩,rfl⟩
    | shutdown =>
      simp only [serve] at moved
      split at moved
      · rename_i quiet
        cases moved
        have quiet' := Alike.drained ⟨running,workers,world,replays⟩ none' quiet
        exact .inr ⟨.act .shutdown,terminate cfg v,rfl,trivial,(running_step up).trans (if_pos quiet'),
          Alike.terminated ⟨running,workers,world,replays⟩,rfl⟩
      · cases moved
    | restart => cases moved
  · have down : ¬v.running = true := by rw [running]; exact live
    unfold System.step at moved
    rw [if_neg live] at moved
    split at moved
    · cases moved
      exact .inr ⟨.act .restart,_,rfl,trivial,if_neg down,⟨rfl,workers,world,replays⟩,none'⟩
    · cases moved

end

end System
end AetherRelay
