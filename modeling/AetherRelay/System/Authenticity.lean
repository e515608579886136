import AetherRelay.System.Rows

namespace AetherRelay
variable {x : Externals} {cfg : AppConfig} {history later : List Happening} {endpointId : Uuid}

-- A request for the endpoint brought this body and passed every gate, the
-- signature being checked against the row the endpoint was created with.
def Vouched (x : Externals) (cfg : AppConfig) (history : List Happening) (endpointId : Uuid) (rawBody : Bytes) : Prop :=
  ∃ endpoint req key, .endpointCreated endpoint ∈ history ∧ endpoint.id = endpointId ∧
    .ingestReceived req ∈ history ∧ req.endpointId = endpointId ∧ req.body = rawBody ∧
    Admitted cfg req key ∧ Verified x endpoint req

def Target (history : List Happening) (endpointId : Uuid) (url : String) : Prop :=
  ∃ endpoint, .endpointCreated endpoint ∈ history ∧ endpoint.id = endpointId ∧ endpoint.targetUrl = url

theorem Vouched.mono (old : Vouched x cfg history endpointId rawBody) (more : ∀ h ∈ history, h ∈ later) :
    Vouched x cfg later endpointId rawBody := by
  obtain ⟨endpoint,req,key,created,named,received,rest⟩ := old
  exact ⟨endpoint,req,key,more _ created,named,more _ received,rest⟩

theorem Target.mono (old : Target history endpointId url) (more : ∀ h ∈ history, h ∈ later) :
    Target later endpointId url := by
  obtain ⟨endpoint,created,rest⟩ := old
  exact ⟨endpoint,more _ created,rest⟩

def IngestPc.Backed (x : Externals) (cfg : AppConfig) (history : List Happening) : IngestPc → Prop
  | .selectEndpoint req key => .ingestReceived req ∈ history ∧ Admitted cfg req key
  | .verify req key endpoint => .ingestReceived req ∈ history ∧ Admitted cfg req key ∧
      .endpointCreated endpoint ∈ history ∧ endpoint.id = req.endpointId
  | .accept req key _ => .ingestReceived req ∈ history ∧ Admitted cfg req key ∧ ∃ endpoint,
      .endpointCreated endpoint ∈ history ∧ endpoint.id = req.endpointId ∧ Verified x endpoint req
  | .done _ => True

def DispatchPc.Backed (x : Externals) (cfg : AppConfig) (history : List Happening) : DispatchPc → Prop
  | .selectEndpoint _ endpointId rawBody => Vouched x cfg history endpointId rawBody
  | .countAttempts _ endpointId rawBody url => Vouched x cfg history endpointId rawBody ∧ Target history endpointId url
  | .checkBreaker d | .requeueDeferred d | .send d _ =>
    Vouched x cfg history d.endpointId d.rawBody ∧ Target history d.endpointId d.targetUrl
  | _ => True

def Worker.Backed (x : Externals) (cfg : AppConfig) (history : List Happening) (worker : Worker) : Prop :=
  ∀ claimed parent pc, worker.pc = .dispatching claimed parent pc → pc.Backed x cfg history

theorem IngestPc.Backed.mono {pc : IngestPc} (old : pc.Backed x cfg history) (more : ∀ h ∈ history, h ∈ later) :
    pc.Backed x cfg later := by
  cases pc with
  | selectEndpoint req key => exact ⟨more _ old.1,old.2⟩
  | verify req key endpoint => exact ⟨more _ old.1,old.2.1,more _ old.2.2.1,old.2.2.2⟩
  | accept req key provider =>
    obtain ⟨received,admitted,endpoint,created,rest⟩ := old
    exact ⟨more _ received,admitted,endpoint,more _ created,rest⟩
  | done result => trivial

theorem DispatchPc.Backed.mono {pc : DispatchPc} (old : pc.Backed x cfg history) (more : ∀ h ∈ history, h ∈ later) :
    pc.Backed x cfg later := by
  cases pc with
  | selectEndpoint e endpointId body => exact Vouched.mono old more
  | countAttempts e endpointId body url => exact ⟨old.1.mono more,old.2.mono more⟩
  | checkBreaker d => exact ⟨old.1.mono more,old.2.mono more⟩
  | requeueDeferred d => exact ⟨old.1.mono more,old.2.mono more⟩
  | send d mode => exact ⟨old.1.mono more,old.2.mono more⟩
  | _ => trivial

theorem IngestPc.Backed.vouched {req : IngestRequest} (old : (IngestPc.accept req key provider).Backed x cfg history) :
    Vouched x cfg history req.endpointId req.body := by
  obtain ⟨received,admitted,endpoint,created,named,verified⟩ := old
  exact ⟨endpoint,req,key,created,named,received,rfl,rfl,admitted,verified⟩

structure Stocked (x : Externals) (cfg : AppConfig) (db : Db) (history : List Happening) : Prop where
  endpoints : ∀ id row, db.endpoint id = some row → .endpointCreated row ∈ history ∧ row.id = id
  events : ∀ id row, db.event id = some row → Vouched x cfg history row.endpointId row.rawBody

def AllVouched (x : Externals) (cfg : AppConfig) (history : List Happening) : Prop :=
  ∀ newer e endpointId url body older, history = newer ++ .posted e endpointId url body :: older →
    Vouched x cfg older endpointId body ∧ Target older endpointId url

theorem AllVouched.cons (old : AllVouched x cfg history)
    (sound : ∀ e endpointId url body, h = .posted e endpointId url body →
      Vouched x cfg history endpointId body ∧ Target history endpointId url) : AllVouched x cfg (h :: history) := by
  intro newer e endpointId url body older parts
  cases newer with
  | nil =>
    obtain ⟨rfl,rfl⟩ := List.cons.inj parts
    exact sound e endpointId url body rfl
  | cons head rest =>
    obtain ⟨_,parts⟩ := List.cons.inj parts
    exact old rest e endpointId url body older parts

namespace System
variable {s t : State} {a : Action}

def Action.direct : Action → Bool
  | .accept _ _ _ _ _ => true
  | _ => false

structure Authentic (x : Externals) (cfg : AppConfig) (s : State) : Prop where
  supplied : Supplied x s
  stocked : Stocked x cfg s.world.db s.world.history
  unique : ∀ one two, .endpointCreated one ∈ s.world.history → .endpointCreated two ∈ s.world.history →
    one.id = two.id → one = two
  requests : ∀ pc ∈ s.ingests, pc.Backed x cfg s.world.history
  passes : ∀ i, (s.workers i).Backed x cfg s.world.history
  past : AllVouched x cfg s.world.history

theorem Step.stocked (moved : Step x cfg s a t) (handled : a.direct = false) (old : Authentic x cfg s) :
    Stocked x cfg t.world.db t.world.history := by
  have more : ∀ h ∈ s.world.history, h ∈ t.world.history := fun _ member => moved.history member
  constructor
  · intro id row found
    have change := moved.endpoint id
    rw [found] at change
    generalize before : s.world.db.endpoint id = b at change
    cases change with
    | same =>
      obtain ⟨created,named⟩ := old.stocked.endpoints id row before
      exact ⟨more _ created,named⟩
    | created drawn named logged => exact ⟨logged ▸ List.mem_cons_self,named⟩
  · intro id row found
    have change := moved.row old.supplied id
    rw [found] at change
    generalize before : s.world.db.event id = b at change
    cases change with
    | same => exact (old.stocked.events id row before).mono more
    | created drawn status origin logged =>
      cases origin with
      | call made => subst made; cases handled
      | request made at' parent body =>
        rw [parent,body]
        exact (old.requests _ (List.mem_of_getElem? at')).vouched.mono more
    | requeued stale at' => have was := old.stocked.events id _ before; exact was.mono more
    | claimed pass free head holds => have was := old.stocked.events id _ before; exact was.mono more
    | settled pass holds st final dropped => have was := old.stocked.events id _ before; exact was.mono more

theorem Step.unique (moved : Step x cfg s a t) (old : Authentic x cfg s)
    (first : .endpointCreated one ∈ t.world.history) (second : .endpointCreated two ∈ t.world.history)
    (same : one.id = two.id) : one = two := by
  obtain ⟨new,log,history⟩ := moved.log
  rw [history] at first second
  have spent : ∀ row : EndpointRecord, .endpointCreated row ∈ s.world.history → row.id ≠ x.nowV7 s.world.drawn :=
    fun row member equal => old.supplied.world.past _ member row.id (by simp [Happening.ids]) _ (Nat.le_refl _) equal.symm
  cases log with
  | silent => exact old.unique one two first second same
  | created asked drawn inserted =>
    rcases List.mem_cons.mp first with new | older <;> rcases List.mem_cons.mp second with new' | older'
    · cases new; cases new'; rfl
    · cases new; exact absurd (same.symm.trans drawn) (spent two older')
    · cases new'; exact absurd (same.trans drawn) (spent one older)
    · exact old.unique one two older older' same
  | _ =>
    rcases List.mem_cons.mp first with new | older
    · cases new
    · rcases List.mem_cons.mp second with new | older'
      · cases new
      · exact old.unique one two older older' same

theorem Step.past (moved : Step x cfg s a t) (old : Authentic x cfg s) : AllVouched x cfg t.world.history := by
  obtain ⟨new,log,history⟩ := moved.log
  rw [history]
  cases log with
  | silent => exact old.past
  | posted pass at' =>
    apply old.past.cons
    intro e endpointId url body same
    cases same
    exact old.passes _ _ _ _ at'
  | _ => exact old.past.cons fun e endpointId url body same => by cases same

end System
end AetherRelay
