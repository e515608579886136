import AetherRelay.Worker.Stage
import AetherRelay.System.Machine

namespace AetherRelay
variable {id : Uuid}

-- Every id the store, the history or a running pass mentions has been drawn, so
-- the next one the generator gives is not among them.
def Spent (x : Externals) (w : World) (id : Uuid) : Prop := ∀ n, w.drawn ≤ n → x.nowV7 n ≠ id

theorem Spent.mono {w next : World} (old : Spent x w id) (grow : w.drawn ≤ next.drawn) : Spent x next id :=
  fun n high => old n (Nat.le_trans grow high)

theorem Spent.fresh {x : Externals} {w next : World} (drew : next.drawn = w.drawn+1) :
    Spent x next (x.nowV7 w.drawn) := by
  intro n high same
  have equal := x.nowV7_never_repeats same
  omega

def Db.ids (db : Db) : List Uuid :=
  db.endpoints.rows.map (·.id) ++ db.incomingEvents.rows.map (·.id) ++
    db.deliveryAttempts.rows.map (·.id) ++ db.deadLetterQueue.rows.map (·.id)

def Happening.ids : Happening → List Uuid
  | .endpointCreated row => [row.id]
  | .endpointDeleted id => [id]
  | .accepted eventId endpointId _ _ _ => [eventId,endpointId]
  | .posted eventId endpointId _ _ => [eventId,endpointId]
  | .answered eventId _ => [eventId]
  | _ => []

def DispatchPc.ids : DispatchPc → List Uuid
  | .selectEvent id | .done id _ => [id]
  | .selectEndpoint id endpointId _ | .countAttempts id endpointId _ _ => [id,endpointId]
  | .checkBreaker d | .requeueDeferred d | .send d _ | .await d _ | .updateBreaker d _ _
  | .insertAttempt d _ | .updateStatus d _ _ | .insertDeadLetter d _ _ => [d.eventId,d.endpointId]

def WorkerPc.ids : WorkerPc → List Uuid
  | .idle | .finished _ => []
  | .dispatching eventId endpointId pc => eventId :: endpointId :: pc.ids
  | .requeueing eventId _ => [eventId]

theorem DispatchPc.eventId_mem (pc : DispatchPc) : pc.eventId ∈ pc.ids := by
  cases pc <;> simp [eventId,ids]

theorem Worker.engaged_mem {worker : Worker} (coherent : worker.Coherent) (engaged : worker.engaged = some e) :
    e ∈ worker.pc.ids := by
  obtain ⟨pc,p⟩ := worker
  cases pc with
  | idle => cases engaged
  | finished result => cases engaged
  | requeueing eventId error => cases engaged; simp [WorkerPc.ids]
  | dispatching eventId endpointId pc =>
    have event : pc.eventId = e := DispatchPc.engaged_eventId engaged
    have coherent : pc.eventId = eventId := coherent
    simp [WorkerPc.ids,← event,coherent]

namespace Db

theorem ids_endpoint {db : Db} (found : db.endpoint id = some row) : id ∈ db.ids := by
  obtain ⟨member,rfl⟩ := Table.lookup_exact.mp found
  simp only [ids,List.mem_append,List.mem_map]
  exact .inl (.inl (.inl ⟨row,member,rfl⟩))

theorem ids_event {db : Db} (found : db.event id = some row) : id ∈ db.ids := by
  obtain ⟨member,rfl⟩ := event_mem found
  simp only [ids,List.mem_append,List.mem_map]
  exact .inl (.inl (.inr ⟨row,member,rfl⟩))

@[simp] theorem ids_setStatus (db : Db) (k : Uuid) (st : EventStatus) : (db.setStatus k st).ids = db.ids := by
  have same : (db.setStatus k st).incomingEvents.rows.map (·.id) = db.incomingEvents.rows.map (·.id) := by
    simp only [setStatus,Table.modify,List.map_map]
    apply List.map_congr_left
    intro row _
    by_cases equal : row.id = k <;> simp [equal]
  unfold ids
  rw [same]
  rfl

theorem ids_insertEndpoint {db next : Db} (done : db.insertEndpoint row = .ok next) (member : id ∈ next.ids) :
    id ∈ db.ids ∨ id = row.id := by
  obtain ⟨_,rows,events,attempts,letters,_⟩ := insertEndpoint_parts done
  simp only [ids,rows,events,attempts,letters,List.map_append,List.map_cons,List.map_nil,List.mem_append,
    List.mem_singleton] at member ⊢
  tauto

theorem ids_insertEvent {db next : Db} (done : db.insertEvent row = .ok next) (member : id ∈ next.ids) :
    id ∈ db.ids ∨ id = row.id := by
  obtain ⟨_,_,_,rows,endpoints,attempts,letters,_⟩ := insertEvent_parts done
  simp only [ids,rows,endpoints,attempts,letters,List.map_append,List.map_cons,List.map_nil,List.mem_append,
    List.mem_singleton] at member ⊢
  tauto

theorem ids_insertAttempt {db next : Db} (done : db.insertAttempt row = .ok next) (member : id ∈ next.ids) :
    id ∈ db.ids ∨ id = row.id := by
  obtain ⟨_,rows,endpoints,events,letters⟩ := insertAttempt_parts done
  simp only [ids,rows,endpoints,events,letters,List.map_append,List.map_cons,List.map_nil,List.mem_append,
    List.mem_singleton] at member ⊢
  tauto

theorem ids_replaceLetter {db next : Db} (done : db.replaceLetter row = .ok next) (member : id ∈ next.ids) :
    id ∈ db.ids ∨ id = row.id := by
  obtain ⟨_,rows,endpoints,events,attempts⟩ := replaceLetter_parts done
  simp only [ids,endpoints,events,attempts,rows,List.map_append,List.map_cons,List.map_nil,List.mem_append,
    List.mem_singleton] at member ⊢
  rcases member with member | member | member
  · exact .inl (.inl member)
  · obtain ⟨d,kept,same⟩ := List.mem_map.mp member
    exact .inl (.inr (List.mem_map.mpr ⟨d,List.mem_of_mem_filter kept,same⟩))
  · exact .inr member

theorem map_filter_mem {f : ρ → α} {p : ρ → Bool} {rows : List ρ} (member : a ∈ (rows.filter p).map f) :
    a ∈ rows.map f := by
  obtain ⟨row,kept,same⟩ := List.mem_map.mp member
  exact List.mem_map.mpr ⟨row,List.mem_of_mem_filter kept,same⟩

theorem ids_deleteAttempts {db : Db} (member : id ∈ (db.deleteAttempts k).ids) : id ∈ db.ids := by
  simp only [ids,deleteAttempts,Table.retain,List.mem_append] at member ⊢
  rcases member with (member | member) | member
  · exact .inl (.inl member)
  · exact .inl (.inr (map_filter_mem member))
  · exact .inr member

theorem ids_deleteLetter {db : Db} (member : id ∈ (db.deleteLetter k).ids) : id ∈ db.ids := by
  simp only [ids,deleteLetter,Table.retain,List.mem_append] at member ⊢
  rcases member with member | member
  · exact .inl member
  · exact .inr (map_filter_mem member)

theorem ids_deleteEndpoint {db : Db} (member : id ∈ (db.deleteEndpoint k).ids) : id ∈ db.ids := by
  simp only [ids,deleteEndpoint,Table.retain,List.mem_append] at member ⊢
  rcases member with ((member | member) | member) | member
  · exact .inl (.inl (.inl (map_filter_mem member)))
  · exact .inl (.inl (.inr (map_filter_mem member)))
  · exact .inl (.inr (map_filter_mem member))
  · exact .inr (map_filter_mem member)

end Db

structure World.Supplied (x : Externals) (w : World) : Prop where
  store : ∀ id ∈ w.db.ids, Spent x w id
  past : ∀ h ∈ w.history, ∀ id ∈ h.ids, Spent x w id

namespace World.Supplied
variable {x : Externals} {w next : World}

theorem grow (old : w.Supplied x) (more : w.drawn ≤ next.drawn)
    (store : ∀ id ∈ next.db.ids, id ∈ w.db.ids ∨ Spent x next id)
    (past : ∀ h ∈ next.history, h ∈ w.history ∨ ∀ id ∈ h.ids, Spent x next id) : next.Supplied x := by
  constructor
  · intro id member
    rcases store id member with before | spent
    · exact (old.store id before).mono more
    · exact spent
  · intro h member id inside
    rcases past h member with before | spent
    · exact (old.past h before id inside).mono more
    · exact spent id inside

theorem log {h : Happening} (old : w.Supplied x) (spent : ∀ id ∈ h.ids, Spent x w id) : (w.log h).Supplied x :=
  old.grow (Nat.le_refl _) (fun _ member => .inl member) fun other member => by
    rcases List.mem_cons.mp member with rfl | before
    · exact .inr spent
    · exact .inl before

theorem keep (old : w.Supplied x) (drawn : next.drawn = w.drawn) (history : next.history = w.history)
    (store : ∀ id ∈ next.db.ids, id ∈ w.db.ids) : next.Supplied x :=
  old.grow (Nat.le_of_eq drawn.symm) (fun id member => .inl (store id member))
    fun _ member => .inl (history ▸ member)

theorem draw (old : w.Supplied x) (drew : next.drawn = w.drawn+1) (history : next.history = w.history)
    (store : ∀ id ∈ next.db.ids, id ∈ w.db.ids ∨ id = x.nowV7 w.drawn) : next.Supplied x := by
  refine old.grow (by omega) (fun id member => ?_) fun h member => .inl (history ▸ member)
  rcases store id member with before | rfl
  · exact .inl before
  · exact .inr (.fresh drew)

theorem fresh_attempt (supplied : w.Supplied x) :
    x.nowV7 w.drawn ∉ w.db.deliveryAttempts.rows.map (·.id) := by
  intro taken
  have old : x.nowV7 w.drawn ∈ w.db.ids := by
    simp only [Db.ids,List.mem_append]
    exact .inl (.inr taken)
  exact supplied.store _ old _ (Nat.le_refl _) rfl

end World.Supplied

section
variable {x : Externals} {w next : World}

theorem CreateStep.supplied (effect : CreateStep x inp w req next) (old : w.Supplied x) :
    next.Supplied x ∧ w.drawn ≤ next.drawn := by
  cases effect with
  | refused => exact ⟨old,Nat.le_refl _⟩
  | @stored db valid inserted =>
    have stored : World.Supplied x {w with db:=db,drawn:=w.drawn+1} :=
      old.draw rfl rfl fun id member => Db.ids_insertEndpoint inserted member
    refine ⟨stored.log fun id member => ?_,Nat.le_succ _⟩
    obtain rfl := List.mem_singleton.mp member
    exact .fresh rfl

theorem DeleteStep.supplied (effect : DeleteStep w endpointId next) (old : w.Supplied x) :
    next.Supplied x ∧ w.drawn ≤ next.drawn := by
  cases effect with
  | refused => exact ⟨old,Nat.le_refl _⟩
  | removed present drained =>
    have removed : World.Supplied x {w with db:=w.db.deleteEndpoint endpointId} :=
      old.keep rfl rfl fun id member => Db.ids_deleteEndpoint member
    refine ⟨removed.log fun id member => ?_,Nat.le_refl _⟩
    obtain rfl := List.mem_singleton.mp member
    exact old.store _ (Db.ids_endpoint present)

theorem AcceptStep.supplied (effect : AcceptStep x inp w endpointId key rawBody headers next result)
    (old : w.Supplied x) : next.Supplied x ∧ w.drawn ≤ next.drawn := by
  cases effect with
  | refused e cause => exact ⟨old.log fun id member => (by cases member),Nat.le_refl _⟩
  | @stored db live unused inserted =>
    have stored : World.Supplied x {w with db:=db,drawn:=w.drawn+1} :=
      old.draw rfl rfl fun id member => Db.ids_insertEvent inserted member
    refine ⟨stored.log fun id member => ?_,Nat.le_succ _⟩
    obtain ⟨_,_,⟨parent,present⟩,_⟩ := Db.insertEvent_parts inserted
    rcases List.mem_cons.mp member with rfl | member
    · exact .fresh rfl
    · obtain rfl := List.mem_singleton.mp member
      exact (old.store _ (Db.ids_endpoint present)).mono (Nat.le_succ _)

theorem ReplayStep.supplied (effect : ReplayStep inp w pc next after) (old : w.Supplied x) :
    next.Supplied x ∧ w.drawn ≤ next.drawn := by
  refine ⟨?_,by cases effect <;> exact Nat.le_refl _⟩
  cases effect with
  | found live row => exact old
  | requeued live => exact old.keep rfl rfl fun id member => by simpa using member
  | cleared live => exact old.keep rfl rfl fun id member => Db.ids_deleteAttempts member
  | removed live =>
    refine World.Supplied.log (old.keep rfl rfl fun id member => Db.ids_deleteLetter member) ?_
    exact fun id member => by cases member
  | failed e cause => exact old

theorem DispatchStep.supplied (effect : DispatchStep x cfg inp w pc next after) (old : w.Supplied x)
    (known : ∀ id ∈ pc.ids, Spent x w id) :
    next.Supplied x ∧ w.drawn ≤ next.drawn ∧ ∀ id ∈ after.ids, Spent x next id := by
  cases effect with
  | selectEvent live found =>
    refine ⟨old,Nat.le_refl _,fun id member => ?_⟩
    obtain ⟨parent,present⟩ := Db.endpoint_of_event found
    rcases List.mem_cons.mp member with rfl | member
    · exact known _ (List.mem_singleton_self _)
    · obtain rfl := List.mem_singleton.mp member
      exact old.store _ (Db.ids_endpoint present)
  | requeueDeferred live =>
    refine ⟨old.keep rfl rfl fun id member => by simpa using member,Nat.le_refl _,fun id member => ?_⟩
    exact known id (List.mem_cons.mpr (.inl (List.mem_singleton.mp member)))
  | send => exact ⟨old.log known,Nat.le_refl _,known⟩
  | await =>
    refine ⟨old.log fun id member => ?_,Nat.le_refl _,known⟩
    exact known id (List.mem_cons.mpr (.inl (List.mem_singleton.mp member)))
  | insertAttempt live stored =>
    refine ⟨old.draw rfl rfl fun id member => Db.ids_insertAttempt stored member,Nat.le_succ _,?_⟩
    exact fun id member => (known id member).mono (Nat.le_succ _)
  | exhausted live spent =>
    exact ⟨old.keep rfl rfl fun id member => by simpa using member,Nat.le_refl _,known⟩
  | settled live other =>
    refine ⟨old.keep rfl rfl fun id member => by simpa using member,Nat.le_refl _,fun id member => ?_⟩
    exact known id (List.mem_cons.mpr (.inl (List.mem_singleton.mp member)))
  | insertDeadLetter live stored =>
    refine ⟨old.draw rfl rfl fun id member => Db.ids_replaceLetter stored member,Nat.le_succ _,fun id member => ?_⟩
    exact (known id (List.mem_cons.mpr (.inl (List.mem_singleton.mp member)))).mono (Nat.le_succ _)
  | failed cause =>
    refine ⟨old,Nat.le_refl _,fun id member => ?_⟩
    obtain rfl := List.mem_singleton.mp member
    exact known _ pc.eventId_mem
  | withheld refused => exact ⟨old.keep rfl rfl fun id member => member,Nat.le_refl _,known⟩
  | admitted open' => exact ⟨old.keep rfl rfl fun id member => member,Nat.le_refl _,known⟩
  | updateBreaker =>
    unfold AetherRelay.updateBreaker
    exact ⟨old.keep rfl rfl fun id member => member,Nat.le_refl _,known⟩
  | selectEndpoint live found => exact ⟨old,Nat.le_refl _,known⟩
  | countAttempts live fits => exact ⟨old,Nat.le_refl _,known⟩

theorem WorkerStep.supplied (effect : WorkerStep x cfg inp w worker next after) (old : w.Supplied x)
    (known : ∀ id ∈ worker.pc.ids, Spent x w id) :
    next.Supplied x ∧ w.drawn ≤ next.drawn ∧ ∀ id ∈ after.pc.ids, Spent x next id := by
  have note : ∀ h : Happening, h.ids = [] → (w.log h).Supplied x :=
    fun h none => old.log fun id member => by rw [none] at member; cases member
  cases effect with
  | claim live head =>
    refine ⟨old.keep rfl rfl fun id member => by simpa using member,Nat.le_refl _,fun id member => ?_⟩
    have found := Db.nextReceived_event head
    obtain ⟨parent,present⟩ := Db.endpoint_of_event found
    simp only [WorkerPc.ids,DispatchPc.ids,List.mem_cons,List.not_mem_nil,or_false] at member
    rcases member with rfl | rfl | rfl
    · exact old.store _ (Db.ids_event found)
    · exact old.store _ (Db.ids_endpoint present)
    · exact old.store _ (Db.ids_event found)
  | dispatch moved =>
    obtain ⟨supplied,more,inner⟩ := moved.supplied old fun id member => known id (by simp [WorkerPc.ids,member])
    refine ⟨supplied,more,fun id member => ?_⟩
    simp only [WorkerPc.ids,List.mem_cons] at member
    rcases member with rfl | rfl | member
    · exact (known _ (by simp [WorkerPc.ids])).mono more
    · exact (known _ (by simp [WorkerPc.ids])).mono more
    · exact inner id member
  | returned result => exact ⟨note _ rfl,Nat.le_refl _,fun id member => by cases member⟩
  | errored e =>
    refine ⟨note _ rfl,Nat.le_refl _,fun id member => ?_⟩
    obtain rfl := List.mem_singleton.mp member
    exact known _ (by simp [WorkerPc.ids])
  | requeued live =>
    exact ⟨old.keep rfl rfl fun id member => by simpa using member,Nat.le_refl _,fun id member => by cases member⟩
  | polled => exact ⟨note _ rfl,Nat.le_refl _,fun id member => by cases member⟩
  | slept waits delay => exact ⟨note _ rfl,Nat.le_refl _,fun id member => by cases member⟩
  | claimFailed e => exact ⟨old,Nat.le_refl _,fun id member => by cases member⟩
  | empty live none => exact ⟨old,Nat.le_refl _,fun id member => by cases member⟩
  | stranded fault => exact ⟨old,Nat.le_refl _,fun id member => by cases member⟩
  | drained => exact ⟨old,Nat.le_refl _,fun id member => by cases member⟩

theorem IngestStep.supplied (effect : IngestStep x inp w pc next after) (old : w.Supplied x) :
    next.Supplied x ∧ w.drawn ≤ next.drawn := by
  cases effect with
  | accepted inner => exact inner.supplied old
  | _ => exact ⟨old,Nat.le_refl _⟩

end

namespace System
variable {x : Externals} {cfg : AppConfig} {s t : State} {a : Action}

structure Supplied (x : Externals) (s : State) : Prop where
  world : s.world.Supplied x
  known : ∀ i, ∀ id ∈ (s.workers i).pc.ids, Spent x s.world id
  coherent : ∀ i, (s.workers i).Coherent

theorem Supplied.spent_engaged (supplied : Supplied x s) (engaged : (s.workers i).engaged = some e) :
    Spent x s.world e :=
  supplied.known i e (Worker.engaged_mem (supplied.coherent i) engaged)

theorem Supplied.others (old : Supplied x s) (world : t.world.Supplied x) (more : s.world.drawn ≤ t.world.drawn)
    (same : t.workers = s.workers) : Supplied x t :=
  ⟨world,fun i id member => (old.known i id (by rw [← same]; exact member)).mono more,
    fun i => by rw [same]; exact old.coherent i⟩

theorem Step.supplied (moved : Step x cfg s a t) (old : Supplied x s) : Supplied x t := by
  cases moved with
  | created live effect => obtain ⟨world,more⟩ := effect.supplied old.world; exact old.others world more rfl
  | deleted live effect =>
    obtain ⟨world,more⟩ := effect.supplied old.world; exact old.others world more rfl
  | accepted live effect => obtain ⟨world,more⟩ := effect.supplied old.world; exact old.others world more rfl
  | ingestStarted live gates =>
    cases gates
    exact old.others (old.world.log fun id member => by cases member) (Nat.le_refl _) rfl
  | ingested live present effect =>
    obtain ⟨world,more⟩ := effect.supplied old.world; exact old.others world more rfl
  | replayStarted live => exact old.others old.world (Nat.le_refl _) rfl
  | replayed live present effect =>
    obtain ⟨world,more⟩ := effect.supplied old.world; exact old.others world more rfl
  | worked live effect =>
    rename_i next after i
    obtain ⟨world,more,inner⟩ := effect.supplied old.world (old.known i)
    refine ⟨world,?_,?_⟩
    · exact (Function.forall_update_iff s.workers fun _ worker => ∀ id ∈ worker.pc.ids, Spent x next id).mpr
        ⟨inner,fun j _ id member => (old.known j id member).mono more⟩
    · exact (Function.forall_update_iff s.workers fun _ worker => worker.Coherent).mpr
        ⟨effect.coherent (old.coherent i),fun j _ => old.coherent j⟩
  | killed live =>
    exact ⟨old.world.keep rfl rfl fun _ member => member,fun _ _ member => (by cases member),fun _ => trivial⟩
  | shutDown live quiet =>
    exact ⟨old.world.keep rfl rfl fun _ member => member,fun _ _ member => (by cases member),fun _ => trivial⟩
  | restarted down => exact old.others (old.world.keep rfl rfl fun id member => member) (Nat.le_refl _) rfl

theorem Step.drawn (moved : Step x cfg s a t) (supplied : Supplied x s) : s.world.drawn ≤ t.world.drawn := by
  cases moved with
  | created live effect => exact (effect.supplied supplied.world).2
  | deleted live effect => exact (effect.supplied supplied.world).2
  | accepted live effect => exact (effect.supplied supplied.world).2
  | ingestStarted live gates => cases gates; exact Nat.le_refl _
  | ingested live present effect => exact (effect.supplied supplied.world).2
  | replayed live present effect => exact (effect.supplied supplied.world).2
  | worked live effect => exact (effect.supplied supplied.world (supplied.known _)).2.1
  | _ => exact Nat.le_refl _

-- A process that has just started on some database file: nothing in memory yet,
-- and the ids in the file are not those that are still to be generated.
structure Booted (x : Externals) (cfg : AppConfig) (s : State) : Prop where
  running : s.running = true
  breakers : ∀ endpointId, s.world.breakers endpointId = none
  history : s.world.history = []
  workers : ∀ i, s.workers i = .start (loopConfig cfg)
  replays : s.replays = []
  ingests : s.ingests = []
  supply : ∀ id ∈ s.world.db.ids, Spent x s.world id

theorem Booted.supplied (start : Booted x cfg s) : Supplied x s :=
  ⟨⟨start.supply,fun h member => (by rw [start.history] at member; cases member)⟩,
    fun i id member => (by rw [start.workers] at member; cases member),
    fun i => (by rw [start.workers]; trivial)⟩

theorem Booted.supplied_after (start : Booted x cfg s) (path : Transition.Run (step x cfg) ok s actions t) :
    Supplied x t :=
  path.preserves (Supplied x) (fun _ _ _ old _ moved => (step_sound moved).supplied old) start.supplied

def boot (cfg : AppConfig) : State where
  world := ⟨.empty,fun _ => none,0,[]⟩
  running := true
  clock := 0
  workers := fun _ => .start (loopConfig cfg)
  replays := []
  ingests := []

theorem boot_booted (x : Externals) (cfg : AppConfig) : Booted x cfg (boot cfg) :=
  ⟨rfl,fun _ => rfl,rfl,fun _ => rfl,rfl,rfl,fun _ member => by cases member⟩

end System
end AetherRelay
