import AetherRelay.Lib.Journal
import AetherRelay.Api.Listing
import AetherRelay.System.Order

namespace AetherRelay

structure Parcel where
  eventId : Uuid
  idempotencyKey : String
  rawBody : Bytes
  headers : String
deriving DecidableEq

-- What the relay is for, seen from outside: every registered endpoint has a box,
-- and what was accepted for it lies there in the order of acceptance. Statuses,
-- attempts and letters say how far the relay has come with it and are no part of it.
structure Mailbox where
  owner : EndpointRecord
  parcels : List Parcel
deriving DecidableEq

def Mailbox.post (box : Mailbox) (parcel : Parcel) : Mailbox := {box with parcels:=box.parcels ++ [parcel]}

def Happening.book (k : Uuid) : Happening → Option Mailbox → Option Mailbox
  | .endpointCreated row,box => if row.id = k then some ⟨row,[]⟩ else box
  | .endpointDeleted id,box => if id = k then none else box
  | .accepted eventId endpointId key rawBody headers,box =>
    if endpointId = k then box.map (·.post ⟨eventId,key,rawBody,headers⟩) else box
  | _,box => box

def Happening.concerns (k : Uuid) : Happening → Bool
  | .endpointCreated row => row.id = k
  | .endpointDeleted id => id = k
  | .accepted _ endpointId _ _ _ => endpointId = k
  | _ => false

theorem Happening.book_other {h : Happening} (other : h.concerns k = false) (box : Option Mailbox) :
    h.book k box = box := by
  cases h with
  | endpointCreated row => exact if_neg (by simpa [concerns] using other)
  | endpointDeleted id => exact if_neg (by simpa [concerns] using other)
  | accepted eventId endpointId key rawBody headers => exact if_neg (by simpa [concerns] using other)
  | _ => rfl

def IncomingEventRecord.parcel (row : IncomingEventRecord) : Parcel :=
  ⟨row.id,row.idempotencyKey,row.rawBody,row.headers⟩

def Db.mailbox (db : Db) (k : Uuid) : Option Mailbox :=
  (db.endpoint k).map fun row => ⟨row,(db.tickets.filter (·.endpointId = k)).map (·.parcel)⟩

namespace Db
variable {db next : Db} {k : Uuid}

theorem mailbox_congr (endpoints : next.endpoints = db.endpoints) (tickets : next.tickets = db.tickets) (k : Uuid) :
    next.mailbox k = db.mailbox k := by
  rw [mailbox,endpoint,endpoints,tickets]
  rfl

theorem tickets_orphan (missing : db.endpoint k = none) : db.tickets.filter (·.endpointId = k) = [] := by
  apply List.filter_eq_nil_iff.mpr
  intro ticket member same
  obtain ⟨st,found⟩ := ticket_of_mem member
  obtain ⟨parent,present⟩ := endpoint_of_event found
  have same : ticket.endpointId = k := by simpa using same
  rw [IncomingEventRecord.withStatus_endpointId,same,missing] at present
  cases present

theorem mailbox_insertEndpoint {row : EndpointRecord} (done : db.insertEndpoint row = .ok next) (k : Uuid) :
    next.mailbox k = (Happening.endpointCreated row).book k (db.mailbox k) := by
  obtain ⟨missing,_,events,_,_,read⟩ := insertEndpoint_parts done
  rw [mailbox,read,tickets_congr events,Happening.book]
  split
  · rename_i same
    subst same
    rw [Option.map_some,tickets_orphan missing]
    rfl
  · rfl

theorem mailbox_insertEvent {row : IncomingEventRecord} (done : db.insertEvent row = .ok next)
    (waiting : row.status = .received) (k : Uuid) :
    next.mailbox k =
      (Happening.accepted row.id row.endpointId row.idempotencyKey row.rawBody row.headers).book k (db.mailbox k) := by
  obtain ⟨_,_,⟨parent,present⟩,rows,endpoints,_,_,_⟩ := insertEvent_parts done
  have tickets : next.tickets = db.tickets ++ [row] := by
    have fresh : row.withStatus .received = row := by rw [← waiting,IncomingEventRecord.withStatus_self]
    rw [Db.tickets,rows,List.map_append,List.map_singleton,fresh]
    rfl
  have same : next.endpoint k = db.endpoint k := by rw [endpoint,endpoints,endpoint]
  rw [mailbox,same,tickets,List.filter_append,List.map_append,Happening.book]
  split
  · rename_i mine
    subst mine
    rw [mailbox,present,Option.map_some,Option.map_some,Option.map_some]
    simp [Mailbox.post,IncomingEventRecord.parcel]
  · rename_i other
    rw [List.filter_cons_of_neg (by simpa using other),List.filter_nil,List.map_nil,List.append_nil]
    rfl

theorem mailbox_deleteEndpoint (db : Db) (endpointId k : Uuid) :
    (db.deleteEndpoint endpointId).mailbox k = (Happening.endpointDeleted endpointId).book k (db.mailbox k) := by
  rw [mailbox,endpoint_deleteEndpoint,Happening.book]
  by_cases same : k = endpointId
  · rw [if_pos same,if_pos same.symm]
    rfl
  · rw [if_neg same,if_neg (Ne.symm same),mailbox]
    congr 1
    funext row
    congr 2
    change ((db.incomingEvents.rows.filter _).map _).filter _ = _
    rw [tickets,List.filter_map,List.filter_map,List.filter_filter]
    congr 1
    apply List.filter_congr
    intro event _
    by_cases mine : event.endpointId = k <;> simp [mine,same]

end Db

def Booked (k : Uuid) : World → World → Prop := Journal.Told World.history (·.db.mailbox k) (Happening.book k)

section
variable {x : Externals} {inp : Input} {w next : World} {k : Uuid}

theorem CreateStep.booked (effect : CreateStep x inp w req next) : Booked k w next := by
  cases effect with
  | refused => exact .silent rfl rfl
  | stored valid inserted => exact .one _ rfl (Db.mailbox_insertEndpoint inserted k)

theorem DeleteStep.booked (effect : DeleteStep w endpointId next) : Booked k w next := by
  cases effect with
  | refused => exact .silent rfl rfl
  | removed present drained => exact .one _ rfl (Db.mailbox_deleteEndpoint w.db endpointId k)

theorem AcceptStep.booked (effect : AcceptStep x inp w endpointId key rawBody headers next result) :
    Booked k w next := by
  cases effect with
  | refused e cause => exact .one _ rfl rfl
  | stored live unused inserted => exact .one _ rfl (Db.mailbox_insertEvent inserted rfl k)

theorem IngestStep.booked (effect : IngestStep x inp w pc next after) : Booked k w next := by
  cases effect with
  | accepted inner => exact inner.booked
  | found row => exact .silent rfl rfl
  | verified valid => exact .silent rfl rfl
  | refused e => exact .silent rfl rfl

theorem ReplayStep.booked (effect : ReplayStep inp w pc next after) : Booked k w next := by
  cases effect with
  | @requeued _ _ eventId live =>
    have same : (w.db.setStatus eventId .received).mailbox k = w.db.mailbox k :=
      Db.mailbox_congr (Db.endpoints_setStatus ..) (Db.tickets_setStatus ..) k
    exact .silent rfl same
  | cleared live => exact .silent rfl (Db.mailbox_congr rfl rfl k)
  | removed live => exact .one _ rfl (Db.mailbox_congr rfl rfl k)
  | found live row => exact .silent rfl rfl
  | failed e cause => exact .silent rfl rfl

end

namespace System
variable {x : Externals} {cfg : AppConfig} {s t : State} {a : Action} {k : Uuid}

theorem StepLog.unbooked {new : List Happening} (log : StepLog x cfg s (.worker i inp) t new)
    (box : Option Mailbox) : Journal.rebuild (Happening.book k) box new = box := by
  cases log with
  | created asked => cases asked
  | deleted asked => cases asked
  | accepted called => exact absurd rfl (called i inp)
  | _ => rfl

theorem Step.booked (moved : Step x cfg s a t) (supplied : Supplied x s) : Booked k s.world t.world := by
  cases moved with
  | created live effect => exact effect.booked
  | deleted live effect => exact effect.booked
  | accepted live effect => exact effect.booked
  | ingestStarted live gates =>
    cases gates
    exact .one _ rfl rfl
  | ingested live present effect => exact effect.booked
  | replayStarted live => exact .silent rfl rfl
  | replayed live present effect => exact effect.booked
  | worked live effect =>
    rename_i inp next after i
    have tickets := (effect.moves (supplied.coherent i)).tickets
    obtain ⟨new,log,history⟩ := (Step.worked live effect : Step x cfg s (.worker i inp) _).log
    refine ⟨new,history,?_⟩
    rw [log.unbooked]
    exact Db.mailbox_congr (WorkerStep.endpoints effect) tickets k
  | killed live => exact .silent rfl rfl
  | shutDown live quiet => exact .silent rfl rfl
  | restarted down => exact .silent rfl rfl

theorem Booted.told (start : Booted x cfg s) (path : Transition.Run (step x cfg) (fun _ _ => True) s actions t)
    (k : Uuid) : t.world.db.mailbox k = Journal.rebuild (Happening.book k) (s.world.db.mailbox k) t.world.history := by
  have told : Journal.Told (fun u => u.world.history) (fun u => u.world.db.mailbox k) (Happening.book k) s t :=
    .run (Supplied x) (fun _ _ _ supplied _ moved => (step_sound moved).booked supplied)
      (fun _ _ _ supplied _ moved => (step_sound moved).supplied supplied) path start.supplied
  exact told.whole start.history

-- The tables hold of every endpoint what was told of that endpoint, whatever fails
-- and whenever the process is killed: nothing accepted is lost or altered by
-- anything but the deletion of its endpoint, and nothing else gets in.
theorem mailboxes_rebuilt (start : Booted x cfg s)
    (path : Transition.Run (step x cfg) (fun _ _ => True) s actions t) (k : Uuid) :
    t.world.db.mailbox k =
      Journal.rebuild (Happening.book k) (s.world.db.mailbox k) (t.world.history.filter (·.concerns k)) := by
  have part : Journal.rebuild (Happening.book k) (s.world.db.mailbox k) (t.world.history.filter (·.concerns k)) =
      Journal.rebuild (Happening.book k) (s.world.db.mailbox k) t.world.history :=
    Journal.rebuild_filter _ (fun _ box other => Happening.book_other other box) _
  exact (start.told path k).trans part.symm

theorem mailboxes_rebuilt_killed :
    ∃ t, Transition.Run (step .tabletop .default) (fun _ _ => True) (boot .default)
        (registerAndAccept ++ Action.pass 0 6 (.error "") ++ [.kill,.restart]) t ∧
      t.world.db.mailbox "1" =
        some ⟨⟨"1","orders","generic","secret","https://hooks.example.com/in",0⟩,[⟨"11","key-1",[],"{}"⟩]⟩ := by
  have ran : (Transition.exec (step .tabletop .default) (boot .default)
      (registerAndAccept ++ Action.pass 0 6 (.error "") ++ [.kill,.restart])).map
      (fun t => Journal.rebuild (Happening.book "1") none (t.world.history.filter (·.concerns "1"))) =
      some (some ⟨⟨"1","orders","generic","secret","https://hooks.example.com/in",0⟩,[⟨"11","key-1",[],"{}"⟩]⟩) := by
    decide +kernel
  obtain ⟨t,reached,box⟩ := Option.map_eq_some_iff.mp ran
  have path := Transition.Run.check (fun _ _ => True) reached (.all fun _ _ => trivial)
  exact ⟨t,path,(mailboxes_rebuilt (boot_booted _ _) path "1").trans box⟩

theorem owner_of_mailbox {db : Db} (k : Uuid) : (db.mailbox k).map (·.owner) = db.endpoint k := by
  rw [Db.mailbox,Option.map_map]
  exact congrFun Option.map_id _

-- What list_endpoints shows, at any moment of any run, is the endpoints that were
-- created and not deleted since, each of them once and the newest first.
theorem list_endpoints_registered (inp : Input) (headers : HeaderMap) (start : Booted x cfg s)
    (path : Transition.Run (step x cfg) (fun _ _ => True) s actions t)
    (allowed : KeyAllowed headers cfg.auth.apiKeys) (live : inp.fault = none) :
    ∃ page, listEndpoints cfg inp t.world headers = .ok page ∧
      page.Pairwise (fun a b => b.createdAt ≤ a.createdAt) ∧ (page.map (·.id)).Nodup ∧
      ∀ shown, shown ∈ page ↔ ∃ box, box.owner.response = shown ∧
        Journal.rebuild (Happening.book shown.id) (s.world.db.mailbox shown.id) t.world.history = some box := by
  have perm := newestFirst_perm EndpointRecord.createdAt t.world.db.endpoints.rows
  refine ⟨_,listEndpoints_ok allowed live t.world,?_,?_,?_⟩
  · exact List.pairwise_map.mpr (newestFirst_sorted ..)
  · rw [List.map_map]
    exact (perm.map _).nodup_iff.mpr t.world.db.endpoints.distinct
  · intro shown
    rw [List.mem_map,← start.told path]
    constructor
    · rintro ⟨row,member,rfl⟩
      have found : t.world.db.endpoint row.id = some row := Table.lookup_of_mem (perm.mem_iff.mp member)
      rw [← owner_of_mailbox] at found
      obtain ⟨box,here,owner⟩ := Option.map_eq_some_iff.mp found
      exact ⟨box,congrArg _ owner,here⟩
    · rintro ⟨box,rfl,here⟩
      have found : t.world.db.endpoint box.owner.response.id = some box.owner := by
        rw [← owner_of_mailbox,here]
        rfl
      exact ⟨box.owner,perm.mem_iff.mpr (Table.lookup_mem found),rfl⟩

theorem list_endpoints_registered_deleted :
    ∃ t u, Transition.Run (step .tabletop .default) (fun _ _ => True) (boot .default) (registerAndAccept.take 1) t ∧
      Transition.Run (step .tabletop .default) (fun _ _ => True) (boot .default)
        (registerAndAccept.take 1 ++ [.deleteEndpoint [] "1" ⟨none,0,0,.error "",0⟩]) u ∧
      (∃ page, listEndpoints .default ⟨none,0,0,.error "",0⟩ t.world [] = .ok page ∧
        ⟨"1","orders","generic","https://hooks.example.com/in",0⟩ ∈ page) ∧
      ∃ page, listEndpoints .default ⟨none,0,0,.error "",0⟩ u.world [] = .ok page ∧
        ⟨"1","orders","generic","https://hooks.example.com/in",0⟩ ∉ page := by
  have made : (Transition.exec (step .tabletop .default) (boot .default) (registerAndAccept.take 1)).map
      (fun t => Journal.rebuild (Happening.book "1") none t.world.history) =
      some (some ⟨⟨"1","orders","generic","secret","https://hooks.example.com/in",0⟩,[]⟩) := by decide +kernel
  have gone : (Transition.exec (step .tabletop .default) (boot .default)
      (registerAndAccept.take 1 ++ [.deleteEndpoint [] "1" ⟨none,0,0,.error "",0⟩])).map
      (fun t => Journal.rebuild (Happening.book "1") none t.world.history) = some none := by decide +kernel
  obtain ⟨t,reached,box⟩ := Option.map_eq_some_iff.mp made
  obtain ⟨u,ended,none'⟩ := Option.map_eq_some_iff.mp gone
  have first := Transition.Run.check (fun _ _ => True) reached (.all fun _ _ => trivial)
  have second := Transition.Run.check (fun _ _ => True) ended (.all fun _ _ => trivial)
  obtain ⟨page,answer,_,_,shows⟩ :=
    list_endpoints_registered ⟨none,0,0,.error "",0⟩ [] (boot_booted _ _) first (.inl rfl) rfl
  obtain ⟨later,answer',_,_,shows'⟩ :=
    list_endpoints_registered ⟨none,0,0,.error "",0⟩ [] (boot_booted _ _) second (.inl rfl) rfl
  refine ⟨t,u,first,second,⟨page,answer,(shows _).mpr ⟨_,rfl,box⟩⟩,later,answer',fun listed => ?_⟩
  obtain ⟨other,_,here⟩ := (shows' _).mp listed
  cases none'.symm.trans here

end System
end AetherRelay
