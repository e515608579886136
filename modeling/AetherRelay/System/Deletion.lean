import AetherRelay.Api.DeleteSteps
import AetherRelay.System.Rows

namespace AetherRelay.System
variable {x : Externals} {cfg : AppConfig}

-- The relay with its delete_endpoint calls taken apart into their sections. The
-- calls are addressed by the order of their arrival and go with the process.
structure Open where
  relay : State
  deletes : List DeletePc

inductive OpenAction where
  | relay (a : Action)
  | startDelete (headers : HeaderMap) (id : Uuid)
  | delete (d : Nat) (inp : Input)

def openStep (x : Externals) (cfg : AppConfig) (s : Open) : OpenAction → Option Open
  | .relay a =>
    if a.deletes = true then none
    else (step x cfg s.relay a).map fun relay => ⟨relay,if a.ends = true then [] else s.deletes⟩
  | .startDelete headers id =>
    if s.relay.running = true then some {s with deletes:=s.deletes ++ [AetherRelay.startDelete cfg headers id]} else none
  | .delete d inp =>
    if s.relay.running = true then do
      let (next,pc) ← deleteStep inp s.relay.world (← s.deletes[d]?)
      return ⟨{s.relay with world:=next},s.deletes.set d pc⟩
    else none

def Open.start (b : State) : Open := ⟨b,[]⟩

inductive OpenStep (x : Externals) (cfg : AppConfig) (s : Open) : OpenAction → Open → Prop where
  | relay (moved : Step x cfg s.relay a relay) (other : a.deletes = false) :
      OpenStep x cfg s (.relay a) ⟨relay,if a.ends = true then [] else s.deletes⟩
  | started (up : s.relay.running = true) :
      OpenStep x cfg s (.startDelete headers endpointId)
        {s with deletes:=s.deletes ++ [AetherRelay.startDelete cfg headers endpointId]}
  | deleted (up : s.relay.running = true) (present : s.deletes[d]? = some pc)
      (effect : DeleteSection inp s.relay.world pc next after) :
      OpenStep x cfg s (.delete d inp) ⟨{s.relay with world:=next},s.deletes.set d after⟩

theorem openStep_sound {s t : Open} (moved : openStep x cfg s a = some t) : OpenStep x cfg s a t := by
  cases a with
  | relay a =>
    simp only [openStep] at moved
    split at moved
    · cases moved
    · rename_i other
      obtain ⟨relay,inner,rfl⟩ := Option.map_eq_some_iff.mp moved
      exact .relay (step_sound inner) (by simpa using other)
  | startDelete headers id =>
    simp only [openStep] at moved
    split at moved
    · rename_i up; cases moved; exact .started up
    · cases moved
  | delete d inp =>
    simp only [openStep] at moved
    split at moved
    · rename_i up
      obtain ⟨pc,present,moved⟩ := Option.bind_eq_some_iff.mp moved
      obtain ⟨⟨next,after⟩,inner,equal⟩ := Option.bind_eq_some_iff.mp moved
      cases equal
      exact .deleted up present (deleteStep_sound inner)
    · cases moved

structure Opened (x : Externals) (s : Open) : Prop where
  supplied : Supplied x s.relay
  drained : ∀ pc ∈ s.deletes, pc.Drained

theorem OpenStep.refines {s t : Open} (moved : OpenStep x cfg s a t) (drained : ∀ pc ∈ s.deletes, pc.Drained) :
    t.relay = s.relay ∨ ∃ action, Step x cfg s.relay action t.relay := by
  cases moved with
  | relay moved other => exact .inr ⟨_,moved⟩
  | started up => exact .inl rfl
  | deleted up present effect =>
    rcases effect.atomic (drained _ (List.mem_of_getElem? present)) with same | ⟨id,_,_,committed⟩
    · subst same
      exact .inl rfl
    · exact .inr ⟨.deleteEndpoint [] id ⟨none,s.relay.clock,0,.error "",0⟩,.deleted up committed⟩

theorem OpenStep.opened {s t : Open} (moved : OpenStep x cfg s a t) (old : Opened x s) : Opened x t := by
  obtain ⟨supplied,drained⟩ := old
  refine ⟨?_,?_⟩
  · rcases moved.refines drained with same | ⟨action,step⟩
    · rwa [same]
    · exact step.supplied supplied
  · cases moved with
    | relay moved other =>
      dsimp only
      split
      · exact fun pc member => by cases member
      · exact drained
    | started up =>
      intro pc member
      rcases List.mem_append.mp member with old | new
      · exact drained pc old
      · obtain rfl := List.mem_singleton.mp new
        unfold AetherRelay.startDelete
        split <;> trivial
    | deleted up present effect =>
      intro pc member
      rcases List.mem_or_eq_of_mem_set member with old | rfl
      · exact drained pc old
      · exact effect.drained

theorem Booted.opened (start : Booted x cfg b) : Opened x (.start b) :=
  ⟨start.supplied,fun pc member => by cases member⟩

-- What a delete must do: only delivered events go, and an event that is not
-- delivered makes the call fail without a trace.
structure Sparing (s : Open) (a : OpenAction) (t : Open) : Prop where
  removed : ∀ k row, s.relay.world.db.event k = some row → t.relay.world.db.event k = none → row.status = .delivered
  kept : ∀ d inp id snapshot row, a = .delete d inp → s.deletes[d]? = some (.deleteRow id snapshot) →
    row ∈ s.relay.world.db.incomingEvents.rows → row.endpointId = id → row.status ≠ .delivered →
      (∃ e, t.deletes[d]? = some (.done (.error e))) ∧ t.relay.world.db = s.relay.world.db

def NothingFailed (s : Open) : OpenAction → Prop
  | .delete d inp => ∀ id snapshot, s.deletes[d]? = some (.deleteRow id snapshot) → inp.fault = none →
      s.relay.world.db = snapshot → ∀ row ∈ s.relay.world.db.incomingEvents.rows, row.endpointId = id → row.status ≠ .failed
  | _ => True

theorem delivered_of_settled {st : EventStatus} (settled : st.pending = false) (other : st ≠ .failed) : st = .delivered := by
  cases st with
  | received => cases settled
  | processing => cases settled
  | delivered => rfl
  | failed => exact absurd rfl other

theorem OpenStep.sparing {s t : Open} (moved : OpenStep x cfg s a t) (old : Opened x s) (nothing : NothingFailed s a) :
    Sparing s a t := by
  cases moved with
  | @relay action relay moved other =>
    refine ⟨fun k row found gone => ?_,fun d inp id snapshot row acted => by cases acted⟩
    have change := moved.row old.supplied k
    rw [found,show relay.world.db.event k = none from gone] at change
    cases change with
    | removed cascade settled gone =>
      subst cascade
      cases other
  | started up =>
    refine ⟨fun k row found gone => ?_,fun d inp id snapshot row acted => by cases acted⟩
    cases found.symm.trans gone
  | @deleted d pc inp next after up present effect =>
    cases effect with
    | counted live drained =>
      refine ⟨fun k row found gone => (by cases found.symm.trans gone),fun d' inp' id snapshot row acted at' => ?_⟩
      cases acted
      cases present.symm.trans at'
    | refused e =>
      refine ⟨fun k row found gone => (by cases found.symm.trans gone),fun d' inp' id snapshot row acted at' _ _ _ => ?_⟩
      cases acted
      exact ⟨⟨e,List.getElem?_set_self (List.getElem?_eq_some_iff.mp present).1⟩,rfl⟩
    | @committed id parent live found =>
      have drained : s.relay.world.db.pendingCount id = 0 := old.drained _ (List.mem_of_getElem? present)
      have status : ∀ row ∈ s.relay.world.db.incomingEvents.rows, row.endpointId = id → row.status = .delivered := by
        intro row member child
        exact delivered_of_settled (Db.pendingCount_zero drained member child)
          (nothing id s.relay.world.db present live rfl row member child)
      refine ⟨fun k row event gone => ?_,fun d' inp' id' snapshot row acted at' member child other => ?_⟩
      · apply status row (Db.event_mem event).1
        simp only [World.log_db,Db.event_deleteEndpoint,event] at gone
        by_contra other
        rw [Option.filter_some_pos (by simpa using other)] at gone
        cases gone
      · cases acted
        cases present.symm.trans at'
        exact absurd (status row member child) other

theorem deleteStep_commits {inp : Input} {w : World} (live : inp.fault = none) (present : w.db.endpoint endpointId = some parent) :
    deleteStep inp w (.deleteRow endpointId w.db) =
      some (({w with db:=w.db.deleteEndpoint endpointId} : World).log (.endpointDeleted endpointId),.done (.ok ())) := by
  have allowed : statement inp (.ok ()) = .ok () := statement_ok.mpr ⟨live,rfl⟩
  simp only [deleteStep,if_true,allowed,present]

theorem Sparing.nothing {s t : Open} (moved : openStep x cfg s a = some t) (sparing : Sparing s a t) : NothingFailed s a := by
  cases a with
  | relay a => trivial
  | startDelete headers id => trivial
  | delete d inp =>
    intro id snapshot present live same row member child failed
    subst same
    obtain ⟨parent,found⟩ := Db.endpoint_of_event (Db.event_of_mem member)
    rw [child] at found
    have commits := deleteStep_commits live found
    simp only [openStep] at moved
    split at moved
    · rw [present,Option.bind_eq_bind,Option.bind_some,commits] at moved
      cases moved
      have gone : (s.relay.world.db.deleteEndpoint id).event row.id = none := by
        rw [Db.event_deleteEndpoint,Db.event_of_mem member,Option.filter_some_neg (by simpa using child)]
      have delivered := sparing.removed row.id row (Db.event_of_mem member) gone
      rw [failed] at delivered
      cases delivered
    · cases moved

-- Deleting an endpoint spares all undelivered work as long as no event of it is
-- FAILED when a delete goes through, and in no other run.
theorem deletes_spare_exact (start : Booted x cfg b)
    (reached : Transition.exec (openStep x cfg) (.start b) actions = some t) :
    Transition.EachStep (openStep x cfg) (fun s a => ∀ u, openStep x cfg s a = some u → Sparing s a u) (.start b) actions ↔
      Transition.EachStep (openStep x cfg) NothingFailed (.start b) actions := by
  constructor
  · intro sparing earlier a later s parts before
    obtain ⟨u,moved,_⟩ := Transition.exec_split (parts ▸ reached) before
    exact (sparing earlier a later s parts before u moved).nothing moved
  · intro nothing earlier a later s parts before u moved
    have path := Transition.Run.check (fun _ _ => True) before (.all fun _ _ => trivial)
    have opened := path.preserves (Opened x) (fun s a t old _ moved => (openStep_sound moved).opened old) start.opened
    exact (openStep_sound moved).sparing opened (nothing earlier a later s parts before)

instance (call : Option DeletePc) (P : Uuid → Db → Prop) [∀ id snapshot, Decidable (P id snapshot)] :
    Decidable (∀ id snapshot, call = some (.deleteRow id snapshot) → P id snapshot) :=
  match call with
  | none | some (.countPending _) | some (.done _) => .isTrue fun id snapshot present => by cases present
  | some (.deleteRow id snapshot) =>
    decidable_of_iff (P id snapshot) ⟨fun holds id' snapshot' present => by cases present; exact holds,
      fun all => all id snapshot rfl⟩

instance (s : Open) (a : OpenAction) : Decidable (NothingFailed s a) :=
  match a with
  | .relay _ | .startDelete _ _ => .isTrue trivial
  | .delete d inp => inferInstanceAs (Decidable (∀ id snapshot, s.deletes[d]? = some (.deleteRow id snapshot) →
      inp.fault = none → s.relay.world.db = snapshot →
        ∀ row ∈ s.relay.world.db.incomingEvents.rows, row.endpointId = id → row.status ≠ .failed))

def asRelay (actions : List Action) : List OpenAction := actions.map .relay

def deleteCall (id : Uuid) : List OpenAction :=
  [.startDelete [] id,.delete 0 ⟨none,0,0,.error "",0⟩,.delete 0 ⟨none,0,0,.error "",0⟩]

def deliverAndDelete : List OpenAction :=
  asRelay (registerAndAccept ++ Action.pass 0 11 (.response .ok)) ++ deleteCall "1"

theorem deletes_spare_exact_delivered :
    ∃ t, Transition.exec (openStep .tabletop .default) (.start (boot .default)) deliverAndDelete = some t ∧
      t.relay.world.db.event "11" = none ∧
      Transition.EachStep (openStep .tabletop .default)
        (fun s a => ∀ u, openStep .tabletop .default s a = some u → Sparing s a u) (.start (boot .default)) deliverAndDelete := by
  have ran : (Transition.exec (Transition.guard (openStep .tabletop .default) NothingFailed) (.start (boot .default))
      deliverAndDelete).map (fun t => t.relay.world.db.event "11") = some none := by decide +kernel
  obtain ⟨t,reached,gone⟩ := Option.map_eq_some_iff.mp ran
  have path := Transition.Run.guarded reached
  exact ⟨t,path.exec,gone,(deletes_spare_exact (boot_booted .tabletop .default) path.exec).mpr path.each⟩

-- The dead letter waits for its replay, and the delete takes the event with it.
theorem dead_letter_destroyed :
    ∃ s t, Transition.exec (openStep .tabletop budgetOfOne) (.start (boot budgetOfOne))
        (asRelay (registerAndAccept ++ Action.pass 0 13 (.error "timeout")) ++ (deleteCall "1").take 2) = some s ∧
      openStep .tabletop budgetOfOne s (.delete 0 ⟨none,0,0,.error "",0⟩) = some t ∧
      s.relay.world.db.status "11" = some .failed ∧ s.relay.world.db.deadLetterQueue.rows.map (·.eventId) = ["11"] ∧
      t.relay.world.db.deadLetterQueue.rows = [] ∧ ¬Sparing s (.delete 0 ⟨none,0,0,.error "",0⟩) t := by
  have ran : ((Transition.exec (openStep .tabletop budgetOfOne) (.start (boot budgetOfOne))
      (asRelay (registerAndAccept ++ Action.pass 0 13 (.error "timeout")) ++ (deleteCall "1").take 2)).bind
      fun s => (openStep .tabletop budgetOfOne s (.delete 0 ⟨none,0,0,.error "",0⟩)).map fun t => decide
        (s.relay.world.db.status "11" = some .failed ∧ s.relay.world.db.deadLetterQueue.rows.map (·.eventId) = ["11"] ∧
          t.relay.world.db.deadLetterQueue.rows = [] ∧ t.relay.world.db.event "11" = none)) = some true := by decide +kernel
  obtain ⟨s,reached,rest⟩ := Option.bind_eq_some_iff.mp ran
  obtain ⟨t,moved,here⟩ := Option.map_eq_some_iff.mp rest
  obtain ⟨failed,letter,none,gone⟩ := of_decide_eq_true here
  refine ⟨s,t,reached,moved,failed,letter,none,fun sparing => ?_⟩
  obtain ⟨row,found,status⟩ := Db.status_some.mp failed
  cases status.symm.trans (sparing.removed "11" row found gone)

end AetherRelay.System
