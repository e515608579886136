import AetherRelay.Lib.Turn
import AetherRelay.System.Recovery
import AetherRelay.System.Lifecycle
import AetherRelay.System.Record

namespace AetherRelay
variable {k : Uuid}

def Happening.acceptedFor (endpointId : Uuid) : Happening → Option Uuid
  | .accepted e parent _ _ _ => if parent = endpointId then some e else none
  | _ => none

def acceptanceOrder (endpointId : Uuid) (history : List Happening) : List Uuid :=
  history.reverse.filterMap (·.acceptedFor endpointId)

theorem acceptanceOrder_cons (endpointId : Uuid) (h : Happening) (history : List Happening) :
    acceptanceOrder endpointId (h :: history) =
      acceptanceOrder endpointId history ++ (h.acceptedFor endpointId).toList := by
  rw [acceptanceOrder,List.reverse_cons,List.filterMap_append,acceptanceOrder]
  cases seen : h.acceptedFor endpointId <;> simp [seen]

-- The rows as they were inserted. A status update leaves every ticket as it is.
def Db.tickets (db : Db) : List IncomingEventRecord := db.incomingEvents.rows.map (·.withStatus .received)

def Settled (db : Db) (k : Uuid) : Prop := db.status k = some .delivered ∨ db.status k = some .failed

def Touched (db : Db) (k : Uuid) : Prop := db.status k ≠ some .received ∨ db.attempts k ≠ []

theorem Settled.touched {db : Db} (settled : Settled db k) : Touched db k := by
  left
  intro waiting
  rcases settled with is | is <;> (rw [waiting] at is; cases is)

namespace Db
variable {db next : Db}

@[simp] theorem tickets_setStatus (db : Db) (id : Uuid) (st : EventStatus) :
    (db.setStatus id st).tickets = db.tickets := by
  simp only [tickets,setStatus,Table.modify,List.map_map]
  apply List.map_congr_left
  intro row _
  by_cases equal : row.id = id <;> simp [equal]

theorem tickets_congr (same : next.incomingEvents = db.incomingEvents) : next.tickets = db.tickets := by
  rw [tickets,same,tickets]

theorem ticket_of_mem (member : row ∈ db.tickets) : ∃ st, db.event row.id = some (row.withStatus st) := by
  obtain ⟨old,inside,rfl⟩ := List.mem_map.mp member
  exact ⟨old.status,event_of_mem inside⟩

theorem ticket_of_event (found : db.event k = some row) : row.withStatus .received ∈ db.tickets :=
  List.mem_map.mpr ⟨row,(event_mem found).1,rfl⟩

theorem nextReceived_first {head row : IncomingEventRecord} (next : db.nextReceived = some head)
    (member : row ∈ db.tickets) (ahead : queueOrder row < queueOrder head) : db.status row.id ≠ some .received := by
  intro waiting
  obtain ⟨st,found⟩ := ticket_of_mem member
  obtain ⟨other,same,is⟩ := status_some.mp waiting
  rw [found] at same
  cases same
  exact absurd (nextReceived_oldest next (event_mem found).1 is) (not_le.mpr ahead)

end Db

theorem WorkerStep.attempts {w next : World} (effect : WorkerStep x cfg inp w worker next after)
    (coherent : worker.Coherent) (others : worker.held ≠ some k) : next.db.attempts k = w.db.attempts k := by
  cases effect with
  | @dispatch _ pc _ _ claimed parent p moved =>
    cases moved with
    | insertAttempt live stored =>
      refine (Db.attempts_insertAttempt stored).trans (if_neg ?_)
      intro equal
      subst equal
      exact others rfl
    | insertDeadLetter live stored =>
      obtain ⟨_,_,_,_,attempts⟩ := Db.replaceLetter_parts stored
      exact Db.attempts_congr attempts
    | _ => rfl
  | _ => rfl

theorem Moved.tickets (moved : Moved fault db before next after) : next.tickets = db.tickets := by
  cases moved with
  | claim live head => exact Db.tickets_setStatus ..
  | stay same => exact Db.tickets_congr same
  | settle st final => exact Db.tickets_setStatus ..
  | park same => exact Db.tickets_congr same
  | parkFailed gone => rfl
  | stranded struck => rfl

namespace System
variable {x : Externals} {cfg : AppConfig} {s t : State} {a : Action} {row : IncomingEventRecord}

def OnTime (s : State) (a : Action) : Prop := ∀ inp, a.input = some inp → s.clock ≤ inp.now

def Action.serial (a : Action) : Bool := a.steady && a.single && !a.replays

theorem Action.serial_parts (serial : a.serial = true) :
    a.steady = true ∧ a.single = true ∧ a.replays = false := by
  simpa [Action.serial,and_assoc] using serial

inductive LineStep (x : Externals) (s : State) (a : Action) (t : State) : Prop where
  | same (tickets : t.world.db.tickets = s.world.db.tickets)
      (told : ∀ endpointId, acceptanceOrder endpointId t.world.history = acceptanceOrder endpointId s.world.history)
      (more : s.world.drawn ≤ t.world.drawn)
  | joined (row : IncomingEventRecord) (asked : a.input = some inp) (stamp : row.createdAt = inp.now)
      (drawn : row.id = x.nowV7 s.world.drawn) (waiting : row.status = .received)
      (tickets : t.world.db.tickets = s.world.db.tickets ++ [row])
      (told : ∀ endpointId, acceptanceOrder endpointId t.world.history =
        acceptanceOrder endpointId s.world.history ++ if row.endpointId = endpointId then [row.id] else [])
      (untouched : t.world.db.attempts row.id = [])
      (drew : t.world.drawn = s.world.drawn+1)

theorem LineStep.quiet {h : Happening} (tickets : t.world.db.tickets = s.world.db.tickets)
    (logged : t.world.history = h :: s.world.history) (silent : ∀ endpointId, h.acceptedFor endpointId = none)
    (more : s.world.drawn ≤ t.world.drawn) : LineStep x s a t := by
  refine .same tickets (fun endpointId => ?_) more
  rw [logged,acceptanceOrder_cons,silent]
  exact List.append_nil _

theorem AcceptStep.line {w next : World} (effect : AcceptStep x inp w endpointId key rawBody headers next result)
    (world : s.world = w) (ended : t.world = next) (asked : a.input = some inp) : LineStep x s a t := by
  subst world
  cases effect with
  | refused e cause =>
    refine .quiet (h := .rejected endpointId key e) ?_ ?_ (fun _ => rfl) ?_ <;> rw [ended]
    · rfl
    · rfl
    · exact Nat.le_refl _
  | @stored db live unused inserted =>
    obtain ⟨missing,_,_,rows,_,attempts,_,_⟩ := Db.insertEvent_parts inserted
    have fresh : db.attempts (x.nowV7 s.world.drawn) = [] :=
      (Db.attempts_congr attempts).trans (Db.attempts_none missing)
    refine .joined ⟨x.nowV7 s.world.drawn,endpointId,key,rawBody,headers,.received,inp.now⟩ asked rfl rfl rfl ?_ ?_ ?_ ?_
      <;> rw [ended]
    · change db.tickets = _
      rw [Db.tickets,rows,List.map_append]
      rfl
    · intro parent
      simp only [World.log_history,acceptanceOrder_cons,Happening.acceptedFor]
      split <;> rfl
    · exact fresh
    · rfl

theorem Step.line (moved : Step x cfg s a t) (supplied : Supplied x s) (kept : a.deletes = false) :
    LineStep x s a t := by
  cases moved with
  | created live effect =>
    cases effect with
    | refused => exact .same rfl (fun _ => rfl) (Nat.le_refl _)
    | stored valid inserted =>
      obtain ⟨_,_,events,_⟩ := Db.insertEndpoint_parts inserted
      exact .quiet (Db.tickets_congr events) rfl (fun _ => rfl) (Nat.le_succ _)
  | deleted live effect => cases kept
  | accepted live effect => exact AcceptStep.line effect rfl rfl rfl
  | ingestStarted live gates =>
    cases gates
    exact .quiet rfl rfl (fun _ => rfl) (Nat.le_refl _)
  | ingested live present effect =>
    cases effect with
    | accepted inner => exact AcceptStep.line inner rfl rfl rfl
    | _ => exact .same rfl (fun _ => rfl) (Nat.le_refl _)
  | replayStarted live => exact .same rfl (fun _ => rfl) (Nat.le_refl _)
  | replayed live present effect =>
    cases effect with
    | requeued live => exact .same (Db.tickets_setStatus ..) (fun _ => rfl) (Nat.le_refl _)
    | removed live => exact .quiet rfl rfl (fun _ => rfl) (Nat.le_refl _)
    | _ => exact .same rfl (fun _ => rfl) (Nat.le_refl _)
  | worked live effect =>
    rename_i inp next after i
    have tickets := (effect.moves (supplied.coherent i)).tickets
    have more := (effect.supplied supplied.world (supplied.known i)).2.1
    have moved : Step x cfg s (.worker i inp) _ := .worked live effect
    obtain ⟨new,log,history⟩ := moved.log
    cases log with
    | silent => exact .same tickets (fun endpointId => by rw [history]; rfl) more
    | accepted called unused inserted => exact absurd rfl (called _ _)
    | _ => exact .quiet tickets history (fun _ => rfl) more
  | killed live => exact .same rfl (fun _ => rfl) (Nat.le_refl _)
  | shutDown live quiet => exact .same rfl (fun _ => rfl) (Nat.le_refl _)
  | restarted down => exact .same rfl (fun _ => rfl) (Nat.le_refl _)

structure Lined (x : Externals) (cfg : AppConfig) (s : State) : Prop where
  orderly : Orderly x s
  owned : ProcessingOwned s
  solo : ∀ i, i ≠ 0 → s.workers i = .start (loopConfig cfg)
  sorted : s.world.db.tickets.Pairwise fun a b => Db.queueOrder a < Db.queueOrder b
  stamped : ∀ row ∈ s.world.db.tickets, row.createdAt ≤ s.clock ∧ ∃ n, n < s.world.drawn ∧ row.id = x.nowV7 n
  turn : Turn.InTurn (fun row => Settled s.world.db row.id) (fun row => Touched s.world.db row.id) s.world.db.tickets
  told : ∀ endpointId, acceptanceOrder endpointId s.world.history =
    (s.world.db.tickets.filter fun row => row.endpointId = endpointId).map (·.id)

theorem Step.clock (moved : Step x cfg s a t) (onTime : OnTime s a) :
    s.clock ≤ t.clock ∧ ∀ inp, a.input = some inp → t.clock = inp.now := by
  cases moved with
  | killed live => exact ⟨Nat.le_refl _,fun _ asked => by cases asked⟩
  | shutDown live quiet => exact ⟨Nat.le_refl _,fun _ asked => by cases asked⟩
  | restarted down => exact ⟨Nat.le_refl _,fun _ asked => by cases asked⟩
  | _ => exact ⟨onTime _ rfl,fun _ asked => by cases asked; rfl⟩

theorem Lined.free_owner (old : Lined x cfg s) (free : (s.workers 0).held = none) : ¬Processing s k := by
  intro now
  obtain ⟨_,i,holds⟩ := old.owned k now
  by_cases first : i = 0
  · subst first
    rw [free] at holds
    cases holds
  · rw [old.solo i first] at holds
    cases holds

theorem Step.settled (moved : Step x cfg s a t) (old : Lined x cfg s) (serial : a.serial = true)
    (settled : Settled s.world.db k) : Settled t.world.db k := by
  obtain ⟨steady,single,fresh⟩ := Action.serial_parts serial
  have change := moved.row old.orderly.supplied k
  have found : ∃ row, s.world.db.event k = some row := by
    rcases settled with is | is <;> (obtain ⟨row,there,_⟩ := Db.status_some.mp is; exact ⟨row,there⟩)
  obtain ⟨row,found⟩ := found
  have status : s.world.db.status k = some row.status := by rw [Db.status,found]; rfl
  unfold Settled at settled ⊢
  rw [status] at settled
  rw [Db.status]
  rw [found] at change
  generalize t.world.db.event k = after at change ⊢
  cases change with
  | same => exact settled
  | removed cascade gone away => subst cascade; cases (Action.steady_parts steady).2.1
  | requeued asked at' => subst asked; cases fresh
  | claimed pass free head holds =>
    rw [(Db.nextReceived_status head).2] at settled
    rcases settled with is | is <;> cases is
  | settled pass holds st final dropped =>
    have processing := old.orderly.owned.taken _ k holds
    rw [status] at processing
    rw [Option.some.inj processing] at settled
    rcases settled with is | is <;> cases is

theorem Step.begins (moved : Step x cfg s a t) (old : Lined x cfg s) (serial : a.serial = true)
    (member : row ∈ s.world.db.tickets) (idle : ¬Touched s.world.db row.id) (busy : Touched t.world.db row.id) :
    (s.workers 0).held = none ∧ ∃ head, s.world.db.nextReceived = some head ∧ Db.queueOrder head = Db.queueOrder row := by
  obtain ⟨steady,single,fresh⟩ := Action.serial_parts serial
  obtain ⟨live,kept,stays⟩ := Action.steady_parts steady
  have waiting : s.world.db.status row.id = some .received := by
    by_contra other
    exact idle (.inl other)
  have none : s.world.db.attempts row.id = [] := by
    by_contra other
    exact idle (.inr other)
  obtain ⟨st,found⟩ := Db.ticket_of_mem member
  have received : st = .received := by
    have status : s.world.db.status row.id = some st := by rw [Db.status,found]; rfl
    exact Option.some.inj (status.symm.trans waiting)
  subst received
  have unheld : ∀ i, (s.workers i).held ≠ some row.id := by
    intro i holds
    have processing := old.orderly.owned.taken i row.id holds
    rw [waiting] at processing
    cases processing
  have attempts : t.world.db.attempts row.id = [] := by
    rw [← none]
    by_cases pass : ∃ i inp, a = .worker i inp
    · obtain ⟨i,inp,rfl⟩ := pass
      cases moved with
      | worked up effect => exact effect.attempts (old.orderly.supplied.coherent i) (unheld i)
    · have spent : Spent x s.world row.id := old.orderly.supplied.world.store _ (Db.ids_event found)
      exact congrArg Record.attempts (moved.record_known old.orderly.supplied (by simpa using pass) fresh kept spent)
  have started : t.world.db.status row.id ≠ some .received := by
    rcases busy with status | more
    · exact status
    · exact absurd attempts more
  have change := moved.row old.orderly.supplied row.id
  rw [found] at change
  rw [Ne,Db.status] at started
  generalize t.world.db.event row.id = after at change started
  cases change with
  | same => exact absurd rfl started
  | removed cascade gone away => subst cascade; cases kept
  | requeued asked at' => exact absurd rfl started
  | @claimed i inp _ pass free head holds =>
    subst pass
    obtain rfl : i = 0 := of_decide_eq_true single
    refine ⟨?_,_,head,rfl⟩
    rw [Worker.held,free]
    rfl
  | settled pass holds st final dropped => exact absurd holds (unheld _)

theorem Step.solo (moved : Step x cfg s a t) (serial : a.serial = true)
    (old : ∀ i, i ≠ 0 → s.workers i = .start (loopConfig cfg)) : ∀ i, i ≠ 0 → t.workers i = .start (loopConfig cfg) := by
  obtain ⟨steady,single,-⟩ := Action.serial_parts serial
  cases moved with
  | worked up effect =>
    rename_i inp next after i
    obtain rfl : i = 0 := of_decide_eq_true single
    exact fun j other => (Function.update_of_ne other ..).trans (old j other)
  | killed up => cases (Action.steady_parts steady).2.2
  | shutDown up quiet => cases (Action.steady_parts steady).2.2
  | _ => exact old

theorem Step.served (moved : Step x cfg s a t) (old : Lined x cfg s) (serial : a.serial = true) :
    Turn.InTurn (fun row => Settled t.world.db row.id) (fun row => Touched t.world.db row.id) s.world.db.tickets := by
  refine old.turn.advance (fun row _ settled => moved.settled old serial settled) ?_
  apply old.sorted.imp_of_mem
  intro row later member inside ahead busy idle
  obtain ⟨free,head,next,same⟩ := moved.begins old serial inside idle busy
  have notWaiting := Db.nextReceived_first next member (same.symm ▸ ahead)
  have notInHand := old.free_owner (k := row.id) free
  obtain ⟨st,found⟩ := Db.ticket_of_mem member
  have status : s.world.db.status row.id = some st := by rw [Db.status,found]; rfl
  unfold Settled
  unfold Processing at notInHand
  rw [status] at notWaiting notInHand ⊢
  cases st with
  | received => exact absurd rfl notWaiting
  | processing => exact absurd rfl notInHand
  | delivered => exact .inl rfl
  | failed => exact .inr rfl

theorem Step.newcomer (moved : Step x cfg s a t) (old : Lined x cfg s) (drawn : row.id = x.nowV7 s.world.drawn)
    (member : row ∈ t.world.db.tickets) : t.world.db.status row.id = some .received := by
  have gone : s.world.db.event row.id = none := by
    cases found : s.world.db.event row.id with
    | none => rfl
    | some other =>
      exact absurd drawn.symm (old.orderly.supplied.world.store _ (Db.ids_event found) _ (Nat.le_refl _))
  obtain ⟨st,found⟩ := Db.ticket_of_mem member
  have change := moved.row old.orderly.supplied row.id
  rw [gone,found] at change
  rw [Db.status,found]
  cases change with
  | created drawn' status origin logged => exact congrArg some status

theorem Step.lined (moved : Step x cfg s a t) (growing : StrictMono x.nowV7) (serial : a.serial = true)
    (onTime : OnTime s a) (old : Lined x cfg s) : Lined x cfg t := by
  obtain ⟨steady,single,fresh⟩ := Action.serial_parts serial
  obtain ⟨live,kept,stays⟩ := Action.steady_parts steady
  have replayable : Replayable s a := by
    intro r inp dlqId e equal
    subst equal
    cases fresh
  have quiet : QuietEnd s a := by
    intro ends
    rw [stays] at ends
    cases ends
  obtain ⟨clock,now⟩ := moved.clock onTime
  have orderly := moved.orderly live kept stays replayable old.orderly
  have owned := moved.covered old.orderly.supplied live quiet old.owned
  have solo := moved.solo serial old.solo
  have served := moved.served old serial
  cases moved.line old.orderly.supplied kept with
  | same tickets told more =>
    refine ⟨orderly,owned,solo,?_,?_,?_,?_⟩
    · rw [tickets]
      exact old.sorted
    · rw [tickets]
      intro row member
      obtain ⟨stamp,n,before,named⟩ := old.stamped row member
      exact ⟨Nat.le_trans stamp clock,n,Nat.lt_of_lt_of_le before more,named⟩
    · rw [tickets]
      exact served
    · intro endpointId
      rw [told,tickets]
      exact old.told endpointId
  | joined last asked stamp drawn waiting tickets told untouched drew =>
    have arrival : t.clock = last.createdAt := (now _ asked).trans stamp.symm
    refine ⟨orderly,owned,solo,?_,?_,?_,?_⟩
    · rw [tickets]
      refine List.pairwise_append.mpr ⟨old.sorted,List.pairwise_singleton _ _,fun row member other only => ?_⟩
      obtain rfl := List.mem_singleton.mp only
      obtain ⟨early,n,before,named⟩ := old.stamped row member
      have ids : row.id < other.id := by
        rw [named,drawn]
        exact growing before
      apply Prod.Lex.toLex_lt_toLex.mpr
      rcases Nat.lt_or_eq_of_le (Nat.le_trans early (Nat.le_trans clock (Nat.le_of_eq arrival))) with less | equal
      · exact .inl less
      · exact .inr ⟨equal,ids⟩
    · rw [tickets]
      intro row member
      rcases List.mem_append.mp member with before | only
      · obtain ⟨early,n,less,named⟩ := old.stamped row before
        exact ⟨Nat.le_trans early clock,n,by omega,named⟩
      · obtain rfl := List.mem_singleton.mp only
        exact ⟨Nat.le_of_eq arrival.symm,_,by omega,drawn⟩
    · rw [tickets]
      apply served.join
      have status := moved.newcomer old drawn (by rw [tickets]; simp)
      rintro (begun | attempted)
      · exact begun status
      · exact attempted untouched
    · intro endpointId
      rw [told,tickets,List.filter_append,List.map_append,old.told endpointId]
      congr 1
      split <;> rename_i same <;> simp [same]

theorem boot_lined (x : Externals) (cfg : AppConfig) : Lined x cfg (boot cfg) := by
  have start := boot_booted x cfg
  refine ⟨⟨start.supplied,.nothing fun _ => rfl,fun _ _ engaged => (by cases engaged)⟩,fun _ now => (by cases now),
    fun _ _ => rfl,.nil,fun _ member => (by cases member),.nil,fun _ => rfl⟩

theorem Lined.endpoint (old : Lined x cfg s) (endpointId : Uuid) :
    Turn.InTurn (Settled s.world.db) (Touched s.world.db) (acceptanceOrder endpointId s.world.history) := by
  rw [old.told]
  have part := old.turn.sublist (List.filter_sublist (p := fun row => row.endpointId = endpointId))
  exact List.pairwise_map.mpr part

theorem Lined.accepted (old : Lined x cfg s) (found : s.world.db.event k = some row) :
    k ∈ acceptanceOrder row.endpointId s.world.history := by
  obtain rfl := (Db.event_mem found).2
  rw [old.told]
  exact List.mem_map.mpr ⟨row.withStatus .received,
    List.mem_filter.mpr ⟨Db.ticket_of_event found,by simp⟩,rfl⟩

-- With one worker and a clock and ids that do not go back, the events of an
-- endpoint are sent in the order in which they were accepted, retries included.
theorem posts_in_order (growing : StrictMono x.nowV7)
    (path : Transition.Run (step x cfg) (fun u a => a.serial = true ∧ OnTime u a) (boot cfg) actions s) :
    (∀ a t e endpointId url body, step x cfg s a = some t →
      t.world.history = .posted e endpointId url body :: s.world.history →
      ∃ row earlier later, s.world.db.event e = some row ∧
        acceptanceOrder row.endpointId s.world.history = earlier ++ e :: later ∧
        ∀ k ∈ earlier, Settled s.world.db k) ∧
    ∀ endpointId, ∃ settled waiting, acceptanceOrder endpointId s.world.history = settled ++ waiting ∧
      (∀ k ∈ settled, Settled s.world.db k) ∧ (∀ k ∈ waiting, ¬Settled s.world.db k) ∧
      ∀ k ∈ waiting.tail, s.world.db.attempts k = [] := by
  have lined : Lined x cfg s := path.preserves (Lined x cfg)
    (fun u a v old allowed moved => (step_sound moved).lined growing allowed.1 allowed.2 old) (boot_lined x cfg)
  constructor
  · intro a t e endpointId url body moved logged
    obtain ⟨i,inp,claimed,parent,d,mode,rfl,at',rfl,_⟩ := (step_sound moved).posted logged
    have processing := lined.orderly.processing at'
    obtain ⟨row,found,_⟩ := Db.status_some.mp processing
    obtain ⟨earlier,later,parts⟩ := List.append_of_mem (lined.accepted found)
    refine ⟨row,earlier,later,found,parts,?_⟩
    have turn := lined.endpoint row.endpointId
    rw [parts] at turn
    refine turn.ahead (.inl ?_)
    rw [processing]
    decide
  · intro endpointId
    obtain ⟨settled,waiting,parts,before,after,idle⟩ := (lined.endpoint endpointId).split fun _ => Settled.touched
    exact ⟨settled,waiting,parts,before,after,fun k member => by_contra fun some' => idle k member (.inr some')⟩

def twoInTurn : List Action :=
  registerAndAccept ++ [.accept "1" "key-2" [] "{}" ⟨none,0,0,.error "",0⟩] ++
    Action.pass 0 12 (.error "connection refused") ++ Action.pass 0 12 (.response .ok) ++
    Action.pass 0 5 (.error "")

theorem posts_in_order_two :
    ∃ s t, Transition.Run (step .tabletop .default) (fun u a => a.serial = true ∧ OnTime u a) (boot .default) twoInTurn s ∧
      step .tabletop .default s (.worker 0 ⟨none,0,0,.error "",0⟩) = some t ∧
      ∃ row earlier later, s.world.db.event "111" = some row ∧
        acceptanceOrder row.endpointId s.world.history = earlier ++ "111" :: later ∧
        ∀ k ∈ earlier, Settled s.world.db k := by
  have posted : (Transition.exec (step .tabletop .default) (boot .default) twoInTurn).map (fun s =>
      (step .tabletop .default s (.worker 0 ⟨none,0,0,.error "",0⟩)).map fun t =>
        decide (t.world.history = .posted "111" "1" "https://hooks.example.com/in" [] :: s.world.history)) =
      some (some true) := by decide +kernel
  obtain ⟨s,reached,next⟩ := Option.map_eq_some_iff.mp posted
  obtain ⟨t,moved,logged⟩ := Option.map_eq_some_iff.mp next
  have still := Transition.Run.check (fun _ a => a.serial = true ∧ a.input.map (·.now) = some 0) reached (.all (by decide))
  have onTime : ∀ u : State, ∀ a, u.clock = 0 → OnTime u a := by
    intro u a zero inp _
    rw [zero]
    exact Nat.zero_le _
  have path : Transition.Run (step .tabletop .default) (fun u a => a.serial = true ∧ OnTime u a) (boot .default)
      twoInTurn s := by
    refine still.strengthen (fun u => u.clock = 0) (fun u a v zero allowed moved => ?_) rfl
      fun u a zero allowed => ⟨allowed.1,onTime u a zero⟩
    obtain ⟨inp,asked,now⟩ := Option.map_eq_some_iff.mp allowed.2
    exact (((step_sound moved).clock (onTime u a zero)).2 inp asked).trans now
  have posted : t.world.history = .posted "111" "1" "https://hooks.example.com/in" [] :: s.world.history :=
    of_decide_eq_true logged
  have ordered := posts_in_order (x := .tabletop) Externals.tally_grows path
  have turn := ordered.1 _ _ _ _ _ _ moved posted
  exact ⟨s,t,path,moved,turn⟩

end System
end AetherRelay
