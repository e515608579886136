import AetherRelay.Lib.Ownership
import AetherRelay.System.Rows

namespace AetherRelay

-- Without a failing statement, and as long as the row being parked is there, a
-- pass takes only what is not PROCESSING and leaves PROCESSING what it does not hold.
theorem Moved.takes (moved : Moved none db before next after)
    (present : ∀ e, before = .parking e → db.event e ≠ none)
    (was : ∀ e, before.held = some e → db.status e = some .processing) :
    (∀ e, after.held = some e → next.status e = some .processing ∧
      (before.held = some e ∨ db.status e ≠ some .processing)) ∧
    ∀ e, db.status e = some .processing → before.held ≠ some e → next.status e = some .processing := by
  cases moved with
  | claim live head =>
    rename_i row
    have waiting := Db.nextReceived_waiting head
    constructor
    · intro e has
      rw [Stage.held_some,Stage.holding.injEq] at has
      subst has
      rw [Db.status_setStatus,if_pos rfl,waiting]
      exact ⟨rfl,.inr (by decide)⟩
    · intro e now _
      rw [Db.status_setStatus]
      split
      · rw [now]; rfl
      · exact now
  | stay same =>
    exact ⟨fun e has => ⟨(Db.status_congr same).trans (was e has),.inl has⟩,fun e now _ => (Db.status_congr same).trans now⟩
  | settle st final =>
    constructor
    · intro e has
      split at has <;> cases has
    · intro e now other
      rw [Db.status_setStatus,if_neg (by rintro rfl; exact other rfl)]
      exact now
  | park same => exact ⟨fun e has => (by cases has),fun e now _ => (Db.status_congr same).trans now⟩
  | parkFailed gone => exact absurd (gone rfl) (present _ rfl)
  | stranded struck => exact absurd rfl struck

namespace System
variable {x : Externals} {cfg : AppConfig} {s t : State} {a : Action}

inductive Legal (s : State) (a : Action) (t : State) (e : Uuid) : EventStatus → EventStatus → Prop where
  | claim (pass : a = .worker i inp) (free : (s.workers i).held = none) (mine : (t.workers i).held = some e) :
      Legal s a t e .received .processing
  | settle (pass : a = .worker i inp) (mine : (s.workers i).held = some e) (final : st ≠ .processing) :
      Legal s a t e .processing st
  | replay (asked : a = .replay r inp) : Legal s a t e .failed .received

def Lawful (x : Externals) (cfg : AppConfig) (s : State) (a : Action) : Prop :=
  ∀ t, step x cfg s a = some t →
    (∀ e old new, s.world.db.status e = some old → t.world.db.status e = some new → old ≠ new →
      Legal s a t e old new) ∧
    ∀ e endpointId url body, t.world.history = .posted e endpointId url body :: s.world.history →
      s.world.db.status e = some .processing

-- The row a replay is about to requeue was neither claimed nor delivered since
-- the replay read its letter.
def Replayable (s : State) (a : Action) : Prop :=
  ∀ r inp dlqId e, a = .replay r inp → s.replays[r]? = some (.updateStatus dlqId e) →
    s.world.db.status e ≠ some .processing ∧ s.world.db.status e ≠ some .delivered

structure Orderly (x : Externals) (s : State) : Prop where
  supplied : Supplied x s
  owned : Ownership.Exclusive Worker.held s.workers (fun e => s.world.db.status e = some .processing)
  present : ∀ i e, (s.workers i).engaged = some e → s.world.db.event e ≠ none

theorem Orderly.processing (orderly : Orderly x s) (at' : (s.workers i).pc = .dispatching claimed parent (.send d mode)) :
    s.world.db.status d.eventId = some .processing :=
  orderly.owned.taken i d.eventId (by simp [Worker.held,at',WorkerPc.stage,DispatchPc.stage,DispatchPc.eventId])

theorem Step.lawful (moved : Step x cfg s a t) (orderly : Orderly x s) (replayable : Replayable s a) :
    (∀ e old new, s.world.db.status e = some old → t.world.db.status e = some new → old ≠ new →
      Legal s a t e old new) ∧
    ∀ e endpointId url body, t.world.history = .posted e endpointId url body :: s.world.history →
      s.world.db.status e = some .processing := by
  constructor
  · intro e old new was now differ
    have row := moved.row orderly.supplied e
    obtain ⟨before,found,rfl⟩ := Db.status_some.mp was
    obtain ⟨after,present,rfl⟩ := Db.status_some.mp now
    rw [found,present] at row
    cases row with
    | same => exact absurd rfl differ
    | requeued stale at' =>
      obtain ⟨free,undelivered⟩ := replayable _ _ _ _ stale at'
      rw [was] at free undelivered
      rw [IncomingEventRecord.withStatus_status] at differ ⊢
      have parked : before.status = .failed := by
        cases st : before.status <;> simp_all
      rw [parked]
      exact .replay stale
    | claimed pass free head holds =>
      rw [(Db.nextReceived_status head).2]
      exact .claim pass (by rw [Worker.held,free]; rfl) holds
    | settled pass holds st final dropped =>
      have processing := orderly.owned.taken _ e holds
      rw [was] at processing
      rw [Option.some.inj processing]
      exact .settle pass holds final
  · intro e endpointId url body logged
    obtain ⟨i,inp,claimed,parent,d,mode,rfl,at',rfl,_⟩ := moved.posted logged
    exact orderly.processing at'

theorem Step.orderly (moved : Step x cfg s a t) (live : a.live = true) (kept : a.deletes = false)
    (stays : a.ends = false) (replayable : Replayable s a) (old : Orderly x s) : Orderly x t := by
  have rows : ∀ e, s.world.db.event e ≠ none → t.world.db.event e ≠ none := by
    intro e there gone
    have row := moved.row old.supplied e
    cases found : s.world.db.event e with
    | none => exact there found
    | some before =>
      rw [found,gone] at row
      cases row with
      | removed cascade settled away => subst cascade; cases kept
  have outside : (∀ i inp, a ≠ .worker i inp) → t.workers = s.workers → Orderly x t := by
    intro others same
    refine ⟨moved.supplied old.supplied,?_,fun i e engaged => ?_⟩
    · rw [same]
      apply old.owned.outside
      intro i e has now
      have row := moved.row old.supplied e
      obtain ⟨before,found,processing⟩ := Db.status_some.mp now
      rw [found] at row
      cases after : t.world.db.event e with
      | none => exact absurd after (rows e (by simp [found]))
      | some next =>
        rw [after] at row
        rw [Db.status,after]
        cases row with
        | same => exact congrArg some processing
        | requeued stale at' => exact absurd now (replayable _ _ _ _ stale at').1
        | claimed pass => exact absurd pass (others _ _)
        | settled pass => exact absurd pass (others _ _)
    · rw [same] at engaged
      exact rows e (old.present i e engaged)
  cases moved with
  | worked up effect =>
    rename_i inp next after i
    have moves := effect.moves (old.supplied.coherent i)
    rw [Action.live_worker.mp live] at moves
    obtain ⟨got,others⟩ := moves.takes (fun e here => old.present i e (by rw [Worker.engaged,here]; rfl))
      (fun e has => old.owned.taken i e has)
    refine ⟨(Step.worked up effect).supplied old.supplied,old.owned.move got others,?_⟩
    refine (Function.forall_update_iff s.workers fun _ worker => ∀ e, worker.engaged = some e →
      next.db.event e ≠ none).mpr ⟨fun e engaged => ?_,fun j _ e engaged => rows e (old.present j e engaged)⟩
    rw [Ne,moves.event_none]
    rcases moves.engages engaged with before | ⟨_,row,head,rfl⟩
    · exact old.present i e before
    · simp [Db.nextReceived_event head]
  | created up effect => exact outside (by simp) rfl
  | accepted up effect => exact outside (by simp) rfl
  | ingestStarted up gates => exact outside (by simp) rfl
  | ingested up there effect => exact outside (by simp) rfl
  | replayStarted up => exact outside (by simp) rfl
  | replayed up there effect => exact outside (by simp) rfl
  | restarted down => exact outside (by simp) rfl
  | deleted up effect => cases kept
  | killed up => cases stays
  | shutDown up done => cases stays

-- The update of a replay is unconditional: it requeues whatever row it finds.
theorem Step.requeues (moved : Step x cfg s (.replay r inp) t) (live : (Action.replay r inp).live = true)
    (at' : s.replays[r]? = some (.updateStatus dlqId e)) (there : s.world.db.status e = some st) :
    t.world.db.status e = some .received := by
  cases moved with
  | replayed up present effect =>
    rw [at'] at present
    cases present
    cases effect with
    | requeued clean => rw [Db.status_setStatus,if_pos rfl,there]; rfl
    | failed error cause =>
      rcases cause with struck | ⟨_,other,_⟩
      · exact absurd (Option.isNone_iff_eq_none.mp live) struck
      · cases other

def Action.steady (a : Action) : Bool := a.live && !a.deletes && !a.ends

theorem Action.steady_parts (steady : a.steady = true) : a.live = true ∧ a.deletes = false ∧ a.ends = false := by
  simpa [Action.steady,and_assoc] using steady

-- The statuses follow the life cycle exactly on the runs in which no replay
-- acts on a letter that another replay, and then a pass, has overtaken.
theorem status_changes_legal_exact (start : Booted x cfg s)
    (path : Transition.Run (step x cfg) (fun _ a => a.steady = true) s actions t) :
    Transition.EachStep (step x cfg) (Lawful x cfg) s actions ↔
      Transition.EachStep (step x cfg) Replayable s actions := by
  constructor
  · intro lawful earlier action later u parts reached r inp dlqId e asked at'
    obtain ⟨v,moved,_⟩ := Transition.exec_split (parts ▸ path.exec) reached
    have steady := (Action.steady_parts (path.each earlier action later u parts reached)).1
    have changes := (lawful earlier action later u parts reached v moved).1
    subst asked
    have requeued : ∀ st, u.world.db.status e = some st → v.world.db.status e = some .received :=
      fun st there => (step_sound moved).requeues steady at' there
    constructor
    · intro there
      cases changes e _ _ there (requeued _ there) (by decide) with
      | settle pass mine final => cases pass
    · intro there
      cases changes e _ _ there (requeued _ there) (by decide)
  · intro replayable
    have both := Transition.run_exact.mpr ⟨path.exec,path.each.both replayable⟩
    have kept : ∀ u a v, Orderly x u → a.steady = true ∧ Replayable u a → step x cfg u a = some v → Orderly x v := by
      intro u a v old allowed moved
      obtain ⟨live,stays,lives⟩ := Action.steady_parts allowed.1
      exact (step_sound moved).orderly live stays lives allowed.2 old
    have first : Orderly x s :=
      ⟨start.supplied,.nothing fun i => by rw [start.workers]; rfl,
        fun i e engaged => by rw [start.workers] at engaged; cases engaged⟩
    refine (both.strengthen _ kept first fun u a old allowed v moved => ?_).each
    exact (step_sound moved).lawful old allowed.2

def replayedAndDelivered : List Action :=
  registerAndAccept ++ Action.pass 0 13 (.error "connection refused") ++
    .startReplay [] "1111" ⟨none,0,0,.error "",0⟩ :: List.replicate 4 (.replay 0 ⟨none,0,0,.error "",0⟩) ++
    Action.pass 0 12 (.response .ok)

def mayReplay (s : State) : Action → Bool
  | .replay r _ => match s.replays[r]? with
    | some (.updateStatus _ e) => s.world.db.status e ≠ some .processing && s.world.db.status e ≠ some .delivered
    | _ => true
  | _ => true

theorem replayable_of (quiet : mayReplay s a = true) : Replayable s a := by
  intro r inp dlqId e asked stands
  subst asked
  simpa [mayReplay,stands] using quiet

theorem status_changes_legal_delivery :
    ∃ u t, Transition.exec (step .tabletop budgetOfOne) (boot budgetOfOne) (replayedAndDelivered.take 15) = some u ∧
      u.world.db.status "11" = some .failed ∧
      Transition.Run (step .tabletop budgetOfOne) (fun _ a => a.steady = true) (boot budgetOfOne) replayedAndDelivered t ∧
      t.world.db.status "11" = some .delivered ∧
      Transition.EachStep (step .tabletop budgetOfOne) (Lawful .tabletop budgetOfOne) (boot budgetOfOne) replayedAndDelivered := by
  have before : (Transition.exec (step .tabletop budgetOfOne) (boot budgetOfOne) (replayedAndDelivered.take 15)).map
      (fun u => u.world.db.status "11") = some (some .failed) := by decide +kernel
  have ran : (Transition.exec (Transition.guard (step .tabletop budgetOfOne) (fun u a => mayReplay u a = true)) (boot budgetOfOne)
      replayedAndDelivered).map (fun t => t.world.db.status "11") = some (some .delivered) := by decide +kernel
  obtain ⟨u,first,failed⟩ := Option.map_eq_some_iff.mp before
  obtain ⟨t,guarded,delivered⟩ := Option.map_eq_some_iff.mp ran
  have kept := Transition.Run.guarded guarded
  have path := Transition.Run.check (fun _ a => a.steady = true) kept.exec (.all (by decide))
  have replayable := kept.each.imp fun _ _ => replayable_of
  exact ⟨u,t,first,failed,path,delivered,(status_changes_legal_exact (boot_booted _ _) path).mpr replayable⟩

-- Both replays read the letter of an event that failed. The first one requeues
-- it, a pass delivers it, and then the second one requeues it again.
def overtakenReplay : List Action :=
  registerAndAccept ++ Action.pass 0 13 (.error "connection refused") ++
    [.startReplay [] "1111" ⟨none,0,0,.error "",0⟩,.startReplay [] "1111" ⟨none,0,0,.error "",0⟩,
     .replay 0 ⟨none,0,0,.error "",0⟩,.replay 1 ⟨none,0,0,.error "",0⟩,.replay 0 ⟨none,0,0,.error "",0⟩,
     .replay 0 ⟨none,0,0,.error "",0⟩,.replay 0 ⟨none,0,0,.error "",0⟩] ++
    Action.pass 0 12 (.response .ok)

theorem second_replay_requeues_delivered :
    ∃ t, Transition.Run (step .tabletop budgetOfOne) (fun _ a => a.steady = true) (boot budgetOfOne)
        (overtakenReplay ++ [.replay 1 ⟨none,0,0,.error "",0⟩]) t ∧
      ¬Transition.EachStep (step .tabletop budgetOfOne) (Lawful .tabletop budgetOfOne) (boot budgetOfOne)
        (overtakenReplay ++ [.replay 1 ⟨none,0,0,.error "",0⟩]) := by
  have before : (Transition.exec (step .tabletop budgetOfOne) (boot budgetOfOne) overtakenReplay).map
      (fun s => s.world.db.status "11") = some (some .delivered) := by decide +kernel
  have after : (Transition.exec (step .tabletop budgetOfOne) (boot budgetOfOne)
      (overtakenReplay ++ [.replay 1 ⟨none,0,0,.error "",0⟩])).map (fun s => s.world.db.status "11") =
      some (some .received) := by decide +kernel
  obtain ⟨u,first,delivered⟩ := Option.map_eq_some_iff.mp before
  obtain ⟨t,reached,received⟩ := Option.map_eq_some_iff.mp after
  refine ⟨t,Transition.run_exact.mpr ⟨reached,.all (by decide)⟩,fun lawful => ?_⟩
  obtain ⟨v,moved,longer⟩ := Transition.exec_split reached first
  rw [reached] at longer
  cases Option.some.inj longer
  cases (lawful _ _ [] u rfl first t moved).1 "11" _ _ delivered received (by decide)

end System
end AetherRelay
