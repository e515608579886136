import AetherRelay.System.Resends
import AetherRelay.System.Recovery
import AetherRelay.System.Acceptance

namespace AetherRelay

theorem ReplayStep.unasked {w next : World} {pc after : ReplayPc} (effect : ReplayStep inp w pc next after)
    (unlisted : w.db.letters e = []) : after.requeues e = false := by
  cases effect with
  | found live found =>
    rename_i letter dlqId
    apply decide_eq_false
    intro same
    have listed : letter ∈ w.db.letters e := by
      simp only [Db.letters,List.mem_filter,decide_eq_true_eq]
      exact ⟨Table.lookup_mem found,same⟩
    rw [unlisted] at listed
    cases listed
  | _ => rfl

theorem startReplay_unasked (cfg : AppConfig) (headers : HeaderMap) (dlqId e : Uuid) :
    (startReplay cfg headers dlqId).requeues e = false := by
  unfold startReplay
  cases verifyApiKey headers cfg.auth.apiKeys <;> rfl

section
variable {db : Db} {row : IncomingEventRecord}

theorem Db.pendingCount_pos (there : db.event row.id = some row) (pending : row.status.pending = true) :
    0 < db.pendingCount row.endpointId := by
  apply List.length_pos_of_mem (a := row)
  simp [(Db.event_mem there).1,pending]

theorem Db.eventByKey_event (there : db.event row.id = some row) :
    db.eventByKey row.endpointId row.idempotencyKey = some row := by
  have member := (Db.event_mem there).1
  cases found : db.eventByKey row.endpointId row.idempotencyKey with
  | none => exact absurd rfl (eventByKey_none found member rfl)
  | some other =>
    obtain ⟨stored,parent,key⟩ := eventByKey_some found
    rw [db.keyUnique other stored row member parent key]

end

namespace System
variable {x : Externals} {cfg : AppConfig} {s t : State} {a : Action} {row : IncomingEventRecord}

structure Stranded (row : IncomingEventRecord) (s : State) : Prop where
  there : s.world.db.event row.id = some row
  processing : row.status = .processing
  free : ∀ i, (s.workers i).engaged ≠ some row.id
  unlisted : s.world.db.letters row.id = []
  unasked : ∀ pc ∈ s.replays, pc.requeues row.id = false

theorem Stranded.passed (old : Stranded row s) (supplied : Supplied x s)
    (effect : WorkerStep x (loopConfig cfg) inp s.world (s.workers i) next after) : after.engaged ≠ some row.id := by
  intro engaged
  have moves := effect.moves (supplied.coherent i)
  rcases moves.engages engaged with before | ⟨_,head,found,same⟩
  · exact old.free i before
  · obtain ⟨member,waiting⟩ := Db.nextReceived_status found
    have stored := Db.nextReceived_event found
    rw [same,old.there] at stored
    obtain rfl := Option.some.inj stored
    rw [old.processing] at waiting
    cases waiting

theorem Step.stranded_row (moved : Step x cfg s a t) (supplied : Supplied x s) (old : Stranded row s) :
    t.world.db.event row.id = some row := by
  have change := moved.row supplied row.id
  rw [old.there] at change
  generalize t.world.db.event row.id = found at change
  cases change with
  | same => rfl
  | removed cascade settled gone =>
    rw [old.processing] at settled
    cases settled
  | @requeued _ r inp dlqId stale at' =>
    have asked := old.unasked _ (List.mem_of_getElem? at')
    simp [ReplayPc.requeues] at asked
  | claimed pass free head holds =>
    have waiting := (Db.nextReceived_status head).2
    rw [old.processing] at waiting
    cases waiting
  | settled pass holds st final dropped =>
    have stage := Stage.held_some.mp holds
    exact absurd (by rw [Worker.engaged,stage]; rfl) (old.free _)

theorem Step.stranded (moved : Step x cfg s a t) (supplied : Supplied x s) (old : Stranded row s) :
    Stranded row t ∧ (t.world.record row.id).posts = (s.world.record row.id).posts := by
  have there := moved.stranded_row supplied old
  have outside : (∀ i inp, a ≠ .worker i inp) → t.world.db.letters row.id = [] ∧
      (t.world.record row.id).posts = (s.world.record row.id).posts := by
    intro others
    have change := moved.record (k := row.id) supplied others
    have unlisted : (s.world.record row.id).letters = [] := old.unlisted
    have present : (s.world.record row.id).row = some row := old.there
    have kept : (t.world.record row.id).letters = [] ∧ (t.world.record row.id).posts = (s.world.record row.id).posts := by
      generalize s.world.record row.id = r at change unlisted present
      generalize t.world.record row.id = r' at change
      cases change with
      | same => exact ⟨unlisted,rfl⟩
      | created drawn waiting => cases present
      | removed asked was settled => exact ⟨rfl,rfl⟩
      | requeued asked => exact ⟨unlisted,rfl⟩
      | cleared asked => exact ⟨unlisted,rfl⟩
      | unlisted asked dlqId => exact ⟨by rw [unlisted]; rfl,rfl⟩
    exact kept
  have still : (∀ i inp, a ≠ .worker i inp) → t.workers = s.workers → (∀ pc ∈ t.replays, pc.requeues row.id = false) →
      Stranded row t ∧ (t.world.record row.id).posts = (s.world.record row.id).posts := by
    intro others workers unasked
    obtain ⟨unlisted,posts⟩ := outside others
    exact ⟨⟨there,old.processing,by rw [workers]; exact old.free,unlisted,unasked⟩,posts⟩
  cases moved with
  | created live effect => exact still (by simp) rfl old.unasked
  | deleted live effect => exact still (by simp) rfl old.unasked
  | accepted live effect => exact still (by simp) rfl old.unasked
  | ingestStarted live gates => exact still (by simp) rfl old.unasked
  | ingested live present effect => exact still (by simp) rfl old.unasked
  | restarted down => exact still (by simp) rfl old.unasked
  | replayStarted live =>
    refine still (by simp) rfl ?_
    intro pc member
    rcases List.mem_append.mp member with earlier | new
    · exact old.unasked pc earlier
    · obtain rfl := List.mem_singleton.mp new
      exact startReplay_unasked ..
  | replayed live present effect =>
    refine still (by simp) rfl ?_
    intro pc member
    rcases List.mem_or_eq_of_mem_set member with earlier | rfl
    · exact old.unasked pc earlier
    · exact effect.unasked old.unlisted
  | killed live =>
    obtain ⟨unlisted,posts⟩ := outside (by simp)
    exact ⟨⟨there,old.processing,fun i engaged => (by cases engaged),unlisted,fun pc member => (by cases member)⟩,posts⟩
  | shutDown live quiet =>
    obtain ⟨unlisted,posts⟩ := outside (by simp)
    exact ⟨⟨there,old.processing,fun i engaged => (by cases engaged),unlisted,fun pc member => (by cases member)⟩,posts⟩
  | worked live effect =>
    rename_i inp next after i
    have missed := old.passed supplied effect
    have record := effect.frame supplied.world (supplied.coherent i) (old.free i) missed
    refine ⟨⟨there,old.processing,?_,(congrArg Record.letters record).trans old.unlisted,old.unasked⟩,
      congrArg Record.posts record⟩
    exact (Function.forall_update_iff s.workers fun _ worker => worker.engaged ≠ some row.id).mpr
      ⟨missed,fun j _ => old.free j⟩

-- No requeue reaches a row that has been left in PROCESSING: whatever is asked of the
-- relay, whatever fails and however often the process is started again, the event
-- is never sent any more, its key stays taken and its endpoint cannot be deleted.
theorem stranded_for_good (supplied : Supplied x s) (stranded : Stranded row s)
    (reached : Transition.exec (step x cfg) s actions = some t) :
    t.world.db.event row.id = some row ∧ (t.world.record row.id).posts = (s.world.record row.id).posts ∧
    (∀ inp headers, (deleteEndpoint cfg inp t.world headers row.endpointId).2 ≠ .ok ()) ∧
    ∀ inp body headers, inp.fault = none →
      (acceptEvent x inp t.world row.endpointId row.idempotencyKey body headers).2 =
        .error (.duplicateIdempotencyKey "PROCESSING") := by
  have path := Transition.Run.check (fun _ _ => True) reached (fun _ _ _ _ _ _ => trivial)
  obtain ⟨_,last,posts⟩ := path.preserves
    (fun u => Supplied x u ∧ Stranded row u ∧ (u.world.record row.id).posts = (s.world.record row.id).posts)
    (by
      intro u a v old _ moved
      have step := step_sound moved
      obtain ⟨kept,same⟩ := step.stranded old.1 old.2.1
      exact ⟨step.supplied old.1,kept,same.trans old.2.2⟩)
    ⟨supplied,stranded,rfl⟩
  have pending : row.status.pending = true := by rw [last.processing]; rfl
  refine ⟨last.there,posts,?_,?_⟩
  · intro inp headers
    have count := Db.pendingCount_pos last.there pending
    unfold deleteEndpoint
    cases verifyApiKey headers cfg.auth.apiKeys with
    | error e => simp
    | ok u =>
      simp only [statement]
      cases inp.fault with
      | some e => simp
      | none => simp [count]
  · intro inp body headers clean
    simp only [acceptEvent,statement,clean,Db.eventByKey_event last.there,last.processing]
    rfl

theorem stranded_for_good_killed :
    ∃ s t row, Transition.exec (step .tabletop .default) (boot .default) strandingRun = some s ∧
      Transition.exec (step .tabletop .default) s (Action.pass 0 3 (.response .ok)) = some t ∧
      row.status = .processing ∧ t.world.db.event "11" = some row ∧
      (t.world.record "11").posts = (s.world.record "11").posts := by
  have ran : (Transition.exec (step .tabletop .default) (boot .default) strandingRun).map
      (fun s => (s.world.db.event "11",s.world.db.letters "11",s.replays.length,
        (Transition.exec (step .tabletop .default) s (Action.pass 0 3 (.response .ok))).isSome)) =
      some (some ⟨"11","1","key-1",[],"{}",.processing,0⟩,[],0,true) := by decide +kernel
  have workers : (Transition.exec (step .tabletop .default) (boot .default) strandingRun).map (·.workers) =
      some fun _ => .start (loopConfig .default) := rfl
  obtain ⟨s,reached,seen⟩ := Option.map_eq_some_iff.mp ran
  simp only [Prod.mk.injEq] at seen
  obtain ⟨there,unlisted,none',goes⟩ := seen
  rw [reached] at workers
  have same : s.workers = fun _ => .start (loopConfig .default) := Option.some.inj workers
  obtain ⟨t,further⟩ := Option.isSome_iff_exists.mp goes
  have stranded : Stranded ⟨"11","1","key-1",[],"{}",.processing,0⟩ s := by
    refine ⟨there,rfl,?_,unlisted,?_⟩
    · intro i engaged
      rw [same] at engaged
      cases engaged
    · rw [List.eq_nil_of_length_eq_zero none']
      exact fun pc member => (by cases member)
  have path := Transition.Run.check (fun _ _ => True) reached (.all fun _ _ => trivial)
  obtain ⟨still,posts,_⟩ := stranded_for_good ((boot_booted .tabletop .default).supplied_after path) stranded further
  exact ⟨s,t,_,reached,further,rfl,still,posts⟩

end System
end AetherRelay
