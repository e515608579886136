import AetherRelay.System.Record

namespace AetherRelay

-- A failed answer for `e` that no backoff sleep has followed yet. A history
-- stands newest first.
def Due (e : Uuid) : List Happening → Prop
  | [] => False
  | .slept _ :: _ => False
  | .answered k a :: rest => (k = e ∧ a.success = false) ∨ Due e rest
  | _ :: rest => Due e rest

def Jittered (cfg : DispatchLoopConfig) (delay : Duration) : Prop :=
  ∃ prevSleep draw, decorrelatedJitter cfg.backoffBase cfg.backoffCap prevSleep draw = some delay

def Spaced (cfg : DispatchLoopConfig) (history : List Happening) : Prop :=
  ∀ newer e endpointId url body between a older,
    history = newer ++ .posted e endpointId url body :: (between ++ .answered e a :: older) →
    a.success = false → ∃ delay, .slept delay ∈ between ∧ Jittered cfg delay

theorem not_due_slept (rest : ¬Due e (between ++ .answered e a :: older)) (failed : a.success = false) :
    ∃ delay, .slept delay ∈ between := by
  induction between with
  | nil => exact absurd (.inl ⟨rfl,failed⟩) rest
  | cons head tail ih =>
    have later : ¬Due e (tail ++ .answered e a :: older) → ∃ delay, Happening.slept delay ∈ head :: tail := by
      intro clear
      obtain ⟨delay,member⟩ := ih clear
      exact ⟨delay,List.mem_cons_of_mem _ member⟩
    cases head with
    | slept delay => exact ⟨delay,List.mem_cons_self⟩
    | answered k other => exact later fun due => rest (.inr due)
    | _ => exact later rest

theorem Due.answered (due : Due e history) : ∃ a, .answered e a ∈ history := by
  induction history with
  | nil => cases due
  | cons head tail ih =>
    have later : Due e tail → ∃ a, Happening.answered e a ∈ head :: tail := by
      intro older
      obtain ⟨a,member⟩ := ih older
      exact ⟨a,List.mem_cons_of_mem _ member⟩
    cases head with
    | slept delay => cases due
    | answered k other =>
      rcases due with ⟨rfl,_⟩ | older
      · exact ⟨other,List.mem_cons_self⟩
      · exact later older
    | _ => exact later due

theorem Spaced.cons (old : Spaced cfg history)
    (sound : ∀ e endpointId url body, h = .posted e endpointId url body → ¬Due e history)
    (jittered : ∀ delay, .slept delay ∈ history → Jittered cfg delay) : Spaced cfg (h :: history) := by
  intro newer e endpointId url body between a older parts failed
  cases newer with
  | nil =>
    obtain ⟨rfl,rfl⟩ := List.cons.inj parts
    obtain ⟨delay,member⟩ := not_due_slept (sound e endpointId url body rfl) failed
    exact ⟨delay,member,jittered delay (List.mem_append_left _ member)⟩
  | cons head rest =>
    obtain ⟨_,parts⟩ := List.cons.inj parts
    exact old rest e endpointId url body between a older parts failed

-- The loop is on its way to a backoff sleep: the pass has an error in hand, or
-- it has a failed answer for `e` that will park the event.
def WorkerPc.Winding (maxAttempts : Nat) (e : Uuid) : WorkerPc → Prop
  | .dispatching _ _ (.updateBreaker d _ answer) | .dispatching _ _ (.insertAttempt d answer)
  | .dispatching _ _ (.updateStatus d answer _) => d.eventId = e ∧ answer.success = false ∧ maxAttempts ≤ d.attemptNum
  | .dispatching _ _ (.done _ (.error _)) | .requeueing _ _ | .finished (.error _) => True
  | _ => False

def Guarded (maxAttempts : Nat) (e : Uuid) (w : World) (worker : Worker) : Prop :=
  Due e w.history → worker.pc.Winding maxAttempts e ∨ (w.db.status e ≠ some .received ∧ worker.held ≠ some e)

def DispatchPc.LastChance (maxAttempts : Nat) (inp : Input) : DispatchPc → Prop
  | .await d _ => inp.answer.success = true ∨ maxAttempts ≤ d.attemptNum
  | _ => True

section
variable {x : Externals} {cfg : DispatchLoopConfig} {inp : Input} {w next : World} {worker done : Worker}

theorem status_other (different : k ≠ e) (idle : w.db.status e ≠ some .received) :
    (w.db.setStatus k st).status e ≠ some .received := by
  rwa [Db.status_setStatus,if_neg (Ne.symm different)]

theorem DispatchStep.guarded {pc after : DispatchPc} (effect : DispatchStep x cfg inp w pc next after)
    (chance : pc.LastChance cfg.maxAttempts.toNat inp) (coherent : pc.eventId = claimed)
    (old : Guarded cfg.maxAttempts.toNat e w ⟨.dispatching claimed parent pc,p⟩) :
    Guarded cfg.maxAttempts.toNat e next ⟨.dispatching claimed parent after,p⟩ := by
  subst coherent
  intro due
  cases effect with
  | failed cause => exact .inl trivial
  | await =>
    rename_i d mode
    rcases due with ⟨same,failed⟩ | due
    · exact .inl ⟨same,failed,chance.resolve_left (by simp [failed])⟩
    · exact .inr ((old due).resolve_left id)
  | requeueDeferred live =>
    obtain ⟨idle,apart⟩ := (old due).resolve_left id
    exact .inr ⟨status_other (fun same => apart (congrArg some same)) idle,by simp [Worker.held,WorkerPc.stage,
      DispatchPc.stage,Stage.held]⟩
  | updateBreaker => exact old due
  | insertAttempt live stored =>
    obtain ⟨_,_,_,events,_⟩ := Db.insertAttempt_parts stored
    rcases old due with winding | ⟨idle,apart⟩
    · exact .inl winding
    · exact .inr ⟨by rwa [Db.status_congr events],apart⟩
  | exhausted live spent =>
    rename_i d answer now
    have freed : (Worker.mk (.dispatching d.eventId parent (.insertDeadLetter d answer now)) p).held ≠ some e := by
      simp [Worker.held,WorkerPc.stage,DispatchPc.stage,Stage.held]
    rcases old due with ⟨rfl,_,_⟩ | ⟨idle,apart⟩
    · refine .inr ⟨?_,freed⟩
      rw [Db.status_setStatus,if_pos rfl]
      cases w.db.status d.eventId <;> simp
    · exact .inr ⟨status_other (fun same => apart (congrArg some same)) idle,freed⟩
  | settled live other =>
    rename_i d answer now
    rcases old due with ⟨rfl,failed,spent⟩ | ⟨idle,apart⟩
    · exact absurd (by simp [settledStatus,failed,spent]) other
    · exact .inr ⟨status_other (fun same => apart (congrArg some same)) idle,by simp [Worker.held,WorkerPc.stage,
        DispatchPc.stage,Stage.held]⟩
  | insertDeadLetter live stored =>
    obtain ⟨_,_,_,events,_⟩ := Db.replaceLetter_parts stored
    obtain ⟨idle,_⟩ := (old due).resolve_left id
    exact .inr ⟨by rwa [Db.status_congr events],by simp [Worker.held,WorkerPc.stage,DispatchPc.stage,
      Stage.held]⟩
  | _ => exact .inr ((old due).resolve_left id)

theorem WorkerStep.guarded (effect : WorkerStep x cfg inp w worker next done)
    (chance : ∀ claimed parent pc, worker.pc = .dispatching claimed parent pc → pc.LastChance cfg.maxAttempts.toNat inp)
    (coherent : worker.Coherent) (old : Guarded cfg.maxAttempts.toNat e w worker) :
    Guarded cfg.maxAttempts.toNat e next done := by
  intro due
  cases effect with
  | claim live head =>
    rename_i row p
    obtain ⟨idle,_⟩ := (old due).resolve_left id
    have other : row.id ≠ e := by
      intro equal
      subst equal
      exact idle (Db.nextReceived_waiting head)
    exact .inr ⟨status_other other idle,fun same => other (Option.some.inj same)⟩
  | dispatch moved => exact moved.guarded (chance _ _ _ rfl) coherent old due
  | returned result => exact .inr ⟨((old due).resolve_left id).1,nofun⟩
  | empty live none => exact .inr ((old due).resolve_left id)
  | drained => exact .inr ((old due).resolve_left id)
  | polled => exact .inr ((old due).resolve_left id)
  | slept waits delay => exact due.elim
  | _ => exact .inl trivial

def SettledRow (r : Record) : Prop :=
  r.status = some .delivered ∨ (r.status = some .failed ∧ r.letters ≠ [])

def DispatchPc.Settling (maxAttempts : Nat) (r : Record) : DispatchPc → Prop
  | .updateBreaker d _ answer | .insertAttempt d answer | .updateStatus d answer _ =>
    answer.success = true ∨ maxAttempts ≤ d.attemptNum
  | .insertDeadLetter _ _ _ => r.status = some .failed
  | .done _ (.ok result) => result.deferred = false → SettledRow r
  | _ => True

theorem DispatchStep.settling {pc after : DispatchPc} (effect : DispatchStep x cfg inp w pc next after)
    (chance : pc.LastChance cfg.maxAttempts.toNat inp) (present : (w.record pc.eventId).row ≠ none)
    (old : pc.Settling cfg.maxAttempts.toNat (w.record pc.eventId)) :
    after.Settling cfg.maxAttempts.toNat (next.record pc.eventId) := by
  have written : ∀ st, ((w.record pc.eventId).withStatus st).status = some st := by
    intro st
    rw [Record.status_withStatus,Record.status]
    cases row : (w.record pc.eventId).row with
    | none => exact absurd row present
    | some e => rfl
  cases effect with
  | await => exact chance
  | updateBreaker => exact old
  | insertAttempt live stored => exact old
  | requeueDeferred live => exact fun kept => by cases kept
  | exhausted live spent =>
    rename_i d answer now
    refine (World.record_withStatus w d.eventId .failed).symm ▸ ?_
    exact written .failed
  | settled live other =>
    rename_i d answer now
    refine (World.record_withStatus w d.eventId (settledStatus cfg d answer)).symm ▸ ?_
    intro _
    have delivered : settledStatus cfg d answer = .delivered := by
      unfold settledStatus at other ⊢
      rcases old with success | spent
      · rw [if_pos success]
      · by_cases success : answer.success = true
        · rw [if_pos success]
        · rw [if_neg success,if_pos spent] at other
          exact absurd rfl other
    rw [delivered]
    exact .inl (written .delivered)
  | insertDeadLetter live stored =>
    rename_i d answer now db
    refine (World.record_replaceLetter (n := w.drawn+1) stored).symm ▸ ?_
    exact fun _ => .inr ⟨old,by simp⟩
  | _ => trivial

def Worker.Settling (maxAttempts : Nat) (w : World) (worker : Worker) : Prop :=
  ∀ claimed parent pc, worker.pc = .dispatching claimed parent pc →
    (w.record pc.eventId).row ≠ none ∧ pc.Settling maxAttempts (w.record pc.eventId)

theorem WorkerStep.settling (effect : WorkerStep x cfg inp w worker next done)
    (chance : ∀ claimed parent pc, worker.pc = .dispatching claimed parent pc → pc.LastChance cfg.maxAttempts.toNat inp)
    (coherent : worker.Coherent) (old : worker.Settling cfg.maxAttempts.toNat w) :
    done.Settling cfg.maxAttempts.toNat next := by
  have rows : ∀ e, (w.record e).row ≠ none → (next.record e).row ≠ none :=
    fun e there gone => there ((effect.moves coherent).event_none.mp gone)
  intro claimed parent after here
  cases effect with
  | claim live head =>
    cases here
    exact ⟨rows _ (by simp [World.record,DispatchPc.eventId,Db.nextReceived_event head]),trivial⟩
  | dispatch moved =>
    cases here
    obtain ⟨present,settling⟩ := old _ _ _ rfl
    rw [moved.same_event]
    exact ⟨rows _ present,moved.settling (chance _ _ _ rfl) present settling⟩
  | _ => cases here

end

namespace System
variable {x : Externals} {cfg : AppConfig} {s t : State} {a : Action}

def attemptBudget (cfg : AppConfig) : Nat := (loopConfig cfg).maxAttempts.toNat

structure Paced (x : Externals) (cfg : AppConfig) (s : State) : Prop where
  supplied : Supplied x s
  jittered : ∀ delay, .slept delay ∈ s.world.history → Jittered (loopConfig cfg) delay
  spaced : Spaced (loopConfig cfg) s.world.history
  guarded : ∀ e, Guarded (attemptBudget cfg) e s.world (s.workers 0)
  settling : (s.workers 0).Settling (attemptBudget cfg) s.world

def LastAnswer (cfg : AppConfig) (s : State) (a : Action) : Prop :=
  ∀ i inp claimed parent pc, a = .worker i inp → (s.workers i).pc = .dispatching claimed parent pc →
    pc.LastChance (attemptBudget cfg) inp

-- The loop alone, with requests coming in: no replay, no deletion, no end.
def Action.alone (a : Action) : Bool := !a.replays && !a.deletes && !a.ends && a.single

theorem Action.alone_parts (alone : a.alone = true) :
    a.replays = false ∧ a.deletes = false ∧ a.ends = false ∧ a.single = true := by
  simpa [Action.alone,and_assoc] using alone

theorem Booted.paced (start : Booted x cfg s) : Paced x cfg s := by
  refine ⟨start.supplied,?_,?_,?_,?_⟩
  · intro delay member
    rw [start.history] at member
    cases member
  · intro newer e endpointId url body between answer older parts
    rw [start.history] at parts
    simp at parts
  · intro e due
    rw [start.history] at due
    cases due
  · intro claimed parent pc here
    rw [start.workers] at here
    cases here

theorem Step.paced_history (moved : Step x cfg s a t) (single : a.single = true) (old : Paced x cfg s) :
    (∀ delay, .slept delay ∈ t.world.history → Jittered (loopConfig cfg) delay) ∧
      Spaced (loopConfig cfg) t.world.history := by
  obtain ⟨new,log,history⟩ := moved.log
  rw [history]
  have silent : ∀ h, (∀ delay, h ≠ .slept delay) →
      ∀ delay, .slept delay ∈ [h] ++ s.world.history → Jittered (loopConfig cfg) delay := by
    intro h other delay member
    rcases List.mem_cons.mp member with rfl | older
    · exact absurd rfl (other delay)
    · exact old.jittered delay older
  cases log with
  | silent => exact ⟨old.jittered,old.spaced⟩
  | posted pass at' =>
    rename_i i inp claimed parent d mode
    refine ⟨silent _ (by simp),old.spaced.cons (fun e endpointId url body same due => ?_) old.jittered⟩
    cases same
    subst pass
    obtain rfl : i = 0 := by simpa [Action.single] using single
    rcases old.guarded d.eventId due with winding | ⟨_,apart⟩
    · rw [at'] at winding
      exact winding
    · exact apart (by simp [Worker.held,at',WorkerPc.stage,DispatchPc.stage,DispatchPc.eventId])
  | slept pass at' waits delayed =>
    refine ⟨fun delay member => ?_,old.spaced.cons (fun e endpointId url body same => by cases same) old.jittered⟩
    rcases List.mem_cons.mp member with same | older
    · cases same
      exact ⟨_,_,delayed⟩
    · exact old.jittered delay older
  | _ => exact ⟨silent _ (by simp),old.spaced.cons (fun e endpointId url body same => by cases same) old.jittered⟩

theorem Step.due_outside (moved : Step x cfg s a t) (others : ∀ i inp, a ≠ .worker i inp)
    (due : Due e t.world.history) : Due e s.world.history := by
  obtain ⟨new,log,history⟩ := moved.log
  rw [history] at due
  cases log with
  | silent => exact due
  | posted pass at' => exact absurd pass (others _ _)
  | answered pass at' => exact absurd pass (others _ _)
  | metric pass => exact absurd pass (others _ _)
  | slept pass => exact absurd pass (others _ _)
  | polled pass => exact absurd pass (others _ _)
  | _ => exact due

theorem Step.paced_outside (moved : Step x cfg s a t) (alone : a.alone = true) (others : ∀ i inp, a ≠ .worker i inp)
    (same : t.workers = s.workers) (old : Paced x cfg s) : Paced x cfg t := by
  obtain ⟨fresh,kept,_,single⟩ := Action.alone_parts alone
  obtain ⟨jittered,spaced⟩ := moved.paced_history single old
  refine ⟨moved.supplied old.supplied,jittered,spaced,fun e due => ?_,fun claimed parent pc here => ?_⟩
  · have due := moved.due_outside others due
    obtain ⟨answer,member⟩ := due.answered
    have spent := old.supplied.world.past _ member e (by simp [Happening.ids])
    have record := congrArg Record.status (moved.record_known old.supplied others fresh kept spent)
    have status : t.world.db.status e = s.world.db.status e := record
    rw [same,status]
    exact old.guarded e due
  · rw [same] at here
    have known : pc.eventId ∈ (s.workers 0).pc.ids := by
      rw [here]
      simp [WorkerPc.ids,pc.eventId_mem]
    rw [moved.record_known old.supplied others fresh kept (old.supplied.known 0 _ known)]
    exact old.settling claimed parent pc here

theorem Step.paced (moved : Step x cfg s a t) (alone : a.alone = true) (last : LastAnswer cfg s a)
    (old : Paced x cfg s) : Paced x cfg t := by
  obtain ⟨fresh,kept,stays,single⟩ := Action.alone_parts alone
  cases moved with
  | worked up effect =>
    rename_i inp next after i
    have moved := Step.worked up effect
    obtain rfl : i = 0 := by simpa [Action.single] using single
    obtain ⟨jittered,spaced⟩ := moved.paced_history single old
    have coherent := old.supplied.coherent 0
    have chance := fun claimed parent pc here => last 0 inp claimed parent pc rfl here
    have mine : Function.update s.workers 0 after 0 = after := Function.update_self ..
    refine ⟨moved.supplied old.supplied,jittered,spaced,fun e => ?_,?_⟩
    · exact mine.symm ▸ effect.guarded chance coherent (old.guarded e)
    · exact mine.symm ▸ effect.settling chance coherent old.settling
  | created up effect => exact (Step.created up effect).paced_outside alone (by simp) rfl old
  | accepted up effect => exact (Step.accepted up effect).paced_outside alone (by simp) rfl old
  | ingestStarted up gates => exact (Step.ingestStarted up gates).paced_outside alone (by simp) rfl old
  | ingested up there effect => exact (Step.ingested up there effect).paced_outside alone (by simp) rfl old
  | restarted down => exact (Step.restarted down).paced_outside rfl (by simp) rfl old
  | deleted up effect => cases kept
  | replayStarted up => cases fresh
  | replayed up there effect => cases fresh
  | killed up => cases stays
  | shutDown up done => cases stays

def ReportsSettled (s : State) (e : Uuid) : Prop :=
  ∃ claimed parent result, (s.workers 0).pc = .dispatching claimed parent (.done e (.ok result)) ∧
    result.deferred = false

-- An attempt that fails with budget left ends the pass like a success does, and
-- the loop goes straight on. The retries are spaced on the runs without one.
theorem retries_spaced_when (start : Booted x cfg s)
    (path : Transition.Run (step x cfg) (fun u a => a.alone = true ∧ LastAnswer cfg u a) s actions t) :
    Spaced (loopConfig cfg) t.world.history ∧
      ∀ e, ReportsSettled t e → SettledRow (t.world.record e) := by
  have paced : Paced x cfg t := path.preserves (Paced x cfg)
    (fun u a v old allowed moved => (step_sound moved).paced allowed.1 allowed.2 old) start.paced
  refine ⟨paced.spaced,?_⟩
  rintro e ⟨claimed,parent,result,here,kept⟩
  exact (paced.settling claimed parent _ here).2 kept

def answersLast (cfg : AppConfig) (s : State) : Action → Bool
  | .worker i inp => match (s.workers i).pc with
    | .dispatching _ _ (.await d _) => inp.answer.success || decide (attemptBudget cfg ≤ d.attemptNum)
    | _ => true
  | _ => true

theorem lastAnswer_of (last : answersLast cfg s a = true) : LastAnswer cfg s a := by
  intro i inp claimed parent pc asked here
  subst asked
  cases pc with
  | await d mode => simpa [answersLast,here,DispatchPc.LastChance] using last
  | _ => trivial

-- The only attempt times out and its letter cannot be written: the row goes back,
-- the loop sleeps, and the event is sent again.
def letterLost : List Action :=
  registerAndAccept ++ Action.pass 0 10 (.error "operation timed out") ++
    .worker 0 ⟨some (.failure "disk I/O error"),0,0,.error "",0⟩ ::
    List.replicate 9 (.worker 0 ⟨none,0,0,.error "",2500⟩)

theorem retries_spaced_timeout :
    ∃ t, Transition.Run (step .tabletop budgetOfOne) (fun u a => a.alone = true ∧ LastAnswer budgetOfOne u a)
        (boot budgetOfOne) letterLost t ∧
      t.world.history = [.posted "11" "1" "https://hooks.example.com/in" [],.slept (fromMillis 2500),
        .dispatchMetric "1" "failure",.answered "11" (.error "operation timed out"),
        .posted "11" "1" "https://hooks.example.com/in" [],.accepted "11" "1" "key-1" [] "{}",
        .endpointCreated ⟨"1","orders","generic","secret","https://hooks.example.com/in",0⟩] ∧
      Spaced (loopConfig budgetOfOne) t.world.history := by
  have ran : (Transition.exec (Transition.guard (step .tabletop budgetOfOne) (fun u a => answersLast budgetOfOne u a = true))
      (boot budgetOfOne) letterLost).map (·.world.history) =
      some [.posted "11" "1" "https://hooks.example.com/in" [],.slept (fromMillis 2500),
        .dispatchMetric "1" "failure",.answered "11" (.error "operation timed out"),
        .posted "11" "1" "https://hooks.example.com/in" [],.accepted "11" "1" "key-1" [] "{}",
        .endpointCreated ⟨"1","orders","generic","secret","https://hooks.example.com/in",0⟩] := by decide +kernel
  obtain ⟨t,guarded,history⟩ := Option.map_eq_some_iff.mp ran
  have kept := Transition.Run.guarded guarded
  have last := kept.each.imp fun _ _ => lastAnswer_of
  have path := Transition.Run.check (fun u a => a.alone = true ∧ LastAnswer budgetOfOne u a) kept.exec
    (Transition.EachStep.both (.all (by decide)) last)
  exact ⟨t,path,history,(retries_spaced_when (boot_booted _ _) path).1⟩

theorem failed_attempt_retried_at_once :
    ∃ t, Transition.Run (step .tabletop .default) (fun _ a => a.alone = true) (boot .default)
        (registerAndAccept ++ Action.pass 0 18 (.response .internalServerError)) t ∧
      ¬Spaced (loopConfig .default) t.world.history := by
  have seen : (Transition.exec (step .tabletop .default) (boot .default)
      (registerAndAccept ++ Action.pass 0 18 (.response .internalServerError))).map (·.world.history) =
      some [.posted "11" "1" "https://hooks.example.com/in" [],.dispatchMetric "1" "success",
        .answered "11" (.response .internalServerError),.posted "11" "1" "https://hooks.example.com/in" [],
        .accepted "11" "1" "key-1" [] "{}",
        .endpointCreated ⟨"1","orders","generic","secret","https://hooks.example.com/in",0⟩] := by decide +kernel
  obtain ⟨t,reached,history⟩ := Option.map_eq_some_iff.mp seen
  refine ⟨t,Transition.run_exact.mpr ⟨reached,.all (by decide)⟩,fun spaced => ?_⟩
  obtain ⟨delay,member,_⟩ := spaced [] "11" "1" "https://hooks.example.com/in" [] [.dispatchMetric "1" "success"]
    (.response .internalServerError) _ history (by decide)
  simp at member

end System
end AetherRelay
