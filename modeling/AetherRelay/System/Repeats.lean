import AetherRelay.System.Resends

namespace AetherRelay

def Record.taken (r : Record) : Nat := r.answers.countP (·.success)

def DispatchPc.accepted : DispatchPc → Bool
  | .updateBreaker _ _ answer | .insertAttempt _ answer | .updateStatus _ answer _ => answer.success
  | _ => false

-- Whether a server may still take the event by this pass, or because the pass puts
-- the row back.
def DispatchPc.unsettled : DispatchPc → Nat
  | .done _ (.ok _) => 0
  | pc => if pc.accepted then 0 else 1

def WorkerPc.unsettled : WorkerPc → Nat
  | .dispatching _ _ pc => pc.unsettled
  | .requeueing _ _ => 1
  | _ => 0

def Worker.unsettled (worker : Worker) (e : Uuid) : Nat := if worker.engaged = some e then worker.pc.unsettled else 0

-- A statement of the recording block that fails on a success.
def DispatchPc.forgets (inp : Input) : DispatchPc → Bool
  | .insertAttempt _ answer | .updateStatus _ answer _ => inp.fault.isSome && answer.success
  | _ => false

def WorkerPc.forgets (inp : Input) : WorkerPc → Bool
  | .dispatching _ _ pc => pc.forgets inp
  | _ => false

def Worker.forgets (inp : Input) (worker : Worker) (e : Uuid) : Bool := worker.engaged = some e && worker.pc.forgets inp

section
variable {x : Externals} {cfg : DispatchLoopConfig} {inp : Input} {w next : World} {pc after : DispatchPc} {r : Record}

theorem Record.taken_withStatus (r : Record) (st : EventStatus) : (r.withStatus st).taken = r.taken := rfl

theorem due_taken (there : r.row = some row) (answer : Answer) :
    Record.taken {r with answers:=answer :: r.answers} +
        due 0 {r with answers:=answer :: r.answers} (if answer.success then 0 else 1) ≤ r.taken + due 0 r 1 := by
  have now : ({r with answers:=answer :: r.answers} : Record).row = some row := there
  have same : ({r with answers:=answer :: r.answers} : Record).spare 0 = r.spare 0 := rfl
  rw [due_row now,due_row there,same,Record.taken,Record.taken,List.countP_cons]
  cases answer.success
  · simp
  · simp
    omega

theorem due_recorded (r : Record) (attempts : List DeliveryAttempt) (chance : Nat) :
    due 0 {r with attempts:=attempts} chance = due 0 r chance := by
  simp only [due,Record.spare,Nat.zero_sub]

theorem due_parked (r : Record) : due 0 (r.withStatus .failed) 1 ≤ due 0 r 1 := by
  cases there : r.row with
  | none => rw [due_withStatus_gone there]; exact Nat.zero_le _
  | some row =>
    rw [due_withStatus there,due_row there,if_neg (by decide)]
    omega

theorem DispatchStep.takes (effect : DispatchStep x cfg inp w pc next after) (supplied : w.Supplied x)
    (old : pc.Reckoned (w.record pc.eventId)) :
    (next.record pc.eventId).taken + due 0 (next.record pc.eventId) after.unsettled ≤
      (w.record pc.eventId).taken + due 0 (w.record pc.eventId) pc.unsettled + (if pc.forgets inp then 1 else 0) := by
  cases effect with
  | @requeueDeferred _ d live =>
    refine (World.record_withStatus w d.eventId .received).symm ▸ ?_
    exact Nat.le_add_right_of_le (Nat.add_le_add_left (due_returned ..) _)
  | @send _ d mode =>
    refine (World.record_posted w d.eventId d.endpointId d.targetUrl d.rawBody).symm ▸ ?_
    exact Nat.le_add_right_of_le (Nat.add_le_add_left (Nat.le_of_eq (due_same rfl rfl)) _)
  | @await _ d mode =>
    refine (World.record_answered w d.eventId inp.answer).symm ▸ ?_
    obtain ⟨⟨row,there,_⟩,_,_⟩ := old
    exact Nat.le_add_right_of_le (due_taken there inp.answer)
  | @insertAttempt _ d answer _ _ stored =>
    refine (World.record_insertAttempt (n := w.drawn+1) stored).symm ▸ ?_
    exact Nat.le_add_right_of_le (Nat.add_le_add_left (Nat.le_of_eq (due_recorded ..)) _)
  | @exhausted d answer _ now _ spent =>
    refine (World.record_withStatus w d.eventId .failed).symm ▸ ?_
    have open' : DispatchPc.unsettled (.updateStatus d answer now) = 1 := by
      simp [DispatchPc.unsettled,DispatchPc.accepted,(settledStatus_failed spent).1]
    rw [open']
    exact Nat.le_add_right_of_le (Nat.add_le_add_left (due_parked _) _)
  | @settled d answer _ now _ other =>
    refine (World.record_withStatus w d.eventId (settledStatus cfg d answer)).symm ▸ ?_
    apply Nat.le_add_right_of_le
    apply Nat.add_le_add_left
    by_cases again : settledStatus cfg d answer = .received
    · have open' : DispatchPc.unsettled (.updateStatus d answer now) = 1 := by
        simp [DispatchPc.unsettled,DispatchPc.accepted,(settledStatus_received again).1]
      rw [open',again]
      exact due_returned ..
    · exact due_final again
  | @insertDeadLetter _ d answer now _ _ stored =>
    refine (World.record_replaceLetter (n := w.drawn+1) stored).symm ▸ ?_
    apply Nat.le_add_right_of_le
    apply Nat.add_le_add_left
    exact (due_same rfl rfl).trans_le (due_mono (Nat.zero_le _))
  | failed cause =>
    -- Only a pass with a success in hand gains by the error.
    have gain : due 0 (w.record pc.eventId) 1 ≤ due 0 (w.record pc.eventId) pc.unsettled + if pc.forgets inp then 1 else 0 := by
      cases fault : inp.fault with
      | some e =>
        apply due_le rfl
        cases pc with
        | done k result => cases cause
        | updateBreaker d mode answer => cases cause
        | insertAttempt d answer | updateStatus d answer now =>
          simp only [DispatchPc.forgets,DispatchPc.unsettled,DispatchPc.accepted,fault,Option.isSome_some,Bool.true_and]
          by_cases taken : answer.success = true <;> simp [taken]
        | _ => exact Nat.le_add_right _ _
      | none =>
        have blocked := perform_error fault cause
        cases pc with
        | insertAttempt d answer =>
          rcases blocked with taken | gone
          · exact absurd taken supplied.fresh_attempt
          · have gone : (w.record d.eventId).row = none := gone
            exact Nat.le_trans (Nat.le_of_eq (due_gone gone)) (Nat.zero_le _)
        | updateBreaker d mode answer => exact blocked.elim
        | updateStatus d answer now => exact blocked.elim
        | done k result => cases cause
        | _ => exact Nat.le_add_right _ _
    rw [Nat.add_assoc]
    exact Nat.add_le_add_left gain _
  | _ => exact Nat.le_add_right _ _

end

theorem Worker.unsettled_other {worker : Worker} (other : worker.engaged ≠ some e) : worker.unsettled e = 0 := if_neg other

theorem Worker.unsettled_dispatching (claimed parent : Uuid) (pc : DispatchPc) (p : Duration) :
    Worker.unsettled ⟨.dispatching claimed parent pc,p⟩ pc.eventId = pc.unsettled := by
  cases pc with
  | done e result =>
    cases result <;>
      simp [unsettled,engaged,WorkerPc.stage,DispatchPc.stage,Stage.engaged,DispatchPc.eventId,WorkerPc.unsettled,DispatchPc.unsettled]
  | _ => exact if_pos rfl

theorem WorkerStep.takes {x : Externals} {cfg : DispatchLoopConfig} {inp : Input} {w next : World} {worker done : Worker}
    (effect : WorkerStep x cfg inp w worker next done)
    (supplied : w.Supplied x) (coherent : worker.Coherent) (touched : worker.engaged = some e ∨ done.engaged = some e)
    (old : worker.engaged = some e → worker.pc.Reckoned (w.record e)) :
    (next.record e).taken + due 0 (next.record e) (done.unsettled e) ≤
      (w.record e).taken + due 0 (w.record e) (worker.unsettled e) + (if worker.forgets inp e then 1 else 0) := by
  obtain ⟨pc,p⟩ := worker
  obtain ⟨after,q⟩ := done
  cases effect.concerns coherent touched with
  | claim clean head =>
    rename_i row
    have found : (w.record row.id).row = some row := Db.nextReceived_event head
    have waiting : row.status = .received := (Db.nextReceived_status head).2
    have later : Worker.unsettled ⟨.dispatching row.id row.endpointId (.selectEvent row.id),q⟩ row.id = 1 :=
      Worker.unsettled_dispatching row.id row.endpointId (.selectEvent row.id) q
    have before : Worker.unsettled ⟨.idle,p⟩ row.id = 0 := rfl
    rw [World.record_withStatus,Record.taken_withStatus,due_withStatus found,due_row found,if_pos waiting,later,before,
      if_neg (by decide)]
    omega
  | dispatch moved =>
    rename_i pc after claimed parent
    have balance := moved.takes supplied (old moved.engaged)
    have forgets : Worker.forgets inp ⟨.dispatching claimed parent pc,p⟩ pc.eventId = pc.forgets inp := by
      have engaged : Worker.engaged ⟨.dispatching claimed parent pc,p⟩ = some pc.eventId := moved.engaged
      simp [Worker.forgets,engaged,WorkerPc.forgets]
    have later := Worker.unsettled_dispatching claimed parent after q
    rw [moved.same_event] at later
    rw [later,Worker.unsettled_dispatching,forgets]
    exact balance
  | errored cause =>
    rw [World.record_log rfl rfl]
    refine Nat.le_add_right_of_le (Nat.le_of_eq ?_)
    rfl
  | requeued clean =>
    rename_i cause
    rw [World.record_withStatus]
    refine Nat.le_add_right_of_le (Nat.add_le_add_left ?_ _)
    have before : Worker.unsettled ⟨.requeueing e cause,p⟩ e = 1 := if_pos rfl
    rw [before]
    exact due_returned ..
  | stranded fault =>
    refine Nat.le_add_right_of_le (Nat.add_le_add_left ?_ _)
    exact due_mono (Nat.zero_le _)

theorem ReplayStep.takes {w next : World} (effect : ReplayStep inp w pc next after) (chance : Nat) :
    (next.record e).taken + due 0 (next.record e) chance ≤
      (w.record e).taken + due 0 (w.record e) chance + (if pc.requeues e && inp.fault.isNone then 1 else 0) := by
  cases effect with
  | found clean letter => exact Nat.le_add_right _ _
  | @requeued _ dlqId eventId clean =>
    rw [World.record_setStatus]
    split
    · rename_i same
      have asked : ((ReplayPc.updateStatus dlqId eventId).requeues e && inp.fault.isNone) = true := by
        simp [ReplayPc.requeues,clean,same]
      rw [if_pos asked,Record.taken_withStatus,Nat.add_assoc]
      exact Nat.add_le_add_left (due_requeued 0 _ chance) _
    · exact Nat.le_add_right _ _
  | @cleared _ dlqId eventId clean =>
    have record : World.record {w with db:=w.db.deleteAttempts eventId} e =
        {w.record e with attempts:=if e = eventId then [] else (w.record e).attempts} :=
      Record.ext rfl (Db.attempts_deleteAttempts w.db eventId e) rfl rfl rfl
    rw [record,due_recorded]
    exact Nat.le_add_right _ _
  | @removed _ dlqId eventId clean =>
    rw [World.record_log rfl rfl]
    exact Nat.le_add_right_of_le (Nat.add_le_add_left (Nat.le_of_eq (due_same rfl rfl)) _)
  | failed error cause => exact Nat.le_add_right _ _

namespace System
variable {x : Externals} {cfg : AppConfig} {s t : State} {a : Action} {e : Uuid}

-- What makes a second delivery possible: how often a replay put the event back, and
-- how often its success was lost before it was written down.
structure Repeats where
  requeues : Nat
  forgotten : Nat

def repeats (e : Uuid) (s : State) (n : Repeats) (a : Action) (_ : State) : Repeats :=
  match a with
  | .replay r inp => if (s.replays[r]?).any (ReplayPc.requeues e) && inp.fault.isNone then {n with requeues:=n.requeues+1} else n
  | .worker i inp => if (s.workers i).forgets inp e then {n with forgotten:=n.forgotten+1} else n
  | _ => n

def delivered (e : Uuid) (s : State) : Nat := (s.world.record e).taken + due 0 (s.world.record e) ((s.workers 0).unsettled e)

structure Rationed (x : Externals) (cfg : AppConfig) (e : Uuid) (s : State) (n : Repeats) : Prop where
  tallied : ∃ spent, Tallied x cfg e s spent
  balance : delivered e s ≤ 1 + n.requeues + n.forgotten

theorem Booted.rationed (start : Booted x cfg s) : Rationed x cfg e s ⟨0,0⟩ := by
  have silent : (s.world.record e).taken = 0 := by simp [Record.taken,World.record,start.history]
  have idle : (s.workers 0).unsettled e = 0 := by rw [start.workers]; rfl
  refine ⟨⟨⟨0,0⟩,start.tallied⟩,?_⟩
  rw [delivered,silent,idle,due,Record.spare]
  split
  · simp
  · split <;> omega

theorem delivered_outside (known : Tallied x cfg e s spent) (change : RecordStep x s a e (s.world.record e) (t.world.record e))
    (quiet : a.replays = false) (workers : t.workers = s.workers) : delivered e t ≤ max 1 (delivered e s) := by
  unfold delivered
  rw [workers]
  generalize s.world.record e = r at change
  generalize t.world.record e = r' at change
  cases change with
  | same => exact Nat.le_max_right _ _
  | @created row drawn waiting =>
    have idle : (s.workers 0).engaged ≠ some e :=
      fun engaged => known.supplied.spent_engaged engaged _ (Nat.le_refl _) drawn.symm
    rw [Worker.unsettled_other idle,due_row rfl,if_pos waiting]
    exact Nat.le_max_left _ _
  | removed asked there settled =>
    rw [due_gone rfl]
    exact Nat.le_trans (Nat.le_add_right _ _) (Nat.le_max_right _ _)
  | requeued asked => rw [quiet] at asked; cases asked
  | cleared asked => rw [quiet] at asked; cases asked
  | unlisted asked dlqId => rw [quiet] at asked; cases asked

theorem delivered_pass (moved : Step x cfg s (.worker 0 inp) t) (known : Tallied x cfg e s spent) :
    delivered e t ≤ delivered e s + if (s.workers 0).forgets inp e then 1 else 0 := by
  cases moved with
  | worked live effect =>
    rename_i next after
    unfold delivered
    dsimp only
    rw [Function.update_self]
    by_cases touched : (s.workers 0).engaged = some e ∨ after.engaged = some e
    · exact effect.takes known.supplied.world (known.supplied.coherent 0) touched known.reckoned
    · obtain ⟨before,later⟩ := not_or.mp touched
      rw [effect.frame known.supplied.world (known.supplied.coherent 0) before later,Worker.unsettled_other before,
        Worker.unsettled_other later]
      exact Nat.le_add_right _ _

theorem Step.rationed_replay (moved : Step x cfg s (.replay r inp) t) (balance : delivered e s ≤ 1 + n.requeues + n.forgotten) :
    delivered e t ≤ 1 + (repeats e s n (.replay r inp) t).requeues + (repeats e s n (.replay r inp) t).forgotten := by
  cases moved with
  | replayed live present effect =>
    rename_i pc next after
    have takes : delivered e {s with world:=next,replays:=s.replays.set r after,clock:=inp.now} ≤
        delivered e s + if pc.requeues e && inp.fault.isNone then 1 else 0 := effect.takes _
    simp only [repeats,present,Option.any_some]
    split at takes
    · rename_i asked
      rw [if_pos asked]
      dsimp only
      omega
    · rename_i other
      rw [if_neg other]
      omega

theorem Step.rationed (moved : Step x cfg s a t) (alone : a.single = true) (old : Rationed x cfg e s n) :
    Rationed x cfg e t (repeats e s n a t) := by
  obtain ⟨⟨spent,known⟩,balance⟩ := old
  refine ⟨⟨_,moved.tallied alone known⟩,?_⟩
  have change : (∀ i inp, a ≠ .worker i inp) → RecordStep x s a e (s.world.record e) (t.world.record e) :=
    moved.record known.supplied
  have outside : (∀ i inp, a ≠ .worker i inp) → a.replays = false → t.workers = s.workers →
      delivered e t ≤ 1 + n.requeues + n.forgotten :=
    fun others quiet workers => Nat.le_trans (delivered_outside known (change others) quiet workers) (by omega)
  cases moved with
  | created live effect => exact outside (by simp) rfl rfl
  | deleted live effect => exact outside (by simp) rfl rfl
  | accepted live effect => exact outside (by simp) rfl rfl
  | ingestStarted live gates => exact outside (by simp) rfl rfl
  | ingested live present effect => exact outside (by simp) rfl rfl
  | restarted down => exact outside (by simp) rfl rfl
  | replayStarted live => exact balance
  | replayed live present effect =>
    have replayed : Step x cfg s _ _ := .replayed live present effect
    exact replayed.rationed_replay balance
  | worked live effect =>
    rename_i inp next after i
    have first : i = 0 := by simpa [Action.single] using alone
    subst first
    have takes := delivered_pass (Step.worked live effect) known
    simp only [repeats]
    split at takes
    · rename_i lost
      rw [if_pos lost]
      dsimp only
      omega
    · rename_i kept
      rw [if_neg kept]
      omega
  | killed live => exact Nat.le_trans (Nat.add_le_add_left (due_mono (Nat.zero_le _)) _) balance
  | shutDown live quiet => exact Nat.le_trans (Nat.add_le_add_left (due_mono (Nat.zero_le _)) _) balance

-- However the process is restarted and whatever fails, the servers take an event at
-- most once, and once more for each replay that puts it back and for each success
-- that was lost before the pass had written it down.
theorem deliveries_paid_for (start : Booted x cfg s) (e : Uuid)
    (path : Transition.Run (Transition.watch (step x cfg) (repeats e)) (fun _ a => a.single = true) ⟨s,⟨0,0⟩⟩ actions o) :
    (o.state.world.record e).taken ≤ 1 + o.notes.requeues + o.notes.forgotten := by
  have kept : ∀ (p : Transition.Watched State Repeats) a q, Rationed x cfg e p.state p.notes → a.single = true →
      Transition.watch (step x cfg) (repeats e) p a = some q → Rationed x cfg e q.state q.notes := by
    intro p a q old alone moved
    obtain ⟨stepped,notes⟩ := Transition.watch_some.mp moved
    rw [notes]
    exact (step_sound stepped).rationed alone old
  have last := path.preserves (fun p => Rationed x cfg e p.state p.notes) kept start.rationed
  have balance := last.balance
  unfold delivered at balance
  omega

def forgottenOnce : List Action :=
  registerAndAccept ++ Action.pass 0 9 (.response .ok) ++
    .worker 0 ⟨some (.failure "database is locked"),0,0,.response .ok,0⟩ :: Action.pass 0 2 (.response .ok) ++ [.kill,.restart] ++
    Action.pass 0 12 (.response .ok)

theorem deliveries_paid_for_forgotten :
    ∃ o, Transition.Run (Transition.watch (step .tabletop budgetOfOne) (repeats "11")) (fun _ a => a.single = true)
        ⟨boot budgetOfOne,⟨0,0⟩⟩ forgottenOnce o ∧
      (o.state.world.record "11").taken = 2 ∧ o.notes.requeues = 0 ∧ o.notes.forgotten = 1 ∧
      (o.state.world.record "11").taken ≤ 1 + o.notes.requeues + o.notes.forgotten := by
  have counted : (Transition.exec (Transition.watch (step .tabletop budgetOfOne) (repeats "11")) ⟨boot budgetOfOne,⟨0,0⟩⟩
      forgottenOnce).map (fun o => ((o.state.world.record "11").taken,o.notes.requeues,o.notes.forgotten)) =
      some (2,0,1) := by decide +kernel
  obtain ⟨o,reached,counts⟩ := Option.map_eq_some_iff.mp counted
  simp only [Prod.mk.injEq] at counts
  obtain ⟨taken,requeues,forgotten⟩ := counts
  have path := Transition.Run.check (fun _ a => a.single = true) reached (.all (by decide))
  exact ⟨o,path,taken,requeues,forgotten,deliveries_paid_for (boot_booted _ _) "11" path⟩

end System
end AetherRelay
