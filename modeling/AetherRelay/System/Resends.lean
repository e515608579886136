import AetherRelay.Lib.Watch
import AetherRelay.System.Budget

namespace AetherRelay

-- How often a row may be sent again after the next failure, going by the attempts
-- that are stored for it.
def Record.spare (maxAttempts : Nat) (r : Record) : Nat := maxAttempts - 1 - r.attempts.length

def DispatchPc.chance (maxAttempts : Nat) : DispatchPc → Nat
  | .await _ _ | .updateBreaker _ _ _ | .insertAttempt _ _ => 0
  | .updateStatus d _ _ => if d.attemptNum < maxAttempts then 1 else 0
  | .insertDeadLetter _ _ _ | .done _ (.ok _) => 0
  | _ => 1

def WorkerPc.chance (maxAttempts : Nat) : WorkerPc → Nat
  | .dispatching _ _ pc => pc.chance maxAttempts
  | .requeueing _ _ => 1
  | _ => 0

def Record.Pending (r : Record) : Prop := ∃ row, r.row = some row ∧ row.status.pending = true

structure Reckoned (d : Delivery) (r : Record) : Prop where
  pending : r.Pending
  count : r.attempts.length ≤ d.attemptCount
  fits : d.attemptCount < 2^32

def DispatchPc.Reckoned (r : Record) : DispatchPc → Prop
  | .selectEvent _ | .selectEndpoint _ _ _ | .countAttempts _ _ _ _ | .updateStatus _ _ _ => r.Pending
  | .checkBreaker d | .requeueDeferred d | .send d _ | .await d _ | .updateBreaker d _ _ | .insertAttempt d _ =>
    AetherRelay.Reckoned d r
  | .insertDeadLetter _ _ _ | .done _ _ => True

def WorkerPc.Reckoned (r : Record) : WorkerPc → Prop
  | .dispatching _ _ pc => pc.Reckoned r
  | _ => True

-- The requests that may still be sent for the event if nothing else goes wrong and
-- nobody asks for more.
def due (maxAttempts : Nat) (r : Record) (chance : Nat) : Nat :=
  match r.row with
  | none => 0
  | some row => r.spare maxAttempts + chance + if row.status = .received then 1 else 0

def Worker.chance (maxAttempts : Nat) (worker : Worker) (e : Uuid) : Nat :=
  if worker.held = some e then worker.pc.chance maxAttempts else 0

section
variable {r after : Record} {maxAttempts chance : Nat}

theorem due_gone (gone : r.row = none) : due maxAttempts r chance = 0 := by
  rw [due,gone]

theorem due_row (there : r.row = some row) :
    due maxAttempts r chance = r.spare maxAttempts + chance + if row.status = .received then 1 else 0 := by
  rw [due,there]

theorem due_le (same : after.row = r.row)
    (less : after.spare maxAttempts + later ≤ r.spare maxAttempts + chance + extra) :
    due maxAttempts after later ≤ due maxAttempts r chance + extra := by
  rw [due,due,same]
  cases r.row with
  | none => exact Nat.zero_le _
  | some row =>
    dsimp only
    omega

theorem due_mono (less : later ≤ chance) : due maxAttempts r later ≤ due maxAttempts r chance := by
  have bound : due maxAttempts r later ≤ due maxAttempts r chance + 0 := due_le rfl (by omega)
  exact bound

theorem due_same (row : after.row = r.row) (attempts : after.attempts = r.attempts) :
    due maxAttempts after chance = due maxAttempts r chance := by
  rw [due,due,row,Record.spare,Record.spare,attempts]

theorem due_withStatus (there : r.row = some row) (st : EventStatus) :
    due maxAttempts (r.withStatus st) chance = r.spare maxAttempts + chance + if st = .received then 1 else 0 := by
  have now : (r.withStatus st).row = some (row.withStatus st) := by simp [Record.withStatus,there]
  rw [due_row now,IncomingEventRecord.withStatus_status,Record.spare,Record.spare,Record.attempts_withStatus]

theorem due_withStatus_gone (gone : r.row = none) (st : EventStatus) :
    due maxAttempts (r.withStatus st) chance = 0 :=
  due_gone (by simp [Record.withStatus,gone])

theorem due_requeued (maxAttempts : Nat) (r : Record) (chance : Nat) :
    due maxAttempts (r.withStatus .received) chance ≤ due maxAttempts r chance + 1 := by
  cases there : r.row with
  | none => rw [due_withStatus_gone there]; exact Nat.zero_le _
  | some row =>
    rw [due_withStatus there,due_row there,if_pos rfl]
    omega

theorem due_returned (maxAttempts : Nat) (r : Record) :
    due maxAttempts (r.withStatus .received) 0 ≤ due maxAttempts r 1 := by
  cases there : r.row with
  | none => rw [due_withStatus_gone there]; exact Nat.zero_le _
  | some row =>
    rw [due_withStatus there,due_row there,if_pos rfl]
    omega

theorem due_final (final : st ≠ .received) : due maxAttempts (r.withStatus st) 0 ≤ due maxAttempts r chance := by
  cases there : r.row with
  | none => rw [due_withStatus_gone there]; exact Nat.zero_le _
  | some row =>
    rw [due_withStatus there,due_row there,if_neg final]
    omega

theorem due_cleared (maxAttempts : Nat) (r : Record) (chance : Nat) :
    due maxAttempts {r with attempts:=[]} chance ≤ due maxAttempts r chance + (maxAttempts-1) := by
  refine due_le rfl ?_
  simp only [Record.spare,List.length_nil]
  omega

theorem due_sent (there : r.row = some row) :
    r.posts + 1 + due maxAttempts {r with posts:=r.posts+1} 0 ≤ r.posts + due maxAttempts r 1 := by
  have now : ({r with posts:=r.posts+1} : Record).row = some row := there
  have same : ({r with posts:=r.posts+1} : Record).spare maxAttempts = r.spare maxAttempts := rfl
  rw [due_row now,due_row there,same]
  omega

-- The attempt that is stored uses up the request that was made, unless its number
-- wrapped and the row seems to have its whole budget again.
theorem due_stored (maxAttempts : Nat) (a : DeliveryAttempt) (count : r.attempts.length ≤ d.attemptCount) (fits : d.attemptCount < 2^32) :
    due maxAttempts {r with attempts:=r.attempts ++ [a]} (if Delivery.attemptNum d < maxAttempts then 1 else 0) ≤
      due maxAttempts r 0 + if d.attemptNum = 0 then 1 else 0 := by
  refine due_le rfl ?_
  simp only [Record.spare,List.length_append,List.length_singleton]
  by_cases wraps : d.attemptCount+1 < 2^32
  · rw [Delivery.attemptNum_fits wraps]
    split <;> omega
  · have last : d.attemptCount+1 = 2^32 := by omega
    have zero : d.attemptNum = 0 := by rw [Delivery.attemptNum,last,Nat.mod_self]
    rw [if_pos zero]
    split <;> omega

theorem Record.Pending.withStatus (pending : r.Pending) (st : EventStatus) (open' : st.pending = true) :
    (r.withStatus st).Pending := by
  obtain ⟨row,there,_⟩ := pending
  exact ⟨row.withStatus st,by simp [Record.withStatus,there],open'⟩

theorem WorkerPc.Reckoned.kept {pc : WorkerPc} (old : pc.Reckoned r) (pending : r.Pending → after.Pending)
    (fewer : after.attempts.length ≤ r.attempts.length) : pc.Reckoned after := by
  have counted : ∀ d, AetherRelay.Reckoned d r → AetherRelay.Reckoned d after :=
    fun d known => ⟨pending known.pending,Nat.le_trans fewer known.count,known.fits⟩
  cases pc with
  | dispatching claimed parent pc =>
    cases pc with
    | selectEvent e => exact pending old
    | selectEndpoint e endpointId body => exact pending old
    | countAttempts e endpointId body url => exact pending old
    | updateStatus d answer now => exact pending old
    | insertDeadLetter d answer now => trivial
    | done e result => trivial
    | _ => exact counted _ old
  | _ => trivial

theorem Record.Pending.settled {row : IncomingEventRecord} (pending : r.Pending) (there : r.row = some row) : row.status.pending = true := by
  obtain ⟨other,same,is⟩ := pending
  rw [there] at same
  cases same
  exact is

end

def DispatchPc.wraps : DispatchPc → Bool
  | .insertAttempt d _ => d.attemptNum = 0
  | _ => false

def DispatchPc.mishap (inp : Input) (pc : DispatchPc) : Bool := inp.fault.isSome || pc.wraps

section
variable {x : Externals} {cfg : DispatchLoopConfig} {inp : Input} {w next : World} {pc after : DispatchPc}

theorem DispatchStep.spends (effect : DispatchStep x cfg inp w pc next after) (supplied : w.Supplied x)
    (old : pc.Reckoned (w.record pc.eventId)) :
    (next.record pc.eventId).posts + due cfg.maxAttempts.toNat (next.record pc.eventId) (after.chance cfg.maxAttempts.toNat) ≤
      (w.record pc.eventId).posts + due cfg.maxAttempts.toNat (w.record pc.eventId) (pc.chance cfg.maxAttempts.toNat) +
        (if pc.mishap inp then 1 else 0) ∧
    after.Reckoned (next.record pc.eventId) := by
  cases effect with
  | selectEvent _ found => exact ⟨Nat.le_add_right _ _,old⟩
  | selectEndpoint _ found => exact ⟨Nat.le_add_right _ _,old⟩
  | countAttempts _ fits => exact ⟨Nat.le_add_right _ _,old,Nat.le_refl _,fits⟩
  | withheld refused => exact ⟨Nat.le_add_right _ _,old⟩
  | admitted open' => exact ⟨Nat.le_add_right _ _,old⟩
  | @requeueDeferred _ d live =>
    refine (World.record_withStatus w d.eventId .received).symm ▸ ⟨?_,trivial⟩
    exact Nat.le_add_right_of_le (Nat.add_le_add_left (due_returned ..) _)
  | @send _ d mode =>
    refine (World.record_posted w d.eventId d.endpointId d.targetUrl d.rawBody).symm ▸
      ⟨?_,old.pending,old.count,old.fits⟩
    obtain ⟨⟨row,there,_⟩,_,_⟩ := old
    exact Nat.le_add_right_of_le (due_sent there)
  | @await _ d mode =>
    refine (World.record_answered w d.eventId inp.answer).symm ▸ ⟨?_,old.pending,old.count,old.fits⟩
    exact Nat.le_add_right_of_le (Nat.add_le_add_left (Nat.le_of_eq (due_same rfl rfl)) _)
  | updateBreaker => exact ⟨Nat.le_add_right _ _,old⟩
  | @insertAttempt _ d answer _ _ stored =>
    refine (World.record_insertAttempt (n := w.drawn+1) stored).symm ▸ ⟨?_,?_⟩
    · have stored := due_stored cfg.maxAttempts.toNat (d.attempt answer (x.nowV7 w.drawn) inp.now)
        old.count old.fits
      rw [Nat.add_assoc]
      refine Nat.add_le_add_left (Nat.le_trans stored (Nat.add_le_add_left ?_ _)) _
      simp only [DispatchPc.mishap,DispatchPc.wraps]
      split <;> simp_all
    · exact old.pending
  | @exhausted d answer _ now _ spent =>
    refine (World.record_withStatus w d.eventId .failed).symm ▸ ⟨?_,trivial⟩
    exact Nat.le_add_right_of_le (Nat.add_le_add_left (due_final (by decide)) _)
  | @settled d answer _ now _ other =>
    refine (World.record_withStatus w d.eventId (settledStatus cfg d answer)).symm ▸ ⟨?_,trivial⟩
    apply Nat.le_add_right_of_le
    apply Nat.add_le_add_left
    by_cases again : settledStatus cfg d answer = .received
    · have left := (settledStatus_received again).2
      have chance : DispatchPc.chance cfg.maxAttempts.toNat (.updateStatus d answer now) = 1 := if_pos left
      rw [chance,again]
      exact due_returned ..
    · exact due_final again
  | @insertDeadLetter _ d answer now _ _ stored =>
    refine (World.record_replaceLetter (n := w.drawn+1) stored).symm ▸ ⟨?_,trivial⟩
    exact Nat.le_add_right_of_le (Nat.add_le_add_left (Nat.le_of_eq (due_same rfl rfl)) _)
  | failed cause =>
    refine ⟨?_,trivial⟩
    -- Only a pass that had sent its request or parks its row gains by the error.
    have gain : due cfg.maxAttempts.toNat (w.record pc.eventId) 1 ≤
        due cfg.maxAttempts.toNat (w.record pc.eventId) (pc.chance cfg.maxAttempts.toNat) +
          if pc.mishap inp then 1 else 0 := by
      cases fault : inp.fault with
      | some e =>
        apply due_le rfl
        simp only [DispatchPc.mishap,fault]
        simp
      | none =>
        have blocked := perform_error fault cause
        cases pc with
        | selectEndpoint e endpointId body => exact Nat.le_add_right _ _
        | countAttempts e endpointId body url => exact Nat.le_add_right _ _
        | selectEvent e =>
          have gone : (w.record e).row = none := blocked
          exact Nat.le_trans (Nat.le_of_eq (due_gone gone)) (Nat.zero_le _)
        | insertDeadLetter d answer now =>
          have gone : (w.record d.eventId).row = none := blocked
          exact Nat.le_trans (Nat.le_of_eq (due_gone gone)) (Nat.zero_le _)
        | insertAttempt d answer =>
          rcases blocked with taken | gone
          · exact absurd taken supplied.fresh_attempt
          · have gone : (w.record d.eventId).row = none := gone
            exact Nat.le_trans (Nat.le_of_eq (due_gone gone)) (Nat.zero_le _)
        | _ => exact blocked.elim
    rw [Nat.add_assoc]
    exact Nat.add_le_add_left gain _

end

def WorkerPc.wraps : WorkerPc → Bool
  | .dispatching _ _ pc => pc.wraps
  | _ => false

def Worker.mishap (inp : Input) (worker : Worker) (e : Uuid) : Bool :=
  worker.engaged = some e && (inp.fault.isSome || worker.pc.wraps)

theorem Worker.chance_dispatching (maxAttempts : Nat) (claimed parent : Uuid) (pc : DispatchPc) (p : Duration) :
    Worker.chance maxAttempts ⟨.dispatching claimed parent pc,p⟩ pc.eventId = pc.chance maxAttempts := by
  cases pc with
  | done e result => cases result <;> simp [chance,held,WorkerPc.stage,DispatchPc.stage,DispatchPc.eventId,WorkerPc.chance,DispatchPc.chance,Stage.held]
  | insertDeadLetter d answer now => simp [chance,held,WorkerPc.stage,DispatchPc.stage,DispatchPc.chance,Stage.held]
  | _ => simp [chance,held,WorkerPc.stage,DispatchPc.stage,DispatchPc.eventId,WorkerPc.chance]

theorem Worker.chance_other {worker : Worker} (other : worker.engaged ≠ some e) : worker.chance maxAttempts e = 0 := by
  apply if_neg
  intro holds
  have stage := Stage.held_some.mp holds
  exact other (by rw [engaged,stage]; rfl)

theorem WorkerStep.spends {worker done : Worker} (effect : WorkerStep x cfg inp w worker next done)
    (supplied : w.Supplied x) (coherent : worker.Coherent) (touched : worker.engaged = some e ∨ done.engaged = some e)
    (old : worker.engaged = some e → worker.pc.Reckoned (w.record e)) :
    (next.record e).posts + due cfg.maxAttempts.toNat (next.record e) (done.chance cfg.maxAttempts.toNat e) ≤
      (w.record e).posts + due cfg.maxAttempts.toNat (w.record e) (worker.chance cfg.maxAttempts.toNat e) +
        (if worker.mishap inp e then 1 else 0) ∧
    done.pc.Reckoned (next.record e) := by
  obtain ⟨pc,p⟩ := worker
  obtain ⟨after,q⟩ := done
  cases effect.concerns coherent touched with
  | claim clean head =>
    rename_i row
    have found : (w.record row.id).row = some row := Db.nextReceived_event head
    have waiting : row.status = .received := (Db.nextReceived_status head).2
    have later : Worker.chance cfg.maxAttempts.toNat ⟨.dispatching row.id row.endpointId (.selectEvent row.id),q⟩ row.id = 1 :=
      Worker.chance_dispatching _ row.id row.endpointId (.selectEvent row.id) q
    refine (World.record_withStatus w row.id .processing).symm ▸ ⟨?_,row.withStatus .processing,?_,rfl⟩
    · rw [Record.posts_withStatus,due_withStatus found,due_row found,if_pos waiting,later,if_neg (by decide)]
      omega
    · simp [Record.withStatus,found]
  | dispatch moved =>
    rename_i pc after claimed parent
    obtain ⟨balance,reckoned⟩ := moved.spends supplied (old moved.engaged)
    have mishap : Worker.mishap inp ⟨.dispatching claimed parent pc,p⟩ pc.eventId = pc.mishap inp := by
      have engaged : Worker.engaged ⟨.dispatching claimed parent pc,p⟩ = some pc.eventId := moved.engaged
      simp [Worker.mishap,engaged,DispatchPc.mishap,WorkerPc.wraps]
    have later := Worker.chance_dispatching cfg.maxAttempts.toNat claimed parent after q
    rw [moved.same_event] at later
    rw [later,Worker.chance_dispatching,mishap]
    exact ⟨balance,reckoned⟩
  | errored cause =>
    rw [World.record_log rfl rfl]
    refine ⟨Nat.le_add_right_of_le (Nat.le_of_eq ?_),trivial⟩
    simp [Worker.chance,Worker.held,WorkerPc.stage,DispatchPc.stage,DispatchPc.eventId,WorkerPc.chance,DispatchPc.chance]
  | requeued clean =>
    rename_i cause
    refine (World.record_withStatus w e .received).symm ▸ ⟨Nat.le_add_right_of_le (Nat.add_le_add_left ?_ _),trivial⟩
    have before : Worker.chance cfg.maxAttempts.toNat ⟨.requeueing e cause,p⟩ e = 1 := if_pos rfl
    rw [before]
    exact due_returned ..
  | stranded fault =>
    refine ⟨Nat.le_add_right_of_le (Nat.add_le_add_left ?_ _),trivial⟩
    exact due_mono (Nat.zero_le _)

def ReplayPc.requeues (e : Uuid) : ReplayPc → Bool
  | .updateStatus _ eventId => eventId = e
  | _ => false

def ReplayPc.clears (e : Uuid) : ReplayPc → Bool
  | .deleteAttempts _ eventId => eventId = e
  | _ => false

namespace System
variable {x : Externals} {cfg : AppConfig} {s t : State} {a : Action} {e : Uuid}

-- What has been put in by others: how often a replay put the event back, and how
-- often a section of its passes went wrong.
structure Toll where
  requeues : Nat
  mishaps : Nat

def toll (e : Uuid) (s : State) (n : Toll) (a : Action) (_ : State) : Toll :=
  match a with
  | .replay r inp => if (s.replays[r]?).any (ReplayPc.requeues e) && inp.fault.isNone then {n with requeues:=n.requeues+1} else n
  | .worker i inp => if (s.workers i).mishap inp e then {n with mishaps:=n.mishaps+1} else n
  | _ => n

structure Tallied (x : Externals) (cfg : AppConfig) (e : Uuid) (s : State) (n : Toll) : Prop where
  supplied : Supplied x s
  reckoned : (s.workers 0).engaged = some e → (s.workers 0).pc.Reckoned (s.world.record e)
  granted : s.replays.countP (ReplayPc.clears e) ≤ n.requeues
  balance : (s.world.record e).posts + due (budget cfg) (s.world.record e) ((s.workers 0).chance (budget cfg) e) +
      s.replays.countP (ReplayPc.clears e) * (budget cfg - 1) ≤
    max 1 (budget cfg) * (1 + n.requeues) + n.mishaps

theorem Booted.tallied (start : Booted x cfg s) : Tallied x cfg e s ⟨0,0⟩ := by
  have silent : (s.world.record e).posts = 0 := by simp [World.record,start.history]
  have idle : (s.workers 0).chance (budget cfg) e = 0 := by rw [start.workers]; rfl
  refine ⟨start.supplied,?_,?_,?_⟩
  · intro engaged
    rw [start.workers] at engaged
    cases engaged
  · rw [start.replays]
    exact Nat.zero_le _
  · rw [silent,idle,start.replays,due,Record.spare]
    simp only [List.countP_nil]
    split
    · simp
    · split <;> omega

theorem Tallied.outside (old : Tallied x cfg e s n) (supplied : Supplied x t) (change : RecordStep x s a e (s.world.record e) (t.world.record e))
    (quiet : a.replays = false) (workers : t.workers = s.workers)
    (replays : t.replays.countP (ReplayPc.clears e) = s.replays.countP (ReplayPc.clears e)) : Tallied x cfg e t n := by
  obtain ⟨known,reckoned,granted,balance⟩ := old
  generalize was : s.world.record e = r at change reckoned balance
  generalize is : t.world.record e = r' at change
  cases change with
  | same => exact ⟨supplied,by rw [workers,is]; exact reckoned,by rw [replays]; exact granted,by rw [workers,replays,is]; exact balance⟩
  | @created row drawn waiting =>
    have idle : (s.workers 0).engaged ≠ some e :=
      fun engaged => known.spent_engaged engaged _ (Nat.le_refl _) drawn.symm
    refine ⟨supplied,fun engaged => absurd (workers ▸ engaged) idle,by rw [replays]; exact granted,?_⟩
    rw [workers,replays,is,Worker.chance_other idle]
    have full : due (budget cfg) {Record.blank with row:=some row} 0 = max 1 (budget cfg) := by
      rw [due_row rfl,if_pos waiting]
      simp only [Record.spare,Record.blank,List.length_nil]
      omega
    rw [full]
    have few : s.replays.countP (ReplayPc.clears e) * (budget cfg - 1) ≤ n.requeues * max 1 (budget cfg) :=
      Nat.mul_le_mul granted (by omega)
    have total : max 1 (budget cfg) * (1 + n.requeues) = max 1 (budget cfg) + n.requeues * max 1 (budget cfg) := by
      rw [Nat.mul_add,Nat.mul_one,Nat.mul_comm]
    simp only [Record.blank]
    omega
  | @removed _ row asked there settled =>
    refine ⟨supplied,?_,by rw [replays]; exact granted,?_⟩
    · rw [workers,is]
      intro engaged
      apply (reckoned engaged).kept
      · intro pending
        have open' := pending.settled there
        rw [settled] at open'
        cases open'
      · exact Nat.zero_le _
    · rw [workers,replays,is,due_gone rfl]
      dsimp only
      omega
  | requeued asked => rw [quiet] at asked; cases asked
  | cleared asked => rw [quiet] at asked; cases asked
  | unlisted asked dlqId => rw [quiet] at asked; cases asked

theorem startReplay_clears (cfg : AppConfig) (headers : HeaderMap) (dlqId e : Uuid) :
    [startReplay cfg headers dlqId].countP (ReplayPc.clears e) = 0 := by
  unfold startReplay
  cases verifyApiKey headers cfg.auth.apiKeys <;> rfl

theorem clears_set {pcs : List ReplayPc} {pc : ReplayPc} {r : Nat} (there : pcs[r]? = some pc) (after : ReplayPc) (e : Uuid) :
    (pcs.set r after).countP (ReplayPc.clears e) + (if pc.clears e then 1 else 0) =
      pcs.countP (ReplayPc.clears e) + if after.clears e then 1 else 0 := by
  obtain ⟨inside,here⟩ := List.getElem?_eq_some_iff.mp there
  have counted : (if pc.clears e then 1 else 0) ≤ pcs.countP (ReplayPc.clears e) := by
    split
    · rename_i clears
      exact List.countP_pos_iff.mpr ⟨pc,List.mem_of_getElem? there,clears⟩
    · exact Nat.zero_le _
  rw [List.countP_set inside,here]
  omega

-- What a replay may do to the balance: with every request to send the row again it
-- is granted one more budget, and the clearing that is to come is paid for by it.
theorem Tallied.granting (old : Tallied x cfg e s n) (supplied : Supplied x t) (workers : t.workers = s.workers) (u : Nat)
    (posts : (t.world.record e).posts = (s.world.record e).posts)
    (pending : (s.world.record e).Pending → (t.world.record e).Pending)
    (fewer : (t.world.record e).attempts.length ≤ (s.world.record e).attempts.length)
    (granted : t.replays.countP (ReplayPc.clears e) ≤ s.replays.countP (ReplayPc.clears e) + u)
    (gain : ∀ chance, due (budget cfg) (t.world.record e) chance + t.replays.countP (ReplayPc.clears e) * (budget cfg - 1) ≤
      due (budget cfg) (s.world.record e) chance + s.replays.countP (ReplayPc.clears e) * (budget cfg - 1) +
        max 1 (budget cfg) * u) :
    Tallied x cfg e t {n with requeues:=n.requeues+u} := by
  refine ⟨supplied,?_,?_,?_⟩
  · rw [workers]
    intro engaged
    exact (old.reckoned engaged).kept pending fewer
  · exact Nat.le_trans granted (Nat.add_le_add_right old.granted u)
  · have more : max 1 (budget cfg) * (1 + (n.requeues + u)) = max 1 (budget cfg) * (1 + n.requeues) + max 1 (budget cfg) * u := by
      rw [← Nat.add_assoc,Nat.mul_add]
    have gain := gain ((s.workers 0).chance (budget cfg) e)
    have balance := old.balance
    rw [workers,posts]
    dsimp only
    omega

theorem Tallied.unchanged (old : Tallied x cfg e s n) (supplied : Supplied x t) (workers : t.workers = s.workers)
    (record : t.world.record e = s.world.record e)
    (granted : t.replays.countP (ReplayPc.clears e) ≤ s.replays.countP (ReplayPc.clears e)) : Tallied x cfg e t n := by
  have fewer : t.replays.countP (ReplayPc.clears e) * (budget cfg - 1) ≤ s.replays.countP (ReplayPc.clears e) * (budget cfg - 1) :=
    Nat.mul_le_mul_right _ granted
  refine old.granting supplied workers 0 (by rw [record]) (by rw [record]; exact id) (by rw [record]) granted ?_
  intro chance
  rw [record]
  omega

theorem Step.tallied_replay (moved : Step x cfg s (.replay r inp) t) (old : Tallied x cfg e s n) :
    Tallied x cfg e t (toll e s n (.replay r inp) t) := by
  have supplied := moved.supplied old.supplied
  cases moved with
  | replayed live present effect =>
    rename_i pc next after
    have moves := clears_set present after e
    have asked : toll e s n (.replay r inp) {s with world:=next,replays:=s.replays.set r after,clock:=inp.now} =
        if pc.requeues e && inp.fault.isNone then {n with requeues:=n.requeues+1} else n := by
      simp only [toll,present,Option.any_some]
    rw [asked]
    cases effect with
    | found clean letter => exact old.unchanged supplied rfl rfl (Nat.le_of_eq moves)
    | @requeued _ dlqId eventId clean =>
      by_cases same : eventId = e
      · subst same
        have yes : ((ReplayPc.updateStatus dlqId eventId).requeues eventId && inp.fault.isNone) = true := by
          simp [ReplayPc.requeues,clean]
        have more : (s.replays.set r (.deleteAttempts dlqId eventId)).countP (ReplayPc.clears eventId) =
            s.replays.countP (ReplayPc.clears eventId) + 1 := by
          simpa [ReplayPc.clears] using moves
        have record := s.world.record_withStatus eventId .received
        rw [if_pos yes]
        refine old.granting supplied rfl 1 (by rw [record]; rfl) ?_ (by rw [record]; exact Nat.le_refl _) (Nat.le_of_eq more) ?_
        · rw [record]
          exact fun pending => pending.withStatus .received rfl
        · intro chance
          have back := due_requeued (budget cfg) (s.world.record eventId) chance
          rw [record,more,Nat.add_one_mul,Nat.mul_one]
          omega
      · have no : ¬((ReplayPc.updateStatus dlqId eventId).requeues e && inp.fault.isNone) = true := by
          simp [ReplayPc.requeues,same]
        rw [if_neg no]
        refine old.unchanged supplied rfl ((s.world.record_setStatus ..).trans (if_neg (Ne.symm same))) ?_
        simpa [ReplayPc.clears,same] using Nat.le_of_eq moves
    | @cleared _ dlqId eventId clean =>
      rw [if_neg (by simp [ReplayPc.requeues])]
      have attempts := Db.attempts_deleteAttempts s.world.db eventId e
      by_cases same : eventId = e
      · subst same
        have fewer : (s.replays.set r (.deleteLetter dlqId eventId)).countP (ReplayPc.clears eventId) + 1 =
            s.replays.countP (ReplayPc.clears eventId) := by
          simpa [ReplayPc.clears] using moves
        rw [if_pos rfl] at attempts
        have record : World.record {s.world with db:=s.world.db.deleteAttempts eventId} eventId =
            {s.world.record eventId with attempts:=[]} := Record.ext rfl attempts rfl rfl rfl
        refine old.granting supplied rfl 0 (by rw [record]) (by rw [record]; exact id) (by rw [record]; exact Nat.zero_le _)
          (by dsimp only; omega) ?_
        intro chance
        have given := due_cleared (budget cfg) (s.world.record eventId) chance
        rw [record,← fewer,Nat.add_one_mul]
        dsimp only
        omega
      · rw [if_neg (Ne.symm same)] at attempts
        refine old.unchanged supplied rfl (Record.ext rfl attempts rfl rfl rfl) ?_
        simpa [ReplayPc.clears,same] using Nat.le_of_eq moves
    | @removed _ dlqId eventId clean =>
      rw [if_neg (by simp [ReplayPc.requeues])]
      have fewer : (s.replays.set r (.done (.ok eventId))).countP (ReplayPc.clears e) =
          s.replays.countP (ReplayPc.clears e) := moves
      have record : (({s.world with db:=s.world.db.deleteLetter dlqId} : World).log (.replayed eventId)).record e =
          {s.world.record e with letters:=(s.world.record e).letters.filter (fun d => d.id ≠ dlqId)} := by
        rw [World.record_log rfl rfl]
        exact Record.ext rfl rfl (Db.letters_deleteLetter s.world.db dlqId e) rfl rfl
      refine old.granting supplied rfl 0 (by rw [record]) (by rw [record]; exact id) (by rw [record]) (Nat.le_of_eq fewer) ?_
      intro chance
      rw [record,fewer,due_same rfl rfl]
      exact Nat.le_add_right _ _
    | failed error cause =>
      have no : ¬(pc.requeues e && inp.fault.isNone) = true := by
        rcases cause with struck | ⟨dlqId,rfl,_⟩
        · simp [struck]
        · simp [ReplayPc.requeues]
      rw [if_neg no]
      refine old.unchanged supplied rfl rfl ?_
      have none' : ReplayPc.clears e (.done (.error error)) = false := rfl
      rw [none'] at moves
      dsimp only
      simp only [Bool.false_eq_true,if_false,Nat.add_zero] at moves
      omega

theorem Step.tallied_pass (moved : Step x cfg s (.worker 0 inp) t) (old : Tallied x cfg e s n) :
    Tallied x cfg e t (toll e s n (.worker 0 inp) t) := by
  have supplied := moved.supplied old.supplied
  cases moved with
  | worked live effect =>
    rename_i next after
    have balance := old.balance
    by_cases touched : (s.workers 0).engaged = some e ∨ after.engaged = some e
    · obtain ⟨spends,reckoned⟩ := effect.spends old.supplied.world (old.supplied.coherent 0) touched old.reckoned
      have cost : ∀ m : Toll, m = toll e s n (.worker 0 inp) {s with world:=next,workers:=Function.update s.workers 0 after,clock:=inp.now} →
          m.requeues = n.requeues ∧ n.mishaps + (if (s.workers 0).mishap inp e then 1 else 0) ≤ m.mishaps := by
        intro m same
        subst same
        simp only [toll]
        split <;> simp
      obtain ⟨requeues,mishaps⟩ := cost _ rfl
      refine ⟨supplied,?_,?_,?_⟩
      · intro _
        dsimp only
        rw [Function.update_self]
        exact reckoned
      · rw [requeues]
        exact old.granted
      · rw [requeues]
        dsimp only
        rw [Function.update_self]
        have spends' : (next.record e).posts + due (budget cfg) (next.record e) (after.chance (budget cfg) e) ≤
            (s.world.record e).posts + due (budget cfg) (s.world.record e) ((s.workers 0).chance (budget cfg) e) +
              (if (s.workers 0).mishap inp e then 1 else 0) := spends
        omega
    · obtain ⟨before,later⟩ := not_or.mp touched
      have record := effect.frame old.supplied.world (old.supplied.coherent 0) before later
      have none' : (s.workers 0).mishap inp e = false := by simp [Worker.mishap,before]
      have same : toll e s n (.worker 0 inp) {s with world:=next,workers:=Function.update s.workers 0 after,clock:=inp.now} = n := by
        simp only [toll,none',Bool.false_eq_true,if_false]
      rw [same]
      refine ⟨supplied,?_,old.granted,?_⟩
      · dsimp only
        rw [Function.update_self]
        intro engaged
        exact absurd engaged later
      · dsimp only
        rw [Function.update_self,record,Worker.chance_other later]
        rw [Worker.chance_other before] at balance
        exact balance

theorem Tallied.terminated (old : Tallied x cfg e s n) (supplied : Supplied x (terminate cfg s)) :
    Tallied x cfg e (terminate cfg s) n := by
  refine ⟨supplied,?_,Nat.zero_le _,?_⟩
  · intro engaged
    cases engaged
  · have record : (terminate cfg s).world.record e = s.world.record e := rfl
    have idle : ((terminate cfg s).workers 0).chance (budget cfg) e = 0 := rfl
    have less : due (budget cfg) (s.world.record e) 0 ≤
        due (budget cfg) (s.world.record e) ((s.workers 0).chance (budget cfg) e) := due_mono (Nat.zero_le _)
    have none' : (terminate cfg s).replays.countP (ReplayPc.clears e) = 0 := rfl
    have balance := old.balance
    rw [record,idle,none',Nat.zero_mul]
    omega

theorem Step.tallied (moved : Step x cfg s a t) (alone : a.single = true) (old : Tallied x cfg e s n) :
    Tallied x cfg e t (toll e s n a t) := by
  have supplied := moved.supplied old.supplied
  have change : (∀ i inp, a ≠ .worker i inp) → RecordStep x s a e (s.world.record e) (t.world.record e) :=
    moved.record old.supplied
  cases moved with
  | created live effect => exact old.outside supplied (change (by simp)) rfl rfl rfl
  | deleted live effect => exact old.outside supplied (change (by simp)) rfl rfl rfl
  | accepted live effect => exact old.outside supplied (change (by simp)) rfl rfl rfl
  | ingestStarted live gates => exact old.outside supplied (change (by simp)) rfl rfl rfl
  | ingested live present effect => exact old.outside supplied (change (by simp)) rfl rfl rfl
  | restarted down => exact old.outside supplied (change (by simp)) rfl rfl rfl
  | replayStarted live =>
    rename_i headers dlqId inp
    refine old.unchanged supplied rfl rfl ?_
    rw [List.countP_append,startReplay_clears,Nat.add_zero]
  | replayed live present effect => exact (Step.replayed live present effect).tallied_replay old
  | worked live effect =>
    rename_i inp next after i
    have first : i = 0 := by simpa [Action.single] using alone
    subst first
    exact (Step.worked live effect).tallied_pass old
  | killed live => exact old.terminated supplied
  | shutDown live quiet => exact old.terminated supplied

-- However the process is restarted and whatever fails or is replayed, an event is
-- sent at most one budget of times, once more each time something goes wrong in
-- its pass, and one budget more for each replay that puts it back.
theorem requests_paid_for (start : Booted x cfg s) (e : Uuid)
    (path : Transition.Run (Transition.watch (step x cfg) (toll e)) (fun _ a => a.single = true) ⟨s,⟨0,0⟩⟩ actions o) :
    (o.state.world.record e).posts ≤ max 1 (budget cfg) * (1 + o.notes.requeues) + o.notes.mishaps := by
  have kept : ∀ (p : Transition.Watched State Toll) a q, Tallied x cfg e p.state p.notes → a.single = true →
      Transition.watch (step x cfg) (toll e) p a = some q → Tallied x cfg e q.state q.notes := by
    intro p a q old alone moved
    obtain ⟨stepped,notes⟩ := Transition.watch_some.mp moved
    rw [notes]
    exact (step_sound stepped).tallied alone old
  have last := path.preserves (fun p => Tallied x cfg e p.state p.notes) kept start.tallied
  have balance := last.balance
  omega

def replayedOnce : List Action :=
  registerAndAccept ++ Action.pass 0 13 (.error "connection refused") ++
    .startReplay [] "1111" ⟨none,0,0,.error "",0⟩ :: List.replicate 4 (.replay 0 ⟨none,0,0,.error "",0⟩) ++
    Action.pass 0 13 (.error "connection refused") ++ [.kill,.restart]

theorem requests_paid_for_replayed :
    ∃ o, Transition.Run (Transition.watch (step .tabletop budgetOfOne) (toll "11")) (fun _ a => a.single = true)
        ⟨boot budgetOfOne,⟨0,0⟩⟩ replayedOnce o ∧
      (o.state.world.record "11").posts = 2 ∧ o.notes.requeues = 1 ∧ o.notes.mishaps = 0 ∧
      (o.state.world.record "11").posts ≤ max 1 (budget budgetOfOne) * (1 + o.notes.requeues) + o.notes.mishaps := by
  have counted : (Transition.exec (Transition.watch (step .tabletop budgetOfOne) (toll "11")) ⟨boot budgetOfOne,⟨0,0⟩⟩
      replayedOnce).map (fun o => ((o.state.world.record "11").posts,o.notes.requeues,o.notes.mishaps)) =
      some (2,1,0) := by decide +kernel
  obtain ⟨o,reached,counts⟩ := Option.map_eq_some_iff.mp counted
  simp only [Prod.mk.injEq] at counts
  obtain ⟨posts,requeues,mishaps⟩ := counts
  have path := Transition.Run.check (fun _ a => a.single = true) reached (.all (by decide))
  exact ⟨o,path,posts,requeues,mishaps,requests_paid_for (boot_booted _ _) "11" path⟩

end System
end AetherRelay
