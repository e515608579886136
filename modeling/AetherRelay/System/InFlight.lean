import AetherRelay.System.Deletion

namespace AetherRelay

def DispatchPc.sectionsLeft : DispatchPc → Nat
  | .selectEvent _ => 10
  | .selectEndpoint _ _ _ => 9
  | .countAttempts _ _ _ _ => 8
  | .checkBreaker _ => 7
  | .send _ _ => 6
  | .await _ _ => 5
  | .updateBreaker _ _ _ => 4
  | .insertAttempt _ _ => 3
  | .updateStatus _ _ _ => 2
  | .insertDeadLetter _ _ _ | .requeueDeferred _ => 1
  | .done _ _ => 0

theorem DispatchStep.sectionsLeft (effect : DispatchStep x cfg inp w pc next after) :
    after.sectionsLeft < pc.sectionsLeft := by
  cases effect with
  | failed cause =>
    cases pc with
    | done e result => cases cause
    | _ => simp [DispatchPc.sectionsLeft]
  | _ => simp [DispatchPc.sectionsLeft]

theorem DispatchPc.running_of_left {pc : DispatchPc} (left : pc.sectionsLeft ≠ 0) : ∀ id r, pc ≠ .done id r := by
  intro id r same
  rw [same] at left
  exact left rfl

theorem Worker.Coherent.eventId {worker : Worker} {pc : DispatchPc} (coherent : worker.Coherent)
    (flies : worker.pc = .dispatching e parent pc) : pc.eventId = e := by
  unfold Worker.Coherent at coherent
  simpa only [flies] using coherent

def DispatchPc.Serves (parent : Uuid) : DispatchPc → Prop
  | .selectEvent _ | .done _ _ => True
  | .selectEndpoint _ endpointId _ | .countAttempts _ endpointId _ _ => endpointId = parent
  | .checkBreaker d | .requeueDeferred d | .send d _ | .await d _ | .updateBreaker d _ _ | .insertAttempt d _
  | .updateStatus d _ _ | .insertDeadLetter d _ _ => d.endpointId = parent

-- The row of the event while its pass is in flight: PROCESSING up to the UPDATE,
-- and from there to the letter only known to be there.
def DispatchPc.Standing (db : Db) (e parent : Uuid) : DispatchPc → Prop
  | .done _ result => ∃ r, result = .ok r
  | .insertDeadLetter _ _ _ => ∃ row, db.event e = some row ∧ row.endpointId = parent
  | _ => ∃ row, db.event e = some row ∧ row.endpointId = parent ∧ row.status = .processing

section
variable {x : Externals} {cfg : DispatchLoopConfig} {inp : Input} {w next : World} {pc after : DispatchPc}

theorem DispatchPc.Standing.row (standing : pc.Standing w.db e parent) (running : ∀ id r, pc ≠ .done id r) :
    ∃ row, w.db.event e = some row ∧ row.endpointId = parent := by
  cases pc with
  | done id r => exact absurd rfl (running id r)
  | insertDeadLetter d answer now => exact standing
  | _ =>
    obtain ⟨row,found,child,_⟩ := standing
    exact ⟨row,found,child⟩

theorem DispatchStep.stands (effect : DispatchStep x cfg inp w pc next after) (live : inp.fault = none)
    (supplied : w.Supplied x) (mine : pc.eventId = e) (serves : pc.Serves parent) (standing : pc.Standing w.db e parent)
    (fits : ∀ id endpointId body url, pc = .countAttempts id endpointId body url → w.db.attemptCount id < 2^32) :
    after.Serves parent ∧ after.Standing next.db e parent := by
  cases effect with
  | selectEvent _ found =>
    obtain rfl := mine
    obtain ⟨row,stored,child,status⟩ := standing
    cases found.symm.trans stored
    exact ⟨child,⟨_,stored,child,status⟩⟩
  | selectEndpoint _ found => exact ⟨serves,standing⟩
  | countAttempts _ fits => exact ⟨serves,standing⟩
  | withheld refused => exact ⟨serves,standing⟩
  | admitted open' => exact ⟨serves,standing⟩
  | requeueDeferred _ => exact ⟨trivial,⟨_,rfl⟩⟩
  | send => exact ⟨serves,standing⟩
  | await => exact ⟨serves,standing⟩
  | updateBreaker =>
    obtain ⟨row,stored,rest⟩ := standing
    exact ⟨serves,⟨row,stored,rest⟩⟩
  | insertAttempt _ stored =>
    obtain ⟨_,_,_,events,_⟩ := Db.insertAttempt_parts stored
    obtain ⟨row,found,rest⟩ := standing
    exact ⟨serves,⟨row,(Db.event_congr events).trans found,rest⟩⟩
  | @exhausted d answer now _ spent =>
    obtain ⟨row,found,child,_⟩ := standing
    have mine : d.eventId = e := mine
    refine ⟨serves,⟨row.withStatus .failed,?_,child⟩⟩
    rw [Db.event_setStatus,if_pos mine.symm,found]
    rfl
  | settled _ other => exact ⟨trivial,⟨_,rfl⟩⟩
  | insertDeadLetter _ stored => exact ⟨trivial,⟨_,rfl⟩⟩
  | failed cause =>
    have blocked := perform_error live cause
    have running : ∀ id r, pc ≠ .done id r := by
      rintro id r rfl
      cases cause
    obtain ⟨row,found,child⟩ := standing.row running
    subst mine
    cases pc with
    | selectEvent id => cases found.symm.trans blocked
    | selectEndpoint id endpointId body =>
      obtain ⟨target,there⟩ := Db.endpoint_of_event found
      have same : endpointId = row.endpointId := serves.trans child.symm
      cases there.symm.trans (same ▸ blocked)
    | countAttempts id endpointId body url => exact absurd (fits id endpointId body url rfl) (Nat.not_lt.mpr blocked)
    | insertAttempt d answer =>
      rcases blocked with taken | gone
      · exact absurd taken supplied.fresh_attempt
      · cases found.symm.trans gone
    | insertDeadLetter d answer now => cases found.symm.trans blocked
    | _ => exact blocked.elim

theorem DispatchStep.files (effect : DispatchStep x cfg inp w (.insertDeadLetter d answer now) next after)
    (live : inp.fault = none) (found : w.db.event d.eventId = some row) :
    ∃ letter ∈ next.db.deadLetterQueue.rows, letter.eventId = d.eventId := by
  cases effect with
  | insertDeadLetter _ stored =>
    obtain ⟨_,letters,_⟩ := Db.replaceLetter_parts stored
    refine ⟨d.letter answer (x.nowV7 w.drawn) now,?_,rfl⟩
    rw [letters]
    exact List.mem_append_right _ (List.mem_singleton_self _)
  | failed cause => cases found.symm.trans (perform_error live cause)

end

def WorkerPc.sectionsLeft : WorkerPc → Nat
  | .dispatching _ _ pc => pc.sectionsLeft
  | _ => 0

def WorkerPc.parksFor : WorkerPc → Option Uuid
  | .dispatching _ parent (.insertDeadLetter _ _ _) => some parent
  | _ => none

def WorkerPc.countsFor : WorkerPc → Option Uuid
  | .dispatching _ _ (.countAttempts id _ _ _) => some id
  | _ => none

namespace System
variable {x : Externals} {cfg : AppConfig}

def OfPass (i : Nat) (s : Open) : OpenAction → Prop
  | .relay (.worker j inp) => j = i ∧ inp.fault = none ∧ (s.relay.workers i).pc.sectionsLeft ≠ 0
  | .relay _ => False
  | .startDelete _ _ | .delete _ _ => True

-- No delete of the endpoint goes through between the UPDATE to FAILED and the
-- letter, and the attempts the pass counts fit.
def Undisturbed (i : Nat) (s : Open) : OpenAction → Prop
  | .delete d inp => ∀ id snapshot, s.deletes[d]? = some (.deleteRow id snapshot) → inp.fault = none →
      s.relay.world.db = snapshot → (s.relay.workers i).pc.parksFor ≠ some id
  | .relay _ => ∀ id ∈ (s.relay.workers i).pc.countsFor, s.relay.world.db.attemptCount id < 2^32
  | .startDelete _ _ => True

structure Aloft (x : Externals) (i : Nat) (e parent : Uuid) (s : Open) : Prop where
  opened : Opened x s
  running : s.relay.running = true
  flies : ∃ pc, (s.relay.workers i).pc = .dispatching e parent pc ∧ pc.Serves parent ∧
    pc.Standing s.relay.world.db e parent

structure Unharmed (i : Nat) (e parent : Uuid) (s t : Open) : Prop where
  event : ∃ row, s.relay.world.db.event e = some row
  endpoint : ∃ row, s.relay.world.db.endpoint parent = some row
  goes : ∀ id error, (t.relay.workers i).pc ≠ .dispatching e parent (.done id (.error error))
  letter : ∀ d answer now, (s.relay.workers i).pc = .dispatching e parent (.insertDeadLetter d answer now) →
    ∃ letter ∈ t.relay.world.db.deadLetterQueue.rows, letter.eventId = e

theorem Standing.delete {pc : DispatchPc} {db : Db} (old : pc.Standing db e parent) (drained : db.pendingCount k = 0)
    (apart : ∀ d answer now, pc = .insertDeadLetter d answer now → k ≠ parent) :
    pc.Standing (db.deleteEndpoint k) e parent := by
  cases pc with
  | done id result => exact old
  | insertDeadLetter d answer now =>
    obtain ⟨row,found,child⟩ := old
    refine ⟨row,?_,child⟩
    rw [Db.event_deleteEndpoint,found]
    have other : row.endpointId ≠ k := fun same => apart d answer now rfl (same.symm.trans child)
    exact Option.filter_some_pos (by simpa using other)
  | _ =>
    obtain ⟨row,found,child,status⟩ := old
    exact ⟨row,Db.event_kept drained found (by rw [status]; rfl),child,status⟩

theorem WorkerStep.passes {w next : World} (effect : WorkerStep x loop inp w worker next after)
    (flies : worker.pc = .dispatching e parent pc) (left : pc.sectionsLeft ≠ 0) :
    ∃ pc', after.pc = .dispatching e parent pc' ∧ DispatchStep x loop inp w pc next pc' := by
  cases effect with
  | dispatch moved =>
    cases flies
    exact ⟨_,rfl,moved⟩
  | returned result =>
    cases flies
    exact absurd rfl left
  | errored e =>
    cases flies
    exact absurd rfl left
  | _ => cases flies

theorem Aloft.step {s t : Open} (moved : openStep x cfg s a = some t) (ours : OfPass i s a) (undisturbed : Undisturbed i s a)
    (old : Aloft x i e parent s) : Aloft x i e parent t ∧ ∀ inp, a = .relay (.worker i inp) → Unharmed i e parent s t := by
  have step := openStep_sound moved
  have opened := step.opened old.opened
  clear moved
  obtain ⟨old,up,pc,flies,serves,standing⟩ := old
  cases step with
  | started _ => exact ⟨⟨opened,up,pc,flies,serves,standing⟩,fun inp acted => by cases acted⟩
  | @deleted d call inp next after _ present effect =>
    refine ⟨⟨opened,up,pc,flies,serves,?_⟩,fun inp acted => by cases acted⟩
    cases effect with
    | counted live drained => exact standing
    | refused e => exact standing
    | @committed id row live found =>
      have drained : s.relay.world.db.pendingCount id = 0 := old.drained _ (List.mem_of_getElem? present)
      refine Standing.delete standing drained fun delivery answer now here same => ?_
      subst here same
      exact undisturbed id s.relay.world.db present live rfl (by rw [flies]; rfl)
  | @relay action relay inner other =>
    cases action with
    | worker j inp =>
      obtain ⟨rfl,live,left⟩ := ours
      have left : pc.sectionsLeft ≠ 0 := by rwa [flies] at left
      have mine : pc.eventId = e := (old.supplied.coherent j).eventId flies
      have fits : ∀ id endpointId body url, pc = .countAttempts id endpointId body url →
          s.relay.world.db.attemptCount id < 2^32 :=
        fun id endpointId body url same => undisturbed id (by rw [flies,same]; rfl)
      cases inner with
      | worked serving effect =>
        rename_i next after
        obtain ⟨pc',ahead,moved⟩ := WorkerStep.passes effect flies left
        obtain ⟨serves',standing'⟩ := moved.stands live old.supplied.world mine serves standing fits
        have ahead : (Function.update s.relay.workers j after j).pc = .dispatching e parent pc' := by
          rw [Function.update_self,ahead]
        refine ⟨⟨opened,up,pc',ahead,serves',standing'⟩,fun inp' acted => ?_⟩
        obtain ⟨row,found,child⟩ := standing.row (DispatchPc.running_of_left left)
        obtain ⟨target,there⟩ := Db.endpoint_of_event found
        refine ⟨⟨row,found⟩,⟨target,child ▸ there⟩,fun id error failed => ?_,fun d answer now before => ?_⟩
        · cases ahead.symm.trans failed
          obtain ⟨r,good⟩ : ∃ r, Except.error error = .ok r := standing'
          cases good
        · cases flies.symm.trans before
          obtain ⟨letter,filed,child'⟩ := moved.files live (mine.symm ▸ found)
          exact ⟨letter,filed,child'.trans mine⟩
    | _ => exact ours.elim

def Returns (x : Externals) (cfg : AppConfig) (i : Nat) (e parent : Uuid) (taken : Nat) (s : Open) : Prop :=
  ∃ pc, (s.relay.workers i).pc = .dispatching e parent pc ∧ pc.sectionsLeft + taken ≤ 10 ∧
    (pc.sectionsLeft = 0 → ∃ r, pc = .done e (.ok r)) ∧
    (pc.sectionsLeft ≠ 0 → ∀ inp, (openStep x cfg s (.relay (.worker i inp))).isSome = true)

def OpenAction.relays : OpenAction → Bool
  | .relay _ => true
  | _ => false

theorem dispatchStep_total (x : Externals) (loop : DispatchLoopConfig) (inp : Input) (w : World) {pc : DispatchPc}
    (left : pc.sectionsLeft ≠ 0) : ∃ next, dispatchStep x loop inp w pc = some next := by
  have running := DispatchPc.running_of_left left
  cases performed : pc.perform x loop inp w with
  | ok next => exact ⟨next,dispatchStep_ok running performed⟩
  | error e => exact ⟨_,dispatchStep_error performed⟩

theorem openStep_passes {s : Open} (up : s.relay.running = true)
    (flies : (s.relay.workers i).pc = .dispatching e parent pc) (left : pc.sectionsLeft ≠ 0) (inp : Input) :
    (openStep x cfg s (.relay (.worker i inp))).isSome = true := by
  obtain ⟨next,moved⟩ := dispatchStep_total x (loopConfig cfg) inp s.relay.world left
  have running := DispatchPc.running_of_left left
  have worker : s.relay.workers i = ⟨.dispatching e parent pc,(s.relay.workers i).prevSleep⟩ := by rw [← flies]
  have served : step x cfg s.relay (.worker i inp) = some {s.relay with
      world:=next.1,
      workers:=Function.update s.relay.workers i ⟨.dispatching e parent next.2,(s.relay.workers i).prevSleep⟩,
      clock:=inp.now} := by
    have inner : workerStep x (loopConfig cfg) inp s.relay.world (s.relay.workers i) =
        some (next.1,⟨.dispatching e parent next.2,(s.relay.workers i).prevSleep⟩) := by
      rw [worker,workerStep_dispatching running,moved]
      rfl
    unfold step
    rw [if_pos up]
    simp only [serve,inner]
    rfl
  simp only [openStep,served]
  rfl

theorem Aloft.returns {s : Open} (aloft : Aloft x i e parent s)
    (few : ∀ pc, (s.relay.workers i).pc = .dispatching e parent pc → pc.sectionsLeft + taken ≤ 10) :
    Returns x cfg i e parent taken s := by
  obtain ⟨opened,up,pc,flies,serves,standing⟩ := aloft
  refine ⟨pc,flies,few pc flies,fun none => ?_,fun left inp => openStep_passes up flies left inp⟩
  have mine := (opened.supplied.coherent i).eventId flies
  cases pc with
  | done id result =>
    obtain ⟨r,rfl⟩ := standing
    obtain rfl : id = e := mine
    exact ⟨r,rfl⟩
  | _ => cases none

theorem WorkerStep.advances {w next : World} (effect : WorkerStep x loop inp w worker next after)
    (left : worker.pc.sectionsLeft ≠ 0) (here : after.pc = .dispatching e parent pc) :
    ∃ before, worker.pc = .dispatching e parent before ∧ pc.sectionsLeft < before.sectionsLeft := by
  cases effect with
  | dispatch moved =>
    cases here
    exact ⟨_,rfl,moved.sectionsLeft⟩
  | claim live head => exact absurd rfl left
  | _ => cases here

theorem sectionsLeft_step {s t : Open} (moved : openStep x cfg s a = some t) (ours : OfPass i s a)
    (few : ∀ pc, (s.relay.workers i).pc = .dispatching e parent pc → pc.sectionsLeft + taken ≤ 10) :
    ∀ pc, (t.relay.workers i).pc = .dispatching e parent pc →
      pc.sectionsLeft + (taken + if a.relays = true then 1 else 0) ≤ 10 := by
  intro pc here
  cases openStep_sound moved with
  | started up => exact few pc here
  | deleted up present effect => exact few pc here
  | @relay action relay inner other =>
    cases action with
    | worker j inp =>
      obtain ⟨rfl,live,left⟩ := ours
      cases inner with
      | worked serving effect =>
        simp only [Function.update_self] at here
        obtain ⟨before,flies,less⟩ := WorkerStep.advances effect left here
        have bound := few before flies
        simp only [OpenAction.relays,if_true]
        omega
    | _ => exact ours.elim

theorem sectionsLeft_run {s t : Open}
    (path : Transition.Run (openStep x cfg) (fun u a => OfPass i u a ∧ Undisturbed i u a) s actions t)
    (head : (s.relay.workers i).pc = .dispatching e parent (.selectEvent e)) :
    ∀ pc, (t.relay.workers i).pc = .dispatching e parent pc → pc.sectionsLeft + actions.countP (·.relays) ≤ 10 := by
  induction path with
  | nil =>
    intro pc here
    cases head.symm.trans here
    exact Nat.le_refl _
  | snoc _ ok moved ih =>
    rw [List.countP_append,List.countP_singleton]
    exact sectionsLeft_step moved ok.1 ih

theorem claimed_aloft {s t : Open} (opened : Opened x s) (idle : (s.relay.workers i).pc = .idle)
    (claims : openStep x cfg s (.relay (.worker i inp)) = some t)
    (head : (t.relay.workers i).pc = .dispatching e parent pc) : Aloft x i e parent t ∧ pc = .selectEvent e := by
  have later := (openStep_sound claims).opened opened
  cases openStep_sound claims with
  | relay inner other =>
    cases inner with
    | worked up effect =>
      rename_i next after
      have mine : after.pc = .dispatching e parent pc := by simpa only [Function.update_self] using head
      generalize hand : s.relay.workers i = worker at effect
      rw [hand] at idle
      cases effect with
      | claim live next =>
        cases mine
        refine ⟨⟨later,up,_,head,trivial,?_⟩,rfl⟩
        exact ⟨_,Db.event_claimed next,rfl,rfl⟩
      | dispatch moved => cases idle
      | _ => cases mine

-- A pass that has claimed its event is not harmed by any deletes as long as none of
-- them goes through between the UPDATE to FAILED and the letter.
theorem in_flight_unharmed (start : Booted x cfg b)
    (before : Transition.exec (openStep x cfg) (.start b) earlier = some s) (idle : (s.relay.workers i).pc = .idle)
    (claims : openStep x cfg s (.relay (.worker i inp)) = some t)
    (head : (t.relay.workers i).pc = .dispatching e parent pc)
    (path : Transition.Run (openStep x cfg) (fun u a => OfPass i u a ∧ Undisturbed i u a) t actions u) :
    Transition.EachStep (openStep x cfg) (fun v a => ∀ inp w, a = .relay (.worker i inp) →
        openStep x cfg v a = some w → Unharmed i e parent v w) t actions ∧
      Returns x cfg i e parent (actions.countP (·.relays)) u := by
  have reached := Transition.Run.check (fun _ _ => True) before (.all fun _ _ => trivial)
  have opened := reached.preserves (Opened x) (fun s a t old _ moved => (openStep_sound moved).opened old) start.opened
  obtain ⟨aloft,rfl⟩ := claimed_aloft opened idle claims head
  have kept : ∀ v a w, Aloft x i e parent v → OfPass i v a ∧ Undisturbed i v a → openStep x cfg v a = some w →
      Aloft x i e parent w := fun v a w old ok moved => (old.step moved ok.1 ok.2).1
  constructor
  · exact (path.strengthen (Aloft x i e parent) kept aloft
      fun v a old ok inp w acted moved => (old.step moved ok.1 ok.2).2 inp acted).each
  · exact (path.preserves (Aloft x i e parent) kept aloft).returns (sectionsLeft_run path head)

instance (i : Nat) (s : Open) (a : OpenAction) : Decidable (OfPass i s a) := by
  unfold OfPass
  split <;> infer_instance

instance (i : Nat) (s : Open) (a : OpenAction) : Decidable (Undisturbed i s a) :=
  match a with
  | .startDelete _ _ => .isTrue trivial
  | .relay _ => inferInstanceAs (Decidable (∀ id ∈ (s.relay.workers i).pc.countsFor, _))
  | .delete d inp => inferInstanceAs (Decidable (∀ id snapshot, s.deletes[d]? = some (.deleteRow id snapshot) →
      inp.fault = none → s.relay.world.db = snapshot → (s.relay.workers i).pc.parksFor ≠ some id))

def refusedInFlight : List OpenAction :=
  asRelay (Action.pass 0 4 (.error "timeout")) ++ [.startDelete [] "1",.delete 0 ⟨none,0,0,.error "",0⟩] ++
    asRelay (Action.pass 0 6 (.error "timeout"))

deriving instance DecidableEq for DispatchPc
deriving instance DecidableEq for WorkerPc

theorem in_flight_unharmed_refused :
    ∃ s t u, Transition.exec (openStep .tabletop budgetOfOne) (.start (boot budgetOfOne)) (asRelay registerAndAccept) = some s ∧
      openStep .tabletop budgetOfOne s (.relay (.worker 0 ⟨none,0,0,.error "",0⟩)) = some t ∧
      Transition.exec (openStep .tabletop budgetOfOne) t refusedInFlight = some u ∧
      Returns .tabletop budgetOfOne 0 "11" "1" 10 u := by
  have ran : ((Transition.exec (openStep .tabletop budgetOfOne) (.start (boot budgetOfOne))
      (asRelay registerAndAccept)).bind fun s =>
        (openStep .tabletop budgetOfOne s (.relay (.worker 0 ⟨none,0,0,.error "",0⟩))).bind fun t =>
          (Transition.exec (Transition.guard (openStep .tabletop budgetOfOne)
            (fun u a => OfPass 0 u a ∧ Undisturbed 0 u a)) t refusedInFlight).map fun _ =>
              decide ((s.relay.workers 0).pc = .idle ∧
                (t.relay.workers 0).pc = .dispatching "11" "1" (.selectEvent "11"))) = some true := by decide +kernel
  obtain ⟨s,before,rest⟩ := Option.bind_eq_some_iff.mp ran
  obtain ⟨t,claims,rest⟩ := Option.bind_eq_some_iff.mp rest
  obtain ⟨u,reached,here⟩ := Option.map_eq_some_iff.mp rest
  obtain ⟨idle,head⟩ := of_decide_eq_true here
  have path := Transition.Run.guarded reached
  exact ⟨s,t,u,before,claims,path.exec,
    (in_flight_unharmed (boot_booted .tabletop budgetOfOne) before idle claims head path).2⟩

-- The delete goes through in the gap: the letter finds no event, and the pass
-- returns the error of its foreign key.
theorem dead_letter_lost :
    ∃ s u, Transition.exec (openStep .tabletop budgetOfOne) (.start (boot budgetOfOne))
        (asRelay (registerAndAccept ++ Action.pass 0 10 (.error "timeout")) ++ deleteCall "1") = some s ∧
      openStep .tabletop budgetOfOne s (.relay (.worker 0 ⟨none,0,0,.error "",0⟩)) = some u ∧
      (∃ d answer now, (s.relay.workers 0).pc = .dispatching "11" "1" (.insertDeadLetter d answer now)) ∧
      (u.relay.workers 0).pc = .dispatching "11" "1" (.done "11" (.error (.database .foreignKeyConstraint))) ∧
      u.relay.world.db.deadLetterQueue.rows = [] ∧ ¬Unharmed 0 "11" "1" s u := by
  have ran : ((Transition.exec (openStep .tabletop budgetOfOne) (.start (boot budgetOfOne))
      (asRelay (registerAndAccept ++ Action.pass 0 10 (.error "timeout")) ++ deleteCall "1")).bind fun s =>
        (openStep .tabletop budgetOfOne s (.relay (.worker 0 ⟨none,0,0,.error "",0⟩))).map fun u =>
          decide ((s.relay.workers 0).pc = .dispatching "11" "1" (.insertDeadLetter
              ⟨"11","1","https://hooks.example.com/in",[],0⟩ (.error "timeout") 0) ∧
            (u.relay.workers 0).pc = .dispatching "11" "1" (.done "11" (.error (.database .foreignKeyConstraint))) ∧
            u.relay.world.db.deadLetterQueue.rows = [])) = some true := by decide +kernel
  obtain ⟨s,before,rest⟩ := Option.bind_eq_some_iff.mp ran
  obtain ⟨u,moved,here⟩ := Option.map_eq_some_iff.mp rest
  obtain ⟨parks,failed,none⟩ := of_decide_eq_true here
  exact ⟨s,u,before,moved,⟨_,_,_,parks⟩,failed,none,fun unharmed => unharmed.goes _ _ failed⟩

end System
end AetherRelay
