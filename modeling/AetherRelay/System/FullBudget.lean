import AetherRelay.System.Serial

namespace AetherRelay.System
variable {x : Externals} {cfg : AppConfig} {s t : State} {a : Action} {e dlqId : Uuid} {r : Nat} {actions : List Action}

structure Called (r : Nat) (dlqId e : Uuid) (s : State) : Prop where
  up : s.running = true
  call : s.replays[r]? = some (.selectLetter dlqId)
  listed : (s.world.db.letter dlqId).map (·.eventId) = some e
  failed : s.world.db.status e = some .failed

deriving instance DecidableEq for ReplayPc

instance : Decidable (Called r dlqId e s) :=
  decidable_of_iff (s.running = true ∧ s.replays[r]? = some (.selectLetter dlqId) ∧
    (s.world.db.letter dlqId).map (·.eventId) = some e ∧ s.world.db.status e = some .failed)
    ⟨fun ⟨up,call,listed,failed⟩ => ⟨up,call,listed,failed⟩,fun ⟨up,call,listed,failed⟩ => ⟨up,call,listed,failed⟩⟩

-- One step of the call or of a pass that does not take the old attempts for new.
def Uncrossed (r : Nat) (e : Uuid) (s : State) (a : Action) : Prop := Interleaves r s a ∧ crosses r e s a = false

instance : Decidable (Uncrossed r e s a) := inferInstanceAs (Decidable (_ ∧ _))

structure FullBudget (x : Externals) (cfg : AppConfig) (r : Nat) (dlqId e : Uuid) (s : State) (actions : List Action)
    (t : State) : Prop where
  budget : ∀ earlier inp later v u, actions = earlier ++ .replay r inp :: later →
    Transition.exec (step x cfg) s earlier = some v → v.replays[r]? = some (.updateStatus dlqId e) →
    step x cfg v (.replay r inp) = some u →
    Transition.Always (step x cfg) (fun w => w.world.db.status e = some .failed →
      (∃ letter ∈ w.world.db.letters e, letter.id ≠ dlqId) →
      (v.world.record e).failures + (loopConfig cfg).maxAttempts.toNat ≤ (w.world.record e).failures) u later
  numbers : (t.world.db.attempts e).map (·.attemptNumber) = List.range' 1 (t.world.db.attemptCount e)
  serial : (t.workers 0).pc.between = true →
    ∃ z, Serialized x cfg r e s actions z ∧ (z.workers 0).pc.between = true ∧ z.world.db = t.world.db

theorem Interleaves.up (allowed : Interleaves r s a) (moved : step x cfg s a = some t) (up : s.running = true) :
    t.running = true := by
  have party := allowed.party
  cases step_sound moved with
  | worked _ effect => exact up
  | replayed _ present effect => exact up
  | _ => cases party

section budget

theorem Restarted.next (old : Restarted cfg dlqId e base pc s) (here : s.replays[r]? = some pc) (supplied : Supplied x s)
    (allowed : Uncrossed r e s a) (moved : step x cfg s a = some t) :
    ∃ pc, t.replays[r]? = some pc ∧ Restarted cfg dlqId e base pc t := by
  obtain ⟨allowed,apart⟩ := allowed
  cases allowed.moves moved with
  | worker live effect replays =>
    exact ⟨pc,replays ▸ here,old.worker supplied live here effect apart⟩
  | replay live present effect after workers =>
    cases here.symm.trans present
    exact ⟨_,after,old.replay_step live effect workers⟩

theorem Restarted.after_run (old : Restarted cfg dlqId e base pc s) (here : s.replays[r]? = some pc) (supplied : Supplied x s)
    (path : Transition.Run (step x cfg) (Uncrossed r e) s actions t) :
    ∃ pc, t.replays[r]? = some pc ∧ Restarted cfg dlqId e base pc t := by
  have both : Supplied x t ∧ ∃ pc, t.replays[r]? = some pc ∧ Restarted cfg dlqId e base pc t := by
    refine path.preserves (fun u => Supplied x u ∧ ∃ pc, u.replays[r]? = some pc ∧ Restarted cfg dlqId e base pc u)
      ?_ ⟨supplied,pc,here,old⟩
    intro u a v ⟨supplied,pc,here,old⟩ allowed moved
    exact ⟨(step_sound moved).supplied supplied,old.next here supplied allowed moved⟩
  exact both.2

inductive Progress (cfg : AppConfig) (r : Nat) (dlqId e : Uuid) (s : State) : Prop where
  | parked (here : s.replays[r]? = some pc) (place : pc = .selectLetter dlqId ∨ pc = .updateStatus dlqId e)
      (parked : Parked dlqId e s) : Progress cfg r dlqId e s
  | restarted (here : s.replays[r]? = some pc) (restarted : Restarted cfg dlqId e base pc s) : Progress cfg r dlqId e s

theorem Parked.selected (old : Parked dlqId e s) (live : inp.fault = none)
    (effect : ReplayStep inp s.world (.selectLetter dlqId) t.world after) (workers : t.workers = s.workers) :
    after = .updateStatus dlqId e ∧ Parked dlqId e t := by
  generalize ended : t.world = next at effect
  obtain ⟨row,present,same⟩ := old.found
  cases effect with
  | found _ found =>
    cases found.symm.trans present
    refine ⟨by rw [same],?_,?_,?_⟩
    · rw [ended]
      exact old.status
    · rw [ended]
      exact old.letter
    · rw [workers]
      exact old.free
  | failed cause reason =>
    rcases reason with struck | ⟨id,start,gone⟩
    · exact absurd live struck
    · cases start
      cases gone.symm.trans present

theorem Progress.next (old : Progress cfg r dlqId e s) (supplied : Supplied x s) (allowed : Uncrossed r e s a)
    (moved : step x cfg s a = some t) : Progress cfg r dlqId e t := by
  cases old with
  | restarted here old =>
    obtain ⟨pc,here,restarted⟩ := old.next here supplied allowed moved
    exact .restarted here restarted
  | parked here place old =>
    cases allowed.1.moves moved with
    | worker live effect replays => exact .parked (replays ▸ here) place (old.worker supplied effect)
    | replay live present effect after workers =>
      cases here.symm.trans present
      rcases place with rfl | rfl
      · obtain ⟨rfl,parked⟩ := old.selected live effect workers
        exact .parked after (.inr rfl) parked
      · exact .restarted after (old.restarts live effect workers)

theorem Progress.after_run (old : Progress cfg r dlqId e s) (supplied : Supplied x s)
    (path : Transition.Run (step x cfg) (Uncrossed r e) s actions t) : Progress cfg r dlqId e t ∧ Supplied x t := by
  refine path.preserves (fun u => Progress cfg r dlqId e u ∧ Supplied x u) ?_ ⟨old,supplied⟩
  intro u a v ⟨old,supplied⟩ allowed moved
  exact ⟨old.next supplied allowed moved,(step_sound moved).supplied supplied⟩

theorem budget_after (start : Progress cfg r dlqId e s) (supplied : Supplied x s)
    (path : Transition.Run (step x cfg) (Uncrossed r e) s actions t) (parts : actions = earlier ++ .replay r inp :: later)
    (reached : Transition.exec (step x cfg) s earlier = some v) (here : v.replays[r]? = some (.updateStatus dlqId e))
    (first : step x cfg v (.replay r inp) = some u) :
    Transition.Always (step x cfg) (fun w => w.world.db.status e = some .failed →
      (v.world.record e).failures + (loopConfig cfg).maxAttempts.toNat ≤ (w.world.record e).failures) u later := by
  obtain ⟨v',before,_⟩ := path.split parts
  cases Option.some.inj (reached.symm.trans before.exec)
  have allowed := path.each earlier _ later v parts reached
  obtain ⟨progress,spent⟩ := start.after_run supplied before
  have rejoined : actions = (earlier ++ [.replay r inp]) ++ later := by simpa using parts
  obtain ⟨u',through,after⟩ := path.split rejoined
  cases Option.some.inj ((Transition.exec_snoc reached first).symm.trans through.exec)
  have restarted : ∃ pc, u.replays[r]? = some pc ∧ Restarted cfg dlqId e (v.world.record e).failures pc u := by
    cases progress with
    | restarted at' old =>
      cases here.symm.trans at'
      cases old.begun
    | parked at' place parked =>
      cases allowed.1.moves first with
      | replay live present effect now workers =>
        cases here.symm.trans present
        exact ⟨_,now,parked.restarts live effect workers⟩
  obtain ⟨pc,now,restarted⟩ := restarted
  refine after.always fun earlier w path gone => ?_
  obtain ⟨pc,_,afterwards⟩ := restarted.after_run now ((step_sound first).supplied spent) path
  exact afterwards.afresh.failed gone

end budget

section order

inductive Underway (x : Externals) (cfg : AppConfig) (r : Nat) (dlqId e : Uuid) (s : State) (actions : List Action)
    (u : State) : Prop where
  | early (here : u.replays[r]? = some pc) (same : Early x cfg r dlqId e s actions pc u z)
      (place : pc = .selectLetter dlqId ∨ pc = .updateStatus dlqId e ∨
        (pc.Begun dlqId e ∧ (u.workers 0).pc.between = false)) : Underway x cfg r dlqId e s actions u
  | late (here : u.replays[r]? = some pc) (same : Late x cfg r dlqId e s actions pc u z) :
      Underway x cfg r dlqId e s actions u

theorem Early.underway (early : Early x cfg r dlqId e s actions pc u z) (here : u.replays[r]? = some pc)
    (place : pc = .selectLetter dlqId ∨ pc = .updateStatus dlqId e ∨ pc.Begun dlqId e) :
    Underway x cfg r dlqId e s actions u := by
  rcases place with start | start | begun
  · exact .early here early (.inl start)
  · exact .early here early (.inr (.inl start))
  · cases between : (u.workers 0).pc.between with
    | false => exact .early here early (.inr (.inr ⟨begun,between⟩))
    | true =>
      obtain ⟨z,late⟩ := early.late begun between
      exact .late here late

theorem Underway.next (old : Underway x cfg r dlqId e s actions u) (supplied : Supplied x u) (up : u.running = true)
    (allowed : Uncrossed r e u a) (moved : step x cfg u a = some t) :
    Underway x cfg r dlqId e s (actions ++ [a]) t := by
  obtain ⟨allowed,apart⟩ := allowed
  cases old with
  | @early pc _ here early place =>
    cases allowed.moves moved with
    | worker live effect replays =>
      have claims : (u.workers 0).pc = .idle → pc.written dlqId e = id := by
        intro idle
        rcases place with rfl | rfl | ⟨_,busy⟩
        · rfl
        · rfl
        · rw [idle] at busy
          cases busy
      obtain ⟨z,next⟩ := early.step_pass up allowed moved claims
      exact next.underway (replays ▸ here) (place.imp_right (.imp_right And.left))
    | replay live present effect after workers =>
      cases here.symm.trans present
      obtain ⟨next,place⟩ := early.step_call (place.imp_right (.imp_right And.left)) live effect workers
      exact next.underway after (.inr place)
  | late here late =>
    cases allowed.moves moved with
    | worker live effect replays =>
      obtain ⟨z,next⟩ := late.step_pass supplied up allowed apart here moved
      exact .late (replays ▸ here) next
    | replay live present effect after workers =>
      cases here.symm.trans present
      exact .late after (late.step_call live effect workers)

theorem underway_run (start : Underway x cfg r dlqId e s [] s) (supplied : Supplied x s) (up : s.running = true)
    (path : Transition.Run (step x cfg) (Uncrossed r e) s actions t) :
    Underway x cfg r dlqId e s actions t ∧ Supplied x t ∧ t.running = true := by
  induction path with
  | nil => exact ⟨start,supplied,up⟩
  | snoc prior allowed moved ih =>
    obtain ⟨old,supplied,up⟩ := ih
    exact ⟨old.next supplied up allowed moved,(step_sound moved).supplied supplied,allowed.1.up moved up⟩

theorem Underway.ended (old : Underway x cfg r dlqId e s actions t) (here : t.replays[r]? = some (.done result))
    (between : (t.workers 0).pc.between = true) :
    ∃ z, Serialized x cfg r e s actions z ∧ (z.workers 0).pc.between = true ∧ z.world.db = t.world.db := by
  cases old with
  | early at' early place =>
    cases at'.symm.trans here
    rcases place with start | start | ⟨_,busy⟩
    · cases start
    · cases start
    · rw [between] at busy
      cases busy
  | @late _ z at' late =>
    cases at'.symm.trans here
    refine ⟨z,late.order,?_,late.mirrors.db⟩
    rw [late.worker]
    exact (WorkerPc.between_recount _).trans between

end order

-- replay_dlq on the letter of a FAILED event that no pass has in hand, in any
-- interleaving with the passes of the loop in which none of them takes the
-- attempts the replay deletes for its own.
theorem replay_full_budget (booted : Booted x cfg b) (past : Transition.exec (step x cfg) b before = some s)
    (called : Called r dlqId e s) (free : (s.workers 0).engaged ≠ some e)
    (path : Transition.Run (step x cfg) (Uncrossed r e) s actions t)
    (returned : t.replays[r]? = some (.done (.ok e))) : FullBudget x cfg r dlqId e s actions t := by
  obtain ⟨up,call,listed,failed⟩ := called
  obtain ⟨row,listed,same⟩ := Option.map_eq_some_iff.mp listed
  have supplied : Supplied x s :=
    booted.supplied_after (Transition.Run.check (fun _ _ => True) past (.all fun _ _ => trivial))
  have stored : row ∈ s.world.db.letters e := List.mem_filter.mpr ⟨Table.lookup_mem listed,by simpa using same⟩
  have parked : Parked dlqId e s := ⟨failed,⟨row,stored,Table.lookup_key listed⟩,free⟩
  have start : Progress cfg r dlqId e s := .parked call (.inl rfl) parked
  have early : Early x cfg r dlqId e s [] (.selectLetter dlqId) s s :=
    ⟨rfl,up,supplied,call,parked,⟨rfl,rfl,rfl⟩,rfl⟩
  refine ⟨?_,?_,?_⟩
  · intro earlier inp later v u parts reached here first one two w rest reached' gone _
    exact budget_after start supplied path parts reached here first one two w rest reached' gone
  · obtain ⟨progress,_⟩ := start.after_run supplied path
    cases progress with
    | parked here place _ =>
      cases here.symm.trans returned
      rcases place with start | start
      · cases start
      · cases start
    | restarted here restarted =>
      cases here.symm.trans returned
      exact restarted.afresh.numbers
  · intro between
    obtain ⟨underway,_⟩ := underway_run (.early call early (.inl rfl)) supplied up path
    exact underway.ended returned between

def budgetOfTwo : AppConfig := {AppConfig.default with worker := {AppConfig.default.worker with maxAttempts:=2}}

def replayOfFailed : List Action :=
  registerAndAccept ++ Action.pass 0 12 (.error "connection refused") ++
    Action.pass 0 13 (.error "connection refused") ++ [.startReplay [] "11111" calm]

-- The pass claims the event between two statements of the replay and counts its
-- attempts when they are gone.
def claimedBetween : List Action :=
  [.replay 0 calm,.replay 0 calm] ++ Action.pass 0 3 (.error "connection refused") ++ [.replay 0 calm] ++
    Action.pass 0 5 (.error "connection refused") ++ [.replay 0 calm] ++ Action.pass 0 4 (.error "connection refused")

theorem replay_full_budget_between :
    ∃ s t, Transition.exec (step .tabletop budgetOfTwo) (boot budgetOfTwo) replayOfFailed = some s ∧
      FullBudget .tabletop budgetOfTwo 0 "11111" "11" s claimedBetween t := by
  have ran : ((Transition.exec (step .tabletop budgetOfTwo) (boot budgetOfTwo) replayOfFailed).bind fun s =>
      (Transition.exec (Transition.guard (step .tabletop budgetOfTwo) (Uncrossed 0 "11")) s claimedBetween).map fun t =>
        (decide (Called 0 "11111" "11" s),decide ((s.workers 0).engaged ≠ some "11"),
          decide (t.replays[0]? = some (.done (.ok "11"))))) = some (true,true,true) := by decide +kernel
  obtain ⟨s,past,rest⟩ := Option.bind_eq_some_iff.mp ran
  obtain ⟨t,path,seen⟩ := Option.map_eq_some_iff.mp rest
  simp only [Prod.mk.injEq,decide_eq_true_eq] at seen
  obtain ⟨called,free,returned⟩ := seen
  exact ⟨s,t,past,replay_full_budget (boot_booted _ _) past called free (Transition.Run.guarded path) returned⟩

-- The pass counts the attempts before they are gone: the first failure after the
-- replay is the third, and the event is back in the queue of dead letters.
def countedBefore : List Action :=
  [.replay 0 calm,.replay 0 calm] ++ Action.pass 0 4 (.error "connection refused") ++
    [.replay 0 calm,.replay 0 calm] ++ Action.pass 0 8 (.error "connection refused")

theorem replay_evicts_at_once :
    ∃ s t, Transition.exec (step .tabletop budgetOfTwo) (boot budgetOfTwo) replayOfFailed = some s ∧
      Called 0 "11111" "11" s ∧ (s.workers 0).engaged ≠ some "11" ∧
      Transition.Run (step .tabletop budgetOfTwo) (Interleaves 0) s countedBefore t ∧
      t.replays[0]? = some (.done (.ok "11")) ∧
      ¬FullBudget .tabletop budgetOfTwo 0 "11111" "11" s countedBefore t := by
  have ran : ((Transition.exec (step .tabletop budgetOfTwo) (boot budgetOfTwo) replayOfFailed).bind fun s =>
      (Transition.exec (step .tabletop budgetOfTwo) s [.replay 0 calm]).bind fun v =>
      (step .tabletop budgetOfTwo v (.replay 0 calm)).bind fun u =>
      (Transition.exec (Transition.guard (step .tabletop budgetOfTwo) (Interleaves 0)) s countedBefore).map fun t =>
        (decide (Called 0 "11111" "11" s ∧ (s.workers 0).engaged ≠ some "11" ∧
          v.replays[0]? = some (.updateStatus "11111" "11") ∧ t.replays[0]? = some (.done (.ok "11"))),
          t.world.db.status "11",(t.world.db.letters "11").map (·.id),(v.world.record "11").failures,
          (t.world.record "11").failures)) =
      some (true,some .failed,["1111111"],2,3) := by decide +kernel
  obtain ⟨s,past,rest⟩ := Option.bind_eq_some_iff.mp ran
  obtain ⟨v,first,rest⟩ := Option.bind_eq_some_iff.mp rest
  obtain ⟨u,second,rest⟩ := Option.bind_eq_some_iff.mp rest
  obtain ⟨t,path,seen⟩ := Option.map_eq_some_iff.mp rest
  simp only [Prod.mk.injEq,decide_eq_true_eq] at seen
  obtain ⟨⟨called,free,here,returned⟩,again,letters,old,new⟩ := seen
  have path := Transition.Run.guarded path
  refine ⟨s,t,past,called,free,path,returned,fun full => ?_⟩
  obtain ⟨letter,member,name⟩ : ∃ letter ∈ t.world.db.letters "11", letter.id = "1111111" := by
    apply List.mem_map.mp
    rw [letters]
    exact List.mem_singleton_self _
  have ended : Transition.exec (step .tabletop budgetOfTwo) u (countedBefore.drop 2) = some t := by
    have whole := path.exec
    change Transition.exec _ s ([.replay 0 calm] ++ .replay 0 calm :: countedBefore.drop 2) = _ at whole
    rw [Transition.exec_append,first,Option.bind_some] at whole
    simpa only [Transition.exec,second,Option.bind_some] using whole
  have bound := full.budget [.replay 0 calm] calm (countedBefore.drop 2) v u rfl first here second
    (countedBefore.drop 2) [] t (List.append_nil _).symm ended again
    ⟨letter,member,by rw [name]; decide⟩
  rw [old,new] at bound
  exact absurd bound (by decide)

end AetherRelay.System
