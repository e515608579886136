import AetherRelay.Lib.Ownership
import AetherRelay.Lib.Transition
import AetherRelay.Api.Endpoints
import AetherRelay.Api.Management
import AetherRelay.Core.Idempotency
import AetherRelay.Worker.Steps

namespace AetherRelay

namespace CircuitBreaker
variable {cb : CircuitBreaker} {now : Instant}

def Guarding (cb : CircuitBreaker) : Prop := cb.state = .halfOpen ∧ cb.probeInFlight = true

theorem observe_halfOpen (half : cb.state = .halfOpen) : cb.observe now = cb := by
  simp [observe,half]

theorem observe_closed : (cb.observe now).state = .closed ↔ cb.state = .closed := by
  unfold observe
  split
  · rename_i til is until'
    split <;> simp [is]
  · rfl

theorem canAttempt_guarding (guarding : cb.Guarding) : cb.canAttempt now = (cb,false) := by
  simp [canAttempt,observe_halfOpen guarding.1,guarding.1,guarding.2]

theorem canAttempt_closed : (cb.canAttempt now).1.state = .closed ↔ cb.state = .closed := by
  refine Iff.trans ?_ (@observe_closed cb now)
  unfold canAttempt
  dsimp only
  split
  · exact Iff.rfl
  · split <;> exact Iff.rfl
  · exact Iff.rfl

theorem canAttempt_probe (admitted : (cb.canAttempt now).2 = true) (half : (cb.observe now).state = .halfOpen) :
    (cb.canAttempt now).1.Guarding := by
  by_cases taken : (cb.observe now).probeInFlight = true
  · simp [canAttempt,half,taken] at admitted
  · simp [canAttempt,half,taken,Guarding]

theorem record_closed {answer : Bool} (was : cb.state ≠ .closed) (now' : (cb.record answer now).state = .closed) :
    answer = true := by
  cases answer with
  | true => rfl
  | false =>
    simp only [record,recordFailure,Bool.false_eq_true,if_false] at now'
    split at now'
    · cases now'
    · exact absurd now' was

end CircuitBreaker

namespace Breakers

theorem record_other {breakers : Breakers} (other : e ≠ endpointId) :
    breakers.record endpointId success now e = breakers e := by
  cases found : breakers endpointId with
  | none => simp [record,found]
  | some cb => simp [record,found,Function.update_of_ne other]

theorem record_self {breakers : Breakers} (found : breakers endpointId = some cb) :
    breakers.record endpointId success now endpointId = some (cb.record success now) := by
  simp [record,found]

end Breakers

structure Call where
  cfg : DispatchLoopConfig
  pc : DispatchPc

namespace Probes

structure State where
  world : World
  calls : Nat → Option Call

inductive Action where
  | call (r : Nat) (cfg : DispatchLoopConfig) (eventId : Uuid)
  | advance (r : Nat) (inp : Input)
  | others (db : Db) (drawn : Nat)

def step (x : Externals) (s : State) : Action → Option State
  | .call r cfg eventId =>
    match s.calls r with
    | none => some {s with calls:=Function.update s.calls r (some ⟨cfg,.selectEvent eventId⟩)}
    | some _ => none
  | .advance r inp => do
    let call ← s.calls r
    let (next,pc) ← dispatchStep x call.cfg inp s.world call.pc
    return ⟨next,Function.update s.calls r (some {call with pc:=pc})⟩
  | .others db drawn => some {s with world:={s.world with db:=db,drawn:=drawn}}

inductive Step (x : Externals) (s : State) : Action → State → Prop where
  | call (unused : s.calls r = none) :
      Step x s (.call r cfg eventId) {s with calls:=Function.update s.calls r (some ⟨cfg,.selectEvent eventId⟩)}
  | advance (running : s.calls r = some call) (effect : DispatchStep x call.cfg inp s.world call.pc next after) :
      Step x s (.advance r inp) ⟨next,Function.update s.calls r (some {call with pc:=after})⟩
  | others : Step x s (.others db drawn) {s with world:={s.world with db:=db,drawn:=drawn}}

theorem step_sound (moved : step x s a = some t) : Step x s a t := by
  cases a with
  | call r cfg eventId =>
    simp only [step] at moved
    split at moved
    · rename_i unused; cases moved; exact .call unused
    · cases moved
  | advance r inp =>
    obtain ⟨call,running,moved⟩ := Option.bind_eq_some_iff.mp moved
    obtain ⟨⟨next,after⟩,inner,equal⟩ := Option.bind_eq_some_iff.mp moved
    cases equal
    exact .advance running (dispatchStep_sound inner)
  | others db drawn => cases moved; exact .others

def probing : Option Call → Option Uuid
  | some ⟨_,.send d mode⟩ | some ⟨_,.await d mode⟩ | some ⟨_,.updateBreaker d mode _⟩ =>
    if mode = .halfOpen then some d.endpointId else none
  | _ => none

def recording (s : State) : Action → Option (Delivery × CircuitState × Answer)
  | .advance r _ => match s.calls r with
    | some ⟨_,.updateBreaker d mode answer⟩ => some (d,mode,answer)
    | _ => none
  | _ => none

def Guarded (s : State) (endpointId : Uuid) : Prop := ∃ cb, s.world.breakers endpointId = some cb ∧ cb.Guarding

def SingleProbe (s : State) : Prop :=
  ∀ r r' endpointId, probing (s.calls r) = some endpointId → probing (s.calls r') = some endpointId → r = r'

def OnlyProbesClose (x : Externals) (s : State) (a : Action) : Prop :=
  ∀ t endpointId before after, step x s a = some t →
    s.world.breakers endpointId = some before → before.state ≠ .closed →
    t.world.breakers endpointId = some after → after.state = .closed →
    ∃ d answer, recording s a = some (d,.halfOpen,answer) ∧ d.endpointId = endpointId ∧ answer.success = true

-- The result of a call that was admitted in Closed comes before the circuit has
-- left Closed, or is a failure that finds no probe out.
def Timely (s : State) (a : Action) : Prop :=
  ∀ d mode answer cb, recording s a = some (d,mode,answer) → mode ≠ .halfOpen →
    s.world.breakers d.endpointId = some cb → if answer.success then cb.state = .closed else ¬cb.Guarding

section
variable {x : Externals} {s t : State} {a : Action}

theorem probing_send : probing (some ⟨cfg,.send d mode⟩) = some e ↔ mode = .halfOpen ∧ d.endpointId = e := by
  simp [probing]

theorem probing_recording :
    probing (some ⟨cfg,.updateBreaker d mode answer⟩) = some e ↔ mode = .halfOpen ∧ d.endpointId = e := by
  simp [probing]

theorem checkBreaker_guarded {w : World} (guarded : w.breakers endpointId = some cb) (guarding : cb.Guarding) :
    (checkBreaker cfg w inp endpointId).2 = true ∧
      (checkBreaker cfg w inp endpointId).1.breakers endpointId = some cb := by
  have entry : w.breakers.entry cfg.circuitFailureThreshold cfg.circuitRecovery endpointId = cb := by
    simp [Breakers.entry,guarded]
  simp [checkBreaker,entry,CircuitBreaker.canAttempt_guarding guarding]

theorem checkBreaker_other {w : World} (other : e ≠ endpointId) :
    (checkBreaker cfg w inp endpointId).1.breakers e = w.breakers e :=
  Function.update_of_ne other ..

theorem Step.exclusive (moved : Step x s a t) (timely : Timely s a)
    (old : Ownership.Exclusive probing s.calls (Guarded s)) : Ownership.Exclusive probing t.calls (Guarded t) := by
  cases moved with
  | others => exact old.outside fun _ _ _ guarded => guarded
  | call unused =>
    exact old.move (fun e has => by cases has) fun _ guarded _ => guarded
  | @advance r call inp next after running effect =>
    obtain ⟨cfg,pc⟩ := call
    have same : next.breakers = s.world.breakers → (∀ e, probing (some ⟨cfg,after⟩) = some e → probing (s.calls r) = some e) →
        Ownership.Exclusive probing (Function.update s.calls r (some ⟨cfg,after⟩))
          (Guarded ⟨next,Function.update s.calls r (some ⟨cfg,after⟩)⟩) := by
      intro kept mine
      have still : ∀ e, Guarded s e → Guarded ⟨next,Function.update s.calls r (some ⟨cfg,after⟩)⟩ e := by
        rintro e ⟨cb,found,guarding⟩
        exact ⟨cb,(congrFun kept e).trans found,guarding⟩
      exact old.move (fun e has => ⟨still e (old.taken r e (mine e has)),.inl (mine e has)⟩) fun e guarded _ => still e guarded
    cases effect with
    | withheld refused =>
      rename_i d
      apply old.move (fun e has => by cases has)
      intro e guarded _
      obtain ⟨cb,found,guarding⟩ := guarded
      by_cases here : e = d.endpointId
      · subst here
        exact ⟨cb,(checkBreaker_guarded found guarding).2,guarding⟩
      · exact ⟨cb,(checkBreaker_other here).trans found,guarding⟩
    | admitted admitted =>
      rename_i d
      have unguarded : ¬Guarded s d.endpointId := by
        rintro ⟨cb,found,guarding⟩
        rw [(checkBreaker_guarded found guarding).1] at admitted
        cases admitted
      refine old.move (fun e has => ?_) fun e guarded _ => ?_
      · obtain ⟨half,rfl⟩ := probing_send.mp has
        refine ⟨⟨_,Function.update_self ..,?_⟩,.inr unguarded⟩
        exact CircuitBreaker.canAttempt_probe (by simpa [checkBreaker] using admitted) half
      · obtain ⟨cb,found,guarding⟩ := guarded
        have other : e ≠ d.endpointId := by
          intro equal
          subst equal
          exact unguarded ⟨cb,found,guarding⟩
        exact ⟨cb,(checkBreaker_other other).trans found,guarding⟩
    | updateBreaker =>
      rename_i d mode answer
      apply old.move (fun e has => by cases has)
      intro e guarded mine
      obtain ⟨cb,found,guarding⟩ := guarded
      have other : e ≠ d.endpointId := by
        intro equal
        subst equal
        rw [running] at mine
        have late : mode ≠ .halfOpen := fun half => mine (probing_recording.mpr ⟨half,rfl⟩)
        have allowed := timely d mode answer cb (by simp [recording,running]) late found
        split at allowed
        · rw [guarding.1] at allowed
          cases allowed
        · exact allowed guarding
      exact ⟨cb,(Breakers.record_other other).trans found,guarding⟩
    | send => exact same rfl fun e has => by rw [running]; exact has
    | await => exact same rfl fun e has => by rw [running]; exact has
    | _ => exact same rfl fun e has => by cases has

theorem Step.closes (moved : Step x s a t) (timely : Timely s a) (was : s.world.breakers e = some before)
    (opened : before.state ≠ .closed) (now : t.world.breakers e = some after) (closed : after.state = .closed) :
    ∃ d answer, recording s a = some (d,.halfOpen,answer) ∧ d.endpointId = e ∧ answer.success = true := by
  have unmoved : t.world.breakers e ≠ s.world.breakers e := by
    intro same
    rw [same,was] at now
    cases now
    exact opened closed
  have asked : ∀ {cfg inp d}, (checkBreaker cfg s.world inp d).1.breakers e = some after → False := by
    intro cfg inp d checked
    by_cases here : e = d
    · subst here
      have entry : s.world.breakers.entry cfg.circuitFailureThreshold cfg.circuitRecovery e = before := by
        simp [Breakers.entry,was]
      have same : (before.canAttempt inp.instant).1 = after := by simpa [checkBreaker,entry] using checked
      exact opened (CircuitBreaker.canAttempt_closed.mp (same.symm ▸ closed))
    · rw [checkBreaker_other here,was] at checked
      cases checked
      exact opened closed
  cases moved with
  | others => exact absurd rfl unmoved
  | call unused => exact absurd rfl unmoved
  | @advance r call inp next done running effect =>
    obtain ⟨cfg,pc⟩ := call
    cases effect with
    | withheld refused => exact (asked now).elim
    | admitted admitted => exact (asked now).elim
    | updateBreaker =>
      rename_i d mode answer
      have here : e = d.endpointId := by
        by_contra other
        exact unmoved (Breakers.record_other other)
      subst here
      have recorded := (Breakers.record_self was).symm.trans now
      cases recorded
      have success : answer.success = true := CircuitBreaker.record_closed opened closed
      have reported : recording s (.advance r inp) = some (d,mode,answer) := by simp [recording,running]
      by_cases probe : mode = .halfOpen
      · exact ⟨d,answer,probe ▸ reported,rfl,success⟩
      · have allowed := timely d mode answer before reported probe was
        rw [if_pos success] at allowed
        exact absurd allowed opened
    | _ => exact absurd rfl unmoved

end

-- What the breaker promises holds on every run in which no result of a call that
-- was admitted in Closed comes late. The breaker cannot tell such a result apart.
theorem probes_single_when (idle : ∀ r, s.calls r = none)
    (path : Transition.Run (step x) Timely s actions t) :
    Transition.Always (step x) SingleProbe s actions ∧ Transition.EachStep (step x) (OnlyProbesClose x) s actions := by
  have start : Ownership.Exclusive probing s.calls (Guarded s) := .nothing fun r => by rw [idle]; rfl
  have kept : ∀ u a v, Ownership.Exclusive probing u.calls (Guarded u) → Timely u a → step x u a = some v →
      Ownership.Exclusive probing v.calls (Guarded v) :=
    fun u a v old timely moved => (step_sound moved).exclusive timely old
  constructor
  · exact path.always fun _ u prior => (prior.preserves _ kept start).alone
  · refine path.each.imp fun u a timely v endpointId before after moved was opened now closed => ?_
    exact (step_sound moved).closes timely was opened now closed

instance (s : State) (a : Action) : Decidable (Timely s a) :=
  decidable_of_iff (∀ p ∈ recording s a, p.2.1 ≠ .halfOpen → ∀ cb ∈ s.world.breakers p.1.endpointId,
      if p.2.2.success then cb.state = .closed else ¬(cb.state = .halfOpen ∧ cb.probeInFlight = true))
    ⟨fun every d mode answer cb reported late found => every (d,mode,answer) reported late cb found,
      fun timely p reported late cb found => timely p.1 p.2.1 p.2.2 cb reported late found⟩

def calm : Input := ⟨none,0,0,.error "connection refused",0⟩

def crowd : World :=
  ["a","b","c","d"].foldl (fun w key => (acceptEvent .tabletop calm w "1" key [] "{}").1)
    (createEndpoint .tabletop .default calm ⟨.empty,fun _ => none,0,[]⟩ []
      ⟨"orders","generic","secret","https://hooks.example.com/in"⟩).1

def brittle : DispatchLoopConfig := {DispatchLoopConfig.fromAppConfig .default with circuitFailureThreshold:=1}

def goOut (r : Nat) (eventId : Uuid) (instant : Instant) : List Action :=
  .call r brittle eventId :: List.replicate 5 (.advance r {calm with instant:=instant})

def comeBack (r : Nat) (answer : Answer) (instant : Instant) : List Action :=
  List.replicate 2 (.advance r {calm with answer:=answer,instant:=instant})

theorem probes_single_recovery :
    ∃ t, Transition.Run (step .tabletop) Timely ⟨crowd,fun _ => none⟩
        (goOut 0 "11" 0 ++ comeBack 0 (.error "timeout") 1 ++ goOut 1 "111" (1+brittle.circuitRecovery) ++
          comeBack 1 (.response .ok) (2+brittle.circuitRecovery)) t ∧
      Transition.Always (step .tabletop) SingleProbe ⟨crowd,fun _ => none⟩
        (goOut 0 "11" 0 ++ comeBack 0 (.error "timeout") 1 ++ goOut 1 "111" (1+brittle.circuitRecovery) ++
          comeBack 1 (.response .ok) (2+brittle.circuitRecovery)) := by
  have served : (Transition.exec (Transition.guard (step .tabletop) Timely) ⟨crowd,fun _ => none⟩
      (goOut 0 "11" 0 ++ comeBack 0 (.error "timeout") 1 ++ goOut 1 "111" (1+brittle.circuitRecovery) ++
        comeBack 1 (.response .ok) (2+brittle.circuitRecovery))).isSome = true := by decide +kernel
  obtain ⟨t,reached⟩ := Option.isSome_iff_exists.mp served
  have path := Transition.Run.guarded reached
  exact ⟨t,path,(probes_single_when (fun _ => rfl) path).1⟩

-- Two calls go out in Closed. One fails and opens the circuit, and the success
-- of the other one closes it again at once.
def lateSuccess : List Action :=
  goOut 0 "11" 0 ++ goOut 1 "111" 0 ++ comeBack 0 (.error "timeout") 1 ++ [.advance 1 {calm with answer:=.response .ok}]

-- The other one fails while a probe is out. The slot is freed, and after the
-- next window a second probe joins the first.
def lateFailure : List Action :=
  goOut 0 "11" 0 ++ goOut 1 "111" 0 ++ comeBack 0 (.error "timeout") 1 ++ goOut 2 "1111" (1+brittle.circuitRecovery) ++
    comeBack 1 (.error "timeout") (1+brittle.circuitRecovery) ++ goOut 3 "11111" (1+2*brittle.circuitRecovery)

theorem late_results_break_circuit :
    (∃ s, Transition.exec (step .tabletop) ⟨crowd,fun _ => none⟩ lateSuccess = some s ∧
      ¬OnlyProbesClose .tabletop s (.advance 1 calm)) ∧
    ∃ s, Transition.exec (step .tabletop) ⟨crowd,fun _ => none⟩ lateFailure = some s ∧ ¬SingleProbe s := by
  constructor
  · have closes : (Transition.exec (step .tabletop) ⟨crowd,fun _ => none⟩ lateSuccess).map (fun s =>
        ((s.world.breakers "1").map (·.state),(recording s (.advance 1 calm)).map (fun p => p.2.1),
          (step .tabletop s (.advance 1 calm)).bind (fun t => (t.world.breakers "1").map (·.state)))) =
        some (some .open,some .closed,some .closed) := by decide +kernel
    obtain ⟨s,reached,seen⟩ := Option.map_eq_some_iff.mp closes
    simp only [Prod.mk.injEq] at seen
    obtain ⟨opened,admitted,closed⟩ := seen
    obtain ⟨before,was,state⟩ := Option.map_eq_some_iff.mp opened
    obtain ⟨t,moved,ended⟩ := Option.bind_eq_some_iff.mp closed
    obtain ⟨after,now,shut⟩ := Option.map_eq_some_iff.mp ended
    refine ⟨s,reached,fun only => ?_⟩
    obtain ⟨d,answer,reported,_⟩ := only t "1" before after moved was (by rw [state]; decide) now shut
    rw [reported] at admitted
    cases admitted
  · have both : (Transition.exec (step .tabletop) ⟨crowd,fun _ => none⟩ lateFailure).map (fun s =>
        (probing (s.calls 2),probing (s.calls 3))) = some (some "1",some "1") := by decide +kernel
    obtain ⟨s,reached,seen⟩ := Option.map_eq_some_iff.mp both
    obtain ⟨first,second⟩ := Prod.mk.inj seen
    exact ⟨s,reached,fun single => absurd (single 2 3 "1" first second) (by decide)⟩

end Probes
end AetherRelay
