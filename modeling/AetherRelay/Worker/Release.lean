import AetherRelay.Worker.Probes
import AetherRelay.Worker.BreakerHistory

namespace AetherRelay

namespace CircuitBreaker
variable {cb : CircuitBreaker} {now : Instant}

def Dated (cb : CircuitBreaker) : Prop := cb.state = .open → cb.openUntil ≠ none

theorem observe_flag (cb : CircuitBreaker) (now : Instant) : (cb.observe now).probeInFlight = cb.probeInFlight := by
  unfold observe
  split
  · split <;> rfl
  · rfl

theorem canAttempt_flag (set : (cb.canAttempt now).1.probeInFlight = true) :
    cb.probeInFlight = true ∨ (cb.canAttempt now).2 = true ∧ (cb.observe now).state = .halfOpen := by
  rw [← observe_flag cb now]
  cases stored : (cb.observe now).state with
  | closed => exact .inl (by simpa only [canAttempt_of_closed stored] using set)
  | «open» => exact .inl (by simpa only [canAttempt_of_open stored] using set)
  | halfOpen =>
    cases flag : (cb.observe now).probeInFlight with
    | true => exact .inl rfl
    | false => exact .inr ⟨by rw [canAttempt_of_free stored flag],rfl⟩

theorem record_flag : (cb.record success now).probeInFlight = false := by
  cases success <;> rfl

theorem observe_dated (now : Instant) (dated : cb.Dated) : (cb.observe now).Dated := by
  unfold observe
  split
  · split
    · intro shut
      cases shut
    · exact dated
  · exact dated

theorem canAttempt_dated (dated : cb.Dated) : (cb.canAttempt now).1.Dated := by
  have seen := observe_dated now dated
  cases stored : (cb.observe now).state with
  | closed => rwa [canAttempt_of_closed stored]
  | «open» => rwa [canAttempt_of_open stored]
  | halfOpen =>
    cases flag : (cb.observe now).probeInFlight with
    | true => rwa [canAttempt_of_taken stored flag]
    | false =>
      rw [canAttempt_of_free stored flag]
      exact seen

theorem record_dated (dated : cb.Dated) : (cb.record success now).Dated := by
  cases success with
  | true =>
    intro shut
    cases shut
  | false =>
    simp only [record,recordFailure,Bool.false_eq_true,if_false]
    split
    · intro _ gone
      cases gone
    · exact dated

theorem canAttempt_due (dated : cb.Dated) (free : cb.probeInFlight = false)
    (due : ∀ til, cb.openUntil = some til → til ≤ now) : (cb.canAttempt now).2 = true := by
  have flag : (cb.observe now).probeInFlight = false := (observe_flag _ _).trans free
  have waited : (cb.observe now).state ≠ .open := by
    intro shut
    unfold observe at shut
    split at shut
    · rename_i til stored deadline
      rw [if_pos (due til deadline)] at shut
      cases shut
    · rename_i other
      cases deadline : cb.openUntil with
      | none => exact dated shut deadline
      | some til => exact other til shut deadline
  cases stored : (cb.observe now).state with
  | closed => rw [canAttempt_of_closed stored]
  | «open» => exact absurd stored waited
  | halfOpen => rw [canAttempt_of_free stored flag]

end CircuitBreaker

namespace Probes

def inFlight : Option Call → Option Uuid
  | some ⟨_,.selectEndpoint _ endpointId _⟩ | some ⟨_,.countAttempts _ endpointId _ _⟩ => some endpointId
  | some ⟨_,.checkBreaker d⟩ | some ⟨_,.requeueDeferred d⟩ | some ⟨_,.send d _⟩ | some ⟨_,.await d _⟩
  | some ⟨_,.updateBreaker d _ _⟩ | some ⟨_,.insertAttempt d _⟩ | some ⟨_,.updateStatus d _ _⟩
  | some ⟨_,.insertDeadLetter d _ _⟩ => some d.endpointId
  | _ => none

def Flagged (s : State) (endpointId : Uuid) : Prop :=
  ∃ cb, s.world.breakers endpointId = some cb ∧ cb.probeInFlight = true

def Dated (s : State) : Prop := ∀ endpointId cb, s.world.breakers endpointId = some cb → cb.Dated

section
variable {x : Externals} {s t : State} {a : Action}

theorem probing_inFlight (out : probing call = some e) : inFlight call = some e := by
  unfold probing at out
  split at out
  · split at out
    · exact out
    · cases out
  · split at out
    · exact out
    · cases out
  · split at out
    · exact out
    · cases out
  · cases out

theorem checkBreaker_flag {w : World} (set : (checkBreaker cfg w inp endpointId).1.breakers e = some cb)
    (flag : cb.probeInFlight = true) : (∃ before, w.breakers e = some before ∧ before.probeInFlight = true) ∨
      e = endpointId ∧ (checkBreaker cfg w inp endpointId).2 = false ∧
        ((w.breakers.entry cfg.circuitFailureThreshold cfg.circuitRecovery endpointId).observe inp.instant).state =
          .halfOpen := by
  by_cases here : e = endpointId
  · subst here
    have next : ((w.breakers.entry cfg.circuitFailureThreshold cfg.circuitRecovery e).canAttempt inp.instant).1 = cb := by
      simpa [checkBreaker] using set
    rw [← next] at flag
    rcases CircuitBreaker.canAttempt_flag flag with before | ⟨admitted,half⟩
    · cases found : w.breakers e with
      | none => simp [Breakers.entry,found,CircuitBreaker.new] at before
      | some old => exact .inl ⟨old,rfl,by simpa [Breakers.entry,found] using before⟩
    · exact .inr ⟨rfl,by simpa [checkBreaker] using admitted,half⟩
  · rw [checkBreaker_other here] at set
    exact .inl ⟨cb,set,flag⟩

theorem record_flagged {breakers : Breakers} (set : breakers.record endpointId success now e = some cb)
    (flag : cb.probeInFlight = true) : e ≠ endpointId ∧ breakers e = some cb := by
  by_cases here : e = endpointId
  · subst here
    cases found : breakers e with
    | none => simp [Breakers.record,found] at set
    | some old =>
      rw [Breakers.record_self found] at set
      cases set
      rw [CircuitBreaker.record_flag] at flag
      cases flag
  · rw [Breakers.record_other here] at set
    exact ⟨here,set⟩

-- Whoever sets the flag is out as the probe, and nobody stops being the probe
-- without having cleared it: not on a refusal, not on an error.
theorem Step.covered (moved : Step x s a t) (old : Ownership.Covered probing s.calls (Flagged s)) :
    Ownership.Covered probing t.calls (Flagged t) := by
  cases moved with
  | others => exact old
  | call unused =>
    apply old.move
    intro e flagged
    exact .inr ⟨flagged,by rw [unused]; nofun⟩
  | @advance r call inp next after running effect =>
    obtain ⟨cfg,pc⟩ := call
    have same : next.breakers = s.world.breakers →
        (∀ e, probing (s.calls r) = some e → probing (some ⟨cfg,after⟩) = some e) →
        Ownership.Covered probing (Function.update s.calls r (some ⟨cfg,after⟩))
          (Flagged ⟨next,Function.update s.calls r (some ⟨cfg,after⟩)⟩) := by
      intro kept mine
      apply old.move
      intro e flagged
      obtain ⟨cb,found,flag⟩ := flagged
      have before : Flagged s e := ⟨cb,(congrFun kept e).symm.trans found,flag⟩
      by_cases has : probing (s.calls r) = some e
      · exact .inl (mine e has)
      · exact .inr ⟨before,has⟩
    cases effect with
    | withheld refused =>
      rename_i d
      apply old.move
      intro e flagged
      obtain ⟨cb,found,flag⟩ := flagged
      rcases checkBreaker_flag found flag with before | ⟨_,admitted,_⟩
      · exact .inr ⟨before,by rw [running]; nofun⟩
      · rw [refused] at admitted
        cases admitted
    | admitted admitted =>
      rename_i d
      apply old.move
      intro e flagged
      obtain ⟨cb,found,flag⟩ := flagged
      rcases checkBreaker_flag found flag with before | ⟨here,_,half⟩
      · exact .inr ⟨before,by rw [running]; nofun⟩
      · exact .inl (probing_send.mpr ⟨half,here.symm⟩)
    | updateBreaker =>
      rename_i d mode answer
      apply old.move
      intro e flagged
      obtain ⟨cb,found,flag⟩ := flagged
      obtain ⟨other,before⟩ := record_flagged found flag
      refine .inr ⟨⟨cb,before,flag⟩,?_⟩
      rw [running]
      intro mine
      exact other (probing_recording.mp mine).2.symm
    | send => exact same rfl fun e has => by rw [running] at has; exact has
    | await => exact same rfl fun e has => by rw [running] at has; exact has
    | failed cause =>
      -- The sections of a probe between its admission and its record cannot fail.
      apply same rfl
      intro e has
      rw [running] at has
      cases pc with
      | send d mode => cases cause
      | await d mode => cases cause
      | updateBreaker d mode answer => cases cause
      | _ => cases has
    | _ => exact same rfl fun e has => by rw [running] at has; cases has

theorem Step.dated (moved : Step x s a t) (old : Dated s) : Dated t := by
  cases moved with
  | others => exact old
  | call unused => exact old
  | @advance r call inp next after running effect =>
    have asked : ∀ {cfg : DispatchLoopConfig} {d : Delivery},
        Dated ⟨(checkBreaker cfg s.world inp d.endpointId).1,Function.update s.calls r (some {call with pc:=after})⟩ := by
      intro cfg d e cb found
      by_cases here : e = d.endpointId
      · have next : ((s.world.breakers.entry cfg.circuitFailureThreshold cfg.circuitRecovery
            d.endpointId).canAttempt inp.instant).1 = cb := by
          simpa [checkBreaker,here] using found
        rw [← next]
        apply CircuitBreaker.canAttempt_dated
        cases stored : s.world.breakers d.endpointId with
        | none => simp [Breakers.entry,stored,CircuitBreaker.new,CircuitBreaker.Dated]
        | some before => simpa [Breakers.entry,stored] using old d.endpointId before stored
      · exact old e cb ((checkBreaker_other here).symm.trans found)
    obtain ⟨cfg,pc⟩ := call
    cases effect with
    | withheld refused => exact asked
    | admitted admitted => exact asked
    | updateBreaker =>
      rename_i d mode answer
      intro e cb found
      by_cases here : e = d.endpointId
      · subst here
        cases stored : s.world.breakers d.endpointId with
        | none => simp [updateBreaker,Breakers.record,stored] at found
        | some before =>
          have next : s.world.breakers.record d.endpointId answer.success inp.instant d.endpointId =
              some (before.record answer.success inp.instant) := Breakers.record_self stored
          cases next.symm.trans found
          exact CircuitBreaker.record_dated (old d.endpointId before stored)
      · exact old e cb ((Breakers.record_other here).symm.trans found)
    | _ => exact old

end

-- From a process that has just started, whatever the calls run into: while no
-- call is in flight for an endpoint its slot is free, and its deadline, once it
-- has come, admits the next one.
theorem circuit_never_wedged {x : Externals} {s t : State} {actions : List Action}
    (fresh : s.world.breakers = fun _ => none)
    (path : Transition.Run (step x) (fun _ _ => True) s actions t) (endpointId : Uuid)
    (quiet : ∀ r, inFlight (t.calls r) ≠ some endpointId) :
    (∀ cb, t.world.breakers endpointId = some cb → cb.probeInFlight = false) ∧
    ∀ threshold recovery now,
      (∀ cb til, t.world.breakers endpointId = some cb → cb.openUntil = some til → til ≤ now) →
      ((t.world.breakers.entry threshold recovery endpointId).canAttempt now).2 = true := by
  have start : Ownership.Covered probing s.calls (Flagged s) ∧ Dated s := by
    constructor
    · rintro e ⟨cb,found,_⟩
      rw [fresh] at found
      cases found
    · intro e cb found
      rw [fresh] at found
      cases found
  obtain ⟨covered,dated⟩ := path.preserves (fun u => Ownership.Covered probing u.calls (Flagged u) ∧ Dated u)
    (fun u a v old _ moved => ⟨(step_sound moved).covered old.1,(step_sound moved).dated old.2⟩) start
  have free : ∀ cb, t.world.breakers endpointId = some cb → cb.probeInFlight = false := by
    intro cb found
    by_contra set
    obtain ⟨r,out⟩ := covered endpointId ⟨cb,found,by simpa using set⟩
    exact quiet r (probing_inFlight out)
  refine ⟨free,fun threshold recovery now due => ?_⟩
  cases stored : t.world.breakers endpointId with
  | none => simp [Breakers.entry,stored,CircuitBreaker.new,CircuitBreaker.canAttempt,CircuitBreaker.observe]
  | some cb =>
    rw [Breakers.entry,stored,Option.getD_some]
    exact CircuitBreaker.canAttempt_due (dated endpointId cb stored) (free cb stored) (due cb · stored)

def Action.party : Action → Option Nat
  | .call r _ _ | .advance r _ => some r
  | .others _ _ => none

theorem Step.untouched (moved : Step x s a t) (other : a.party ≠ some r) : t.calls r = s.calls r := by
  cases moved with
  | call unused => exact Function.update_of_ne (fun same => other (congrArg some same.symm)) ..
  | advance running effect => exact Function.update_of_ne (fun same => other (congrArg some same.symm)) ..
  | others => rfl

theorem circuit_never_wedged_reopens :
    ∃ t, Transition.exec (step .tabletop) ⟨crowd,fun _ => none⟩
        (goOut 0 "11" 0 ++ comeBack 0 (.error "timeout") 1 ++ List.replicate 2 (.advance 0 calm)) = some t ∧
      (t.world.breakers "1").map (·.openUntil) = some (some (1+brittle.circuitRecovery)) ∧
      ((t.world.breakers.entry 1 brittle.circuitRecovery "1").canAttempt (1+brittle.circuitRecovery)).2 = true := by
  have ran : (Transition.exec (step .tabletop) ⟨crowd,fun _ => none⟩
      (goOut 0 "11" 0 ++ comeBack 0 (.error "timeout") 1 ++ List.replicate 2 (.advance 0 calm))).map (fun t =>
      (inFlight (t.calls 0),(t.world.breakers "1").map (·.openUntil))) =
      some (none,some (some (1+brittle.circuitRecovery))) := by decide +kernel
  obtain ⟨t,reached,seen⟩ := Option.map_eq_some_iff.mp ran
  obtain ⟨returned,deadline⟩ := Prod.mk.inj seen
  have path := Transition.Run.check (fun _ a => a.party = some 0) reached (.all (by decide))
  have alone : ∀ r, r ≠ 0 → t.calls r = none := by
    intro r other
    apply path.preserves (fun u => u.calls r = none) _ rfl
    intro u a v old mine moved
    rw [(step_sound moved).untouched (by rw [mine]; simpa using Ne.symm other)]
    exact old
  have quiet : ∀ r, inFlight (t.calls r) ≠ some "1" := by
    intro r
    by_cases first : r = 0
    · rw [first,returned]
      nofun
    · rw [alone r first]
      nofun
  have free := circuit_never_wedged rfl (.check (fun _ _ => True) reached (.all fun _ _ => trivial)) "1" quiet
  refine ⟨t,reached,deadline,free.2 1 brittle.circuitRecovery (1+brittle.circuitRecovery) ?_⟩
  intro cb til found dated
  rw [found,Option.map_some,dated] at deadline
  cases deadline
  exact Nat.le_refl _

end Probes
end AetherRelay
