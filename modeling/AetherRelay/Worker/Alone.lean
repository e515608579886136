import AetherRelay.Lib.Transition
import AetherRelay.Worker.Steps

namespace AetherRelay
open Transition
variable {x : Externals} {cfg : DispatchLoopConfig} {w : World}

def dispatching (x : Externals) (cfg : DispatchLoopConfig) (s : World × DispatchPc) (inp : Input) :
    Option (World × DispatchPc) := dispatchStep x cfg inp s.1 s.2

def working (x : Externals) (cfg : DispatchLoopConfig) (s : World × Worker) (inp : Input) : Option (World × Worker) :=
  workerStep x cfg inp s.1 s.2

theorem reaches_ok {pc : DispatchPc} (inp : Input) (running : ∀ id r, pc ≠ .done id r)
    (performed : pc.perform x cfg inp w = .ok (next,after)) (rest : Reaches (dispatching x cfg) (next,after) t) :
    Reaches (dispatching x cfg) (w,pc) t := .head inp (dispatchStep_ok running performed) rest

theorem reaches_error (pc : DispatchPc) (performed : pc.perform x cfg inp w = .error e) :
    Reaches (dispatching x cfg) (w,pc) (w,.done pc.eventId (.error e)) := .head _ (dispatchStep_error performed) .refl

theorem recordDelivery_alone (inp : Point → Input) (d : Delivery) (answer : Answer)
    (recorded : recordDelivery x cfg inp w d answer = (next,result)) :
    Reaches (dispatching x cfg) (w,.insertAttempt d answer)
      (next,.done d.eventId (result.map fun _ => .of answer)) := by
  unfold recordDelivery at recorded
  split at recorded
  · rename_i e failed
    cases recorded
    exact reaches_error (.insertAttempt d answer) (map_error.mpr failed)
  · rename_i stored inserted
    refine reaches_ok _ (by simp) (map_ok.mpr ⟨stored,inserted,rfl⟩) ?_
    split at recorded
    · rename_i e failed
      cases recorded
      exact reaches_error (.updateStatus d answer _) (map_error.mpr failed)
    · rename_i settled updated
      refine reaches_ok _ (by simp) (map_ok.mpr ⟨settled,updated,rfl⟩) ?_
      split at recorded
      · rename_i spent
        rw [if_pos spent]
        split at recorded
        · rename_i e failed
          cases recorded
          exact reaches_error (.insertDeadLetter d answer _) (map_error.mpr failed)
        · rename_i parked filed
          cases recorded
          exact reaches_ok _ (by simp) (map_ok.mpr ⟨_,filed,rfl⟩) .refl
      · rename_i other
        cases recorded
        rw [if_neg other]
        exact .refl

theorem fetchDelivery_eventId {inp : Point → Input} (fetched : fetchDelivery inp w eventId = .ok d) :
    d.eventId = eventId := by
  unfold fetchDelivery at fetched
  split at fetched
  · cases fetched
  · split at fetched
    · cases fetched
    · split at fetched
      · cases fetched
      · cases fetched
        rfl

theorem fetchDelivery_alone (inp : Point → Input) (eventId : Uuid) :
    (∀ d, fetchDelivery inp w eventId = .ok d →
      Reaches (dispatching x cfg) (w,.selectEvent eventId) (w,.checkBreaker d)) ∧
    ∀ e, fetchDelivery inp w eventId = .error e →
      Reaches (dispatching x cfg) (w,.selectEvent eventId) (w,.done eventId (.error e)) := by
  unfold fetchDelivery
  split
  · rename_i e failed
    exact ⟨fun d fetched => (by cases fetched),fun e' same => by
      cases same
      exact reaches_error (.selectEvent eventId) (map_error.mpr failed)⟩
  · rename_i endpointId rawBody read
    have first : ∀ {t}, Reaches (dispatching x cfg) (w,.selectEndpoint eventId endpointId rawBody) t →
        Reaches (dispatching x cfg) (w,.selectEvent eventId) t :=
      reaches_ok _ (by simp) (map_ok.mpr ⟨_,read,rfl⟩)
    split
    · rename_i e failed
      exact ⟨fun d fetched => (by cases fetched),fun e' same => by
        cases same
        exact first (reaches_error (.selectEndpoint eventId endpointId rawBody) (map_error.mpr failed))⟩
    · rename_i targetUrl target
      have second : ∀ {t}, Reaches (dispatching x cfg) (w,.countAttempts eventId endpointId rawBody targetUrl) t →
          Reaches (dispatching x cfg) (w,.selectEvent eventId) t :=
        fun rest => first (reaches_ok _ (by simp) (map_ok.mpr ⟨_,target,rfl⟩) rest)
      split
      · rename_i e failed
        exact ⟨fun d fetched => (by cases fetched),fun e' same => by
          cases same
          exact second (reaches_error (.countAttempts eventId endpointId rawBody targetUrl)
            (map_error.mpr failed))⟩
      · rename_i attemptCount counted
        exact ⟨fun d fetched => (by
          cases fetched
          exact second (reaches_ok _ (by simp) (map_ok.mpr ⟨_,counted,rfl⟩) .refl)),fun e' same => by cases same⟩

theorem dispatchSingleEvent_alone (inp : Point → Input) (eventId : Uuid)
    (dispatched : dispatchSingleEvent x cfg inp w eventId = (next,result)) :
    Reaches (dispatching x cfg) (w,.selectEvent eventId) (next,.done eventId result) := by
  obtain ⟨fetched,unfetched⟩ := @fetchDelivery_alone x cfg w inp eventId
  unfold dispatchSingleEvent at dispatched
  split at dispatched
  · rename_i e failed
    cases dispatched
    exact unfetched e failed
  · rename_i d read
    have same : d.eventId = eventId := fetchDelivery_eventId read
    subst same
    apply (fetched d read).trans
    dsimp only at dispatched
    split at dispatched
    · rename_i refused
      refine reaches_ok (inp .checkBreaker) (by simp) (by simp only [DispatchPc.perform,refused]; rfl) ?_
      split at dispatched
      · rename_i e failed
        cases dispatched
        exact reaches_error (.requeueDeferred d) (map_error.mpr failed)
      · rename_i requeued put
        cases dispatched
        exact reaches_ok _ (by simp) (map_ok.mpr ⟨_,put,rfl⟩) .refl
    · rename_i admitted
      refine reaches_ok (inp .checkBreaker) (by simp)
        (by simp only [DispatchPc.perform]; rw [if_neg admitted]) ?_
      refine reaches_ok (inp .await) (by simp) rfl (reaches_ok (inp .await) (by simp) rfl ?_)
      refine reaches_ok (inp .updateBreaker) (by simp) rfl ?_
      split at dispatched
      · rename_i recorded e failed
        cases dispatched
        exact recordDelivery_alone inp d _ failed
      · rename_i recorded done
        cases dispatched
        exact recordDelivery_alone inp d _ done

theorem working_dispatch (path : Reaches (dispatching x cfg) (w,pc) (next,after)) :
    Reaches (working x cfg) (w,⟨.dispatching eventId endpointId pc,p⟩)
      (next,⟨.dispatching eventId endpointId after,p⟩) := by
  have each : ∀ (s : World × DispatchPc) inp t (v : World × Worker), v = (s.1,⟨.dispatching eventId endpointId s.2,p⟩) →
      dispatching x cfg s inp = some t → ∃ inp' u, working x cfg v inp' = some u ∧
        u = (t.1,⟨.dispatching eventId endpointId t.2,p⟩) := by
    rintro ⟨w,pc⟩ inp ⟨next,after⟩ _ rfl moved
    have moved : dispatchStep x cfg inp w pc = some (next,after) := moved
    have running : ∀ id r, pc ≠ .done id r := by
      intro id r equal
      subst equal
      cases moved
    refine ⟨inp,_,?_,rfl⟩
    simp only [working,workerStep_dispatching running,moved,Option.map_some]
  obtain ⟨_,lifted,rfl⟩ := path.simulate _ each rfl
  exact lifted

theorem runDispatchOnce_alone (inp : Point → Input) (p : Duration)
    (passed : runDispatchOnce x cfg inp w = (next,result)) :
    Reaches (working x cfg) (w,⟨.idle,p⟩) (next,⟨.finished result,p⟩) := by
  unfold runDispatchOnce at passed
  split at passed
  · rename_i e failed
    cases passed
    exact .head (inp .claim) (by simp only [working,workerStep,failed]) .refl
  · rename_i claimed empty
    cases passed
    exact .head (inp .claim) (by simp only [working,workerStep,empty]) .refl
  · rename_i claimed eventId endpointId taken
    refine .head (inp .claim) (t := (claimed,⟨.dispatching eventId endpointId (.selectEvent eventId),p⟩))
      (by simp only [working,workerStep,taken]) ?_
    generalize dispatched : dispatchSingleEvent x cfg inp claimed eventId = outcome at passed
    obtain ⟨after,outcome⟩ := outcome
    apply (working_dispatch (dispatchSingleEvent_alone inp eventId dispatched)).trans
    dsimp only at passed
    cases outcome with
    | ok r =>
      cases passed
      exact .head (inp .claim) rfl .refl
    | error e =>
      refine .head (inp .claim)
        (t := (after.log (.dispatchMetric endpointId (outcomeLabel (.error e))),⟨.requeueing eventId e,p⟩)) rfl ?_
      dsimp only at passed
      split at passed
      · rename_i requeued put
        cases passed
        exact .head (inp .requeueErrored) (by simp only [working,workerStep,put]) .refl
      · rename_i cause failed
        cases passed
        exact .head (inp .requeueErrored) (by simp only [working,workerStep,failed]) .refl

end AetherRelay
