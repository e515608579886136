import AetherRelay.Lib.Walk
import AetherRelay.Core.Idempotency

namespace AetherRelay

-- One BEGIN IMMEDIATE transaction around UPDATE ... WHERE id = ? AND status = ?.
def transitionStatus (inp : Input) (w : World) (eventId : Uuid) (old new : EventStatus) : World × Except AppError Bool :=
  let changed := w.db.status eventId = some old
  match statement inp (.ok (if changed then {w with db:=w.db.setStatus eventId new} else w)) with
  | .error e => (w,.error e)
  | .ok next => (next,.ok changed)

structure TransitionCall where
  eventId : Uuid
  old : EventStatus
  new : EventStatus
  inp : Input

def TransitionCall.run (w : World) (c : TransitionCall) : World × Except AppError Bool := transitionStatus c.inp w c.eventId c.old c.new

def transitioned : World → List TransitionCall → World
  | w,[] => w
  | w,c :: rest => transitioned (c.run w).1 rest

def won (k : Uuid) : World → List TransitionCall → List (EventStatus × EventStatus)
  | _,[] => []
  | w,c :: rest =>
    let further := won k (c.run w).1 rest
    match (c.run w).2 with
    | .ok true => if c.eventId = k then (c.old,c.new) :: further else further
    | _ => further

section
variable {w : World} {k : Uuid} {st : EventStatus}

inductive TransitionStep (w : World) (c : TransitionCall) : World → Except AppError Bool → Prop where
  | moved (was : w.db.status c.eventId = some c.old) :
      TransitionStep w c {w with db:=w.db.setStatus c.eventId c.new} (.ok true)
  | unmoved (told : result ≠ .ok true) : TransitionStep w c w result

theorem transitionStatus_step (w : World) (c : TransitionCall) : TransitionStep w c (c.run w).1 (c.run w).2 := by
  unfold TransitionCall.run transitionStatus statement
  cases c.inp.fault with
  | some e => exact .unmoved (by simp)
  | none =>
    by_cases was : w.db.status c.eventId = some c.old
    · simp only [was,if_true,decide_true]
      exact .moved was
    · simp only [was,if_false,decide_false]
      exact .unmoved (by simp)

theorem transitioned_walk (calls : List TransitionCall) (was : w.db.status k = some st) :
    ∃ last, (transitioned w calls).db.status k = some last ∧ Walk st (won k w calls) last := by
  induction calls generalizing w st with
  | nil => exact ⟨st,was,.rest⟩
  | cons c rest ih =>
    simp only [transitioned,won]
    have effect := transitionStatus_step w c
    generalize (c.run w).1 = next at effect
    generalize (c.run w).2 = result at effect
    cases effect with
    | moved before =>
      by_cases same : c.eventId = k
      · rw [same] at before
        rw [was] at before
        obtain rfl := Option.some.inj before
        have now : (w.db.setStatus c.eventId c.new).status k = some c.new := by
          rw [Db.status_setStatus,if_pos same.symm,was]
          rfl
        obtain ⟨last,ended,walk⟩ := ih (w := {w with db:=w.db.setStatus c.eventId c.new}) now
        refine ⟨last,ended,?_⟩
        simp only [same,if_true]
        rw [same] at walk
        exact .move _ _ walk
      · have now : (w.db.setStatus c.eventId c.new).status k = some st := by
          rw [Db.status_setStatus,if_neg (Ne.symm same),was]
        obtain ⟨last,ended,walk⟩ := ih (w := {w with db:=w.db.setStatus c.eventId c.new}) now
        refine ⟨last,ended,?_⟩
        simpa only [same,if_false] using walk
    | unmoved told =>
      obtain ⟨last,ended,walk⟩ := ih was
      refine ⟨last,ended,?_⟩
      split
      · exact absurd rfl told
      · exact walk

-- Whatever the callers ask for and in whichever order they come: the changes that
-- were granted lead from the first status to the last, and of two callers who were
-- granted a change from the same status the second one came after a change back.
theorem transitions_granted_once (calls : List TransitionCall) (was : w.db.status k = some st) :
    (∃ last, (transitioned w calls).db.status k = some last ∧ Walk st (won k w calls) last) ∧
    ∀ earlier old new between new' later, won k w calls = earlier ++ (old,new) :: between ++ (old,new') :: later →
      new ≠ old → ∃ back, (back,old) ∈ between := by
  obtain ⟨last,ended,walk⟩ := transitioned_walk calls was
  refine ⟨⟨last,ended,walk⟩,?_⟩
  intro earlier old new between new' later parts away
  rw [parts] at walk
  exact walk.undone away

end

def rowReceived : Except SqlError Db := do
  let db ← Db.empty.insertEndpoint ⟨"1","orders","generic","secret","https://hooks.example.com/in",0⟩
  db.insertEvent ⟨"11","1","key-1",[],"{}",.received,0⟩

def takenTwice : List TransitionCall :=
  [⟨"11",.received,.processing,⟨none,0,0,.error "",0⟩⟩,⟨"11",.received,.processing,⟨none,0,0,.error "",0⟩⟩,
   ⟨"11",.processing,.received,⟨none,0,0,.error "",0⟩⟩,⟨"11",.received,.processing,⟨none,0,0,.error "",0⟩⟩]

theorem transitions_granted_once_twice :
    ∃ db, rowReceived = .ok db ∧
      won "11" ⟨db,fun _ => none,0,[]⟩ takenTwice =
        [(.received,.processing),(.processing,.received),(.received,.processing)] ∧
      ∃ back, (back,EventStatus.received) ∈ [(EventStatus.processing,EventStatus.received)] := by
  have ran : rowReceived.toOption.map (fun db => (won "11" ⟨db,fun _ => none,0,[]⟩ takenTwice,db.status "11")) =
      some ([(.received,.processing),(.processing,.received),(.received,.processing)],some .received) := by decide +kernel
  obtain ⟨db,made,parts⟩ := Option.map_eq_some_iff.mp ran
  simp only [Prod.mk.injEq] at parts
  obtain ⟨moves,was⟩ := parts
  have ok : rowReceived = .ok db := by
    cases result : rowReceived with
    | error e => rw [result] at made; cases made
    | ok db' =>
      rw [result] at made
      exact congrArg Except.ok (Option.some.inj made)
  obtain ⟨_,once⟩ := transitions_granted_once (w := ⟨db,fun _ => none,0,[]⟩) takenTwice was
  exact ⟨db,ok,moves,once [] .received .processing [(.processing,.received)] .processing [] moves (by decide)⟩

end AetherRelay
