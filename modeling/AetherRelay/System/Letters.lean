import AetherRelay.Api.Listing
import AetherRelay.System.AttemptLog

namespace AetherRelay

structure Record.Grows (r after : Record) : Prop where
  place : ∀ row, after.row = some row → ∃ old, r.row = some old ∧ old.endpointId = row.endpointId
  answers : r.answers <:+ after.answers

def Record.At (r : Record) (endpointId : Uuid) : Prop := ∀ row, r.row = some row → row.endpointId = endpointId

-- What a pass that is done with a failed answer may say of its event. The attempts
-- that were there when the history began count with the answers.
structure GivenUp (budget first : Nat) (r : Record) (endpointId : Uuid) (answer : Answer) : Prop where
  place : r.At endpointId
  heard : answer ∈ r.answers
  bad : answer.success = false
  enough : budget ≤ r.answers.length + first

def DeadLetter.Holds (budget first : Nat) (r : Record) (letter : DeadLetter) : Prop :=
  ∃ answer, GivenUp budget first r letter.endpointId answer ∧ answer.errorMsg = some letter.errorReason ∧
    answer.statusCode = letter.lastAttemptStatus

def DispatchPc.Informed (budget first : Nat) (r : Record) : DispatchPc → Prop
  | .selectEvent _ | .done _ _ => True
  | .selectEndpoint _ endpointId _ | .countAttempts _ endpointId _ _ => r.At endpointId
  | .checkBreaker d | .requeueDeferred d | .send d _ | .await d _ =>
    r.At d.endpointId ∧ d.attemptCount ≤ r.answers.length + first
  | .updateBreaker d _ answer | .insertAttempt d answer | .updateStatus d answer _ =>
    r.At d.endpointId ∧ answer ∈ r.answers ∧ d.attemptCount < r.answers.length + first
  | .insertDeadLetter d answer _ => GivenUp budget first r d.endpointId answer

def WorkerPc.Informed (budget first : Nat) (r : Record) : WorkerPc → Prop
  | .dispatching _ _ pc => pc.Informed budget first r
  | _ => True

section
variable {r after : Record} {budget first : Nat}

theorem Record.At.mono (old : r.At endpointId) (grows : r.Grows after) : after.At endpointId := by
  intro row there
  obtain ⟨before,was,same⟩ := grows.place row there
  exact same.symm.trans (old before was)

theorem Record.Grows.more (grows : r.Grows after) : r.answers.length + first ≤ after.answers.length + first :=
  Nat.add_le_add_right grows.answers.length_le first

theorem GivenUp.mono (old : GivenUp budget first r endpointId answer) (grows : r.Grows after) :
    GivenUp budget first after endpointId answer :=
  ⟨old.place.mono grows,grows.answers.subset old.heard,old.bad,Nat.le_trans old.enough grows.more⟩

theorem DeadLetter.Holds.mono {letter : DeadLetter} (old : letter.Holds budget first r) (grows : r.Grows after) :
    letter.Holds budget first after := by
  obtain ⟨answer,given,reason,status⟩ := old
  exact ⟨answer,given.mono grows,reason,status⟩

theorem DispatchPc.Informed.mono {pc : DispatchPc} (old : pc.Informed budget first r) (grows : r.Grows after) :
    pc.Informed budget first after := by
  cases pc with
  | selectEvent e => trivial
  | done e result => trivial
  | selectEndpoint e endpointId body => exact Record.At.mono old grows
  | countAttempts e endpointId body url => exact Record.At.mono old grows
  | insertDeadLetter d answer now => exact GivenUp.mono old grows
  | updateBreaker d mode answer => exact ⟨old.1.mono grows,grows.answers.subset old.2.1,Nat.lt_of_lt_of_le old.2.2 grows.more⟩
  | insertAttempt d answer => exact ⟨old.1.mono grows,grows.answers.subset old.2.1,Nat.lt_of_lt_of_le old.2.2 grows.more⟩
  | updateStatus d answer now => exact ⟨old.1.mono grows,grows.answers.subset old.2.1,Nat.lt_of_lt_of_le old.2.2 grows.more⟩
  | _ => exact ⟨old.1.mono grows,Nat.le_trans old.2 grows.more⟩

theorem WorkerPc.Informed.mono {pc : WorkerPc} (old : pc.Informed budget first r) (grows : r.Grows after) :
    pc.Informed budget first after := by
  cases pc with
  | dispatching claimed parent pc => exact DispatchPc.Informed.mono old grows
  | _ => trivial

theorem GivenUp.letter (given : GivenUp budget first r d.endpointId answer) (id : Uuid) (now : Nat) :
    (Delivery.letter d answer id now).Holds budget first r := by
  have said : answer.errorMsg.isSome = true := by rw [Answer.errorMsg_isSome,given.bad]; rfl
  obtain ⟨text,message⟩ := Option.isSome_iff_exists.mp said
  refine ⟨answer,given,?_,rfl⟩
  rw [Delivery.letter,message]
  rfl

end

section
variable {x : Externals} {cfg : DispatchLoopConfig} {inp : Input} {w next : World} {first : Nat}

theorem DispatchStep.informs {pc after : DispatchPc} (effect : DispatchStep x cfg inp w pc next after)
    (grows : (w.record pc.eventId).Grows (next.record pc.eventId))
    (counted : (w.record pc.eventId).attempts.length ≤ (w.record pc.eventId).answers.length + first)
    (old : pc.Informed cfg.maxAttempts.toNat first (w.record pc.eventId)) :
    after.Informed cfg.maxAttempts.toNat first (next.record pc.eventId) := by
  cases effect with
  | selectEvent live found =>
    intro other there
    have same := found.symm.trans there
    cases same
    rfl
  | selectEndpoint live found => exact old
  | countAttempts live fits => exact ⟨old,counted⟩
  | withheld refused => exact DispatchPc.Informed.mono old grows
  | admitted open' => exact DispatchPc.Informed.mono old grows
  | send => exact DispatchPc.Informed.mono old grows
  | @await _ d mode =>
    have answered := w.record_answered d.eventId inp.answer
    obtain ⟨place,known⟩ := old
    refine ⟨place.mono grows,?_,?_⟩
    · exact answered.symm ▸ List.mem_cons_self
    · refine answered.symm ▸ ?_
      have known : d.attemptCount ≤ (w.record d.eventId).answers.length + first := known
      rw [List.length_cons]
      omega
  | updateBreaker => exact DispatchPc.Informed.mono old grows
  | insertAttempt live stored => exact DispatchPc.Informed.mono old grows
  | @exhausted d answer _ now live spent =>
    obtain ⟨bad,spent⟩ := settledStatus_failed spent
    obtain ⟨place,heard,many⟩ := old
    have given : GivenUp cfg.maxAttempts.toNat first (w.record d.eventId) d.endpointId answer := by
      have number : d.attemptNum ≤ d.attemptCount+1 := Nat.mod_le _ _
      exact ⟨place,heard,bad,Nat.le_trans spent (Nat.le_trans number many)⟩
    exact given.mono grows
  | _ => trivial

theorem DispatchStep.letters {pc after : DispatchPc} (effect : DispatchStep x cfg inp w pc next after)
    (grows : (w.record pc.eventId).Grows (next.record pc.eventId))
    (old : pc.Informed budget first (w.record pc.eventId)) (inside : letter ∈ (next.record pc.eventId).letters) :
    letter ∈ (w.record pc.eventId).letters ∨ letter.Holds budget first (next.record pc.eventId) := by
  cases effect with
  | @insertAttempt _ d answer _ _ stored =>
    have same := congrArg Record.letters (World.record_insertAttempt (n := w.drawn+1) stored)
    exact .inl (same ▸ inside)
  | @insertDeadLetter _ d answer now db _ stored =>
    have same : (World.record {w with db:=db,drawn:=w.drawn+1} d.eventId).letters = [d.letter answer (x.nowV7 w.drawn) now] :=
      congrArg Record.letters (World.record_replaceLetter (n := w.drawn+1) stored)
    have only : letter ∈ (World.record {w with db:=db,drawn:=w.drawn+1} d.eventId).letters := inside
    rw [same] at only
    rw [List.mem_singleton.mp only]
    have given : GivenUp budget first (w.record d.eventId) d.endpointId answer := old
    exact .inr ((given.mono grows).letter _ _)
  | _ => exact .inl inside

theorem WorkerStep.informs {worker done : Worker} (effect : WorkerStep x cfg inp w worker next done) (coherent : worker.Coherent)
    (touched : worker.engaged = some e ∨ done.engaged = some e) (grows : worker.engaged = some e → (w.record e).Grows (next.record e))
    (counted : (w.record e).attempts.length ≤ (w.record e).answers.length + first)
    (old : worker.engaged = some e → worker.pc.Informed cfg.maxAttempts.toNat first (w.record e)) :
    done.pc.Informed cfg.maxAttempts.toNat first (next.record e) ∧
      ∀ letter ∈ (next.record e).letters, letter ∈ (w.record e).letters ∨
        letter.Holds cfg.maxAttempts.toNat first (next.record e) := by
  obtain ⟨pc,p⟩ := worker
  obtain ⟨after,q⟩ := done
  cases effect.concerns coherent touched with
  | dispatch moved =>
    have known := old moved.engaged
    have grows := grows moved.engaged
    exact ⟨moved.informs grows counted known,fun letter inside => moved.letters grows known inside⟩
  | _ => exact ⟨trivial,fun letter inside => .inl inside⟩

end

namespace System
variable {x : Externals} {cfg : AppConfig} {s t : State} {a : Action} {e : Uuid} {first : List Outcome}

theorem Step.grows (moved : Step x cfg s a t) (supplied : Supplied x s) (spent : Spent x s.world e) :
    (s.world.record e).Grows (t.world.record e) := by
  refine ⟨?_,?_⟩
  · intro row found
    obtain ⟨old,was,same⟩ := moved.columns supplied spent found
    exact ⟨old,was,by rw [same]; rfl⟩
  · obtain ⟨new,_,history⟩ := moved.log
    refine ⟨new.filterMap (·.answerTo e),?_⟩
    rw [World.record,World.record,history,List.filterMap_append]

structure Explained (cfg : AppConfig) (e : Uuid) (first : Nat) (earlier : List DeadLetter) (s : State) : Prop where
  letters : ∀ letter ∈ (s.world.record e).letters, letter ∈ earlier ∨
    letter.Holds (loopConfig cfg).maxAttempts.toNat first (s.world.record e)
  passes : ∀ i, (s.workers i).engaged = some e →
    (s.workers i).pc.Informed (loopConfig cfg).maxAttempts.toNat first (s.world.record e)

theorem spent_of_letter (supplied : Supplied x s) (inside : letter ∈ (s.world.record e).letters) : Spent x s.world e := by
  by_contra fresh
  rw [supplied.world.blank fresh] at inside
  cases inside

theorem RecordStep.letters (change : RecordStep x s a e r after) : ∀ letter ∈ after.letters, letter ∈ r.letters := by
  intro letter inside
  cases change with
  | removed asked was settled => cases inside
  | unlisted asked dlqId => exact List.mem_of_mem_filter inside
  | _ => exact inside

theorem Step.explained_pass (moved : Step x cfg s (.worker i inp) t) (supplied : Supplied x s)
    (counted : (s.world.record e).attempts.length ≤ (s.world.record e).answers.length + first.length)
    (said : ∀ letter ∈ (s.world.record e).letters, letter ∈ earlier ∨
      letter.Holds (loopConfig cfg).maxAttempts.toNat first.length (t.world.record e))
    (known : ∀ j, (s.workers j).engaged = some e →
      (s.workers j).pc.Informed (loopConfig cfg).maxAttempts.toNat first.length (t.world.record e))
    (old : Explained cfg e first.length earlier s) : Explained cfg e first.length earlier t := by
  have grows : (s.workers i).engaged = some e → (s.world.record e).Grows (t.world.record e) :=
    fun engaged => moved.grows supplied (supplied.spent_engaged engaged)
  have others : ∀ j, j ≠ i → (t.workers j).engaged = some e →
      (t.workers j).pc.Informed (loopConfig cfg).maxAttempts.toNat first.length (t.world.record e) := by
    intro j apart engaged
    rw [moved.others apart] at engaged ⊢
    exact known j engaged
  cases moved with
  | worked live effect =>
    rename_i next after
    have mine : Function.update s.workers i after i = after := Function.update_self ..
    by_cases touched : (s.workers i).engaged = some e ∨ after.engaged = some e
    · obtain ⟨informed,letters⟩ := effect.informs (supplied.coherent i) touched grows counted (old.passes i)
      refine ⟨?_,?_⟩
      · intro letter inside
        rcases letters letter inside with before | holds
        · exact said letter before
        · exact .inr holds
      · intro j engaged
        by_cases same : j = i
        · subst same
          dsimp only
          rw [mine]
          exact informed
        · exact others j same engaged
    · obtain ⟨before,later⟩ := not_or.mp touched
      have record := effect.frame supplied.world (supplied.coherent i) before later
      refine ⟨?_,?_⟩
      · intro letter inside
        exact said letter (record ▸ inside)
      · intro j engaged
        by_cases same : j = i
        · subst same
          dsimp only at engaged
          rw [mine] at engaged
          exact absurd engaged later
        · exact others j same engaged

theorem Step.explained (moved : Step x cfg s a t) (supplied : Supplied x s) (accurate : Accurate e first s)
    (old : Explained cfg e first.length earlier s) : Explained cfg e first.length earlier t := by
  have counted : (s.world.record e).attempts.length ≤ (s.world.record e).answers.length + first.length := by
    have fewer := accurate.recorded.shelved.length_le
    simpa [Record.recorded,Record.heard] using fewer
  have said : ∀ letter ∈ (s.world.record e).letters, letter ∈ earlier ∨
      letter.Holds (loopConfig cfg).maxAttempts.toNat first.length (t.world.record e) := by
    intro letter inside
    exact (old.letters letter inside).imp_right (·.mono (moved.grows supplied (spent_of_letter supplied inside)))
  have known : ∀ i, (s.workers i).engaged = some e →
      (s.workers i).pc.Informed (loopConfig cfg).maxAttempts.toNat first.length (t.world.record e) := by
    intro i engaged
    exact (old.passes i engaged).mono (moved.grows supplied (supplied.spent_engaged engaged))
  have quiet : (∀ i inp, a ≠ .worker i inp) → Explained cfg e first.length earlier t := by
    intro quiet
    have fewer := (moved.record (k := e) supplied quiet).letters
    refine ⟨fun letter inside => said letter (fewer letter inside),?_⟩
    intro i engaged
    rcases moved.worker i with same | ⟨_,start⟩ | ⟨inp,acted,_⟩
    · rw [same] at engaged ⊢
      exact known i engaged
    · rw [start] at engaged
      cases engaged
    · exact absurd acted (quiet i inp)
  cases a with
  | worker i inp => exact moved.explained_pass supplied counted said known old
  | _ => exact quiet (by simp)

-- Every letter the API lists is about an event of the endpoint it names, repeats an
-- answer the event really failed with, and was written only when the event had been
-- answered as often as the budget asks. Letters and attempts that were there when the
-- history began are not ours to explain.
theorem dead_letters_true (start : Booted x cfg b) (reached : Transition.exec (step x cfg) b actions = some t)
    (listed : listDlq cfg inp t.world headers = .ok page) :
    ∀ letter ∈ page, letter ∈ b.world.db.deadLetterQueue.rows ∨ ∃ row parent answer,
      t.world.db.event letter.eventId = some row ∧ row.endpointId = letter.endpointId ∧
      t.world.db.endpoint letter.endpointId = some parent ∧
      answer ∈ (t.world.record letter.eventId).answers ∧ answer.success = false ∧
      answer.errorMsg = some letter.errorReason ∧ answer.statusCode = letter.lastAttemptStatus ∧
      cfg.worker.maxAttempts.toNat ≤ (t.world.record letter.eventId).answers.length + (b.world.db.attempts letter.eventId).length := by
  intro letter inside
  have stored := listDlq_mem listed inside
  have path := Transition.Run.check (fun _ _ => True) reached (fun _ _ _ _ _ _ => trivial)
  let first := (b.world.db.attempts letter.eventId).map (·.outcome)
  have begun : Explained cfg letter.eventId first.length b.world.db.deadLetterQueue.rows b := by
    refine ⟨fun other there => .inl ?_,fun i engaged => ?_⟩
    · rw [start.record] at there
      exact List.mem_of_mem_filter there
    · rw [start.workers] at engaged
      cases engaged
  obtain ⟨_,_,explained⟩ := path.preserves
    (fun u => Supplied x u ∧ Accurate letter.eventId first u ∧
      Explained cfg letter.eventId first.length b.world.db.deadLetterQueue.rows u)
    (by
      intro u a v old _ moved
      obtain ⟨supplied,accurate,explained⟩ := old
      have step := step_sound moved
      exact ⟨step.supplied supplied,step.accurate supplied accurate,step.explained supplied accurate explained⟩)
    ⟨start.supplied,start.accurate letter.eventId,begun⟩
  have mine : letter ∈ (t.world.record letter.eventId).letters := List.mem_filter.mpr ⟨stored,by simp⟩
  refine (explained.letters letter mine).imp_right ?_
  intro holds
  obtain ⟨answer,given,reason,status⟩ := holds
  obtain ⟨row,found⟩ := Option.isSome_iff_exists.mp (t.world.db.letterParent letter stored)
  have place := given.place row found
  obtain ⟨parent,there⟩ := Option.isSome_iff_exists.mp (t.world.db.eventParent row (Table.lookup_mem found))
  have enough := given.enough
  rw [List.length_map] at enough
  exact ⟨row,parent,answer,found,place,place ▸ there,given.heard,given.bad,reason,status,enough⟩

def refusedForGood : List Action := registerAndAccept ++ Action.pass 0 13 (.error "connection refused")

theorem dead_letters_true_refused :
    ∃ t letter, Transition.exec (step .tabletop budgetOfOne) (boot budgetOfOne) refusedForGood = some t ∧
      listDlq budgetOfOne ⟨none,0,0,.error "",0⟩ t.world [] = .ok [letter] ∧ letter.errorReason = "connection refused" ∧
      ∃ answer ∈ (t.world.record letter.eventId).answers, answer.success = false ∧ answer.errorMsg = some letter.errorReason ∧
        answer.statusCode = letter.lastAttemptStatus := by
  have ran : (Transition.exec (step .tabletop budgetOfOne) (boot budgetOfOne) refusedForGood).map
      (fun t => (listDlq budgetOfOne ⟨none,0,0,.error "",0⟩ t.world []).toOption.map (·.map (·.errorReason))) =
      some (some ["connection refused"]) := by decide +kernel
  obtain ⟨t,reached,shown⟩ := Option.map_eq_some_iff.mp ran
  obtain ⟨page,okay,reasons⟩ := Option.map_eq_some_iff.mp shown
  obtain ⟨letter,rest,rfl,reason,empty⟩ := List.map_eq_cons_iff.mp reasons
  obtain rfl := List.map_eq_nil_iff.mp empty
  have listed : listDlq budgetOfOne ⟨none,0,0,.error "",0⟩ t.world [] = .ok [letter] := by
    generalize listDlq budgetOfOne ⟨none,0,0,.error "",0⟩ t.world [] = shown at okay ⊢
    cases shown with
    | ok page => exact congrArg Except.ok (Option.some.inj okay)
    | error cause => cases okay
  refine ⟨t,letter,reached,listed,reason,?_⟩
  rcases dead_letters_true (boot_booted _ _) reached listed letter (List.mem_singleton.mpr rfl) with old | told
  · cases old
  · obtain ⟨row,parent,answer,_,_,_,heard,bad,message,status,_⟩ := told
    exact ⟨answer,heard,bad,message,status⟩

end System
end AetherRelay
