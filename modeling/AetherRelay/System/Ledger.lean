import AetherRelay.System.Record
import AetherRelay.System.Sequential

namespace AetherRelay

def DeliveryAttempt.succeeded (a : DeliveryAttempt) : Bool := a.responseStatus.any (·.isSuccess)

structure Failures (budget : Nat) where
  answers : List Answer
  failed : ∀ a ∈ answers, a.success = false
  room : answers.length < budget

-- What the store is there to say about one event. A combination of its four
-- tables that is none of these does not mean anything.
inductive Ledger (budget : Nat) where
  | absent
  | waiting (failures : Failures budget)
  | delivered (failures : Failures budget) (last : Answer) (good : last.success = true)
  | parked (failures : Failures budget) (last : Answer) (bad : last.success = false)
      (spent : failures.answers.length+1 = budget)

namespace Ledger
variable {budget : Nat}

def fresh (positive : 0 < budget) : Ledger budget := .waiting ⟨[],fun _ member => (by cases member),positive⟩

def Failures.more (failures : Failures budget) (answer : Answer) (bad : answer.success = false)
    (room : failures.answers.length+1 < budget) : Failures budget where
  answers := failures.answers ++ [answer]
  failed := by
    intro a member
    rcases List.mem_append.mp member with old | new
    · exact failures.failed a old
    · exact (List.mem_singleton.mp new) ▸ bad
  room := by simpa using room

inductive Step : Ledger budget → Ledger budget → Prop where
  | accept (positive : 0 < budget) : Step .absent (fresh positive)
  | fail (bad : answer.success = false) (room : failures.answers.length+1 < budget) :
      Step (.waiting failures) (.waiting (Failures.more failures answer bad room))
  | deliver (good : answer.success = true) : Step (.waiting failures) (.delivered failures answer good)
  | park (bad : answer.success = false) (spent : failures.answers.length+1 = budget) :
      Step (.waiting failures) (.parked failures answer bad spent)
  | replay (positive : 0 < budget) : Step (.parked failures last bad spent) (fresh positive)
  | remove (settled : ∀ failures, ledger ≠ .waiting failures) : Step ledger .absent

def Filed (answers : List Answer) (attempts : List DeliveryAttempt) : Prop :=
  attempts.map (fun a => (a.attemptNumber,a.responseStatus,a.errorMessage)) =
    answers.mapIdx fun i a => (i+1,a.statusCode,a.errorMsg)

def Shows (r : Record) : Ledger budget → Prop
  | .absent => r.row = none ∧ r.attempts = [] ∧ r.letters = []
  | .waiting failures => r.status = some .received ∧ Filed failures.answers r.attempts ∧ r.letters = []
  | .delivered failures last _ =>
    r.status = some .delivered ∧ Filed (failures.answers ++ [last]) r.attempts ∧ r.letters = []
  | .parked failures last _ _ =>
    ∃ row d, r.row = some row ∧ row.status = .failed ∧ Filed (failures.answers ++ [last]) r.attempts ∧
      r.letters = [d] ∧ d.endpointId = row.endpointId ∧ last.errorMsg = some d.errorReason ∧
      d.lastAttemptStatus = last.statusCode

theorem Filed.nil (none : attempts = []) : Filed [] attempts := by
  rw [none]
  rfl

theorem Filed.length (filed : Filed answers attempts) : attempts.length = answers.length := by
  simpa using congrArg List.length filed

theorem Filed.snoc (filed : Filed answers attempts) (number : a.attemptNumber = answers.length+1)
    (status : a.responseStatus = answer.statusCode) (message : a.errorMessage = answer.errorMsg) :
    Filed (answers ++ [answer]) (attempts ++ [a]) := by
  unfold Filed at filed ⊢
  rw [List.map_append,filed,List.mapIdx_append]
  simp [number,status,message]

theorem Filed.numbered (filed : Filed answers attempts) :
    attempts.map (·.attemptNumber) = List.range' 1 attempts.length := by
  have numbers := congrArg (List.map Prod.fst) filed
  rw [List.map_map] at numbers
  rw [filed.length]
  exact numbers.trans (List.ext_getElem (by simp) fun i _ _ => by simp [Nat.add_comm])

theorem Filed.success (filed : Filed answers attempts) (failed : ∀ a ∈ answers, a.success = false) :
    ∀ a ∈ attempts, a.succeeded = false := by
  intro a member
  have inside : (a.attemptNumber,a.responseStatus,a.errorMessage) ∈
      answers.mapIdx fun i a => (i+1,a.statusCode,a.errorMsg) := filed ▸ List.mem_map_of_mem member
  obtain ⟨i,bound,same⟩ := List.mem_mapIdx.mp inside
  have bad := failed _ (List.getElem_mem bound)
  rw [← Answer.any_isSuccess] at bad
  rw [DeliveryAttempt.succeeded,← bad]
  exact congrArg (fun t => t.2.1.any (·.isSuccess)) same.symm

theorem Filed.last (filed : Filed (answers ++ [answer]) attempts) :
    ∃ earlier a, attempts = earlier ++ [a] ∧ Filed answers earlier ∧ a.succeeded = answer.success ∧
      a.responseStatus = answer.statusCode ∧ a.errorMessage = answer.errorMsg := by
  unfold Filed at filed
  rw [List.mapIdx_append] at filed
  obtain ⟨earlier,final,rfl,before,after⟩ := List.map_eq_append_iff.mp filed
  obtain ⟨a,rest,rfl,same,none⟩ := List.map_eq_cons_iff.mp after
  obtain rfl := List.map_eq_nil_iff.mp none
  obtain ⟨_,status,message⟩ : _ ∧ a.responseStatus = answer.statusCode ∧ a.errorMessage = answer.errorMsg := by
    simpa using same
  refine ⟨earlier,a,rfl,before,?_,status,message⟩
  rw [DeliveryAttempt.succeeded,status,Answer.any_isSuccess]

theorem Shows.congr {ledger : Ledger budget} (shows : ledger.Shows r) (row : after.row = r.row)
    (attempts : after.attempts = r.attempts) (letters : after.letters = r.letters) : ledger.Shows after := by
  have status : after.status = r.status := congrArg (Option.map IncomingEventRecord.status) row
  cases ledger with
  | absent => exact ⟨row.trans shows.1,attempts.trans shows.2.1,letters.trans shows.2.2⟩
  | waiting failures => exact ⟨status.trans shows.1,attempts ▸ shows.2.1,letters.trans shows.2.2⟩
  | delivered failures last good => exact ⟨status.trans shows.1,attempts ▸ shows.2.1,letters.trans shows.2.2⟩
  | parked failures last bad spent =>
    obtain ⟨event,d,found,failed,filed,letter,rest⟩ := shows
    exact ⟨event,d,row.trans found,failed,attempts ▸ filed,letters.trans letter,rest⟩

theorem Shows.of_received {ledger : Ledger budget} (shows : ledger.Shows r) (status : r.status = some .received) :
    ∃ failures, ledger = .waiting failures := by
  cases ledger with
  | waiting failures => exact ⟨failures,rfl⟩
  | absent =>
    have none : r.status = none := congrArg (Option.map IncomingEventRecord.status) shows.1
    rw [status] at none
    cases none
  | delivered failures last good =>
    have is := shows.1
    rw [status] at is
    cases is
  | parked failures last bad spent =>
    obtain ⟨row,d,found,failed,_⟩ := shows
    have is : r.status = some row.status := congrArg (Option.map IncomingEventRecord.status) found
    rw [status,failed] at is
    cases is

end Ledger

section
variable {x : Externals} {cfg : DispatchLoopConfig} {w : World} {k : Uuid}

theorem Recorded.own (recorded : Recorded x cfg sent d answer after)
    (claimed : sent.db = w.db.setStatus d.eventId .processing) :
    ∃ now,
      (after.record d.eventId).row = (w.record d.eventId).row.map (·.withStatus (settledStatus cfg d answer)) ∧
      (after.record d.eventId).attempts =
        (w.record d.eventId).attempts ++ [d.attempt answer (x.nowV7 sent.drawn) now] ∧
      (settledStatus cfg d answer ≠ .failed → (after.record d.eventId).letters = (w.record d.eventId).letters) ∧
      (settledStatus cfg d answer = .failed →
        (after.record d.eventId).letters = [d.letter answer (x.nowV7 (sent.drawn+1)) now]) := by
  have row : ∀ {db : Db} {st}, db.incomingEvents = sent.db.incomingEvents →
      (db.setStatus d.eventId st).event d.eventId = (w.db.event d.eventId).map (·.withStatus st) := by
    intro db st same
    rw [Db.event_setStatus,if_pos rfl,Db.event_congr same,claimed,Db.event_setStatus,if_pos rfl,Option.map_map]
    rfl
  cases recorded with
  | @kept db now stored other =>
    obtain ⟨_,_,_,events,letters⟩ := Db.insertAttempt_parts stored
    have attempts := (Db.attempts_insertAttempt (k:=d.eventId) stored).trans (if_pos rfl)
    rw [claimed] at attempts letters
    exact ⟨_,row events,attempts,fun _ => Db.letters_congr letters,fun spent => absurd spent other⟩
  | @parked db last now stored spent filed =>
    obtain ⟨_,_,_,events,letters⟩ := Db.insertAttempt_parts stored
    obtain ⟨_,_,_,rows,more⟩ := Db.replaceLetter_parts filed
    have attempts := (Db.attempts_insertAttempt (k:=d.eventId) stored).trans (if_pos rfl)
    rw [claimed] at attempts
    refine ⟨_,?_,(Db.attempts_congr more).trans attempts,fun other => absurd spent other,
      fun _ => (Db.letters_replaceLetter filed).trans (if_pos rfl)⟩
    rw [spent]
    exact (Db.event_congr rows).trans (row events)

theorem Recorded.others (recorded : Recorded x cfg sent d answer after) (supplied : w.Supplied x)
    (claimed : sent.db = w.db.setStatus d.eventId .processing) (drawn : sent.drawn = w.drawn) (other : k ≠ d.eventId) :
    (after.record k).row = (w.record k).row ∧ (after.record k).attempts = (w.record k).attempts ∧
      (after.record k).letters = (w.record k).letters := by
  have row : ∀ {db : Db} {st}, db.incomingEvents = sent.db.incomingEvents →
      (db.setStatus d.eventId st).event k = w.db.event k := by
    intro db st same
    rw [Db.event_setStatus,if_neg other,Db.event_congr same,claimed,Db.event_setStatus,if_neg other]
  cases recorded with
  | @kept db now stored _ =>
    obtain ⟨_,_,_,events,letters⟩ := Db.insertAttempt_parts stored
    have attempts := (Db.attempts_insertAttempt (k:=k) stored).trans (if_neg (Ne.symm other))
    rw [claimed] at attempts letters
    exact ⟨row events,attempts,Db.letters_congr letters⟩
  | @parked db last now stored spent filed =>
    obtain ⟨_,_,_,events,letters⟩ := Db.insertAttempt_parts stored
    obtain ⟨_,_,_,rows,more⟩ := Db.replaceLetter_parts filed
    have attempts := (Db.attempts_insertAttempt (k:=k) stored).trans (if_neg (Ne.symm other))
    rw [claimed,drawn] at stored
    have marked : World.Supplied x {w with db:=w.db.setStatus d.eventId .processing} :=
      supplied.keep rfl rfl fun id member => by simpa using member
    have attempted : World.Supplied x {w with db:=db.setStatus d.eventId .failed,drawn:=w.drawn+1} :=
      marked.draw rfl rfl fun id member => Db.ids_insertAttempt stored (by simpa using member)
    have filedLetters := (attempted.replaceLetter (k:=k) (congrArg (x.nowV7 <| · + 1) drawn) filed).trans
      (if_neg (Ne.symm other))
    rw [claimed] at attempts letters
    exact ⟨(Db.event_congr rows).trans (row events),(Db.attempts_congr more).trans attempts,
      filedLetters.trans (Db.letters_congr letters)⟩

-- The budget of an event. A budget of zero allows one attempt too.
def DispatchLoopConfig.budget (cfg : DispatchLoopConfig) : Nat := max 1 cfg.maxAttempts.toNat

theorem DispatchLoopConfig.budget_pos (cfg : DispatchLoopConfig) : 0 < cfg.budget := by
  unfold budget
  omega

theorem DispatchLoopConfig.budget_fits (cfg : DispatchLoopConfig) : cfg.budget < 2^32 := by
  have small : cfg.maxAttempts.toNat < 2^32 := cfg.maxAttempts.toNat_lt
  unfold budget
  omega

def Refines (budget : Nat) (r after : Record) : Prop :=
  ∀ ledger : Ledger budget, ledger.Shows r → ∃ next, (next = ledger ∨ ledger.Step next) ∧ next.Shows after

theorem Refines.same (row : after.row = r.row) (attempts : after.attempts = r.attempts)
    (letters : after.letters = r.letters) : Refines budget r after :=
  fun ledger shows => ⟨ledger,.inl rfl,shows.congr row attempts letters⟩

theorem Recorded.refines (recorded : Recorded x cfg sent d answer after)
    (claimed : sent.db = w.db.setStatus d.eventId .processing) (count : d.attemptCount = w.db.attemptCount d.eventId)
    (target : ∀ row, w.db.event d.eventId = some row → d.endpointId = row.endpointId)
    (waiting : (w.record d.eventId).status = some .received) :
    Refines cfg.budget (w.record d.eventId) (after.record d.eventId) := by
  intro ledger shows
  obtain ⟨failures,rfl⟩ := shows.of_received waiting
  obtain ⟨status,filed,letters⟩ := shows
  obtain ⟨now,row,attempts,kept,parked⟩ := recorded.own claimed
  have fits := cfg.budget_fits
  have room := failures.room
  have sofar : d.attemptCount = failures.answers.length := count.trans filed.length
  have next : d.attemptNum = failures.answers.length+1 := by
    rw [← sofar]
    exact Delivery.attemptNum_fits (by omega)
  have filed' : Ledger.Filed (failures.answers ++ [answer]) (after.record d.eventId).attempts := by
    rw [attempts]
    exact filed.snoc next rfl rfl
  have status' : (after.record d.eventId).status = some (settledStatus cfg d answer) := by
    obtain ⟨before,found,_⟩ := Option.map_eq_some_iff.mp status
    rw [Record.status,row,found]
    rfl
  cases success : answer.success with
  | true =>
    have settled : settledStatus cfg d answer = .delivered := by simp [settledStatus,success]
    rw [settled] at status' kept
    exact ⟨.delivered failures answer success,.inr (.deliver success),status',filed',(kept (by decide)).trans letters⟩
  | false =>
    by_cases exhausted : cfg.maxAttempts.toNat ≤ d.attemptNum
    · have settled : settledStatus cfg d answer = .failed := by simp [settledStatus,success,exhausted]
      have spent : failures.answers.length+1 = cfg.budget := by
        unfold DispatchLoopConfig.budget at room ⊢
        omega
      obtain ⟨before,found,_⟩ := Option.map_eq_some_iff.mp status
      have letter := parked settled
      refine ⟨.parked failures answer success spent,.inr (.park success spent),before.withStatus .failed,_,?_,rfl,
        filed',letter,?_,?_,rfl⟩
      · rw [row,found,settled]
        rfl
      · exact target before found
      · have said : answer.errorMsg.isSome = true := by simp [Answer.errorMsg_isSome,success]
        obtain ⟨text,same⟩ := Option.isSome_iff_exists.mp said
        simp [Delivery.letter,same]
    · have settled : settledStatus cfg d answer = .received := by simp [settledStatus,success,exhausted]
      have more : failures.answers.length+1 < cfg.budget := by
        unfold DispatchLoopConfig.budget
        omega
      rw [settled] at status' kept
      exact ⟨.waiting (Ledger.Failures.more failures answer success more),.inr (.fail success more),status',filed',
        (kept (by decide)).trans letters⟩

theorem PassStep.refines (effect : PassStep x cfg inp w next result) (supplied : w.Supplied x) (k : Uuid) :
    Refines cfg.budget (w.record k) (next.record k) := by
  cases effect with
  | idle empty => exact .same rfl rfl rfl
  | deferred head refused => exact .same rfl rfl rfl
  | attempted head admitted event target count claimed drawn recorded =>
    rename_i row sent d after
    rw [← event] at count claimed
    have found : w.db.event d.eventId = some row := event.symm ▸ Db.nextReceived_event head
    by_cases same : k = d.eventId
    · subst same
      refine recorded.refines claimed count (fun other there => ?_) ?_
      · rw [found] at there
        cases there
        exact target
      · exact Db.status_some.mpr ⟨row,found,(Db.nextReceived_status head).2⟩
    · obtain ⟨rows,attempts,letters⟩ := recorded.others supplied claimed drawn same
      exact .same rows attempts letters

end

section
variable {x : Externals} {w next : World} {k : Uuid}

-- A letter is in the table only for an event that is parked, and it is the only
-- one; so a replay takes all there is to take.
theorem ReplayDone.refines (effect : ReplayDone w dlqId next) (positive : 0 < budget) (k : Uuid) :
    Refines budget (w.record k) (next.record k) := by
  cases effect with
  | refused => exact .same rfl rfl rfl
  | @replayed letter found =>
    obtain ⟨member,named⟩ := Table.lookup_exact.mp found
    intro ledger shows
    have rows := Db.event_setStatus w.db letter.eventId k .received
    have attempts := Db.attempts_deleteAttempts (w.db.setStatus letter.eventId .received) letter.eventId k
    have letters := Db.letters_deleteLetter ((w.db.setStatus letter.eventId .received).deleteAttempts letter.eventId) dlqId k
    by_cases mine : k = letter.eventId
    · rw [if_pos mine] at rows attempts
      have listed : letter ∈ (w.record k).letters := List.mem_filter.mpr ⟨member,by simp [mine]⟩
      cases ledger with
      | absent => rw [shows.2.2] at listed; cases listed
      | waiting failures => rw [shows.2.2] at listed; cases listed
      | delivered failures last good => rw [shows.2.2] at listed; cases listed
      | parked failures last bad spent =>
        obtain ⟨row,d,present,_,_,only,_⟩ := shows
        rw [only] at listed
        obtain rfl := List.mem_singleton.mp listed
        have present : w.db.event k = some row := present
        rw [present] at rows
        refine ⟨_,.inr (.replay positive),congrArg (Option.map IncomingEventRecord.status) rows,
          Ledger.Filed.nil attempts,letters.trans ?_⟩
        · have all : ((w.db.setStatus letter.eventId .received).deleteAttempts letter.eventId).letters k = [letter] := only
          rw [all]
          simp [named]
    · rw [if_neg mine] at rows attempts
      refine ⟨ledger,.inl rfl,shows.congr rows attempts (letters.trans (List.filter_eq_self.mpr fun d inside => ?_))⟩
      obtain ⟨stored,own⟩ := List.mem_filter.mp inside
      have apart : d.id ≠ dlqId := by
        intro same
        have equal : d = letter := Table.eq_of_key stored member (same.trans named.symm)
        exact mine ((of_decide_eq_true own).symm.trans (congrArg (·.eventId) equal))
      simpa using apart

theorem RecordStep.refines {s : System.State} {a : System.Action} (step : System.RecordStep x s a k r after)
    (fresh : a.replays = false) (positive : 0 < budget) : Refines budget r after := by
  intro ledger shows
  cases step with
  | same => exact ⟨ledger,.inl rfl,shows⟩
  | created drawn waiting =>
    have absent : ledger = .absent := by
      cases ledger with
      | absent => rfl
      | waiting failures => cases shows.1
      | delivered failures last good => cases shows.1
      | parked failures last bad spent => obtain ⟨_,_,found,_⟩ := shows; cases found
    subst absent
    exact ⟨_,.inr (.accept positive),congrArg some waiting,Ledger.Filed.nil rfl,rfl⟩
  | removed asked was settled =>
    rename_i row
    refine ⟨.absent,.inr (.remove fun failures same => ?_),rfl,rfl,rfl⟩
    subst same
    have status := shows.1
    rw [Record.status,was] at status
    have waiting : row.status = .received := Option.some.inj status
    rw [waiting] at settled
    cases settled
  | requeued asked => rw [fresh] at asked; cases asked
  | cleared asked => rw [fresh] at asked; cases asked
  | unlisted asked dlqId => rw [fresh] at asked; cases asked

theorem Operation.refines {cfg : AppConfig} {op : Operation} (clean : op.Clean) (supplied : w.Supplied x)
    (shown : ∀ k, ∃ ledger : Ledger (DispatchLoopConfig.fromAppConfig cfg).budget, ledger.Shows (w.record k)) (k : Uuid) :
    Refines (DispatchLoopConfig.fromAppConfig cfg).budget (w.record k) ((op.perform x cfg w).record k) := by
  have positive := (DispatchLoopConfig.fromAppConfig cfg).budget_pos
  cases op with
  | createEndpoint headers req inp =>
    have same : World.record (AetherRelay.createEndpoint x cfg inp w headers req).1 k = w.record k :=
      System.CreateStep.record (createEndpoint_step x cfg inp w headers req)
    exact .same (congrArg Record.row same) (congrArg Record.attempts same) (congrArg Record.letters same)
  | acceptEvent endpointId key rawBody headers inp =>
    exact RecordStep.refines (System.AcceptStep.record (s:={System.boot cfg with world:=w}) (a:=.kill)
      (acceptEvent_step x inp w endpointId key rawBody headers) rfl supplied) rfl positive
  | runDispatchOnce inp =>
    refine (runDispatchOnce_clean clean (fun row head => ?_) supplied.fresh_attempt).refines supplied k
    obtain ⟨ledger,shows⟩ := shown row.id
    obtain ⟨failures,rfl⟩ := shows.of_received (Db.nextReceived_waiting head)
    have length := shows.2.1.length
    have room := failures.room
    have fits := (DispatchLoopConfig.fromAppConfig cfg).budget_fits
    change (w.record row.id).attempts.length < 2^32
    omega
  | replayDlq headers dlqId inp => exact (replayDlq_clean cfg clean w headers dlqId).refines positive k
  | deleteEndpoint headers id inp =>
    exact RecordStep.refines (System.DeleteStep.record (x:=x) (s:={System.boot cfg with world:=w})
      (deleteEndpoint_step cfg inp w headers id) (a:=.deleteEndpoint headers id inp) rfl) rfl positive
  | breakers map => exact .same rfl rfl rfl

structure Balanced (budget : Nat) (row : IncomingEventRecord) (attempts : List DeliveryAttempt)
    (letters : List DeadLetter) : Prop where
  numbered : attempts.map (·.attemptNumber) = List.range' 1 attempts.length
  atRest : row.status ≠ .processing
  received : row.status = .received → attempts.length < budget ∧ ∀ a ∈ attempts, a.succeeded = false
  delivered : row.status = .delivered ↔
    ∃ earlier last, attempts = earlier ++ [last] ∧ last.succeeded = true ∧ ∀ a ∈ earlier, a.succeeded = false
  failed : row.status = .failed ↔ attempts.length = budget ∧ ∀ a ∈ attempts, a.succeeded = false
  listed : letters ≠ [] ↔ row.status = .failed
  letter : row.status = .failed → ∃ d earlier last, letters = [d] ∧ attempts = earlier ++ [last] ∧
    d.endpointId = row.endpointId ∧ d.lastAttemptStatus = last.responseStatus ∧ last.errorMessage = some d.errorReason

theorem ends_once {attempts earlier : List DeliveryAttempt} (parts : attempts = earlier ++ [last])
    (good : last.succeeded = true) (bad : ∀ a ∈ attempts, a.succeeded = false) : False := by
  have other := bad last (by simp [parts])
  rw [good] at other
  cases other

theorem Ledger.Shows.balanced {ledger : Ledger budget} (shows : ledger.Shows (w.record k))
    (found : w.db.event k = some row) : Balanced budget row (w.db.attempts k) (w.db.letters k) := by
  have status : (w.record k).status = some row.status := congrArg (Option.map IncomingEventRecord.status) found
  cases ledger with
  | absent =>
    have gone : w.db.event k = none := shows.1
    rw [found] at gone
    cases gone
  | waiting failures =>
    obtain ⟨is,filed,letters⟩ := shows
    have is : row.status = .received := Option.some.inj (status.symm.trans is)
    have bad := filed.success failures.failed
    have room := failures.room
    have length := filed.length
    refine ⟨filed.numbered,by simp [is],fun _ => ⟨length.trans_lt room,bad⟩,?_,?_,?_,?_⟩
    · refine ⟨fun other => by simp [is] at other,?_⟩
      rintro ⟨earlier,last,parts,good,_⟩
      exact (ends_once parts good bad).elim
    · refine ⟨fun other => by simp [is] at other,fun ⟨full,_⟩ => ?_⟩
      exact absurd (length.symm.trans full) room.ne
    · exact ⟨fun some' => absurd letters some',fun other => by simp [is] at other⟩
    · exact fun other => by simp [is] at other
  | delivered failures last good =>
    obtain ⟨is,filed,letters⟩ := shows
    have is : row.status = .delivered := Option.some.inj (status.symm.trans is)
    obtain ⟨earlier,a,parts,before,success,_⟩ := filed.last
    have bad := before.success failures.failed
    refine ⟨filed.numbered,by simp [is],fun other => by simp [is] at other,
      ⟨fun _ => ⟨earlier,a,parts,success.trans good,bad⟩,fun _ => is⟩,?_,?_,?_⟩
    · exact ⟨fun other => by simp [is] at other,fun all => (ends_once parts (success.trans good) all.2).elim⟩
    · exact ⟨fun some' => absurd letters some',fun other => by simp [is] at other⟩
    · exact fun other => by simp [is] at other
  | parked failures last bad spent =>
    obtain ⟨event,d,present,is,filed,letters,parent,reason,code⟩ := shows
    obtain rfl : row = event := Option.some.inj (found.symm.trans present)
    obtain ⟨earlier,a,parts,_,_,answered,said⟩ := filed.last
    have all : ∀ answer ∈ failures.answers ++ [last], answer.success = false := by
      intro answer member
      rcases List.mem_append.mp member with old | new
      · exact failures.failed answer old
      · exact (List.mem_singleton.mp new) ▸ bad
    have failed := filed.success all
    have length : (w.db.attempts k).length = budget := by
      apply filed.length.trans
      simpa using spent
    refine ⟨filed.numbered,by simp [is],fun other => by simp [is] at other,?_,
      ⟨fun _ => ⟨length,failed⟩,fun _ => is⟩,⟨fun _ => is,fun _ none => ?_⟩,fun _ => ?_⟩
    · refine ⟨fun other => by simp [is] at other,?_⟩
      rintro ⟨earlier,last,parts,good,_⟩
      exact (ends_once parts good failed).elim
    · have only : w.db.letters k = [d] := letters
      rw [only] at none
      cases none
    · exact ⟨d,earlier,a,letters,parts,parent,code.trans answered.symm,said.trans reason⟩

theorem operations_shown {cfg : AppConfig}
    (path : Transition.Run (Operation.step x cfg) (fun _ op => op.Clean) World.new operations w) :
    w.Supplied x ∧ ∀ k, ∃ ledger : Ledger (DispatchLoopConfig.fromAppConfig cfg).budget, ledger.Shows (w.record k) := by
  apply path.preserves (fun u => u.Supplied x ∧
    ∀ k, ∃ ledger : Ledger (DispatchLoopConfig.fromAppConfig cfg).budget, ledger.Shows (u.record k))
  · rintro u op _ ⟨supplied,shown⟩ clean ⟨⟩
    refine ⟨Operation.supplied clean supplied,fun k => ?_⟩
    obtain ⟨ledger,shows⟩ := shown k
    obtain ⟨next,_,shows⟩ := Operation.refines clean supplied shown k ledger shows
    exact ⟨next,shows⟩
  · exact ⟨World.new_supplied x,fun _ => ⟨.absent,rfl,rfl,rfl⟩⟩

-- After any sequence of operations the four tables agree about every event.
theorem tables_balanced {cfg : AppConfig}
    (path : Transition.Run (Operation.step x cfg) (fun _ op => op.Clean) World.new operations w) :
    (∀ k row, w.db.event k = some row →
      Balanced (max 1 cfg.worker.maxAttempts.toNat) row (w.db.attempts k) (w.db.letters k)) ∧
    (∀ a ∈ w.db.deliveryAttempts.rows, ∃ row, w.db.event a.eventId = some row) ∧
    ∀ d ∈ w.db.deadLetterQueue.rows, ∃ row, w.db.event d.eventId = some row := by
  refine ⟨fun k row found => ?_,fun a member => Option.isSome_iff_exists.mp (w.db.attemptParent a member),
    fun d member => Option.isSome_iff_exists.mp (w.db.letterParent d member)⟩
  obtain ⟨ledger,shows⟩ := (operations_shown path).2 k
  exact shows.balanced found

end

def passWith (answer : Answer) : Operation := .runDispatchOnce fun _ => ⟨none,0,0,answer,0⟩

def parkedAndReplayed : List Operation :=
  [.createEndpoint [] ⟨"orders","generic","secret","https://hooks.example.com/in"⟩ ⟨none,0,0,.error "",0⟩,
   .acceptEvent "1" "key-1" [] "{}" ⟨none,0,0,.error "",0⟩,
   passWith (.error "connection refused"),
   .replayDlq [] "1111" fun _ => ⟨none,0,0,.error "",0⟩,
   passWith (.response .ok)]

theorem tables_balanced_replayed :
    ∃ w row, Transition.Run (Operation.step .tabletop System.budgetOfOne) (fun _ op => op.Clean) World.new parkedAndReplayed w ∧
      w.db.event "11" = some row ∧ Balanced 1 row (w.db.attempts "11") (w.db.letters "11") := by
  have served : (Transition.exec (Operation.step .tabletop System.budgetOfOne) World.new parkedAndReplayed).map
      (fun w => w.db.status "11") = some (some .delivered) := by decide +kernel
  obtain ⟨w,reached,delivered⟩ := Option.map_eq_some_iff.mp served
  obtain ⟨row,found,_⟩ := Db.status_some.mp delivered
  have path := Transition.Run.check (fun _ op => op.Clean) reached
    (.all (by simp [parkedAndReplayed,passWith,Operation.Clean,Clean]))
  exact ⟨w,row,path,found,(tables_balanced path).1 "11" row found⟩

end AetherRelay
