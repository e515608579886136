import AetherRelay.System.Rows

namespace AetherRelay

@[ext (iff := false)]
structure Record where
  row : Option IncomingEventRecord
  attempts : List DeliveryAttempt
  letters : List DeadLetter
  posts : Nat
  answers : List Answer

def Happening.posts (k : Uuid) : Happening → Bool
  | .posted e _ _ _ => e = k
  | _ => false

def Happening.answerTo (k : Uuid) : Happening → Option Answer
  | .answered e answer => if e = k then some answer else none
  | _ => none

def Db.letters (db : Db) (eventId : Uuid) : List DeadLetter :=
  db.deadLetterQueue.rows.filter (fun d => d.eventId = eventId)

-- The answers stand newest first, as in the history.
def World.record (w : World) (k : Uuid) : Record where
  row := w.db.event k
  attempts := w.db.attempts k
  letters := w.db.letters k
  posts := w.history.countP (·.posts k)
  answers := w.history.filterMap (·.answerTo k)

namespace Record

def status (r : Record) : Option EventStatus := r.row.map (·.status)

def withStatus (r : Record) (st : EventStatus) : Record := {r with row:=r.row.map (·.withStatus st)}

theorem status_withStatus (r : Record) (st : EventStatus) : (r.withStatus st).status = r.status.map fun _ => st := by
  cases row : r.row <;> simp [status,withStatus,row]

@[simp] theorem attempts_withStatus (r : Record) (st : EventStatus) : (r.withStatus st).attempts = r.attempts := rfl
@[simp] theorem letters_withStatus (r : Record) (st : EventStatus) : (r.withStatus st).letters = r.letters := rfl
@[simp] theorem posts_withStatus (r : Record) (st : EventStatus) : (r.withStatus st).posts = r.posts := rfl
@[simp] theorem answers_withStatus (r : Record) (st : EventStatus) : (r.withStatus st).answers = r.answers := rfl

def blank : Record := ⟨none,[],[],0,[]⟩

end Record

namespace Db
variable {db next : Db} {id k : Uuid}

theorem attempts_none (gone : db.event k = none) : db.attempts k = [] := by
  apply List.filter_eq_nil_iff.mpr
  intro a member same
  have parent := db.attemptParent a member
  have equal : a.eventId = k := by simpa using same
  rw [equal] at parent
  have missing : db.incomingEvents.lookup k = none := gone
  simp [missing] at parent

theorem letters_none (gone : db.event k = none) : db.letters k = [] := by
  apply List.filter_eq_nil_iff.mpr
  intro d member same
  have parent := db.letterParent d member
  have equal : d.eventId = k := by simpa using same
  rw [equal] at parent
  have missing : db.incomingEvents.lookup k = none := gone
  simp [missing] at parent

theorem attempts_congr (same : next.deliveryAttempts = db.deliveryAttempts) : next.attempts k = db.attempts k := by
  rw [attempts,same,attempts]

theorem letters_congr (same : next.deadLetterQueue = db.deadLetterQueue) : next.letters k = db.letters k := by
  rw [letters,same,letters]

theorem attempts_insertAttempt (done : db.insertAttempt row = .ok next) :
    next.attempts k = if row.eventId = k then db.attempts k ++ [row] else db.attempts k := by
  obtain ⟨_,rows,_⟩ := insertAttempt_parts done
  unfold attempts
  rw [rows,List.filter_append]
  split
  · rename_i same; simp [same]
  · rename_i other; simp [other]

theorem letters_replaceLetter (done : db.replaceLetter row = .ok next) :
    next.letters k = if row.eventId = k then [row] else (db.letters k).filter (fun d => d.id ≠ row.id) := by
  obtain ⟨_,rows,_⟩ := replaceLetter_parts done
  unfold letters
  rw [rows,List.filter_append,List.filter_filter]
  split
  · rename_i same
    subst same
    have none : db.deadLetterQueue.rows.filter
        (fun d => decide (d.eventId = row.eventId) && (decide (d.id ≠ row.id) && decide (d.eventId ≠ row.eventId))) = [] := by
      apply List.filter_eq_nil_iff.mpr
      intro d _ both
      simp only [Bool.and_eq_true,decide_eq_true_eq] at both
      exact both.2.2 both.1
    rw [none]
    simp
  · rename_i other
    rw [List.filter_cons_of_neg (by simpa using other),List.filter_nil,List.append_nil,List.filter_filter]
    apply List.filter_congr
    intro d _
    by_cases same : d.eventId = k
    · simp [same,Ne.symm other]
    · simp [same]

theorem attempts_deleteEndpoint (kept : (db.deleteEndpoint id).event k = db.event k) :
    (db.deleteEndpoint id).attempts k = db.attempts k := by
  cases found : db.event k with
  | none => rw [attempts_none found,attempts_none (kept.trans found)]
  | some row =>
    rw [event_deleteEndpoint,found] at kept
    have other : row.endpointId ≠ id := by
      intro same
      simp [same] at kept
    have lookup : db.incomingEvents.lookup k = some row := found
    unfold attempts deleteEndpoint Table.retain
    dsimp only
    rw [List.filter_filter]
    apply List.filter_congr
    intro a _
    by_cases same : a.eventId = k <;> simp [same,lookup,other]

theorem letters_deleteEndpoint (kept : (db.deleteEndpoint id).event k = db.event k) :
    (db.deleteEndpoint id).letters k = db.letters k := by
  cases found : db.event k with
  | none => rw [letters_none found,letters_none (kept.trans found)]
  | some row =>
    rw [event_deleteEndpoint,found] at kept
    have other : row.endpointId ≠ id := by
      intro same
      simp [same] at kept
    have lookup : db.incomingEvents.lookup k = some row := found
    unfold letters deleteEndpoint Table.retain
    dsimp only
    rw [List.filter_filter]
    apply List.filter_congr
    intro d _
    by_cases same : d.eventId = k <;> simp [same,lookup,other]

theorem letters_deleteLetter (db : Db) (dlqId k : Uuid) :
    (db.deleteLetter dlqId).letters k = (db.letters k).filter (fun d => d.id ≠ dlqId) := by
  unfold letters deleteLetter Table.retain
  dsimp only
  rw [List.filter_filter,List.filter_filter]
  exact List.filter_congr fun d _ => Bool.and_comm _ _

end Db

section
variable {w next : World} {k : Uuid}

theorem World.record_log {h : Happening} (posts : h.posts k = false) (answers : h.answerTo k = none) :
    (w.log h).record k = w.record k := by
  simp [record,posts,answers]

theorem World.record_congr (db : next.db = w.db) (history : next.history = w.history) :
    next.record k = w.record k := by
  simp [record,db,history]

theorem World.record_setStatus (w : World) (e k : Uuid) (st : EventStatus) :
    World.record {w with db:=w.db.setStatus e st} k =
      if k = e then (w.record k).withStatus st else w.record k := by
  unfold record
  simp only [Db.event_setStatus,Record.withStatus]
  split <;> rfl

theorem World.mem_answers : a ∈ (w.record k).answers ↔ .answered k a ∈ w.history := by
  constructor
  · intro member
    obtain ⟨h,inside,same⟩ := List.mem_filterMap.mp member
    cases h with
    | answered e answer =>
      simp only [Happening.answerTo,Option.ite_none_right_eq_some,Option.some.injEq] at same
      obtain ⟨rfl,rfl⟩ := same
      exact inside
    | _ => cases same
  · intro inside
    exact List.mem_filterMap.mpr ⟨_,inside,by simp [Happening.answerTo]⟩

theorem World.record_withStatus (w : World) (e : Uuid) (st : EventStatus) :
    World.record {w with db:=w.db.setStatus e st} e = (w.record e).withStatus st :=
  (w.record_setStatus e e st).trans (if_pos rfl)

theorem World.Supplied.blank {x : Externals} (supplied : w.Supplied x) (fresh : ¬Spent x w k) :
    w.record k = .blank := by
  have gone : w.db.event k = none := by
    cases found : w.db.event k with
    | none => rfl
    | some row => exact absurd (supplied.store k (Db.ids_event found)) fresh
  apply Record.ext
  · exact gone
  · exact Db.attempts_none gone
  · exact Db.letters_none gone
  · refine List.countP_eq_zero.mpr fun h member posts => fresh ?_
    cases h with
    | posted e endpointId url body =>
      have same : e = k := by simpa [Happening.posts] using posts
      subst same
      exact supplied.past _ member e (by simp [Happening.ids])
    | _ => cases posts
  · apply List.filterMap_eq_nil_iff.mpr
    intro h member
    cases h with
    | answered e answer =>
      refine if_neg fun same => fresh ?_
      subst same
      exact supplied.past _ member e (by simp [Happening.ids])
    | _ => rfl

theorem World.Supplied.replaceLetter {x : Externals} {row : DeadLetter} (supplied : w.Supplied x)
    (fresh : row.id = x.nowV7 w.drawn) (stored : w.db.replaceLetter row = .ok after) :
    after.letters k = if row.eventId = k then [row] else w.db.letters k := by
  rw [Db.letters_replaceLetter stored]
  split
  · rfl
  · apply List.filter_eq_self.mpr
    intro d member
    have old : d.id ∈ w.db.ids := by
      simp only [Db.ids,List.mem_append,List.mem_map]
      exact .inr ⟨d,List.mem_of_mem_filter member,rfl⟩
    have apart := supplied.store d.id old w.drawn (Nat.le_refl _)
    rw [← fresh] at apart
    simpa using Ne.symm apart

theorem World.record_posted (w : World) (e endpointId : Uuid) (url : String) (body : Bytes) :
    (w.log (.posted e endpointId url body)).record e = {w.record e with posts:=(w.record e).posts+1} := by
  simp [record,Happening.posts,Happening.answerTo]

theorem World.record_answered (w : World) (e : Uuid) (answer : Answer) :
    (w.log (.answered e answer)).record e = {w.record e with answers:=answer :: (w.record e).answers} := by
  simp [record,Happening.posts,Happening.answerTo]

theorem World.record_insertAttempt {row : DeliveryAttempt} (stored : w.db.insertAttempt row = .ok after) :
    World.record {w with db:=after,drawn:=n} row.eventId =
      {w.record row.eventId with attempts:=(w.record row.eventId).attempts ++ [row]} := by
  obtain ⟨_,_,_,events,letters⟩ := Db.insertAttempt_parts stored
  exact Record.ext (Db.event_congr events) ((Db.attempts_insertAttempt stored).trans (if_pos rfl))
    (Db.letters_congr letters) rfl rfl

theorem World.record_replaceLetter {row : DeadLetter} (stored : w.db.replaceLetter row = .ok after) :
    World.record {w with db:=after,drawn:=n} row.eventId = {w.record row.eventId with letters:=[row]} := by
  obtain ⟨_,_,_,events,attempts⟩ := Db.replaceLetter_parts stored
  exact Record.ext (Db.event_congr events) (Db.attempts_congr attempts)
    ((Db.letters_replaceLetter stored).trans (if_pos rfl)) rfl rfl

theorem DispatchStep.frame (effect : DispatchStep x cfg inp w pc next after) (supplied : w.Supplied x)
    (other : k ≠ pc.eventId) : next.record k = w.record k := by
  cases effect with
  | requeueDeferred live => exact (World.record_setStatus ..).trans (if_neg other)
  | exhausted live spent => exact (World.record_setStatus ..).trans (if_neg other)
  | settled live failed => exact (World.record_setStatus ..).trans (if_neg other)
  | send => exact World.record_log (decide_eq_false (Ne.symm other)) rfl
  | await => exact World.record_log rfl (if_neg (Ne.symm other))
  | insertAttempt live stored =>
    obtain ⟨_,_,_,events,letters⟩ := Db.insertAttempt_parts stored
    apply Record.ext
    · exact Db.event_congr events
    · exact (Db.attempts_insertAttempt stored).trans (if_neg (Ne.symm other))
    · exact Db.letters_congr letters
    · rfl
    · rfl
  | insertDeadLetter live stored =>
    obtain ⟨_,_,_,events,attempts⟩ := Db.replaceLetter_parts stored
    apply Record.ext
    · exact Db.event_congr events
    · exact Db.attempts_congr attempts
    · exact (supplied.replaceLetter rfl stored).trans (if_neg (Ne.symm other))
    · rfl
    · rfl
  | _ => exact World.record_congr rfl rfl

theorem WorkerStep.frame (effect : WorkerStep x cfg inp w worker next after) (supplied : w.Supplied x)
    (coherent : worker.Coherent) (before : worker.engaged ≠ some k) (other : after.engaged ≠ some k) :
    next.record k = w.record k := by
  cases effect with
  | claim live head =>
    refine (World.record_setStatus ..).trans (if_neg ?_)
    intro equal
    subst equal
    exact other rfl
  | @dispatch _ pc _ _ claimed parent p moved =>
    have coherent : pc.eventId = claimed := coherent
    by_cases same : k = pc.eventId
    · subst same
      exact absurd moved.engaged before
    · exact moved.frame supplied same
  | requeued live =>
    refine (World.record_setStatus ..).trans (if_neg ?_)
    intro equal
    subst equal
    exact before rfl
  | returned result => exact World.record_log rfl rfl
  | errored e => exact World.record_log rfl rfl
  | polled => exact World.record_log rfl rfl
  | slept waits delay => exact World.record_log rfl rfl
  | _ => rfl

end

namespace System
variable {x : Externals} {cfg : AppConfig} {s t : State} {a : Action} {k : Uuid}

inductive RecordStep (x : Externals) (s : State) (a : Action) (k : Uuid) : Record → Record → Prop where
  | same : RecordStep x s a k r r
  | created (drawn : k = x.nowV7 s.world.drawn) (waiting : row.status = .received) :
      RecordStep x s a k .blank {Record.blank with row:=some row}
  | removed (asked : a.deletes = true) (was : r.row = some row) (settled : row.status.pending = false) :
      RecordStep x s a k r {r with row:=none,attempts:=[],letters:=[]}
  | requeued (asked : a.replays = true) : RecordStep x s a k r (r.withStatus .received)
  | cleared (asked : a.replays = true) : RecordStep x s a k r {r with attempts:=[]}
  | unlisted (asked : a.replays = true) (dlqId : Uuid) :
      RecordStep x s a k r {r with letters:=r.letters.filter (fun d => d.id ≠ dlqId)}

theorem CreateStep.record {w next : World} (effect : CreateStep x inp w req next) : next.record k = w.record k := by
  cases effect with
  | refused => rfl
  | @stored db valid inserted =>
    obtain ⟨_,_,events,attempts,letters,_⟩ := Db.insertEndpoint_parts inserted
    rw [World.record_log rfl rfl]
    exact Record.ext (Db.event_congr events) (Db.attempts_congr attempts) (Db.letters_congr letters) rfl rfl

theorem AcceptStep.record {w next : World} (effect : AcceptStep x inp w endpointId key rawBody headers next result)
    (world : s.world = w) (supplied : w.Supplied x) : RecordStep x s a k (w.record k) (next.record k) := by
  subst world
  cases effect with
  | refused e cause => rw [World.record_log rfl rfl]; exact .same
  | @stored db live unused inserted =>
    obtain ⟨_,_,_,_,_,attempts,letters,rows⟩ := Db.insertEvent_parts inserted
    have read := rows k
    rw [World.record_log rfl rfl]
    by_cases fresh : x.nowV7 s.world.drawn = k
    · have blank : s.world.record k = .blank := supplied.blank fun spent => spent _ (Nat.le_refl _) fresh
      have posts : (s.world.record k).posts = 0 := congrArg Record.posts blank
      have answers : (s.world.record k).answers = [] := congrArg Record.answers blank
      rw [if_pos fresh] at read
      have next : World.record {s.world with db:=db,drawn:=s.world.drawn+1} k = {Record.blank with
          row:=some ⟨x.nowV7 s.world.drawn,endpointId,key,rawBody,headers,.received,inp.now⟩} :=
        Record.ext read ((Db.attempts_congr attempts).trans (congrArg Record.attempts blank))
          ((Db.letters_congr letters).trans (congrArg Record.letters blank))
          posts answers
      rw [blank,next]
      exact .created fresh.symm rfl
    · rw [if_neg fresh] at read
      have next : World.record {s.world with db:=db,drawn:=s.world.drawn+1} k = s.world.record k :=
        Record.ext read (Db.attempts_congr attempts) (Db.letters_congr letters) rfl rfl
      rw [next]
      exact .same

theorem DeleteStep.record {w next : World} (effect : DeleteStep w endpointId next) (asked : a.deletes = true) :
    RecordStep x s a k (w.record k) (next.record k) := by
  cases effect with
  | refused => exact .same
  | removed present drained =>
    rw [World.record_log rfl rfl]
    have event := Db.event_deleteEndpoint w.db endpointId k
    cases found : w.db.event k with
    | none =>
      have same : (w.db.deleteEndpoint endpointId).event k = w.db.event k := by rw [event,found]; rfl
      have next : World.record {w with db:=w.db.deleteEndpoint endpointId} k = w.record k :=
        Record.ext same (Db.attempts_deleteEndpoint same) (Db.letters_deleteEndpoint same) rfl rfl
      rw [next]
      exact .same
    | some row =>
      rw [found] at event
      by_cases child : row.endpointId = endpointId
      · rw [Option.filter_some_neg (by simpa using child)] at event
        have next : World.record {w with db:=w.db.deleteEndpoint endpointId} k =
            {w.record k with row:=none,attempts:=[],letters:=[]} :=
          Record.ext event (Db.attempts_none event) (Db.letters_none event) rfl rfl
        rw [next]
        exact .removed asked found (Db.pendingCount_zero drained (Db.event_mem found).1 child)
      · rw [Option.filter_some_pos (by simpa using child)] at event
        have same : (w.db.deleteEndpoint endpointId).event k = w.db.event k := by rw [event,found]
        have next : World.record {w with db:=w.db.deleteEndpoint endpointId} k = w.record k :=
          Record.ext same (Db.attempts_deleteEndpoint same) (Db.letters_deleteEndpoint same) rfl rfl
        rw [next]
        exact .same

theorem ReplayStep.record {w next : World} (effect : ReplayStep inp w pc next after) (asked : a.replays = true) :
    RecordStep x s a k (w.record k) (next.record k) := by
  cases effect with
  | requeued live =>
    rw [World.record_setStatus]
    split
    · exact .requeued asked
    · exact .same
  | @cleared _ _ eventId live =>
    have attempts := Db.attempts_deleteAttempts w.db eventId k
    by_cases same : k = eventId
    · rw [if_pos same] at attempts
      have next : World.record {w with db:=w.db.deleteAttempts eventId} k = {w.record k with attempts:=[]} :=
        Record.ext rfl attempts rfl rfl rfl
      rw [next]
      exact .cleared asked
    · rw [if_neg same] at attempts
      have next : World.record {w with db:=w.db.deleteAttempts eventId} k = w.record k :=
        Record.ext rfl attempts rfl rfl rfl
      rw [next]
      exact .same
  | @removed _ dlqId eventId live =>
    have next : World.record {w with db:=w.db.deleteLetter dlqId} k =
        {w.record k with letters:=(w.record k).letters.filter (fun d => d.id ≠ dlqId)} :=
      Record.ext rfl rfl (Db.letters_deleteLetter w.db dlqId k) rfl rfl
    rw [World.record_log rfl rfl,next]
    exact .unlisted asked dlqId
  | found live row => exact .same
  | failed e cause => exact .same

theorem Step.record (moved : Step x cfg s a t) (supplied : Supplied x s) (others : ∀ i inp, a ≠ .worker i inp) :
    RecordStep x s a k (s.world.record k) (t.world.record k) := by
  cases moved with
  | created live effect =>
    rw [CreateStep.record effect]
    exact .same
  | deleted live effect => exact DeleteStep.record effect rfl
  | accepted live effect => exact AcceptStep.record effect rfl supplied.world
  | ingestStarted live gates => cases gates; exact .same
  | ingested live present effect =>
    cases effect with
    | accepted inner => exact AcceptStep.record inner rfl supplied.world
    | _ => exact .same
  | replayStarted live => exact .same
  | replayed live present effect => exact ReplayStep.record effect rfl
  | worked live effect => exact absurd rfl (others _ _)
  | killed live => exact .same
  | shutDown live quiet => exact .same
  | restarted down => exact .same

theorem Step.record_known (moved : Step x cfg s a t) (supplied : Supplied x s) (others : ∀ i inp, a ≠ .worker i inp)
    (fresh : a.replays = false) (kept : a.deletes = false) (spent : Spent x s.world k) :
    t.world.record k = s.world.record k := by
  have change := moved.record (k := k) supplied others
  generalize before : s.world.record k = r at change
  generalize after : t.world.record k = r' at change
  cases change with
  | same => rfl
  | created drawn waiting => exact absurd drawn.symm (spent _ (Nat.le_refl _))
  | removed asked was settled => rw [kept] at asked; cases asked
  | requeued asked => rw [fresh] at asked; cases asked
  | cleared asked => rw [fresh] at asked; cases asked
  | unlisted asked dlqId => rw [fresh] at asked; cases asked

end System
end AetherRelay
