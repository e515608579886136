import AetherRelay.Api.Dlq
import AetherRelay.Worker.Mirror

namespace AetherRelay

-- The three writes of a replay, as edits of the store that a pass on event `k`
-- does not notice: its statements answer the same and their writes commute.
-- `new` is the id the next insert will use.
structure Aside (f : Db → Db) (k new : Uuid) : Prop where
  event : ∀ db, (f db).event k = db.event k
  endpoint : ∀ db id, (f db).endpoint id = db.endpoint id
  status : ∀ db st, (f db).setStatus k st = f (db.setStatus k st)
  letter : ∀ db (row : DeadLetter), row.eventId = k → row.id = new →
    Agrees (fun a b => a = f b) ((f db).replaceLetter row) (db.replaceLetter row)

structure Uncounted (f : Db → Db) (k new : Uuid) : Prop where
  fewer : ∀ db, ∀ a ∈ (f db).deliveryAttempts.rows, a ∈ db.deliveryAttempts.rows
  count : ∀ db, (f db).attemptCount k = db.attemptCount k
  attempt : ∀ db (row : DeliveryAttempt), row.eventId = k → row.id = new →
    new ∉ db.deliveryAttempts.rows.map (·.id) →
    Agrees (fun a b => a = f b) ((f db).insertAttempt row) (db.insertAttempt row)

section
variable {f g : Db → Db} {e k new dlqId : Uuid}

theorem Agrees.comp {one : Except ε Db} {two : Except ε Db} {three : Except ε Db}
    (first : Agrees (fun a b => a = f b) one two) (second : Agrees (fun a b => a = g b) two three) :
    Agrees (fun a b => a = f (g b)) one three := by
  cases first with
  | ok same =>
    cases second with
    | ok same' => exact .ok (same.trans (congrArg f same'))
  | error e =>
    cases second
    exact .error e

theorem Aside.comp (one : Aside f k new) (two : Aside g k new) : Aside (fun db => f (g db)) k new where
  event db := (one.event (g db)).trans (two.event db)
  endpoint db id := (one.endpoint (g db) id).trans (two.endpoint db id)
  status db st := (one.status (g db) st).trans (congrArg f (two.status db st))
  letter db row event fresh := (one.letter (g db) row event fresh).comp (two.letter db row event fresh)

theorem Uncounted.comp (one : Uncounted f k new) (two : Uncounted g k new) : Uncounted (fun db => f (g db)) k new where
  fewer db a member := two.fewer db a (one.fewer (g db) a member)
  count db := (one.count (g db)).trans (two.count db)
  attempt db row event id fresh := by
    have still : new ∉ (g db).deliveryAttempts.rows.map (·.id) := by
      intro taken
      obtain ⟨a,member,same⟩ := List.mem_map.mp taken
      exact fresh (List.mem_map.mpr ⟨a,two.fewer db a member,same⟩)
    exact (one.attempt (g db) row event id still).comp (two.attempt db row event id fresh)

theorem Aside.nothing : Aside (fun db => db) k new where
  event _ := rfl
  endpoint _ _ := rfl
  status _ _ := rfl
  letter _ _ _ _ := .equal rfl

theorem Uncounted.nothing : Uncounted (fun db => db) k new where
  fewer _ _ member := member
  count _ := rfl
  attempt _ _ _ _ _ := .equal rfl

end

namespace Db
variable {db : Db} {e k new dlqId : Uuid}

theorem setStatus_comm (other : k ≠ e) (st one : EventStatus) :
    (db.setStatus e st).setStatus k one = (db.setStatus k one).setStatus e st := by
  apply Db.ext
  · rfl
  · apply Table.ext
    simp only [setStatus,Table.modify,List.map_map]
    apply List.map_congr_left
    intro row _
    by_cases first : row.id = e
    · simp [first,Ne.symm other]
    · by_cases second : row.id = k
      · simp [second,other]
      · simp [first,second]
  · rfl
  · rfl

theorem replaceLetter_stored {row : DeadLetter} (present : db.event row.eventId ≠ none) :
    ∃ next, db.replaceLetter row = .ok next := by
  have parent : (db.incomingEvents.lookup row.eventId).isSome = true := Option.isSome_iff_ne_none.mpr present
  unfold replaceLetter
  rw [dif_pos parent]
  exact ⟨_,rfl⟩

theorem replaceLetter_orphan {row : DeadLetter} (gone : db.event row.eventId = none) :
    db.replaceLetter row = .error .foreignKeyConstraint := by
  have orphan : ¬(db.incomingEvents.lookup row.eventId).isSome = true := by
    intro parent
    exact Option.isSome_iff_ne_none.mp parent gone
  unfold replaceLetter
  rw [dif_neg orphan]

theorem insertAttempt_stored {row : DeliveryAttempt} (fresh : row.id ∉ db.deliveryAttempts.rows.map (·.id))
    (present : db.event row.eventId ≠ none) : ∃ next, db.insertAttempt row = .ok next := by
  have parent : (db.incomingEvents.lookup row.eventId).isSome = true := Option.isSome_iff_ne_none.mpr present
  unfold insertAttempt
  rw [dif_pos fresh,dif_pos parent]
  exact ⟨_,rfl⟩

theorem insertAttempt_orphan {row : DeliveryAttempt} (fresh : row.id ∉ db.deliveryAttempts.rows.map (·.id))
    (gone : db.event row.eventId = none) : db.insertAttempt row = .error .foreignKeyConstraint := by
  have orphan : ¬(db.incomingEvents.lookup row.eventId).isSome = true := by
    intro parent
    exact Option.isSome_iff_ne_none.mp parent gone
  unfold insertAttempt
  rw [dif_pos fresh,dif_neg orphan]

theorem replaceLetter_agrees {f : Db → Db} {one two : Db} {row : DeadLetter}
    (event : one.event row.eventId = two.event row.eventId)
    (moved : ∀ a b, one.replaceLetter row = .ok a → two.replaceLetter row = .ok b → a = f b) :
    Agrees (fun a b => a = f b) (one.replaceLetter row) (two.replaceLetter row) := by
  by_cases gone : two.event row.eventId = none
  · rw [replaceLetter_orphan gone,replaceLetter_orphan (event.trans gone)]
    exact .error _
  · obtain ⟨b,second⟩ := replaceLetter_stored gone
    obtain ⟨a,first⟩ := replaceLetter_stored (fun none => gone (event.symm.trans none))
    rw [first,second]
    exact .ok (moved a b first second)

theorem insertAttempt_agrees {f : Db → Db} {one two : Db} {row : DeliveryAttempt}
    (fresh : row.id ∉ one.deliveryAttempts.rows.map (·.id)) (fresh' : row.id ∉ two.deliveryAttempts.rows.map (·.id))
    (event : one.event row.eventId = two.event row.eventId)
    (moved : ∀ a b, one.insertAttempt row = .ok a → two.insertAttempt row = .ok b → a = f b) :
    Agrees (fun a b => a = f b) (one.insertAttempt row) (two.insertAttempt row) := by
  by_cases gone : two.event row.eventId = none
  · rw [insertAttempt_orphan fresh' gone,insertAttempt_orphan fresh (event.trans gone)]
    exact .error _
  · obtain ⟨b,second⟩ := insertAttempt_stored fresh' gone
    obtain ⟨a,first⟩ := insertAttempt_stored fresh (fun none => gone (event.symm.trans none))
    rw [first,second]
    exact .ok (moved a b first second)

theorem replaceLetter_elsewhere {f : Db → Db} {row : DeadLetter} (letters : ∀ a, (f a).deadLetterQueue = a.deadLetterQueue)
    (others : ∀ a b : Db, a.endpoints = b.endpoints → a.incomingEvents = b.incomingEvents →
      a.deliveryAttempts = b.deliveryAttempts → (f a).endpoints = (f b).endpoints ∧
        (f a).incomingEvents = (f b).incomingEvents ∧ (f a).deliveryAttempts = (f b).deliveryAttempts)
    (event : (f db).event row.eventId = db.event row.eventId) :
    Agrees (fun a b => a = f b) ((f db).replaceLetter row) (db.replaceLetter row) := by
  refine replaceLetter_agrees event fun a b first second => ?_
  obtain ⟨_,rows,endpoints,events,attempts⟩ := replaceLetter_parts first
  obtain ⟨_,rows',endpoints',events',attempts'⟩ := replaceLetter_parts second
  obtain ⟨sameEndpoints,sameEvents,sameAttempts⟩ := others b db endpoints' events' attempts'
  apply Db.ext
  · exact endpoints.trans sameEndpoints.symm
  · exact events.trans sameEvents.symm
  · exact attempts.trans sameAttempts.symm
  · rw [letters] at rows
    rw [letters]
    exact Table.ext (rows.trans rows'.symm)

theorem insertAttempt_elsewhere {f : Db → Db} {row : DeliveryAttempt}
    (fresh : row.id ∉ db.deliveryAttempts.rows.map (·.id))
    (attempts : ∀ a, (f a).deliveryAttempts = a.deliveryAttempts)
    (others : ∀ a b : Db, a.endpoints = b.endpoints → a.incomingEvents = b.incomingEvents →
      a.deadLetterQueue = b.deadLetterQueue → (f a).endpoints = (f b).endpoints ∧
        (f a).incomingEvents = (f b).incomingEvents ∧ (f a).deadLetterQueue = (f b).deadLetterQueue)
    (event : (f db).event row.eventId = db.event row.eventId) :
    Agrees (fun a b => a = f b) ((f db).insertAttempt row) (db.insertAttempt row) := by
  refine insertAttempt_agrees (by rwa [attempts]) fresh event fun a b first second => ?_
  obtain ⟨_,rows,endpoints,events,letters⟩ := insertAttempt_parts first
  obtain ⟨_,rows',endpoints',events',letters'⟩ := insertAttempt_parts second
  obtain ⟨sameEndpoints,sameEvents,sameLetters⟩ := others b db endpoints' events' letters'
  apply Db.ext
  · exact endpoints.trans sameEndpoints.symm
  · exact events.trans sameEvents.symm
  · rw [attempts] at rows
    rw [attempts]
    exact Table.ext (rows.trans rows'.symm)
  · exact letters.trans sameLetters.symm

theorem setStatus_aside (other : k ≠ e) (st : EventStatus) : Aside (·.setStatus e st) k new where
  event db := (event_setStatus db e k st).trans (if_neg other)
  endpoint _ _ := rfl
  status _ one := setStatus_comm other st one
  letter db row event _ := by
    refine replaceLetter_elsewhere (fun _ => rfl) ?_ ((event_setStatus ..).trans (if_neg (event ▸ other)))
    intro a b endpoints events attempts
    exact ⟨endpoints,by simp only [setStatus,events],attempts⟩

theorem setStatus_uncounted (other : k ≠ e) (st : EventStatus) : Uncounted (·.setStatus e st) k new where
  fewer _ _ member := member
  count _ := rfl
  attempt db row event id fresh := by
    subst id
    refine insertAttempt_elsewhere fresh (fun _ => rfl) ?_ ((event_setStatus ..).trans (if_neg (event ▸ other)))
    intro a b endpoints events letters
    exact ⟨endpoints,by simp only [setStatus,events],letters⟩

theorem deleteAttempts_aside : Aside (·.deleteAttempts e) k new where
  event _ := rfl
  endpoint _ _ := rfl
  status _ _ := rfl
  letter db row _ _ := by
    refine replaceLetter_elsewhere (fun _ => rfl) ?_ rfl
    intro a b endpoints events attempts
    exact ⟨endpoints,events,by simp only [deleteAttempts,attempts]⟩

theorem deleteAttempts_uncounted (other : k ≠ e) : Uncounted (·.deleteAttempts e) k new where
  fewer _ _ member := (Table.mem_retain.mp member).1
  count db := congrArg List.length ((attempts_deleteAttempts db e k).trans (if_neg other))
  attempt db row event id fresh := by
    subst id
    have still : row.id ∉ (db.deleteAttempts e).deliveryAttempts.rows.map (·.id) := by
      intro taken
      obtain ⟨a,member,same⟩ := List.mem_map.mp taken
      exact fresh (List.mem_map.mpr ⟨a,(Table.mem_retain.mp member).1,same⟩)
    refine insertAttempt_agrees still fresh rfl fun a b first second => ?_
    obtain ⟨_,attempts,endpoints,events,letters⟩ := insertAttempt_parts first
    obtain ⟨_,attempts',endpoints',events',letters'⟩ := insertAttempt_parts second
    apply Db.ext
    · exact endpoints.trans endpoints'.symm
    · exact events.trans events'.symm
    · apply Table.ext
      rw [attempts]
      simp [deleteAttempts,Table.retain,attempts',List.filter_append,event,other]
    · exact letters.trans letters'.symm

theorem deleteLetter_aside (other : new ≠ dlqId) : Aside (·.deleteLetter dlqId) k new where
  event _ := rfl
  endpoint _ _ := rfl
  status _ _ := rfl
  letter db row _ fresh := by
    subst fresh
    refine replaceLetter_agrees rfl fun a b first second => ?_
    obtain ⟨_,letters,endpoints,events,attempts⟩ := replaceLetter_parts first
    obtain ⟨_,letters',endpoints',events',attempts'⟩ := replaceLetter_parts second
    apply Db.ext
    · exact endpoints.trans endpoints'.symm
    · exact events.trans events'.symm
    · exact attempts.trans attempts'.symm
    · apply Table.ext
      rw [letters]
      simp only [deleteLetter,Table.retain,letters',List.filter_append]
      rw [List.filter_comm]
      simp [other]

theorem deleteLetter_uncounted : Uncounted (·.deleteLetter dlqId) k new where
  fewer _ _ member := member
  count _ := rfl
  attempt db row _ id fresh := by
    subst id
    refine insertAttempt_elsewhere fresh (fun _ => rfl) ?_ rfl
    intro a b endpoints events letters
    exact ⟨endpoints,events,by simp only [deleteLetter,letters]⟩

end Db
end AetherRelay
