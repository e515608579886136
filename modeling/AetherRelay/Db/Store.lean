import Mathlib.Data.List.MinMax
import Mathlib.Data.Prod.Lex
import AetherRelay.Lib.Table
import AetherRelay.Db.Models
import AetherRelay.Error

namespace AetherRelay

-- The four tables of SCHEMA_SQL. Every constraint the schema declares is a
-- field, so what SQLite refuses cannot be built: primary keys live in `Table`,
-- the two UNIQUE constraints and the three foreign keys are stated here.
structure Db where
  endpoints : Table Uuid EndpointRecord EndpointRecord.id
  incomingEvents : Table Uuid IncomingEventRecord IncomingEventRecord.id
  deliveryAttempts : Table Uuid DeliveryAttempt DeliveryAttempt.id
  deadLetterQueue : Table Uuid DeadLetter DeadLetter.id
  keyUnique : ∀ a ∈ incomingEvents.rows, ∀ b ∈ incomingEvents.rows,
    a.endpointId = b.endpointId → a.idempotencyKey = b.idempotencyKey → a = b
  letterUnique : ∀ a ∈ deadLetterQueue.rows, ∀ b ∈ deadLetterQueue.rows, a.eventId = b.eventId → a = b
  eventParent : ∀ e ∈ incomingEvents.rows, (endpoints.lookup e.endpointId).isSome = true
  attemptParent : ∀ a ∈ deliveryAttempts.rows, (incomingEvents.lookup a.eventId).isSome = true
  letterParent : ∀ d ∈ deadLetterQueue.rows, (incomingEvents.lookup d.eventId).isSome = true

namespace Db

@[ext] theorem ext {a b : Db} (endpoints : a.endpoints = b.endpoints)
    (events : a.incomingEvents = b.incomingEvents) (attempts : a.deliveryAttempts = b.deliveryAttempts)
    (letters : a.deadLetterQueue = b.deadLetterQueue) : a = b := by
  cases a; cases b
  cases endpoints; cases events; cases attempts; cases letters
  rfl

def empty : Db where
  endpoints := .empty
  incomingEvents := .empty
  deliveryAttempts := .empty
  deadLetterQueue := .empty
  keyUnique := fun _ member => by cases member
  letterUnique := fun _ member => by cases member
  eventParent := fun _ member => by cases member
  attemptParent := fun _ member => by cases member
  letterParent := fun _ member => by cases member

def endpoint (db : Db) (id : Uuid) : Option EndpointRecord := db.endpoints.lookup id
def event (db : Db) (id : Uuid) : Option IncomingEventRecord := db.incomingEvents.lookup id
def status (db : Db) (id : Uuid) : Option EventStatus := (db.event id).map (·.status)
def letter (db : Db) (id : Uuid) : Option DeadLetter := db.deadLetterQueue.lookup id
def attempts (db : Db) (eventId : Uuid) : List DeliveryAttempt :=
  db.deliveryAttempts.rows.filter (fun a => a.eventId = eventId)

-- SELECT COUNT(*) FROM delivery_attempts WHERE event_id = ?
def attemptCount (db : Db) (eventId : Uuid) : Nat := (db.attempts eventId).length

-- SELECT ... WHERE status = 'RECEIVED' ORDER BY created_at ASC, id ASC LIMIT 1
def queueOrder (e : IncomingEventRecord) : Nat ×ₗ Uuid := toLex (e.createdAt,e.id)
def nextReceived (db : Db) : Option IncomingEventRecord :=
  (db.incomingEvents.rows.filter (fun e => e.status = .received)).argmin queueOrder

-- SELECT status ... WHERE endpoint_id = ? AND idempotency_key = ?
def eventByKey (db : Db) (endpointId : Uuid) (key : String) : Option IncomingEventRecord :=
  db.incomingEvents.rows.find? (fun e => e.endpointId = endpointId && e.idempotencyKey = key)

-- SELECT COUNT(*) ... WHERE endpoint_id = ? AND status IN ('RECEIVED', 'PROCESSING')
def pendingCount (db : Db) (endpointId : Uuid) : Nat :=
  (db.incomingEvents.rows.filter (fun e => e.endpointId = endpointId && e.status.pending)).length

-- UPDATE incoming_events SET status = ? WHERE id = ?
def setStatus (db : Db) (id : Uuid) (st : EventStatus) : Db :=
  let events := db.incomingEvents.modify id (·.withStatus st) (fun _ => rfl)
  have kept : ∀ e ∈ events.rows, ∃ old ∈ db.incomingEvents.rows, e.id = old.id ∧
      e.endpointId = old.endpointId ∧ e.idempotencyKey = old.idempotencyKey := by
    intro e member
    obtain ⟨old,present,rfl⟩ := Table.mem_modify.mp member
    exact ⟨old,present,by split <;> exact ⟨rfl,rfl,rfl⟩⟩
  have found : ∀ k, (db.incomingEvents.lookup k).isSome = true → (events.lookup k).isSome = true := by
    intro k present
    have moved := Table.lookup_modify db.incomingEvents (·.withStatus st) (fun _ => rfl) id k
    change (events.lookup k) = _ at moved
    rw [moved]
    split <;> simpa using present
  {db with
    incomingEvents := events
    keyUnique := by
      intro a ha b hb sameEndpoint sameKey
      obtain ⟨x,hx,idx,epx,keyx⟩ := kept a ha
      obtain ⟨y,hy,idy,epy,keyy⟩ := kept b hb
      have old := db.keyUnique x hx y hy (by rw [← epx,← epy,sameEndpoint]) (by rw [← keyx,← keyy,sameKey])
      exact Table.eq_of_key ha hb (by rw [idx,idy,old])
    eventParent := by
      intro e member
      obtain ⟨old,present,_,same,_⟩ := kept e member
      rw [same]; exact db.eventParent old present
    attemptParent := fun a member => found _ (db.attemptParent a member)
    letterParent := fun d member => found _ (db.letterParent d member)}

def insertEndpoint (db : Db) (row : EndpointRecord) : Except SqlError Db :=
  if fresh : row.id ∉ db.endpoints.rows.map (·.id) then
    .ok {db with
      endpoints := db.endpoints.insert row fresh
      eventParent := by
        intro e member
        rw [Table.lookup_insert]
        split
        · rfl
        · exact db.eventParent e member}
  else .error (.uniqueConstraint "endpoints.id")

-- INSERT INTO incoming_events: the key constraints are checked when the row is
-- written, the foreign key when the statement ends.
def insertEvent (db : Db) (row : IncomingEventRecord) : Except SqlError Db :=
  if fresh : row.id ∉ db.incomingEvents.rows.map (·.id) then
    if unused : db.eventByKey row.endpointId row.idempotencyKey = none then
      if parent : (db.endpoints.lookup row.endpointId).isSome = true then
        have other : ∀ e ∈ db.incomingEvents.rows, e.endpointId = row.endpointId →
            e.idempotencyKey ≠ row.idempotencyKey := by
          intro e member sameEndpoint sameKey
          have none := List.find?_eq_none.mp unused e member
          simp [sameEndpoint,sameKey] at none
        have found : ∀ k, (db.incomingEvents.lookup k).isSome = true →
            ((db.incomingEvents.insert row fresh).lookup k).isSome = true := by
          intro k present
          rw [Table.lookup_insert]
          split
          · rfl
          · exact present
        .ok {db with
          incomingEvents := db.incomingEvents.insert row fresh
          keyUnique := by
            intro a ha b hb sameEndpoint sameKey
            rcases Table.mem_insert.mp ha with oldA | newA <;> rcases Table.mem_insert.mp hb with oldB | newB
            · exact db.keyUnique a oldA b oldB sameEndpoint sameKey
            · subst newB; exact False.elim (other a oldA sameEndpoint sameKey)
            · subst newA; exact False.elim (other b oldB sameEndpoint.symm sameKey.symm)
            · exact newA.trans newB.symm
          eventParent := by
            intro e member
            rcases Table.mem_insert.mp member with old | rfl
            · exact db.eventParent e old
            · exact parent
          attemptParent := fun a member => found _ (db.attemptParent a member)
          letterParent := fun d member => found _ (db.letterParent d member)}
      else .error .foreignKeyConstraint
    else .error (.uniqueConstraint "incoming_events.endpoint_id, incoming_events.idempotency_key")
  else .error (.uniqueConstraint "incoming_events.id")

def insertAttempt (db : Db) (row : DeliveryAttempt) : Except SqlError Db :=
  if fresh : row.id ∉ db.deliveryAttempts.rows.map (·.id) then
    if parent : (db.incomingEvents.lookup row.eventId).isSome = true then
      .ok {db with
        deliveryAttempts := db.deliveryAttempts.insert row fresh
        attemptParent := by
          intro a member
          rcases Table.mem_insert.mp member with old | rfl
          · exact db.attemptParent a old
          · exact parent}
    else .error .foreignKeyConstraint
  else .error (.uniqueConstraint "delivery_attempts.id")

-- INSERT OR REPLACE INTO dead_letter_queue: rows in conflict on either key go
-- first, and the statement is undone when its foreign key fails.
def replaceLetter (db : Db) (row : DeadLetter) : Except SqlError Db :=
  if parent : (db.incomingEvents.lookup row.eventId).isSome = true then
    let rest := db.deadLetterQueue.retain (fun d => d.id ≠ row.id && d.eventId ≠ row.eventId)
    have apart : ∀ d ∈ rest.rows, d ∈ db.deadLetterQueue.rows ∧ d.id ≠ row.id ∧ d.eventId ≠ row.eventId := by
      intro d member
      simpa [rest] using member
    .ok {db with
      deadLetterQueue := rest.insert row (by
        intro taken
        obtain ⟨d,member,same⟩ := List.mem_map.mp taken
        exact (apart d member).2.1 same)
      letterUnique := by
        intro a ha b hb same
        rcases Table.mem_insert.mp ha with oldA | newA <;> rcases Table.mem_insert.mp hb with oldB | newB
        · exact db.letterUnique a (apart a oldA).1 b (apart b oldB).1 same
        · subst newB; exact False.elim ((apart a oldA).2.2 same)
        · subst newA; exact False.elim ((apart b oldB).2.2 same.symm)
        · exact newA.trans newB.symm
      letterParent := by
        intro d member
        rcases Table.mem_insert.mp member with old | rfl
        · exact db.letterParent d (apart d old).1
        · exact parent}
  else .error .foreignKeyConstraint

-- DELETE FROM delivery_attempts WHERE event_id = ?
def deleteAttempts (db : Db) (eventId : Uuid) : Db :=
  {db with
    deliveryAttempts := db.deliveryAttempts.retain (fun a => a.eventId ≠ eventId)
    attemptParent := fun a member => db.attemptParent a (Table.mem_retain.mp member).1}

-- DELETE FROM dead_letter_queue WHERE id = ?
def deleteLetter (db : Db) (id : Uuid) : Db :=
  {db with
    deadLetterQueue := db.deadLetterQueue.retain (fun d => d.id ≠ id)
    letterUnique := fun a ha b hb =>
      db.letterUnique a (Table.mem_retain.mp ha).1 b (Table.mem_retain.mp hb).1
    letterParent := fun d member => db.letterParent d (Table.mem_retain.mp member).1}

-- DELETE FROM endpoints WHERE id = ?, with the cascades of the schema: the
-- endpoint's events go, and with each event its attempts and its letter.
def deleteEndpoint (db : Db) (id : Uuid) : Db :=
  let kept (eventId : Uuid) : Bool := (db.incomingEvents.lookup eventId).any (fun e => e.endpointId ≠ id)
  have stays : ∀ k, kept k = true →
      ((db.incomingEvents.retain (fun e => e.endpointId ≠ id)).lookup k).isSome = true := by
    intro k present
    rw [Table.lookup_retain]
    cases found : db.incomingEvents.lookup k with
    | none => simp [kept,found] at present
    | some e => simpa [kept,found] using present
  {endpoints := db.endpoints.retain (fun p => p.id ≠ id)
   incomingEvents := db.incomingEvents.retain (fun e => e.endpointId ≠ id)
   deliveryAttempts := db.deliveryAttempts.retain (fun a => kept a.eventId)
   deadLetterQueue := db.deadLetterQueue.retain (fun d => kept d.eventId)
   keyUnique := fun a ha b hb => db.keyUnique a (Table.mem_retain.mp ha).1 b (Table.mem_retain.mp hb).1
   letterUnique := fun a ha b hb => db.letterUnique a (Table.mem_retain.mp ha).1 b (Table.mem_retain.mp hb).1
   eventParent := by
     intro e member
     obtain ⟨old,other⟩ := Table.mem_retain.mp member
     have other : e.endpointId ≠ id := by simpa using other
     rw [Table.lookup_retain]
     cases found : db.endpoints.lookup e.endpointId with
     | none => have parent := db.eventParent e old; simp [found] at parent
     | some p =>
       have same := Table.lookup_key found
       simp [same,other]
   attemptParent := fun a member => stays _ (by simpa using (Table.mem_retain.mp member).2)
   letterParent := fun d member => stays _ (by simpa using (Table.mem_retain.mp member).2)}

end Db
end AetherRelay
