import AetherRelay.Api.Management

namespace AetherRelay

instance (a b : Db) : Decidable (a = b) :=
  decidable_of_iff (a.endpoints.rows = b.endpoints.rows ∧ a.incomingEvents.rows = b.incomingEvents.rows ∧
      a.deliveryAttempts.rows = b.deliveryAttempts.rows ∧ a.deadLetterQueue.rows = b.deadLetterQueue.rows) <| by
    constructor
    · rintro ⟨endpoints,events,attempts,letters⟩
      exact Db.ext (Table.ext endpoints) (Table.ext events) (Table.ext attempts) (Table.ext letters)
    · intro same
      subst same
      exact ⟨rfl,rfl,rfl,rfl⟩

-- Where a running delete_endpoint stands. The transaction is deferred: the SELECT
-- fixes the snapshot it reads, and its DELETE takes the write lock and keeps it to
-- the COMMIT, so nothing is written in between.
inductive DeletePc where
  | countPending (id : Uuid)
  | deleteRow (id : Uuid) (snapshot : Db)
  | done (result : Except AppError Unit)

def startDelete (cfg : AppConfig) (headers : HeaderMap) (id : Uuid) : DeletePc :=
  match verifyApiKey headers cfg.auth.apiKeys with
  | .error e => .done (.error e)
  | .ok () => .countPending id

def conflict (id : Uuid) (pending : Nat) : AppError :=
  .conflict s!"Endpoint {id} still has {pending} undelivered event(s); drain or replay them before deleting"

-- A snapshot that differs from the file is older than some commit, and its
-- transaction may not write.
def deleteStep (inp : Input) (w : World) : DeletePc → Option (World × DeletePc)
  | .done _ => none
  | .countPending id => some <| match statement inp (.ok (w.db.pendingCount id)) with
    | .error e => (w,.done (.error e))
    | .ok pending => if 0 < pending then (w,.done (.error (conflict id pending))) else (w,.deleteRow id w.db)
  | .deleteRow id snapshot =>
    some <| match statement inp (if w.db = snapshot then .ok () else .error (.failure "database is locked")) with
    | .error e => (w,.done (.error e))
    | .ok () => match w.db.endpoint id with
      | none => (w,.done (.error (.notFound s!"Endpoint {id} not found")))
      | some _ => (({w with db:=w.db.deleteEndpoint id} : World).log (.endpointDeleted id),.done (.ok ()))

inductive DeleteSection (inp : Input) (w : World) : DeletePc → World → DeletePc → Prop where
  | counted (live : inp.fault = none) (drained : w.db.pendingCount endpointId = 0) :
      DeleteSection inp w (.countPending endpointId) w (.deleteRow endpointId w.db)
  | refused (e : AppError) : DeleteSection inp w pc w (.done (.error e))
  | committed (live : inp.fault = none) (present : w.db.endpoint endpointId = some row) :
      DeleteSection inp w (.deleteRow endpointId w.db)
        (({w with db:=w.db.deleteEndpoint endpointId} : World).log (.endpointDeleted endpointId)) (.done (.ok ()))

theorem deleteStep_sound (moved : deleteStep inp w pc = some (next,after)) : DeleteSection inp w pc next after := by
  cases pc with
  | done r => cases moved
  | countPending id =>
    simp only [deleteStep,Option.some.injEq] at moved
    split at moved
    · cases moved; exact .refused _
    · rename_i pending counted
      obtain ⟨live,equal⟩ := statement_ok.mp counted
      cases equal
      split at moved
      · cases moved; exact .refused _
      · cases moved; exact .counted live (by omega)
  | deleteRow id snapshot =>
    simp only [deleteStep,Option.some.injEq] at moved
    split at moved
    · cases moved; exact .refused _
    · rename_i u allowed
      obtain ⟨live,equal⟩ := statement_ok.mp allowed
      split at equal
      · rename_i same
        subst same
        split at moved
        · cases moved; exact .refused _
        · rename_i row present
          cases moved
          exact .committed live present
      · cases equal

def deleteAlone (cfg : AppConfig) (inp : Input) (w : World) (headers : HeaderMap) (id : Uuid) :
    Option (World × DeletePc) :=
  match startDelete cfg headers id with
  | .done r => some (w,.done r)
  | pc => (deleteStep inp w pc).bind fun (next,after) => match after with
    | .done r => some (next,.done r)
    | after => deleteStep inp next after

theorem deleteAlone_exact (cfg : AppConfig) (inp : Input) (w : World) (headers : HeaderMap) (id : Uuid) :
    deleteAlone cfg inp w headers id =
      some ((deleteEndpoint cfg inp w headers id).1,.done (deleteEndpoint cfg inp w headers id).2) := by
  unfold deleteAlone deleteEndpoint startDelete
  cases verifyApiKey headers cfg.auth.apiKeys with
  | error e => rfl
  | ok u =>
    simp only [deleteStep,Option.bind_some]
    cases counted : statement inp (.ok (w.db.pendingCount id)) with
    | error e => rfl
    | ok pending =>
      obtain ⟨live,equal⟩ := statement_ok.mp counted
      cases equal
      by_cases some' : 0 < w.db.pendingCount id
      · simp only [if_pos some',conflict]
      · have allowed : statement inp (.ok ()) = .ok () := statement_ok.mpr ⟨live,rfl⟩
        simp only [if_neg some',if_true,allowed]
        cases w.db.endpoint id with
        | none => rfl
        | some row => rfl

def DeletePc.Drained : DeletePc → Prop
  | .deleteRow id snapshot => snapshot.pendingCount id = 0
  | _ => True

theorem DeleteSection.drained (effect : DeleteSection inp w pc next after) : after.Drained := by
  cases effect with
  | counted live drained => exact drained
  | _ => trivial

theorem DeleteSection.atomic (effect : DeleteSection inp w pc next after) (drained : pc.Drained) :
    next = w ∨ ∃ id, pc = .deleteRow id w.db ∧ after = .done (.ok ()) ∧ DeleteStep w id next := by
  cases effect with
  | counted live drained => exact .inl rfl
  | refused e => exact .inl rfl
  | committed live present => exact .inr ⟨_,rfl,rfl,.removed present drained⟩

end AetherRelay
