import AetherRelay.Db.Laws
import AetherRelay.Worker.World

namespace AetherRelay

-- One BEGIN IMMEDIATE transaction: whatever makes it fail undoes all of it. The
-- history keeps what the caller is told.
def acceptEvent (x : Externals) (inp : Input) (w : World) (endpointId : Uuid) (key : String)
    (rawBody : Bytes) (headers : String) : World × Except AppError Uuid :=
  let refuse (e : AppError) : World × Except AppError Uuid := (w.log (.rejected endpointId key e),.error e)
  match statement inp (.ok (w.db.eventByKey endpointId key)) with
  | .error e => refuse e
  | .ok (some row) => refuse (.duplicateIdempotencyKey row.status.asStr)
  | .ok none =>
    let eventId := x.nowV7 w.drawn
    match w.db.insertEvent ⟨eventId,endpointId,key,rawBody,headers,.received,inp.now⟩ with
    | .error e => refuse (.database e)
    | .ok db =>
      (({w with db:=db,drawn:=w.drawn+1} : World).log (.accepted eventId endpointId key rawBody headers),.ok eventId)

inductive AcceptStep (x : Externals) (inp : Input) (w : World) (endpointId : Uuid) (key : String)
    (rawBody : Bytes) (headers : String) : World → Except AppError Uuid → Prop where
  | stored (live : inp.fault = none) (unused : w.db.eventByKey endpointId key = none)
      (inserted : w.db.insertEvent
        ⟨x.nowV7 w.drawn,endpointId,key,rawBody,headers,.received,inp.now⟩ = .ok db) :
      AcceptStep x inp w endpointId key rawBody headers
        (({w with db:=db,drawn:=w.drawn+1} : World).log
          (.accepted (x.nowV7 w.drawn) endpointId key rawBody headers)) (.ok (x.nowV7 w.drawn))
  | refused (e : AppError)
      (cause : (∃ fault, inp.fault = some fault ∧ e = .database fault.error) ∨
        (inp.fault = none ∧ ∃ row, w.db.eventByKey endpointId key = some row ∧
          e = .duplicateIdempotencyKey row.status.asStr) ∨
        (inp.fault = none ∧ w.db.eventByKey endpointId key = none ∧ ∃ failure,
          w.db.insertEvent ⟨x.nowV7 w.drawn,endpointId,key,rawBody,headers,.received,inp.now⟩ = .error failure ∧
          e = .database failure)) :
      AcceptStep x inp w endpointId key rawBody headers (w.log (.rejected endpointId key e)) (.error e)

theorem acceptEvent_step (x : Externals) (inp : Input) (w : World) (endpointId : Uuid) (key : String)
    (rawBody : Bytes) (headers : String) :
    AcceptStep x inp w endpointId key rawBody headers
      (acceptEvent x inp w endpointId key rawBody headers).1
      (acceptEvent x inp w endpointId key rawBody headers).2 := by
  unfold acceptEvent
  cases fault : inp.fault with
  | some e =>
    simp only [statement,fault]
    exact .refused _ (.inl ⟨e,fault,rfl⟩)
  | none =>
    simp only [statement,fault]
    cases existing : w.db.eventByKey endpointId key with
    | some row => exact .refused _ (.inr (.inl ⟨fault,row,existing,rfl⟩))
    | none =>
      cases inserted : w.db.insertEvent ⟨x.nowV7 w.drawn,endpointId,key,rawBody,headers,.received,inp.now⟩ with
      | error failure => exact .refused _ (.inr (.inr ⟨fault,existing,failure,inserted,rfl⟩))
      | ok db => exact .stored fault existing inserted

end AetherRelay
