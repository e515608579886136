import AetherRelay.Db.Laws
import AetherRelay.Worker.World

namespace AetherRelay

structure EndpointResponse where
  id : Uuid
  name : String
  provider : String
  targetUrl : String
  createdAt : Nat
deriving DecidableEq, Repr

def EndpointRecord.response (row : EndpointRecord) : EndpointResponse :=
  ⟨row.id,row.name,row.provider,row.targetUrl,row.createdAt⟩

def createEndpoint (x : Externals) (cfg : AppConfig) (inp : Input) (w : World) (headers : HeaderMap)
    (req : CreateEndpointRequest) : World × Except AppError EndpointResponse :=
  match verifyApiKey headers cfg.auth.apiKeys with
  | .error e => (w,.error e)
  | .ok () =>
    match validateNewEndpoint x req with
    | .error e => (w,.error e)
    | .ok () =>
      let row : EndpointRecord := ⟨x.nowV7 w.drawn,req.name,req.provider,req.secret,req.targetUrl,inp.now⟩
      match statement inp (w.db.insertEndpoint row) with
      | .error e => (w,.error e)
      | .ok db => (({w with db:=db,drawn:=w.drawn+1} : World).log (.endpointCreated row),.ok row.response)

-- The transaction is deferred. SQLite refuses its write when another writer
-- committed after its read, so a delete that commits acted on what it counted.
def deleteEndpoint (cfg : AppConfig) (inp : Input) (w : World) (headers : HeaderMap) (id : Uuid) :
    World × Except AppError Unit :=
  match verifyApiKey headers cfg.auth.apiKeys with
  | .error e => (w,.error e)
  | .ok () =>
    match statement inp (.ok (w.db.pendingCount id)) with
    | .error e => (w,.error e)
    | .ok pending =>
      if 0 < pending then
        (w,.error (.conflict s!"Endpoint {id} still has {pending} undelivered event(s); drain or replay them before deleting"))
      else
        match w.db.endpoint id with
        | none => (w,.error (.notFound s!"Endpoint {id} not found"))
        | some _ => (({w with db:=w.db.deleteEndpoint id} : World).log (.endpointDeleted id),.ok ())

inductive CreateStep (x : Externals) (inp : Input) (w : World) (req : CreateEndpointRequest) : World → Prop where
  | refused : CreateStep x inp w req w
  | stored (valid : validateNewEndpoint x req = .ok ())
      (inserted : w.db.insertEndpoint
        ⟨x.nowV7 w.drawn,req.name,req.provider,req.secret,req.targetUrl,inp.now⟩ = .ok db) :
      CreateStep x inp w req (({w with db:=db,drawn:=w.drawn+1} : World).log
        (.endpointCreated ⟨x.nowV7 w.drawn,req.name,req.provider,req.secret,req.targetUrl,inp.now⟩))

theorem createEndpoint_step (x : Externals) (cfg : AppConfig) (inp : Input) (w : World) (headers : HeaderMap)
    (req : CreateEndpointRequest) : CreateStep x inp w req (createEndpoint x cfg inp w headers req).1 := by
  unfold createEndpoint
  split
  · exact .refused
  · split
    · exact .refused
    · rename_i valid
      dsimp only
      split
      · exact .refused
      · rename_i inserted
        exact .stored valid (statement_ok.mp inserted).2

inductive DeleteStep (w : World) (id : Uuid) : World → Prop where
  | refused : DeleteStep w id w
  | removed (present : w.db.endpoint id = some row) (drained : w.db.pendingCount id = 0) :
      DeleteStep w id (({w with db:=w.db.deleteEndpoint id} : World).log (.endpointDeleted id))

theorem deleteEndpoint_step (cfg : AppConfig) (inp : Input) (w : World) (headers : HeaderMap) (id : Uuid) :
    DeleteStep w id (deleteEndpoint cfg inp w headers id).1 := by
  unfold deleteEndpoint
  split
  · exact .refused
  · split
    · exact .refused
    · rename_i pending counted
      have counted := (statement_ok.mp counted).2
      cases counted
      split
      · exact .refused
      · rename_i none
        split
        · exact .refused
        · rename_i row present
          exact .removed present (by omega)

end AetherRelay
