import AetherRelay.Api.Ingest
import AetherRelay.Core.Idempotency

namespace AetherRelay

-- Where a running handle_ingest stands. The gates before the lookup need no
-- database and run when the request arrives.
inductive IngestPc where
  | selectEndpoint (req : IngestRequest) (key : String)
  | verify (req : IngestRequest) (key : String) (endpoint : EndpointRecord)
  | accept (req : IngestRequest) (key : String) (provider : String)
  | done (result : Except AppError (String × Uuid))

def IngestPc.answered : IngestPc → Bool
  | .done _ => true
  | _ => false

def lookupEndpoint (w : World) (inp : Input) (endpointId : Uuid) : Except AppError EndpointRecord :=
  match statement inp (.ok (w.db.endpoint endpointId)) with
  | .error e => .error e
  | .ok none => .error (.notFound s!"Endpoint {endpointId} not found")
  | .ok (some row) => .ok row

def startIngest (cfg : AppConfig) (w : World) (req : IngestRequest) : World × IngestPc :=
  (w.log (.ingestReceived req),
    match admitIngest cfg req with
    | .error e => .done (.error e)
    | .ok key => .selectEndpoint req key)

def ingestStep (x : Externals) (inp : Input) (w : World) : IngestPc → Option (World × IngestPc)
  | .done _ => none
  | .selectEndpoint req key => some <| match lookupEndpoint w inp req.endpointId with
    | .error e => (w,.done (.error e))
    | .ok endpoint => (w,.verify req key endpoint)
  | .verify req key endpoint => some <| match verifyIngest x endpoint req inp.now with
    | .error e => (w,.done (.error e))
    | .ok () => (w,.accept req key endpoint.provider)
  | .accept req key provider =>
    let (next,result) := acceptEvent x inp w req.endpointId key req.body (headersJson x req.headers)
    some (next,.done (result.map fun eventId => (provider,eventId)))

inductive IngestStep (x : Externals) (inp : Input) : World → IngestPc → World → IngestPc → Prop where
  | found (row : w.db.endpoint req.endpointId = some endpoint) :
      IngestStep x inp w (.selectEndpoint req key) w (.verify req key endpoint)
  | verified (valid : verifyIngest x endpoint req inp.now = .ok ()) :
      IngestStep x inp w (.verify req key endpoint) w (.accept req key endpoint.provider)
  | accepted (effect : AcceptStep x inp w req.endpointId key req.body (headersJson x req.headers) next result) :
      IngestStep x inp w (.accept req key provider) next
        (.done (result.map fun eventId => (provider,eventId)))
  | refused (e : AppError) : IngestStep x inp w pc w (.done (.error e))

theorem lookupEndpoint_ok {inp : Input} {w : World} (found : lookupEndpoint w inp endpointId = .ok row) :
    inp.fault = none ∧ w.db.endpoint endpointId = some row := by
  unfold lookupEndpoint at found
  cases fault : inp.fault with
  | some e => simp [statement,fault] at found
  | none =>
    cases present : w.db.endpoint endpointId with
    | none => simp [statement,fault,present] at found
    | some p => simp [statement,fault,present] at found; exact ⟨rfl,by rw [found]⟩

theorem ingestStep_sound (moved : ingestStep x inp w pc = some (next,after)) :
    IngestStep x inp w pc next after := by
  cases pc with
  | done r => cases moved
  | selectEndpoint req key =>
    simp only [ingestStep,Option.some.injEq] at moved
    split at moved
    · cases moved; exact .refused _
    · rename_i found; cases moved; exact .found (lookupEndpoint_ok found).2
  | verify req key endpoint =>
    simp only [ingestStep,Option.some.injEq] at moved
    split at moved
    · cases moved; exact .refused _
    · rename_i valid; cases moved; exact .verified valid
  | accept req key provider =>
    cases Option.some.inj moved
    exact .accepted (acceptEvent_step x inp w req.endpointId key req.body (headersJson x req.headers))

end AetherRelay
