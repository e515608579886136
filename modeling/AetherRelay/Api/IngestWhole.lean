import AetherRelay.Lib.Transition
import AetherRelay.Api.IngestSteps

namespace AetherRelay

def handleIngest (x : Externals) (cfg : AppConfig) (lookup check store : Input) (w : World) (req : IngestRequest) :
    World × Except AppError (String × Uuid) :=
  let arrived := w.log (.ingestReceived req)
  match admitIngest cfg req with
  | .error e => (arrived,.error e)
  | .ok key =>
    match lookupEndpoint arrived lookup req.endpointId with
    | .error e => (arrived,.error e)
    | .ok endpoint =>
      match verifyIngest x endpoint req check.now with
      | .error e => (arrived,.error e)
      | .ok () =>
        let (next,result) := acceptEvent x store arrived req.endpointId key req.body (headersJson x req.headers)
        (next,result.map fun eventId => (endpoint.provider,eventId))

theorem handleIngest_alone (x : Externals) (cfg : AppConfig) (lookup check store : Input) (w : World) (req : IngestRequest) :
    Transition.Reaches (fun (p : World × IngestPc) inp => ingestStep x inp p.1 p.2) (startIngest cfg w req)
      ((handleIngest x cfg lookup check store w req).1,.done (handleIngest x cfg lookup check store w req).2) := by
  unfold handleIngest startIngest
  cases admitIngest cfg req with
  | error e => exact .refl
  | ok key =>
    dsimp only
    cases looked : lookupEndpoint (w.log (.ingestReceived req)) lookup req.endpointId with
    | error e => exact .head lookup (by simp only [ingestStep,looked]) .refl
    | ok endpoint =>
      have found : ingestStep x lookup (w.log (.ingestReceived req)) (.selectEndpoint req key) =
          some (w.log (.ingestReceived req),.verify req key endpoint) := by simp only [ingestStep,looked]
      apply Transition.Reaches.head lookup found
      dsimp only
      cases checked : verifyIngest x endpoint req check.now with
      | error e => exact .head check (by simp only [ingestStep,checked]) .refl
      | ok u =>
        have verified : ingestStep x check (w.log (.ingestReceived req)) (.verify req key endpoint) =
            some (w.log (.ingestReceived req),.accept req key endpoint.provider) := by simp only [ingestStep,checked]
        apply Transition.Reaches.head check verified
        exact .head store rfl .refl

theorem handleIngest_ok {x : Externals} {cfg : AppConfig} (admitted : admitIngest cfg req = .ok key)
    (looked : lookupEndpoint w lookup req.endpointId = .ok endpoint)
    (checked : verifyIngest x endpoint req check.now = .ok ())
    (stored : acceptEvent x store (w.log (.ingestReceived req)) req.endpointId key req.body (headersJson x req.headers) =
      (next,.ok eventId)) :
    handleIngest x cfg lookup check store w req = (next,.ok (endpoint.provider,eventId)) := by
  have looked' : lookupEndpoint (w.log (.ingestReceived req)) lookup req.endpointId = .ok endpoint := looked
  unfold handleIngest
  rw [admitted]
  dsimp only
  rw [looked']
  dsimp only
  rw [checked]
  dsimp only
  rw [stored]
  rfl

end AetherRelay
