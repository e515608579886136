import AetherRelay.Lib.Transition
import AetherRelay.Db.Laws
import AetherRelay.Worker.World

namespace AetherRelay

-- replay_dlq runs four autocommitted statements on one connection; each case is
-- the next one.
inductive ReplayPc where
  | selectLetter (dlqId : Uuid)
  | updateStatus (dlqId eventId : Uuid)
  | deleteAttempts (dlqId eventId : Uuid)
  | deleteLetter (dlqId eventId : Uuid)
  | done (result : Except AppError Uuid)

def ReplayPc.answered : ReplayPc → Bool
  | .done _ => true
  | _ => false

def selectLetter (w : World) (inp : Input) (dlqId : Uuid) : Except AppError Uuid :=
  match statement inp (.ok (w.db.letter dlqId)) with
  | .error e => .error e
  | .ok none => .error (.notFound s!"DLQ record {dlqId} not found")
  | .ok (some row) => .ok row.eventId

namespace ReplayPc

def perform (inp : Input) (w : World) : ReplayPc → Except AppError (World × ReplayPc)
  | .selectLetter dlqId => (AetherRelay.selectLetter w inp dlqId).map fun eventId => (w,.updateStatus dlqId eventId)
  | .updateStatus dlqId eventId =>
    (statement inp (.ok {w with db:=w.db.setStatus eventId .received})).map fun next =>
      (next,.deleteAttempts dlqId eventId)
  | .deleteAttempts dlqId eventId =>
    (statement inp (.ok {w with db:=w.db.deleteAttempts eventId})).map fun next =>
      (next,.deleteLetter dlqId eventId)
  | .deleteLetter dlqId eventId =>
    (statement inp (.ok {w with db:=w.db.deleteLetter dlqId})).map fun next =>
      (next.log (.replayed eventId),.done (.ok eventId))
  | pc => .ok (w,pc)

end ReplayPc

def replayStep (inp : Input) (w : World) (pc : ReplayPc) : Option (World × ReplayPc) :=
  match pc with
  | .done _ => none
  | _ => match pc.perform inp w with
    | .ok next => some next
    | .error e => some (w,.done (.error e))

inductive ReplayStep (inp : Input) : World → ReplayPc → World → ReplayPc → Prop where
  | found (live : inp.fault = none) (row : w.db.letter dlqId = some letter) :
      ReplayStep inp w (.selectLetter dlqId) w (.updateStatus dlqId letter.eventId)
  | requeued (live : inp.fault = none) :
      ReplayStep inp w (.updateStatus dlqId eventId) {w with db:=w.db.setStatus eventId .received}
        (.deleteAttempts dlqId eventId)
  | cleared (live : inp.fault = none) :
      ReplayStep inp w (.deleteAttempts dlqId eventId) {w with db:=w.db.deleteAttempts eventId}
        (.deleteLetter dlqId eventId)
  | removed (live : inp.fault = none) :
      ReplayStep inp w (.deleteLetter dlqId eventId)
        (({w with db:=w.db.deleteLetter dlqId} : World).log (.replayed eventId)) (.done (.ok eventId))
  | failed (e : AppError) (cause : inp.fault ≠ none ∨ ∃ dlqId, pc = .selectLetter dlqId ∧ w.db.letter dlqId = none) :
      ReplayStep inp w pc w (.done (.error e))

theorem replayStep_struck (fault : inp.fault = some e) (moved : replayStep inp w pc = some (next,after)) :
    ReplayStep inp w pc next after := by
  have struck : inp.fault ≠ none := by simp [fault]
  cases pc with
  | done => simp [replayStep] at moved
  | _ =>
    simp [replayStep,ReplayPc.perform,selectLetter,statement,fault,Except.map] at moved
    obtain ⟨rfl,rfl⟩ := moved
    exact .failed _ (.inl struck)

theorem replayStep_sound (moved : replayStep inp w pc = some (next,after)) : ReplayStep inp w pc next after := by
  cases fault : inp.fault with
  | some e => exact replayStep_struck fault moved
  | none =>
    cases pc with
    | done => simp [replayStep] at moved
    | selectLetter dlqId =>
      cases row : w.db.letter dlqId with
      | none =>
        simp [replayStep,ReplayPc.perform,selectLetter,statement,fault,row,Except.map] at moved
        obtain ⟨rfl,rfl⟩ := moved
        exact .failed _ (.inr ⟨dlqId,rfl,row⟩)
      | some letter =>
        simp [replayStep,ReplayPc.perform,selectLetter,statement,fault,row,Except.map] at moved
        obtain ⟨rfl,rfl⟩ := moved
        exact .found fault row
    | updateStatus dlqId eventId =>
      simp [replayStep,ReplayPc.perform,statement,fault,Except.map] at moved
      obtain ⟨rfl,rfl⟩ := moved
      exact .requeued fault
    | deleteAttempts dlqId eventId =>
      simp [replayStep,ReplayPc.perform,statement,fault,Except.map] at moved
      obtain ⟨rfl,rfl⟩ := moved
      exact .cleared fault
    | deleteLetter dlqId eventId =>
      simp [replayStep,ReplayPc.perform,statement,fault,Except.map] at moved
      obtain ⟨rfl,rfl⟩ := moved
      exact .removed fault

def replayDlq (cfg : AppConfig) (inp : Fin 4 → Input) (w : World) (headers : HeaderMap) (dlqId : Uuid) :
    World × Except AppError Uuid :=
  match verifyApiKey headers cfg.auth.apiKeys with
  | .error e => (w,.error e)
  | .ok () =>
    match selectLetter w (inp 0) dlqId with
    | .error e => (w,.error e)
    | .ok eventId =>
      match statement (inp 1) (.ok {w with db:=w.db.setStatus eventId .received}) with
      | .error e => (w,.error e)
      | .ok requeued =>
        match statement (inp 2) (.ok {requeued with db:=requeued.db.deleteAttempts eventId}) with
        | .error e => (requeued,.error e)
        | .ok cleared =>
          match statement (inp 3) (.ok {cleared with db:=cleared.db.deleteLetter dlqId}) with
          | .error e => (cleared,.error e)
          | .ok removed => (removed.log (.replayed eventId),.ok eventId)

def startReplay (cfg : AppConfig) (headers : HeaderMap) (dlqId : Uuid) : ReplayPc :=
  match verifyApiKey headers cfg.auth.apiKeys with
  | .error e => .done (.error e)
  | .ok () => .selectLetter dlqId

def replaying (s : World × ReplayPc) (inp : Input) : Option (World × ReplayPc) := replayStep inp s.1 s.2

theorem replayDlq_alone (cfg : AppConfig) (inp : Fin 4 → Input) (w : World) (headers : HeaderMap) (dlqId : Uuid) :
    Transition.Reaches replaying (w,startReplay cfg headers dlqId)
      ((replayDlq cfg inp w headers dlqId).1,.done (replayDlq cfg inp w headers dlqId).2) := by
  unfold replayDlq startReplay
  cases verifyApiKey headers cfg.auth.apiKeys with
  | error e => exact .refl
  | ok u =>
    dsimp only
    split
    · rename_i e failed
      exact .head (inp 0) (by simp only [replaying,replayStep,ReplayPc.perform,failed,Except.map]) .refl
    · rename_i eventId read
      refine .head (inp 0) (by simp only [replaying,replayStep,ReplayPc.perform,read,Except.map]; rfl) ?_
      split
      · rename_i e failed
        exact .head (inp 1) (by simp only [replaying,replayStep,ReplayPc.perform,failed,Except.map]) .refl
      · rename_i requeued put
        refine .head (inp 1) (by simp only [replaying,replayStep,ReplayPc.perform,put,Except.map]; rfl) ?_
        split
        · rename_i e failed
          exact .head (inp 2) (by simp only [replaying,replayStep,ReplayPc.perform,failed,Except.map]) .refl
        · rename_i cleared gone
          refine .head (inp 2) (by simp only [replaying,replayStep,ReplayPc.perform,gone,Except.map]; rfl) ?_
          split
          · rename_i e failed
            exact .head (inp 3) (by simp only [replaying,replayStep,ReplayPc.perform,failed,Except.map]) .refl
          · rename_i removed last
            exact .head (inp 3) (by simp only [replaying,replayStep,ReplayPc.perform,last,Except.map]) .refl

inductive ReplayDone (w : World) (dlqId : Uuid) : World → Prop where
  | refused : ReplayDone w dlqId w
  | replayed (found : w.db.letter dlqId = some letter) :
      ReplayDone w dlqId
        (({w with db:=((w.db.setStatus letter.eventId .received).deleteAttempts letter.eventId).deleteLetter dlqId} :
          World).log (.replayed letter.eventId))

theorem replayDlq_clean (cfg : AppConfig) {inp : Fin 4 → Input} (clean : ∀ i, (inp i).fault = none) (w : World)
    (headers : HeaderMap) (dlqId : Uuid) : ReplayDone w dlqId (replayDlq cfg inp w headers dlqId).1 := by
  unfold replayDlq
  split
  · exact .refused
  · simp only [selectLetter,statement,clean]
    cases found : w.db.letter dlqId with
    | none => exact .refused
    | some letter => exact .replayed found

end AetherRelay
