import AetherRelay.Lib.Ownership
import AetherRelay.System.Rows

namespace AetherRelay

theorem Moved.covers (moved : Moved none db before next after) (now : next.status e = some .processing) :
    after.held = some e ∨ (db.status e = some .processing ∧ before.held ≠ some e) := by
  have written : ∀ {k st}, (db.setStatus k st).status e = some .processing → k ≠ e →
      db.status e = some .processing := by
    intro k st read different
    rwa [Db.status_setStatus,if_neg (Ne.symm different)] at read
  cases moved with
  | claim live head =>
    rename_i row
    by_cases same : row.id = e
    · exact .inl (by simp [same])
    · exact .inr ⟨written now same,by simp [Stage.held]⟩
  | stay same =>
    by_cases has : before.held = some e
    · exact .inl has
    · exact .inr ⟨by rwa [Db.status_congr same] at now,has⟩
  | settle st final =>
    rename_i k
    by_cases same : k = e
    · subst same
      rw [Db.status_setStatus,if_pos rfl] at now
      obtain ⟨_,_,equal⟩ := Option.map_eq_some_iff.mp now
      exact absurd equal final
    · exact .inr ⟨written now same,by simpa using same⟩
  | park same => exact .inr ⟨by rwa [Db.status_congr same] at now,by simp [Stage.held]⟩
  | parkFailed gone => exact .inr ⟨now,by simp [Stage.held]⟩
  | stranded struck => exact absurd rfl struck

namespace System
variable {x : Externals} {cfg : AppConfig} {s t : State} {a : Action}

def Processing (s : State) (e : Uuid) : Prop := s.world.db.status e = some .processing

-- A row left in PROCESSING is never re-claimed by anything, so somebody has to
-- be on it.
def ProcessingOwned (s : State) : Prop :=
  ∀ e, Processing s e → s.running = true ∧ ∃ i, (s.workers i).held = some e

def QuietEnd (s : State) (a : Action) : Prop := a.ends = true → ∀ e, ¬Processing s e

theorem RowStep.processing (row : RowStep x s a t k before after) (outside : ∀ i inp, a ≠ .worker i inp)
    (now : after.map (·.status) = some .processing) : before.map (·.status) = some .processing := by
  cases row with
  | same => exact now
  | created drawn status origin logged => simp [status] at now
  | removed cascade settled gone => cases now
  | requeued stale at' => cases now
  | claimed pass free head holds => exact absurd pass (outside _ _)
  | settled pass holds st final dropped => exact absurd pass (outside _ _)

theorem Step.covered (moved : Step x cfg s a t) (supplied : Supplied x s) (live : a.live = true) (quiet : QuietEnd s a)
    (old : ProcessingOwned s) : ProcessingOwned t := by
  have before : ∀ e, (∀ i inp, a ≠ .worker i inp) → Processing t e → Processing s e :=
    fun e outside now => (moved.row supplied e).processing outside now
  cases moved with
  | worked up effect =>
    rename_i inp next after i
    intro e now
    have covered : Ownership.Covered Worker.held s.workers (Processing s) := fun k was => (old k was).2
    have moves := effect.moves (supplied.coherent i)
    rw [Action.live_worker.mp live] at moves
    have kept : ∀ k, next.db.status k = some .processing →
        after.held = some k ∨ (Processing s k ∧ (s.workers i).held ≠ some k) := fun k here => moves.covers here
    exact ⟨up,covered.move kept e now⟩
  | killed up => exact fun e now => absurd (before e (by simp) now) (quiet rfl e)
  | shutDown up done => exact fun e now => absurd (before e (by simp) now) (quiet rfl e)
  | restarted down =>
    intro e now
    have up := (old e (before e (by simp) now)).1
    rw [down] at up
    cases up
  | created up effect => exact fun e now => old e (before e (by simp) now)
  | deleted up effect => exact fun e now => old e (before e (by simp) now)
  | accepted up effect => exact fun e now => old e (before e (by simp) now)
  | ingestStarted up gates => exact fun e now => old e (before e (by simp) now)
  | ingested up present effect => exact fun e now => old e (before e (by simp) now)
  | replayStarted up => exact fun e now => old e (before e (by simp) now)
  | replayed up present effect => exact fun e now => old e (before e (by simp) now)

def CleanRestart (x : Externals) (cfg : AppConfig) (s : State) (a : Action) : Prop :=
  a = .restart → ∀ t, step x cfg s a = some t → ∀ e, ¬Processing t e

-- Nothing in the code gives a claimed row back when the process ends, so the
-- promise is kept exactly on the runs in which the process never ends while a
-- row is in hand.
theorem processing_owned_exact (start : Booted x cfg s) (fresh : ∀ e, ¬Processing s e)
    (path : Transition.Run (step x cfg) (fun _ a => a.live = true) s actions t) :
    (Transition.Always (step x cfg) ProcessingOwned s actions ∧
      Transition.EachStep (step x cfg) (CleanRestart x cfg) s actions) ↔
    Transition.EachStep (step x cfg) QuietEnd s actions := by
  constructor
  · rintro ⟨owned,_⟩
    refine (owned.each path.exec).imp fun u a kept ends e now => ?_
    obtain ⟨v,moved,_,after⟩ := kept
    have down : v.running = false ∧ v.world.db = u.world.db := by
      cases step_sound moved with
      | killed up => exact ⟨rfl,rfl⟩
      | shutDown up done => exact ⟨rfl,rfl⟩
      | _ => cases ends
    have up := (after e (by unfold Processing; rw [down.2]; exact now)).1
    rw [down.1] at up
    cases up
  · intro quiet
    have both := Transition.run_exact.mpr ⟨path.exec,path.each.both quiet⟩
    have kept : ∀ u a v, Supplied x u ∧ ProcessingOwned u → a.live = true ∧ QuietEnd u a → step x cfg u a = some v →
        Supplied x v ∧ ProcessingOwned v := by
      intro u a v old allowed moved
      have effect := step_sound moved
      exact ⟨effect.supplied old.1,effect.covered old.1 allowed.1 allowed.2 old.2⟩
    have first : Supplied x s ∧ ProcessingOwned s := ⟨start.supplied,fun e now => absurd now (fresh e)⟩
    refine ⟨both.always fun earlier u prior => (prior.preserves _ kept first).2,?_⟩
    refine (both.strengthen _ kept first fun u a old allowed => ?_).each
    rintro rfl v moved e now
    cases step_sound moved with
    | restarted down =>
      have up := (old.2 e now).1
      rw [down] at up
      cases up

def bounced : List Action :=
  registerAndAccept ++ Action.pass 0 12 (.error "connection refused") ++ [.kill,.restart]

theorem quietEnd_of (idle : a.ends = true → ∀ row ∈ s.world.db.incomingEvents.rows, row.status ≠ .processing) :
    QuietEnd s a := by
  intro ends e now
  obtain ⟨row,found,status⟩ := Option.map_eq_some_iff.mp now
  exact idle ends row (Table.lookup_mem found) status

theorem processing_owned_bounce :
    ∃ u t, Transition.exec (step .tabletop .default) (boot .default) (bounced.take 3) = some u ∧ Processing u "11" ∧
      Transition.Run (step .tabletop .default) (fun _ a => a.live = true) (boot .default) bounced t ∧
      Transition.Always (step .tabletop .default) ProcessingOwned (boot .default) bounced ∧
      Transition.EachStep (step .tabletop .default) (CleanRestart .tabletop .default) (boot .default) bounced ∧
      t.running = true ∧ t.world.db.status "11" = some .received := by
  have claimed : (Transition.exec (step .tabletop .default) (boot .default) (bounced.take 3)).map
      (fun u => u.world.db.status "11") = some (some .processing) := by decide +kernel
  have ran : (Transition.exec (Transition.guard (step .tabletop .default) (fun u a =>
      a.ends = true → ∀ row ∈ u.world.db.incomingEvents.rows, row.status ≠ .processing)) (boot .default) bounced).map
      (fun t => (t.running,t.world.db.status "11")) = some (true,some .received) := by decide +kernel
  obtain ⟨u,first,processing⟩ := Option.map_eq_some_iff.mp claimed
  obtain ⟨t,guarded,seen⟩ := Option.map_eq_some_iff.mp ran
  obtain ⟨up,received⟩ := Prod.mk.inj seen
  have idle := Transition.Run.guarded guarded
  have quiet := idle.each.imp fun _ _ => quietEnd_of
  have path := Transition.Run.check (fun _ a => a.live = true) idle.exec (.all (by decide))
  obtain ⟨owned,clean⟩ := (processing_owned_exact (boot_booted _ _) (fun e now => by cases now) path).mpr quiet
  exact ⟨u,t,first,processing,path,owned,clean,up,received⟩

def strandingRun : List Action := registerAndAccept ++ Action.pass 0 1 (.error "") ++ [.kill,.restart]

theorem killed_pass_strands_row :
    ∃ t, Transition.Run (step .tabletop .default) (fun _ a => a.live = true) (boot .default) strandingRun t ∧
      t.running = true ∧ ¬ProcessingOwned t := by
  have status : (Transition.exec (step .tabletop .default) (boot .default) strandingRun).map
      (fun s => (s.running,s.world.db.status "11")) = some (true,some .processing) := by decide +kernel
  have workers : (Transition.exec (step .tabletop .default) (boot .default) strandingRun).map (·.workers) =
      some fun _ => .start (loopConfig .default) := rfl
  obtain ⟨t,reached,seen⟩ := Option.map_eq_some_iff.mp status
  obtain ⟨up,processing⟩ := Prod.mk.inj seen
  rw [reached] at workers
  refine ⟨t,Transition.run_exact.mpr ⟨reached,.all (by decide)⟩,up,fun owned => ?_⟩
  obtain ⟨_,i,holds⟩ := owned "11" processing
  have same : t.workers = fun _ => .start (loopConfig .default) := Option.some.inj workers
  rw [same] at holds
  cases holds

end System
end AetherRelay
