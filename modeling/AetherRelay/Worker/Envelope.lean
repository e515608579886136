import AetherRelay.Lib.Watch
import AetherRelay.Worker.Steps

namespace AetherRelay

-- One run_dispatch_loop and the world around it, which the other parties of the
-- process may change between any two sections of the loop.
structure Looping where
  world : World
  worker : Worker

inductive LoopAction where
  | turn (inp : Input)
  | elsewhere (world : World)

def loopStep (x : Externals) (cfg : DispatchLoopConfig) (s : Looping) : LoopAction → Option Looping
  | .turn inp => (workerStep x cfg inp s.world s.worker).map fun (world,worker) => ⟨world,worker⟩
  | .elsewhere world => some {s with world:=world}

inductive Turn where
  | settled
  | idle
  | backedOff (delay : Duration)
deriving DecidableEq, Repr

def noteTurn (s : Looping) (turns : List Turn) (a : LoopAction) (t : Looping) : List Turn :=
  match a,s.worker.pc with
  | .turn _,.finished (.ok .settled) => .settled :: turns
  | .turn _,.finished (.ok .idle) => .idle :: turns
  | .turn _,.finished _ =>
    match t.world.history with
    | .slept delay :: _ => .backedOff delay :: turns
    | _ => turns
  | _,_ => turns

abbrev LoopWatch := Transition.Watched Looping (List Turn)

def watchLoop (x : Externals) (cfg : DispatchLoopConfig) : LoopWatch → LoopAction → Option LoopWatch :=
  Transition.watch (loopStep x cfg) noteTurn

def LoopWatch.start (cfg : DispatchLoopConfig) (w : World) : LoopWatch := ⟨⟨w,.start cfg⟩,[]⟩

-- The delay the next one is measured by: the last backoff delay since the last
-- settled pass, or the base.
def measure (base : Duration) : List Turn → Duration
  | [] => base
  | .settled :: _ => base
  | .idle :: earlier => measure base earlier
  | .backedOff delay :: _ => delay

-- The numbers are naturals here: nothing saturates.
structure Enveloped (base cap previous delay : Nat) : Prop where
  floor : min base cap ≤ delay
  ceiling : delay ≤ cap
  growth : delay ≤ max base (3*previous)

def Within (base cap : Nat) : List Turn → Prop
  | [] => True
  | .backedOff delay :: earlier => Enveloped base cap (measure base earlier) delay ∧ Within base cap earlier
  | _ :: earlier => Within base cap earlier

theorem asMillis_fromMillis (ms : UInt64) : asMillis (fromMillis ms.toNat) = ms.toNat := by
  have small := ms.toNat_lt
  unfold asMillis fromMillis
  rw [Nat.mul_div_cancel _ (by decide),Nat.mod_eq_of_lt small]

theorem decorrelatedJitter_enveloped {base cap : UInt64} (whole : previous = fromMillis p) (small : p < 2^64)
    (picked : decorrelatedJitter (fromMillis base.toNat) (fromMillis cap.toNat) previous draw = some delay) :
    Enveloped (fromMillis base.toNat) (fromMillis cap.toNat) previous delay ∧ ∃ ms < 2^64, delay = fromMillis ms := by
  subst whole
  have prevMs : asMillis (fromMillis p) = p := asMillis_fromMillis (.ofNatLT p small)
  simp only [decorrelatedJitter,asMillis_fromMillis,prevMs,saturatingMul] at picked
  split at picked
  · rename_i range
    obtain ⟨low,high⟩ := range
    cases picked
    have capSmall := cap.toNat_lt
    refine ⟨⟨?_,?_,?_⟩,min draw cap.toNat,by omega,rfl⟩ <;> unfold fromMillis <;> omega
  · cases picked

theorem decorrelatedJitter_reaches {base cap : UInt64} (whole : previous = fromMillis p) (small : p < 2^64)
    (inside : Enveloped (fromMillis base.toNat) (fromMillis cap.toNat) previous (fromMillis d)) :
    decorrelatedJitter (fromMillis base.toNat) (fromMillis cap.toNat) previous (max d base.toNat) =
      some (fromMillis d) := by
  subst whole
  have prevMs : asMillis (fromMillis p) = p := asMillis_fromMillis (.ofNatLT p small)
  obtain ⟨floor,ceiling,growth⟩ := inside
  have capSmall := cap.toNat_lt
  unfold fromMillis at floor ceiling growth
  have range : base.toNat ≤ max d base.toNat ∧ max d base.toNat ≤ max (min (p*3) (2^64-1)) base.toNat := by omega
  have clamped : min (max d base.toNat) cap.toNat = d := by omega
  simp only [decorrelatedJitter,asMillis_fromMillis,prevMs,saturatingMul,if_pos range,clamped]

section
variable {x : Externals} {cfg : AppConfig} {loop : DispatchLoopConfig}

structure Measured (cfg : AppConfig) (s : LoopWatch) : Prop where
  previous : s.state.worker.prevSleep = measure (fromMillis cfg.worker.backoffBaseMs.toNat) s.notes
  whole : ∃ ms < 2^64, s.state.worker.prevSleep = fromMillis ms
  within : Within (fromMillis cfg.worker.backoffBaseMs.toNat) (fromMillis cfg.worker.backoffCapMs.toNat) s.notes

theorem WorkerStep.turn {w next : World} {worker after : Worker}
    (effect : WorkerStep x (.fromAppConfig cfg) inp w worker next after)
    (old : Measured cfg ⟨⟨w,worker⟩,turns⟩) :
    Measured cfg ⟨⟨next,after⟩,noteTurn ⟨w,worker⟩ turns (.turn inp) ⟨next,after⟩⟩ := by
  obtain ⟨previous,whole,within⟩ := old
  cases effect with
  | drained => exact ⟨rfl,⟨_,cfg.worker.backoffBaseMs.toNat_lt,rfl⟩,within⟩
  | polled => exact ⟨previous,whole,within⟩
  | slept waits picked =>
    obtain ⟨ms,small,same⟩ := whole
    obtain ⟨inside,whole⟩ := decorrelatedJitter_enveloped same small picked
    have previous : measure (fromMillis cfg.worker.backoffBaseMs.toNat) turns = _ := previous.symm
    rcases waits with rfl | ⟨e,rfl⟩
    · exact ⟨rfl,whole,previous ▸ inside,within⟩
    · exact ⟨rfl,whole,previous ▸ inside,within⟩
  | _ => exact ⟨previous,whole,within⟩

theorem watchLoop_measured {s t : LoopWatch} (moved : watchLoop x (.fromAppConfig cfg) s a = some t)
    (old : Measured cfg s) : Measured cfg t := by
  obtain ⟨stepped,noted⟩ := Transition.watch_some.mp moved
  obtain ⟨state,notes⟩ := t
  have noted : notes = noteTurn s.state s.notes a state := noted
  subst noted
  cases a with
  | turn inp =>
    obtain ⟨pair,inner,same⟩ := Option.map_eq_some_iff.mp stepped
    cases same
    exact (workerStep_sound inner).turn old
  | elsewhere world =>
    cases stepped
    exact ⟨old.previous,old.whole,old.within⟩

theorem start_measured (cfg : AppConfig) (w : World) : Measured cfg (.start (.fromAppConfig cfg) w) :=
  ⟨rfl,⟨_,cfg.worker.backoffBaseMs.toNat_lt,rfl⟩,trivial⟩

def Sleeps (x : Externals) (cfg : DispatchLoopConfig) (s : Looping) (delay : Duration) : Prop :=
  ∃ inp t, loopStep x cfg s (.turn inp) = some t ∧ t.world.history = .slept delay :: s.world.history

theorem loopStep_backs (backs : result = .ok .deferred ∨ ∃ e, result = .error e)
    (finished : s.worker.pc = .finished result) :
    loopStep x loop s (.turn inp) =
      (decorrelatedJitter loop.backoffBase loop.backoffCap s.worker.prevSleep inp.draw).map fun delay =>
        ⟨s.world.log (.slept delay),⟨.idle,delay⟩⟩ := by
  obtain ⟨w,pc,p⟩ := s
  subst finished
  rcases backs with rfl | ⟨e,rfl⟩ <;> simp [loopStep,workerStep,Function.comp_def]

theorem sleeps_exact {s : Looping} (backs : result = .ok .deferred ∨ ∃ e, result = .error e)
    (finished : s.worker.pc = .finished result) : Sleeps x loop s delay ↔
      ∃ draw, decorrelatedJitter loop.backoffBase loop.backoffCap s.worker.prevSleep draw = some delay := by
  constructor
  · rintro ⟨inp,t,moved,slept⟩
    rw [loopStep_backs backs finished] at moved
    obtain ⟨d,picked,rfl⟩ := Option.map_eq_some_iff.mp moved
    cases List.head_eq_of_cons_eq slept
    exact ⟨inp.draw,picked⟩
  · rintro ⟨draw,picked⟩
    refine ⟨⟨none,0,0,.error "",draw⟩,⟨s.world.log (.slept delay),⟨.idle,delay⟩⟩,?_,rfl⟩
    rw [loopStep_backs backs finished,picked]
    rfl

-- After any sequence of outcomes and of random choices, every backoff delay slept
-- so far lies in its envelope, and when a pass makes the loop back off, every whole
-- millisecond of the envelope is the delay of some choice.
theorem backoff_envelope
    (reached : Transition.exec (watchLoop x (.fromAppConfig cfg)) (.start (.fromAppConfig cfg) w) actions = some s) :
    Within (fromMillis cfg.worker.backoffBaseMs.toNat) (fromMillis cfg.worker.backoffCapMs.toNat) s.notes ∧
    ∀ result ms, s.state.worker.pc = .finished result → (result = .ok .deferred ∨ ∃ e, result = .error e) →
      Enveloped (fromMillis cfg.worker.backoffBaseMs.toNat) (fromMillis cfg.worker.backoffCapMs.toNat)
        (measure (fromMillis cfg.worker.backoffBaseMs.toNat) s.notes) (fromMillis ms) →
      Sleeps x (.fromAppConfig cfg) s.state (fromMillis ms) := by
  have path := Transition.Run.check (fun _ _ => True) reached (.all fun _ _ => trivial)
  obtain ⟨previous,⟨p,small,whole⟩,within⟩ := path.preserves (Measured cfg)
    (fun s a t old _ moved => watchLoop_measured moved old) (start_measured cfg w)
  refine ⟨within,fun result ms finished backs inside => ?_⟩
  rw [← previous] at inside
  exact (sleeps_exact backs finished).mpr ⟨_,decorrelatedJitter_reaches whole small inside⟩

def failingTwice : List LoopAction :=
  [.turn ⟨some (.failure "locked"),0,0,.error "",0⟩,.turn ⟨none,0,0,.error "",2500⟩,
   .turn ⟨some (.failure "locked"),0,0,.error "",0⟩]

theorem backoff_envelope_failing :
    ∃ s, Transition.exec (watchLoop .tabletop (.fromAppConfig .default))
        (.start (.fromAppConfig .default) ⟨.empty,fun _ => none,0,[]⟩) failingTwice = some s ∧
      s.notes = [.backedOff (fromMillis 2500)] ∧ Within (fromMillis 1000) (fromMillis 60000) s.notes ∧
      Sleeps .tabletop (.fromAppConfig .default) s.state (fromMillis 7500) := by
  have reached : Transition.exec (watchLoop .tabletop (.fromAppConfig .default))
      (.start (.fromAppConfig .default) ⟨.empty,fun _ => none,0,[]⟩) failingTwice =
      some ⟨⟨⟨.empty,fun _ => none,0,[.slept (fromMillis 2500)]⟩,
        ⟨.finished (.error (.database (.failure "locked"))),fromMillis 2500⟩⟩,[.backedOff (fromMillis 2500)]⟩ := rfl
  obtain ⟨within,reaches⟩ := backoff_envelope reached
  refine ⟨_,reached,rfl,within,reaches _ 7500 rfl (.inr ⟨_,rfl⟩) ?_⟩
  constructor <;> decide

end
end AetherRelay
