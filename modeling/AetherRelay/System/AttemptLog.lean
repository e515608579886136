import AetherRelay.Lib.Hands
import AetherRelay.System.Record

namespace AetherRelay

abbrev Outcome := Option StatusCode × Option String

def Answer.outcome (a : Answer) : Outcome := (a.statusCode,a.errorMsg)
def DeliveryAttempt.outcome (a : DeliveryAttempt) : Outcome := (a.responseStatus,a.errorMessage)

def Record.recorded (r : Record) : List Outcome := r.attempts.map (·.outcome)
def Record.heard (r : Record) : List Outcome := r.answers.map (·.outcome)
def Record.replies (r : Record) : List Unit := r.answers.map fun _ => ()
def Record.requests (r : Record) : List Unit := List.replicate r.posts ()

def WorkerPc.unrecorded (e : Uuid) : WorkerPc → Option Outcome
  | .dispatching _ _ (.updateBreaker d _ answer) | .dispatching _ _ (.insertAttempt d answer) =>
    if d.eventId = e then some answer.outcome else none
  | _ => none

def WorkerPc.unanswered (e : Uuid) : WorkerPc → Option Unit
  | .dispatching _ _ (.await d _) => if d.eventId = e then some () else none
  | _ => none

inductive Writes (r : Record) (recording : Option Outcome) (waiting : Option Unit) :
    Record → Option Outcome → Option Unit → Prop where
  | posted : Writes r recording waiting {r with posts:=r.posts+1} none (some ())
  | answered (answer : Answer) (awaited : waiting = some ()) :
      Writes r recording waiting {r with answers:=answer :: r.answers} (some answer.outcome) none
  | stored (attempt : DeliveryAttempt) (has : recording = some attempt.outcome) :
      Writes r recording waiting {r with attempts:=r.attempts ++ [attempt]} none none
  | other (attempts : after.attempts = r.attempts) (answers : after.answers = r.answers) (posts : after.posts = r.posts)
      (kept : later = none ∨ later = recording) : Writes r recording waiting after later none

theorem Writes.withStatus (same : after = r.withStatus st) : Writes r recording waiting after none none := by
  subst same
  exact .other rfl rfl rfl (.inl rfl)

section
variable {x : Externals} {cfg : DispatchLoopConfig} {inp : Input} {w next : World} {e : Uuid}

theorem DispatchStep.writes {pc after : DispatchPc} (effect : DispatchStep x cfg inp w pc next after) (claimed parent : Uuid) :
    Writes (w.record pc.eventId) ((WorkerPc.dispatching claimed parent pc).unrecorded pc.eventId)
      ((WorkerPc.dispatching claimed parent pc).unanswered pc.eventId) (next.record pc.eventId)
      ((WorkerPc.dispatching claimed parent after).unrecorded pc.eventId)
      ((WorkerPc.dispatching claimed parent after).unanswered pc.eventId) := by
  cases effect with
  | @send _ d mode =>
    rw [show DispatchPc.eventId (.send d mode) = d.eventId from rfl,World.record_posted]
    have awaits : (WorkerPc.dispatching claimed parent (.await d mode)).unanswered d.eventId = some () := if_pos rfl
    rw [awaits]
    exact .posted
  | @await _ d mode =>
    rw [show DispatchPc.eventId (.await d mode) = d.eventId from rfl,World.record_answered]
    have holds : (WorkerPc.dispatching claimed parent (.updateBreaker d mode inp.answer)).unrecorded d.eventId =
        some inp.answer.outcome := if_pos rfl
    rw [holds]
    exact .answered inp.answer (if_pos rfl)
  | @insertAttempt _ d answer _ _ stored =>
    have same := World.record_insertAttempt (n := w.drawn+1) stored
    rw [show DispatchPc.eventId (.insertAttempt d answer) = (d.attempt answer (x.nowV7 w.drawn) inp.now).eventId from rfl,same]
    exact .stored _ (if_pos rfl)
  | @updateBreaker _ d mode answer => exact .other rfl rfl rfl (.inr rfl)
  | requeueDeferred live => exact .withStatus (World.record_withStatus ..)
  | exhausted live spent => exact .withStatus (World.record_withStatus ..)
  | settled live failed => exact .withStatus (World.record_withStatus ..)
  | @insertDeadLetter _ d answer now _ _ stored =>
    have same := World.record_replaceLetter (n := w.drawn+1) stored
    rw [show DispatchPc.eventId (.insertDeadLetter d answer now) = (d.letter answer (x.nowV7 w.drawn) now).eventId from rfl,same]
    exact .other rfl rfl rfl (.inl rfl)
  | _ => exact .other rfl rfl rfl (.inl rfl)

theorem WorkerPc.unrecorded_other {pc : WorkerPc} (other : pc.stage.engaged ≠ some e) : pc.unrecorded e = none := by
  unfold unrecorded
  split
  · exact if_neg fun same => other (congrArg some same)
  · exact if_neg fun same => other (congrArg some same)
  · rfl

theorem WorkerPc.unanswered_other {pc : WorkerPc} (other : pc.stage.engaged ≠ some e) : pc.unanswered e = none := by
  unfold unanswered
  split
  · exact if_neg fun same => other (congrArg some same)
  · rfl

theorem WorkerStep.writes {worker after : Worker} (effect : WorkerStep x cfg inp w worker next after) (coherent : worker.Coherent)
    (touched : worker.engaged = some e ∨ after.engaged = some e) :
    Writes (w.record e) (worker.pc.unrecorded e) (worker.pc.unanswered e) (next.record e) (after.pc.unrecorded e) (after.pc.unanswered e) := by
  obtain ⟨pc,p⟩ := worker
  obtain ⟨later,q⟩ := after
  cases effect.concerns coherent touched with
  | claim clean head =>
    rename_i row
    exact .withStatus (World.record_withStatus ..)
  | dispatch moved => exact moved.writes _ _
  | errored cause =>
    rw [World.record_log rfl rfl]
    exact .other rfl rfl rfl (.inl rfl)
  | requeued clean => exact .withStatus (World.record_withStatus ..)
  | stranded fault => exact .other rfl rfl rfl (.inl rfl)

end

namespace System
variable {x : Externals} {cfg : AppConfig} {s t : State} {a : Action} {e : Uuid} {first : List Outcome}

-- Every row is for an answer, or was there when the history began, and every answer
-- is for a request; each for one of its own.
structure Accurate (e : Uuid) (first : List Outcome) (s : State) : Prop where
  recorded : Hands.Covered (fun i => (s.workers i).pc.unrecorded e) (s.world.record e).recorded
    ((s.world.record e).heard ++ first)
  answered : Hands.Covered (fun i => (s.workers i).pc.unanswered e) (s.world.record e).replies (s.world.record e).requests

theorem Accurate.outside (old : Accurate e first s) (workers : t.workers = s.workers)
    (attempts : (t.world.record e).attempts.Sublist (s.world.record e).attempts)
    (answers : (t.world.record e).answers = (s.world.record e).answers) (posts : (t.world.record e).posts = (s.world.record e).posts) :
    Accurate e first t := by
  obtain ⟨recorded,answered⟩ := old
  refine ⟨?_,?_⟩
  · rw [workers,Record.heard,answers]
    exact recorded.clear (attempts.map DeliveryAttempt.outcome).subperm
  · rw [workers,Record.replies,Record.requests,answers,posts]
    exact answered

theorem Accurate.recordStep (old : Accurate e first s) (workers : t.workers = s.workers)
    (change : RecordStep x s a e (s.world.record e) (t.world.record e)) : Accurate e first t := by
  have changed : (t.world.record e).attempts.Sublist (s.world.record e).attempts ∧
      (t.world.record e).answers = (s.world.record e).answers ∧ (t.world.record e).posts = (s.world.record e).posts := by
    generalize s.world.record e = r at change
    generalize t.world.record e = r' at change
    cases change with
    | removed asked was settled => exact ⟨List.nil_sublist _,rfl,rfl⟩
    | cleared asked => exact ⟨List.nil_sublist _,rfl,rfl⟩
    | _ => exact ⟨List.Sublist.refl _,rfl,rfl⟩
  exact old.outside workers changed.1 changed.2.1 changed.2.2

theorem Accurate.terminated (old : Accurate e first s) (cfg : AppConfig) : Accurate e first (terminate cfg s) :=
  ⟨.empty (fun _ => rfl) old.recorded.shelved,.empty (fun _ => rfl) old.answered.shelved⟩

theorem Accurate.passed (old : Accurate e first s) (i : Nat) {after : Worker} {next : World} (clock : Nat)
    (writes : Writes (s.world.record e) ((s.workers i).pc.unrecorded e) ((s.workers i).pc.unanswered e) (next.record e)
      (after.pc.unrecorded e) (after.pc.unanswered e)) :
    Accurate e first {s with world:=next,workers:=Function.update s.workers i after,clock:=clock} := by
  obtain ⟨recorded,answered⟩ := old
  have hands : ∀ {β : Type} (f : WorkerPc → β), (fun j => f (Function.update s.workers i after j).pc) =
      Function.update (fun j => f (s.workers j).pc) i (f after.pc) := by
    intro β f
    funext j
    by_cases mine : j = i
    · subst mine
      simp
    · simp [mine]
  refine ⟨?_,?_⟩
  · dsimp only
    rw [hands (·.unrecorded e)]
    generalize mine : (s.workers i).pc.unrecorded e = held at writes
    generalize (s.workers i).pc.unanswered e = waited at writes
    generalize s.world.record e = r at *
    generalize next.record e = r' at *
    generalize after.pc.unrecorded e = later at *
    generalize after.pc.unanswered e = waiting at *
    cases writes with
    | posted => exact recorded.drop i
    | answered answer awaited => exact recorded.take i answer.outcome
    | stored attempt has =>
      have kept := recorded.store (j := i) (mine.trans has)
      rw [Record.recorded,List.map_append]
      exact kept
    | other attempts answers posts kept =>
      rw [Record.recorded,Record.heard,attempts,answers]
      rcases kept with rfl | rfl
      · exact recorded.drop i
      · rw [← mine,Function.update_eq_self]
        exact recorded
  · dsimp only
    rw [hands (·.unanswered e)]
    generalize mine : (s.workers i).pc.unanswered e = waited at writes
    generalize (s.workers i).pc.unrecorded e = held at writes
    generalize s.world.record e = r at *
    generalize next.record e = r' at *
    generalize after.pc.unrecorded e = later at *
    generalize after.pc.unanswered e = waiting at *
    cases writes with
    | posted => exact answered.take i ()
    | answered answer awaited =>
      have kept := answered.store (j := i) (mine.trans awaited)
      have moved : ([()] ++ r.replies).Perm (r.replies ++ [()]) := List.perm_append_comm
      exact kept.clear moved.subperm
    | stored attempt has => exact answered.drop i
    | other attempts answers posts kept =>
      rw [Record.replies,Record.requests,answers,posts]
      exact answered.drop i

theorem Step.accurate (moved : Step x cfg s a t) (supplied : Supplied x s) (old : Accurate e first s) : Accurate e first t := by
  have change : (∀ i inp, a ≠ .worker i inp) → RecordStep x s a e (s.world.record e) (t.world.record e) := moved.record supplied
  cases moved with
  | created live effect => exact old.recordStep rfl (change (by simp))
  | deleted live effect => exact old.recordStep rfl (change (by simp))
  | accepted live effect => exact old.recordStep rfl (change (by simp))
  | ingestStarted live gates => exact old.recordStep rfl (change (by simp))
  | ingested live present effect => exact old.recordStep rfl (change (by simp))
  | replayStarted live => exact old.recordStep rfl (change (by simp))
  | replayed live present effect => exact old.recordStep rfl (change (by simp))
  | restarted down => exact old.recordStep rfl (change (by simp))
  | killed live => exact old.terminated cfg
  | shutDown live quiet => exact old.terminated cfg
  | worked live effect =>
    rename_i inp next after i
    by_cases touched : (s.workers i).engaged = some e ∨ after.engaged = some e
    · exact old.passed i inp.now (effect.writes (supplied.coherent i) touched)
    · obtain ⟨before,later⟩ := not_or.mp touched
      have record := effect.frame supplied.world (supplied.coherent i) before later
      refine old.passed i inp.now ?_
      rw [WorkerPc.unrecorded_other later,WorkerPc.unanswered_other later,record]
      exact .other rfl rfl rfl (.inl rfl)

theorem Booted.record (start : Booted x cfg b) (e : Uuid) :
    b.world.record e = ⟨b.world.db.event e,b.world.db.attempts e,b.world.db.letters e,0,[]⟩ := by
  simp [World.record,start.history]

theorem Booted.accurate (start : Booted x cfg b) (e : Uuid) : Accurate e ((b.world.db.attempts e).map (·.outcome)) b := by
  have idle : ∀ i, b.workers i = .start (loopConfig cfg) := start.workers
  refine ⟨.empty (fun i => by rw [idle]; rfl) ?_,.empty (fun i => by rw [idle]; rfl) ?_⟩
  · rw [start.record]
    exact List.Subperm.refl _
  · rw [start.record]
    exact List.nil_subperm

-- Any number of passes, faults and kills, replays and deletions: beside the rows that
-- were there, every row of delivery_attempts records an answer that was really given to
-- a request for its event, no answer is recorded twice, and no request is answered twice.
theorem attempt_rows_true (start : Booted x cfg b) (reached : Transition.exec (step x cfg) b actions = some t) (e : Uuid) :
    ((t.world.db.attempts e).map (·.outcome)).Subperm
      ((t.world.record e).answers.map (·.outcome) ++ (b.world.db.attempts e).map (·.outcome)) ∧
    (t.world.record e).answers.length ≤ (t.world.record e).posts := by
  have path := Transition.Run.check (fun _ _ => True) reached (fun _ _ _ _ _ _ => trivial)
  obtain ⟨_,accurate⟩ := path.preserves (fun u => Supplied x u ∧ Accurate e ((b.world.db.attempts e).map (·.outcome)) u)
    (by
      intro u a v old _ moved
      have step := step_sound moved
      exact ⟨step.supplied old.1,step.accurate old.1 old.2⟩)
    ⟨start.supplied,start.accurate e⟩
  refine ⟨accurate.recorded.shelved,?_⟩
  have fewer := accurate.answered.shelved.length_le
  simpa [Record.replies,Record.requests] using fewer

def refusedThenKilled : List Action :=
  registerAndAccept ++ Action.pass 0 12 (.error "connection refused") ++ Action.pass 0 6 (.response .ok) ++ [.kill]

theorem attempt_rows_true_killed :
    ∃ t, Transition.exec (step .tabletop .default) (boot .default) refusedThenKilled = some t ∧
      ((t.world.db.attempts "11").map (·.outcome)).Subperm ((t.world.record "11").answers.map (·.outcome)) ∧
      (t.world.db.attempts "11").length = 1 ∧ (t.world.record "11").posts = 2 := by
  have ran : (Transition.exec (step .tabletop .default) (boot .default) refusedThenKilled).map
      (fun t => ((t.world.db.attempts "11").length,(t.world.record "11").posts)) = some (1,2) := by decide +kernel
  obtain ⟨t,reached,parts⟩ := Option.map_eq_some_iff.mp ran
  obtain ⟨rows,posts⟩ := Prod.mk.inj parts
  obtain ⟨recorded,_⟩ := attempt_rows_true (boot_booted .tabletop .default) reached "11"
  have none' : ((boot .default).world.db.attempts "11").map DeliveryAttempt.outcome = [] := rfl
  rw [none',List.append_nil] at recorded
  exact ⟨t,reached,recorded,rows,posts⟩

end System
end AetherRelay
