import Mathlib.Data.List.Perm.Basic
import AetherRelay.Lib.Watch
import AetherRelay.System.Rows

namespace AetherRelay

theorem perm_of_tags [DecidableEq ι] [DecidableEq β] {l m : List (ι × β)}
    (same : ∀ i, l.filter (·.1 = i) = m.filter (·.1 = i)) : l.Perm m := by
  refine List.perm_iff_count.mpr fun entry => ?_
  have left : (l.filter (·.1 = entry.1)).count entry = l.count entry := List.count_filter (by simp)
  have right : (m.filter (·.1 = entry.1)).count entry = m.count entry := List.count_filter (by simp)
  rw [← left,← right,same]

-- The delivery of a pass is for the endpoint it was claimed with; a pass that
-- hands its event back unsent is none of these.
def DispatchPc.Towards (parent : Uuid) : DispatchPc → Prop
  | .selectEvent _ | .done _ _ => True
  | .selectEndpoint _ endpointId _ | .countAttempts _ endpointId _ _ => endpointId = parent
  | .checkBreaker d | .send d _ | .await d _ | .updateBreaker d _ _ | .insertAttempt d _ | .updateStatus d _ _ =>
    d.endpointId = parent
  | .requeueDeferred _ => False
  | .insertDeadLetter d answer _ => d.endpointId = parent ∧ answer.success = false

def DispatchPc.uncounted (i : Nat) (parent : Uuid) : DispatchPc → List (Nat × Uuid × Bool)
  | .updateStatus _ answer _ | .insertDeadLetter _ answer _ => [(i,parent,answer.success)]
  | .done _ outcome => [(i,parent,outcomeLabel outcome = "success")]
  | _ => []

def WorkerPc.uncounted (i : Nat) : WorkerPc → List (Nat × Uuid × Bool)
  | .dispatching _ parent pc => pc.uncounted i parent
  | _ => []

def WorkerPc.passing : WorkerPc → Bool
  | .dispatching _ _ _ => true
  | _ => false

-- The pass finds its rows, its breaker admits it, and what it records is a success
-- or a last failure whose letter finds the event gone.
def DispatchPc.Straight (cfg : DispatchLoopConfig) (inp : Input) (w : World) : DispatchPc → Prop
  | .selectEvent e => (w.db.event e).isSome = true
  | .selectEndpoint _ endpointId _ => (w.db.endpoint endpointId).isSome = true
  | .countAttempts e _ _ _ => w.db.attemptCount e < 2^32
  | .checkBreaker d => (AetherRelay.checkBreaker cfg w inp d.endpointId).2 = false
  | .insertAttempt d _ => (w.db.event d.eventId).isSome = true
  | .updateStatus d answer _ => answer.success = true ∨ cfg.maxAttempts.toNat ≤ d.attemptNum
  | .insertDeadLetter d _ _ => (w.db.event d.eventId).isSome = false
  | _ => True

instance (cfg : DispatchLoopConfig) (inp : Input) (w : World) (pc : DispatchPc) : Decidable (pc.Straight cfg inp w) := by
  unfold DispatchPc.Straight
  split <;> infer_instance

section
variable {x : Externals} {cfg : DispatchLoopConfig} {inp : Input} {w next : World} {pc after : DispatchPc}

theorem DispatchStep.straight (effect : DispatchStep x cfg inp w pc next after) (live : inp.fault = none)
    (supplied : w.Supplied x) (straight : pc.Straight cfg inp w) (old : pc.Towards parent)
    (read : ∀ row, w.db.event pc.eventId = some row → row.endpointId = parent) :
    after.Towards parent ∧ (pc.uncounted i parent = after.uncounted i parent ∨
      ∃ d answer time, pc = .insertAttempt d answer ∧ after = .updateStatus d answer time) := by
  cases effect with
  | selectEvent _ found => exact ⟨read _ found,.inl rfl⟩
  | selectEndpoint _ found => exact ⟨old,.inl rfl⟩
  | countAttempts _ fits => exact ⟨old,.inl rfl⟩
  | withheld refused => exact Bool.noConfusion (straight.symm.trans refused)
  | admitted open' => exact ⟨old,.inl rfl⟩
  | requeueDeferred _ => exact old.elim
  | send => exact ⟨old,.inl rfl⟩
  | await => exact ⟨old,.inl rfl⟩
  | updateBreaker => exact ⟨old,.inl rfl⟩
  | insertAttempt _ stored => exact ⟨old,.inr ⟨_,_,_,rfl,rfl⟩⟩
  | exhausted _ spent => exact ⟨⟨old,(settledStatus_failed spent).1⟩,.inl rfl⟩
  | @settled d answer _ now _ other =>
    refine ⟨trivial,.inl ?_⟩
    have good : answer.success = true := by
      rcases straight with good | spent
      · exact good
      · by_contra failed
        exact other (by simp [settledStatus,failed,spent])
    simp [DispatchPc.uncounted,outcomeLabel,good]
  | insertDeadLetter _ stored =>
    obtain ⟨⟨row,found⟩,_⟩ := Db.replaceLetter_parts stored
    exact Bool.noConfusion (straight.symm.trans (Option.isSome_iff_exists.mpr ⟨row,found⟩))
  | failed cause =>
    have blocked := perform_error live cause
    refine ⟨trivial,.inl ?_⟩
    cases pc with
    | selectEvent e => simp [DispatchPc.Straight,show w.db.event e = none from blocked] at straight
    | selectEndpoint e endpointId body =>
      simp [DispatchPc.Straight,show w.db.endpoint endpointId = none from blocked] at straight
    | countAttempts e endpointId body url => exact absurd straight (Nat.not_lt.mpr blocked)
    | insertAttempt d answer =>
      rcases blocked with taken | gone
      · exact absurd taken supplied.fresh_attempt
      · simp [DispatchPc.Straight,show w.db.event d.eventId = none from gone] at straight
    | insertDeadLetter d answer now => simp [DispatchPc.uncounted,outcomeLabel,old.2]
    | done e result => cases cause
    | _ => exact blocked.elim

end

def Happening.metric : Happening → Option (Uuid × String)
  | .dispatchMetric endpointId outcome => some (endpointId,outcome)
  | _ => none

namespace System

structure Books where
  inserted : List (Nat × Uuid × Bool)
  counted : List (Nat × Uuid × String)

-- An attempt row is entered with its endpoint and whether the answer was a 2xx, a
-- call of record_dispatch_metrics with its two labels. Both start with the process.
def keepBooks (s : State) (books : Books) (a : Action) (t : State) : Books :=
  match a with
  | .kill | .shutdown => ⟨[],[]⟩
  | .worker i _ =>
    match (s.workers i).pc,(t.workers i).pc with
    | .dispatching _ _ (.insertAttempt d answer),.dispatching _ _ (.updateStatus _ _ _) =>
      {books with inserted:=(i,d.endpointId,answer.success) :: books.inserted}
    | .dispatching _ endpointId (.done _ outcome),_ =>
      {books with counted:=(i,endpointId,outcomeLabel outcome) :: books.counted}
    | _,_ => books
  | _ => books

abbrev Audited := Transition.Watched State Books

def auditStep (x : Externals) (cfg : AppConfig) : Audited → Action → Option Audited :=
  Transition.watch (step x cfg) keepBooks

def Audited.start (b : State) : Audited := ⟨b,[],[]⟩

-- aether_dispatch_attempts_total of an endpoint over all outcomes, and its part
-- with the outcome success, against the rows.
def Truthful (books : Books) : Prop := ∀ endpointId,
  books.counted.countP (fun entry => entry.2.1 = endpointId) =
    books.inserted.countP (fun entry => entry.2.1 = endpointId) ∧
  books.counted.countP (fun entry => entry.2.1 = endpointId ∧ entry.2.2 = "success") =
    books.inserted.countP (fun entry => entry.2.1 = endpointId ∧ entry.2.2 = true)

def Quiet (s : State) : Prop := ∀ i, (s.workers i).pc.passing = false

def Straight (cfg : AppConfig) (s : State) : Action → Prop
  | .worker i inp =>
    match (s.workers i).pc with
    | .dispatching _ _ pc => pc.Straight (loopConfig cfg) inp s.world
    | _ => True
  | _ => True

def asCounted (entry : Nat × Uuid × String) : Nat × Uuid × Bool := (entry.1,entry.2.1,entry.2.2 = "success")

structure Audit (x : Externals) (s : Audited) : Prop where
  supplied : Supplied x s.state
  parents : ∀ i claimed parent pc, (s.state.workers i).pc = .dispatching claimed parent pc →
    pc.Towards parent ∧ ∀ row, s.state.world.db.event claimed = some row → row.endpointId = parent
  balanced : ∀ i, s.notes.inserted.filter (·.1 = i) =
    (s.state.workers i).pc.uncounted i ++ (s.notes.counted.map asCounted).filter (·.1 = i)

theorem Audit.truthful (audit : Audit x s) (quiet : Quiet s.state) : Truthful s.notes := by
  have same : ∀ i, s.notes.inserted.filter (·.1 = i) = (s.notes.counted.map asCounted).filter (·.1 = i) := by
    intro i
    have none : (s.state.workers i).pc.uncounted i = [] := by
      have idle := quiet i
      cases here : (s.state.workers i).pc with
      | dispatching claimed parent pc => rw [here] at idle; cases idle
      | _ => rfl
    rw [audit.balanced,none,List.nil_append]
  have perm := perm_of_tags same
  intro endpointId
  rw [perm.countP_eq,perm.countP_eq,List.countP_map,List.countP_map]
  constructor
  · rfl
  · simp only [Function.comp_def,asCounted,decide_eq_true_eq]

inductive BookStep (s : State) (books : Books) (i : Nat) (t : State) : Books → Prop where
  | same (kept : (t.workers i).pc.uncounted i = (s.workers i).pc.uncounted i) : BookStep s books i t books
  | entered (answer : Answer) (before : (s.workers i).pc.uncounted i = [])
      (after : (t.workers i).pc.uncounted i = [(i,parent,answer.success)]) :
      BookStep s books i t {books with inserted:=(i,parent,answer.success) :: books.inserted}
  | counted (outcome : Except AppError DispatchResult)
      (before : (s.workers i).pc.uncounted i = [(i,parent,decide (outcomeLabel outcome = "success"))])
      (after : (t.workers i).pc.uncounted i = []) :
      BookStep s books i t {books with counted:=(i,parent,outcomeLabel outcome) :: books.counted}

theorem straight_pass (straight : Straight cfg s (.worker i inp)) (at' : (s.workers i).pc = .dispatching claimed parent pc) :
    pc.Straight (loopConfig cfg) inp s.world := by
  unfold Straight at straight
  simp only [at'] at straight
  exact straight

theorem WorkerStep.bookkeeping {s t : State}
    (effect : WorkerStep x (loopConfig cfg) inp s.world (s.workers i) t.world (t.workers i)) (books : Books)
    (live : inp.fault = none) (supplied : Supplied x s) (straight : Straight cfg s (.worker i inp))
    (old : ∀ claimed parent pc, (s.workers i).pc = .dispatching claimed parent pc →
      pc.Towards parent ∧ ∀ row, s.world.db.event claimed = some row → row.endpointId = parent) :
    (∀ claimed parent pc, (t.workers i).pc = .dispatching claimed parent pc → pc.Towards parent) ∧
      BookStep s books i t (keepBooks s books (.worker i inp) t) := by
  have coherent := supplied.coherent i
  have straight : ∀ claimed parent pc, (s.workers i).pc = .dispatching claimed parent pc →
      pc.Straight (loopConfig cfg) inp s.world := fun _ _ _ at' => straight_pass straight at'
  generalize mine : s.workers i = worker at *
  generalize done : t.workers i = after at *
  generalize final : t.world = next at *
  cases effect with
  | dispatch moved =>
    rename_i pc pc' claimed parent p
    obtain ⟨towards,read⟩ := old claimed parent pc rfl
    have same : pc.eventId = claimed := coherent
    obtain ⟨further,change⟩ := moved.straight (i := i) live supplied.world (straight _ _ _ rfl) towards (same ▸ read)
    refine ⟨fun claimed' parent' pc'' here => (by cases here; exact further),?_⟩
    rcases change with kept | ⟨d,answer,time,rfl,rfl⟩
    · have quiet : keepBooks s books (.worker i inp) t = books := by
        simp only [keepBooks,mine,done]
        cases moved with
        | insertAttempt _ stored => cases kept
        | failed cause =>
          cases pc with
          | done e result => cases cause
          | _ => rfl
        | _ => rfl
      rw [quiet]
      refine .same ?_
      rw [mine,done]
      exact kept.symm
    · have entered : keepBooks s books (.worker i inp) t =
          {books with inserted:=(i,parent,answer.success) :: books.inserted} := by
        have parent' : d.endpointId = parent := towards
        simp only [keepBooks,mine,done,parent']
      rw [entered]
      exact .entered answer (by rw [mine]; rfl) (by rw [done]; rfl)
  | returned result =>
    rename_i claimed parent e p
    refine ⟨fun claimed' parent' pc' here => (by cases here),?_⟩
    have counted : keepBooks s books (.worker i inp) t =
        {books with counted:=(i,parent,outcomeLabel (.ok result)) :: books.counted} := by
      simp only [keepBooks,mine,done]
    rw [counted]
    exact .counted (.ok result) (by rw [mine]; rfl) (by rw [done]; rfl)
  | errored e =>
    rename_i claimed parent e' p
    refine ⟨fun claimed' parent' pc' here => (by cases here),?_⟩
    have counted : keepBooks s books (.worker i inp) t =
        {books with counted:=(i,parent,outcomeLabel (.error e)) :: books.counted} := by
      simp only [keepBooks,mine,done]
    rw [counted]
    exact .counted (.error e) (by rw [mine]; rfl) (by rw [done]; rfl)
  | claim _ head =>
    refine ⟨fun claimed' parent' pc' here => (by cases here; trivial),?_⟩
    have quiet : keepBooks s books (.worker i inp) t = books := by simp only [keepBooks,mine,done]
    rw [quiet]
    exact .same (by rw [mine,done]; rfl)
  | _ =>
    refine ⟨fun claimed' parent' pc' here => (by cases here),?_⟩
    have quiet : keepBooks s books (.worker i inp) t = books := by simp only [keepBooks,mine,done]
    rw [quiet]
    exact .same (by rw [mine,done]; rfl)

theorem WorkerStep.metrics {s t : State}
    (effect : WorkerStep x (loopConfig cfg) inp s.world (s.workers i) t.world (t.workers i)) (books : Books) :
    ∃ new, t.world.history = new ++ s.world.history ∧
      (keepBooks s books (.worker i inp) t).counted.map (·.2) =
        new.filterMap Happening.metric ++ books.counted.map (·.2) := by
  generalize mine : s.workers i = worker at effect
  generalize done : t.workers i = after at effect
  generalize earlier : s.world = w at effect
  generalize later : t.world = next at effect
  cases effect with
  | dispatch moved =>
    rename_i pc _ _ _ _
    have quiet : (keepBooks s books (.worker i inp) t).counted = books.counted := by
      simp only [keepBooks,mine,done]
      cases moved with
      | insertAttempt _ stored => rfl
      | failed cause =>
        cases pc with
        | done e result => cases cause
        | _ => rfl
      | _ => rfl
    rw [quiet]
    cases moved with
    | send => exact ⟨[_],rfl,rfl⟩
    | await => exact ⟨[_],rfl,rfl⟩
    | _ => exact ⟨[],rfl,rfl⟩
  | returned result => exact ⟨[_],rfl,by simp only [keepBooks,mine,done]; rfl⟩
  | errored e => exact ⟨[_],rfl,by simp only [keepBooks,mine,done]; rfl⟩
  | polled => exact ⟨[_],rfl,by simp only [keepBooks,mine,done]; rfl⟩
  | slept waits delay => exact ⟨[_],rfl,by simp only [keepBooks,mine,done]; rfl⟩
  | _ => exact ⟨[],rfl,by simp only [keepBooks,mine,done]; rfl⟩

theorem auditStep_metrics (moved : auditStep x cfg u a = some v) (stays : a.ends = false) :
    ∃ new, v.state.world.history = new ++ u.state.world.history ∧
      v.notes.counted.map (·.2) = new.filterMap Happening.metric ++ u.notes.counted.map (·.2) := by
  obtain ⟨stepped,notes⟩ := Transition.watch_some.mp moved
  have effect := step_sound stepped
  rw [notes]
  clear moved notes
  generalize v.state = t at effect
  by_cases pass : ∃ i inp, a = .worker i inp
  · obtain ⟨i,inp,rfl⟩ := pass
    cases effect with
    | worked live inner =>
      rename_i next after
      have stands : WorkerStep x (loopConfig cfg) inp u.state.world (u.state.workers i) next
          (Function.update u.state.workers i after i) := by rwa [Function.update_self]
      exact WorkerStep.metrics stands u.notes
  · have outside : ∀ i inp, a ≠ .worker i inp := fun i inp same => pass ⟨i,inp,same⟩
    obtain ⟨new,log,history⟩ := effect.log
    refine ⟨new,history,?_⟩
    have books : keepBooks u.state u.notes a t = u.notes := by
      cases a with
      | worker i inp => exact absurd rfl (outside i inp)
      | kill | shutdown => cases stays
      | _ => rfl
    rw [books]
    cases log with
    | metric pass => exact absurd pass (outside _ _)
    | _ => rfl

-- As long as the process lives its counters hold what record_dispatch_metrics was
-- called with, call by call.
theorem counted_reported (start : Booted x cfg b) (stays : ∀ a ∈ actions, a.ends = false)
    (reached : Transition.exec (auditStep x cfg) (.start b) actions = some t) :
    t.notes.counted.map (·.2) = t.state.world.history.filterMap Happening.metric := by
  have path := Transition.Run.check (fun _ a => a.ends = false) reached (.all stays)
  refine path.preserves (fun u => u.notes.counted.map (·.2) = u.state.world.history.filterMap Happening.metric) ?_ ?_
  · intro u a v old stays moved
    obtain ⟨new,history,counted⟩ := auditStep_metrics moved stays
    rw [history,counted,old,List.filterMap_append]
  · have silent : (Audited.start b).state.world.history = [] := start.history
    rw [silent]
    rfl

theorem BookStep.balanced {books after : Books} (step : BookStep s books i t after)
    (others : ∀ j, j ≠ i → (t.workers j).pc = (s.workers j).pc)
    (old : ∀ j, books.inserted.filter (·.1 = j) =
      (s.workers j).pc.uncounted j ++ (books.counted.map asCounted).filter (·.1 = j)) :
    ∀ j, after.inserted.filter (·.1 = j) =
      (t.workers j).pc.uncounted j ++ (after.counted.map asCounted).filter (·.1 = j) := by
  intro j
  have before := old j
  by_cases mine : j = i
  · subst mine
    cases step with
    | same kept => rw [kept,before]
    | entered answer free open' =>
      rw [free,List.nil_append] at before
      rw [open',List.filter_cons_of_pos (by simp),before]
      rfl
    | counted outcome open' free =>
      rw [open'] at before
      rw [free,List.map_cons,List.filter_cons_of_pos (by simp [asCounted]),before]
      rfl
  · rw [others j mine]
    cases step with
    | same kept => exact before
    | entered answer free open' => rw [List.filter_cons_of_neg (by simp [Ne.symm mine]),before]
    | counted outcome open' free =>
      rw [List.map_cons,List.filter_cons_of_neg (by simp [asCounted,Ne.symm mine]),before]

theorem WorkerStep.origin {w next : World} (effect : WorkerStep x loop inp w worker next after)
    (here : after.pc = .dispatching claimed parent pc) :
    (∃ pc, worker.pc = .dispatching claimed parent pc) ∨
      ∃ row, w.db.event claimed = some row ∧ row.endpointId = parent := by
  cases effect with
  | claim live head =>
    cases here
    exact .inr ⟨_,Db.nextReceived_event head,rfl⟩
  | dispatch moved =>
    cases here
    exact .inl ⟨_,rfl⟩
  | _ => cases here

theorem Step.parents {s t : State} {a : Action} (moved : Step x cfg s a t) (supplied : Supplied x s)
    (old : ∀ i claimed parent pc, (s.workers i).pc = .dispatching claimed parent pc →
      ∀ row, s.world.db.event claimed = some row → row.endpointId = parent) :
    ∀ i claimed parent pc, (t.workers i).pc = .dispatching claimed parent pc →
      ∀ row, t.world.db.event claimed = some row → row.endpointId = parent := by
  intro i claimed parent pc here row found
  have kept : Spent x s.world claimed → (∀ was, s.world.db.event claimed = some was → was.endpointId = parent) →
      row.endpointId = parent := by
    intro spent reads
    obtain ⟨was,before,same⟩ := moved.columns supplied spent found
    rw [same]
    exact reads was before
  have inHand : ∀ pc, (s.workers i).pc = .dispatching claimed parent pc → row.endpointId = parent := by
    intro pc before
    exact kept (supplied.known i claimed (by rw [before]; exact List.mem_cons_self)) (old i _ _ _ before)
  rcases moved.worker i with same | ⟨_,start⟩ | ⟨inp,_,effect⟩
  · exact inHand pc (same ▸ here)
  · simp [start,Worker.start] at here
  · rcases WorkerStep.origin effect here with ⟨pc,before⟩ | ⟨was,stored,named⟩
    · exact inHand pc before
    · apply kept (supplied.world.store claimed (Db.ids_event stored))
      intro other read
      rw [stored] at read
      cases read
      exact named

theorem auditStep_audit {s t : Audited} (moved : auditStep x cfg s a = some t) (live : a.live = true)
    (straight : Straight cfg s.state a) (old : Audit x s) : Audit x t := by
  obtain ⟨stepped,noted⟩ := Transition.watch_some.mp moved
  have moved := step_sound stepped
  obtain ⟨supplied,passes,balanced⟩ := old
  have reads := moved.parents supplied fun i claimed parent pc here => (passes i claimed parent pc here).2
  obtain ⟨state,notes⟩ := t
  have noted : notes = keepBooks s.state s.notes a state := noted
  subst noted
  have rest : (∀ i claimed parent pc, (state.workers i).pc = .dispatching claimed parent pc → pc.Towards parent) →
      (∀ i, (keepBooks s.state s.notes a state).inserted.filter (·.1 = i) = (state.workers i).pc.uncounted i ++
        ((keepBooks s.state s.notes a state).counted.map asCounted).filter (·.1 = i)) →
      Audit x ⟨state,keepBooks s.state s.notes a state⟩ :=
    fun towards balanced => ⟨moved.supplied supplied,
      fun i claimed parent pc here => ⟨towards i claimed parent pc here,reads i claimed parent pc here⟩,balanced⟩
  have towards := fun i claimed parent pc here => (passes i claimed parent pc here).1
  cases moved with
  | worked live' effect =>
    rename_i inp next after i
    have others : ∀ j, j ≠ i → Function.update s.state.workers i after j = s.state.workers j :=
      fun j other => Function.update_of_ne other ..
    let moved : State := {s.state with world:=next,workers:=Function.update s.state.workers i after,clock:=inp.now}
    have effect : WorkerStep x (loopConfig cfg) inp s.state.world (s.state.workers i) moved.world (moved.workers i) := by
      simpa [moved] using effect
    obtain ⟨further,step⟩ := WorkerStep.bookkeeping effect s.notes (Action.live_worker.mp live) supplied straight (passes i)
    refine rest (fun j claimed parent pc here => ?_)
      (step.balanced (fun j other => congrArg Worker.pc (others j other)) balanced)
    by_cases mine : j = i
    · subst mine
      exact further claimed parent pc here
    · exact towards j claimed parent pc (others j mine ▸ here)
  | killed live => exact rest (fun i claimed parent pc here => by cases here) fun i => rfl
  | shutDown live quiet => exact rest (fun i claimed parent pc here => by cases here) fun i => rfl
  | created live effect => exact rest towards balanced
  | deleted live effect => exact rest towards balanced
  | accepted live effect => exact rest towards balanced
  | ingestStarted live gates => exact rest towards balanced
  | ingested live present effect => exact rest towards balanced
  | replayStarted live => exact rest towards balanced
  | replayed live present effect => exact rest towards balanced
  | restarted down => exact rest towards balanced

theorem Booted.audit (start : Booted x cfg b) : Audit x (.start b) where
  supplied := start.supplied
  parents := fun i claimed parent pc here => by
    have here : (b.workers i).pc = .dispatching claimed parent pc := here
    rw [start.workers i] at here
    cases here
  balanced := fun i => by
    have idle : (b.workers i).pc = .idle := by rw [start.workers i]; rfl
    change [] = (b.workers i).pc.uncounted i ++ []
    rw [idle]
    rfl

-- Without storage errors the counters tell the truth at every moment at which no
-- pass is under way, in every run whose passes keep straight on.
theorem counters_truthful_when (start : Booted x cfg b)
    (path : Transition.Run (auditStep x cfg) (fun s a => a.live = true ∧ Straight cfg s.state a) (.start b) actions t) :
    Transition.Always (auditStep x cfg) (fun s => Quiet s.state → Truthful s.notes) (.start b) actions := by
  refine path.always fun earlier u prior quiet => ?_
  have audit := prior.preserves (Audit x) (fun s a t old ok moved => auditStep_audit moved ok.1 ok.2 old) start.audit
  exact audit.truthful quiet

instance (cfg : AppConfig) (s : State) (a : Action) : Decidable (Straight cfg s a) := by
  unfold Straight
  split
  · split <;> infer_instance
  · infer_instance

def answeredOk : List Action := registerAndAccept ++ Action.pass 0 11 (.response .ok)

theorem counters_truthful_when_ok :
    ∃ t, Transition.exec (auditStep .tabletop .default) (.start (boot .default)) answeredOk = some t ∧
      t.notes.counted = [(0,"1","success")] ∧
      Transition.Always (auditStep .tabletop .default) (fun s => Quiet s.state → Truthful s.notes)
        (.start (boot .default)) answeredOk := by
  have ran : (Transition.exec (Transition.guard (auditStep .tabletop .default)
      (fun s a => a.live = true ∧ Straight .default s.state a)) (.start (boot .default)) answeredOk).map
      (fun t => t.notes.counted) = some [(0,"1","success")] := by decide +kernel
  obtain ⟨t,reached,counted⟩ := Option.map_eq_some_iff.mp ran
  have path := Transition.Run.guarded reached
  exact ⟨t,path.exec,counted,counters_truthful_when (boot_booted .tabletop .default) path⟩

theorem exec_single (single : ∀ a ∈ actions, Action.single a = true)
    (reached : Transition.exec (step x cfg) (boot cfg) actions = some t) (other : j ≠ 0) :
    t.workers j = .start (loopConfig cfg) := by
  have path := Transition.Run.check (fun _ a => a.single = true) reached (.all single)
  refine path.preserves (fun u => u.workers j = .start (loopConfig cfg)) (fun u a v old single moved => ?_) rfl
  rcases (step_sound moved).worker j with same | ⟨_,start⟩ | ⟨inp,rfl,_⟩
  · exact same.trans old
  · exact start
  · exact absurd (of_decide_eq_true single) other

theorem failure_counted_success :
    ∃ t, Transition.exec (auditStep .tabletop .default) (.start (boot .default))
        (registerAndAccept ++ Action.pass 0 11 (.response .internalServerError)) = some t ∧
      Quiet t.state ∧ t.notes.inserted = [(0,"1",false)] ∧ t.notes.counted = [(0,"1","success")] ∧
      ¬Truthful t.notes := by
  have ran : (Transition.exec (auditStep .tabletop .default) (.start (boot .default))
      (registerAndAccept ++ Action.pass 0 11 (.response .internalServerError))).map
      (fun t => decide ((t.state.workers 0).pc.passing = false ∧ t.notes.inserted = [(0,"1",false)] ∧
        t.notes.counted = [(0,"1","success")])) = some true := by decide +kernel
  obtain ⟨t,reached,here⟩ := Option.map_eq_some_iff.mp ran
  obtain ⟨idle,inserted,counted⟩ := of_decide_eq_true here
  refine ⟨t,reached,fun i => ?_,inserted,counted,fun truthful => ?_⟩
  · by_cases first : i = 0
    · exact first ▸ idle
    · rw [exec_single (by decide) (Transition.watch_exec reached) first]
      rfl
  · have part := (truthful "1").2
    rw [inserted,counted] at part
    exact absurd part (by decide)

end System
end AetherRelay
