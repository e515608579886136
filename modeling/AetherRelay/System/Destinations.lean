import AetherRelay.System.Wire

namespace AetherRelay
variable {x : Externals} {cfg : AppConfig} {client : Client} {good : String → Prop}

theorem validateNewEndpoint_target (valid : validateNewEndpoint x req = .ok ()) :
    validateTargetUrl x req.targetUrl = .ok () := by
  unfold validateNewEndpoint at valid
  by_cases unnamed : trim req.name.toList = []
  · simp [unnamed,bind,Except.bind,throw,throwThe,MonadExceptOf.throw] at valid
  · cases provider : Provider.fromStr x req.provider with
    | error e => simp [unnamed,provider,bind,Except.bind] at valid
    | ok p =>
      by_cases secret : req.secret = ""
      · simp [unnamed,provider,secret,bind,Except.bind,throw,throwThe,MonadExceptOf.throw] at valid
      · simpa [unnamed,provider,secret,bind,Except.bind,pure,Except.pure] using valid

def DispatchPc.Aims (good : String → Prop) : DispatchPc → Prop
  | .countAttempts _ _ _ targetUrl => good targetUrl
  | .checkBreaker d | .requeueDeferred d | .send d _ => good d.targetUrl
  | _ => True

theorem DispatchStep.aims {w next : World} (effect : DispatchStep x loop inp w pc next after)
    (stored : ∀ id row, w.db.endpoint id = some row → good row.targetUrl) (old : pc.Aims good) : after.Aims good := by
  cases effect with
  | selectEndpoint live found => exact stored _ _ found
  | countAttempts live fits => exact old
  | withheld refused => exact old
  | admitted open' => exact old
  | _ => trivial

theorem WorkerStep.aims {w next : World} (effect : WorkerStep x loop inp w worker next done)
    (stored : ∀ id row, w.db.endpoint id = some row → good row.targetUrl)
    (old : ∀ claimed parent pc, worker.pc = .dispatching claimed parent pc → pc.Aims good) :
    ∀ claimed parent pc, done.pc = .dispatching claimed parent pc → pc.Aims good := by
  intro claimed parent pc here
  cases effect with
  | claim live head => cases here; trivial
  | dispatch moved => cases here; exact moved.aims stored (old _ _ _ rfl)
  | _ => cases here

namespace System

structure Screened (x : Externals) (s : State) : Prop where
  stored : ∀ id row, s.world.db.endpoint id = some row → validateTargetUrl x row.targetUrl = .ok ()
  passes : ∀ i claimed parent pc, (s.workers i).pc = .dispatching claimed parent pc →
    pc.Aims fun url => validateTargetUrl x url = .ok ()

theorem Step.screens {s t : State} {a : Action} {id : Uuid} (moved : Step x cfg s a t)
    (found : t.world.db.endpoint id = some parent) :
    s.world.db.endpoint id = some parent ∨ validateTargetUrl x parent.targetUrl = .ok () := by
  have change := moved.endpoint id
  rw [found] at change
  generalize before : s.world.db.endpoint id = old at change
  cases change with
  | same => exact .inl rfl
  | created drawn named logged =>
    obtain ⟨new,log,history⟩ := moved.log
    rw [logged] at history
    cases log with
    | created asked _ inserted =>
      subst asked
      cases moved with
      | created live effect =>
        cases effect with
        | refused => simp at logged
        | stored valid inserted =>
          simp only [World.log_history,List.cons.injEq,Happening.endpointCreated.injEq,and_true] at logged
          rw [← logged]
          exact .inr (validateNewEndpoint_target valid)
    | silent => simp at history
    | _ => simp at history

theorem Step.screened {s t : State} {a : Action} (moved : Step x cfg s a t) (old : Screened x s) : Screened x t := by
  have stored : ∀ id row, t.world.db.endpoint id = some row → validateTargetUrl x row.targetUrl = .ok () := by
    intro id row found
    rcases moved.screens found with before | valid
    · exact old.stored id row before
    · exact valid
  refine ⟨stored,?_⟩
  intro i claimed parent pc here
  rcases moved.worker i with same | ⟨_,start⟩ | ⟨inp,_,effect⟩
  · exact old.passes i claimed parent pc (same ▸ here)
  · simp [start,Worker.start] at here
  · exact effect.aims old.stored (old.passes i) claimed parent pc here

def Admits (x : Externals) (s : Wired) : WireAction → Prop
  | .reply i (.response status (some location)) => ∀ e req past, s.flights i = some (.asking e req past) →
      past.length < 10 → status.redirects = true → validateTargetUrl x location = .ok ()
  | _ => True

def Wired.AllScreened (x : Externals) (s : Wired) : Prop :=
  ∀ e req, .asked e req ∈ s.wire → validateTargetUrl x req.url = .ok ()

theorem WireStep.screened {s t : Wired} {a : WireAction} (moved : WireStep client x cfg s a t) (admits : Admits x s a)
    (relay : Screened x s.relay) (old : s.AllScreened x) : Screened x t.relay ∧ t.AllScreened x := by
  cases moved with
  | @followed i e req past reply after aloft next =>
    refine ⟨relay,fun e' req' seen => ?_⟩
    obtain ⟨status,location,rfl,redirects,few,rfl⟩ := Client.next_request next
    rcases List.mem_cons.mp seen with new | seen
    · cases new
      rw [Request.redirected_url]
      exact admits e req past aloft few redirects
    · rcases List.mem_cons.mp seen with new | seen
      · cases new
      · exact old e' req' seen
  | answered aloft next =>
    refine ⟨relay,fun e' req' seen => ?_⟩
    rcases List.mem_cons.mp seen with new | seen
    · cases new
    · exact old e' req' seen
  | sent at' moved =>
    refine ⟨moved.screened relay,fun e' req' seen => ?_⟩
    rcases List.mem_cons.mp seen with new | seen
    · cases new
      exact relay.passes _ _ _ _ at'
    · exact old e' req' seen
  | returned at' aloft moved => exact ⟨moved.screened relay,old⟩
  | worked off moved => exact ⟨moved.screened relay,old⟩
  | served other moved => exact ⟨moved.screened relay,old⟩

theorem wire_grows {s t : Wired} (reached : Transition.exec (wireStep client x cfg) s actions = some t)
    (seen : h ∈ s.wire) : h ∈ t.wire := by
  have path := Transition.Run.check (fun _ _ => True) reached (.all fun _ _ => trivial)
  exact path.preserves (fun u => h ∈ u.wire) (fun u a v seen _ moved => (wireStep_sound moved).wire seen) seen

theorem WireStep.admits {s t : Wired} {a : WireAction} (moved : WireStep client x cfg s a t) (all : t.AllScreened x) :
    Admits x s a := by
  cases a with
  | relay a => trivial
  | reply i reply =>
    cases reply with
    | broken text => trivial
    | response status location =>
      cases location with
      | none => trivial
      | some location =>
        intro e req past aloft few redirects
        have follows : client.next req past.length (.response status (some location)) =
            .inl (req.redirected status location) := client.follows few redirects
        cases moved with
        | @followed _ e' req' past' _ after aloft' next =>
          rw [aloft] at aloft'
          cases aloft'
          rw [follows] at next
          cases next
          have target := all e _ List.mem_cons_self
          rwa [Request.redirected_url] at target
        | answered aloft' next =>
          rw [aloft] at aloft'
          cases aloft'
          rw [follows] at next
          cases next

theorem boot_screened (x : Externals) (cfg : AppConfig) : Screened x (boot cfg) :=
  ⟨fun id row found => (by cases found),fun i claimed parent pc here => by cases here⟩

-- Every request of the dispatch client stays where validate_target_url lets it go
-- as long as every redirect does, and in no other run.
theorem destinations_exact (reached : Transition.exec (wireStep client x cfg) (Wired.boot cfg) actions = some t) :
    t.AllScreened x ↔ Transition.EachStep (wireStep client x cfg) (Admits x) (Wired.boot cfg) actions := by
  constructor
  · intro all earlier a later u parts before
    rw [parts] at reached
    obtain ⟨v,moved,after⟩ := Transition.exec_split reached before
    have rest : Transition.exec (wireStep client x cfg) v later = some t := by
      rw [Transition.exec_append,before,Option.bind_some] at reached
      obtain ⟨w,first,further⟩ := Option.bind_eq_some_iff.mp reached
      rw [moved] at first
      cases Option.some.inj first
      exact further
    exact (wireStep_sound moved).admits fun e req seen => all e req (wire_grows rest seen)
  · intro each
    have path := Transition.Run.check (Admits x) reached each
    exact (path.preserves (fun u => Screened x u.relay ∧ u.AllScreened x)
      (fun u a v old admits moved => (wireStep_sound moved).screened admits old.1 old.2)
      ⟨boot_screened x cfg,fun e req seen => by cases seen⟩).2

def sentOn : List WireAction :=
  delivering [.response .temporaryRedirect (some "https://hooks.example.com/in"),.response .ok none]

theorem destinations_exact_sent_on :
    ∃ t, Transition.exec (wireStep .limited .tabletop .default) (Wired.boot .default) sentOn = some t ∧
      Transition.EachStep (wireStep .limited .tabletop .default) (Admits .tabletop) (Wired.boot .default) sentOn := by
  have ran : (Transition.exec (wireStep .limited .tabletop .default) (Wired.boot .default) sentOn).map
      (fun t => t.wire.filterMap Hop.target) =
      some ["https://hooks.example.com/in","https://hooks.example.com/in"] := by decide +kernel
  obtain ⟨t,reached,targets⟩ := Option.map_eq_some_iff.mp ran
  refine ⟨t,reached,(destinations_exact reached).mp fun e req seen => ?_⟩
  have target : req.url ∈ t.wire.filterMap Hop.target := List.mem_filterMap.mpr ⟨_,seen,rfl⟩
  rw [targets] at target
  have only : req.url = "https://hooks.example.com/in" := by simpa using target
  rw [only]
  decide +kernel

def withMetadata : Externals :=
  {Externals.tabletop with
    parseUrl := fun raw =>
      if raw = "http://169.254.169.254/latest/meta-data/" then .ok ⟨"http",some "169.254.169.254"⟩
      else Externals.tabletop.parseUrl raw}

theorem metadata_service_asked :
    ∃ t, Transition.exec (wireStep .limited withMetadata .default) (Wired.boot .default)
        (delivering [.response .found (some "http://169.254.169.254/latest/meta-data/"),.response .ok none]) = some t ∧
      ¬t.AllScreened withMetadata := by
  have ran : (Transition.exec (wireStep .limited withMetadata .default) (Wired.boot .default)
      (delivering [.response .found (some "http://169.254.169.254/latest/meta-data/"),.response .ok none])).map
      (fun t => decide (.asked "11" ⟨.get,"http://169.254.169.254/latest/meta-data/",none⟩ ∈ t.wire)) =
      some true := by decide +kernel
  obtain ⟨t,reached,seen⟩ := Option.map_eq_some_iff.mp ran
  refine ⟨t,reached,fun all => ?_⟩
  have accepted := all "11" _ (of_decide_eq_true seen)
  have refused : validateTargetUrl withMetadata "http://169.254.169.254/latest/meta-data/" ≠ .ok () := by
    decide +kernel
  exact refused accepted

end System
end AetherRelay
