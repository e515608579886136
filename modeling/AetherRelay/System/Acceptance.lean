import AetherRelay.System.Rows

namespace AetherRelay
variable {id endpointId : Uuid} {key headers : String} {rawBody : Bytes} {row : IncomingEventRecord}

def Happening.accepts (endpointId : Uuid) (key : String) : Happening → Bool
  | .accepted _ e k _ _ => e = endpointId && k = key
  | _ => false

structure Holds (row : IncomingEventRecord) (endpointId : Uuid) (key : String) (rawBody : Bytes) (headers : String) :
    Prop where
  parent : row.endpointId = endpointId
  named : row.idempotencyKey = key
  body : row.rawBody = rawBody
  snapshot : row.headers = headers

theorem Holds.withStatus (holds : Holds row endpointId key rawBody headers) (st : EventStatus) :
    Holds (row.withStatus st) endpointId key rawBody headers :=
  ⟨holds.parent,holds.named,holds.body,holds.snapshot⟩

namespace Db

theorem eventByKey_some {db : Db} (found : db.eventByKey endpointId key = some row) :
    row ∈ db.incomingEvents.rows ∧ row.endpointId = endpointId ∧ row.idempotencyKey = key := by
  have named := List.find?_some found
  simp only [Bool.and_eq_true,decide_eq_true_eq] at named
  exact ⟨List.mem_of_find?_eq_some found,named⟩

theorem eventByKey_none {db : Db} (unused : db.eventByKey endpointId key = none)
    (member : row ∈ db.incomingEvents.rows) (parent : row.endpointId = endpointId) : row.idempotencyKey ≠ key := by
  have other := List.find?_eq_none.mp unused row member
  simpa [parent] using other

end Db

namespace System
variable {x : Externals} {cfg : AppConfig} {s t : State} {a : Action}

structure Accounted (x : Externals) (s : State) : Prop where
  supplied : Supplied x s
  vouched : ∀ id row, s.world.db.event id = some row →
    .accepted id row.endpointId row.idempotencyKey row.rawBody row.headers ∈ s.world.history
  once : ∀ endpointId key, s.world.history.countP (·.accepts endpointId key) ≤ 1
  kept : ∀ id endpointId key rawBody headers, .accepted id endpointId key rawBody headers ∈ s.world.history →
    s.world.db.endpoint endpointId = none ∨
      ∃ row, s.world.db.event id = some row ∧ Holds row endpointId key rawBody headers

theorem Accounted.unused (old : Accounted x s) (unused : s.world.db.eventByKey endpointId key = none)
    (parent : s.world.db.endpoint endpointId = some p) : s.world.history.countP (·.accepts endpointId key) = 0 := by
  apply List.countP_eq_zero.mpr
  intro h member accepts
  cases h with
  | accepted id e k rawBody headers =>
    simp only [Happening.accepts,Bool.and_eq_true,decide_eq_true_eq] at accepts
    obtain ⟨rfl,rfl⟩ := accepts
    rcases old.kept _ _ _ _ _ member with gone | ⟨row,found,holds⟩
    · rw [parent] at gone
      cases gone
    · exact Db.eventByKey_none unused (Db.event_mem found).1 holds.parent holds.named
  | _ => cases accepts

theorem Step.vouched (moved : Step x cfg s a t) (old : Accounted x s) (found : t.world.db.event id = some row) :
    .accepted id row.endpointId row.idempotencyKey row.rawBody row.headers ∈ t.world.history := by
  have change := moved.row old.supplied id
  rw [found] at change
  generalize before : s.world.db.event id = b at change
  cases change with
  | same => exact moved.history (old.vouched id row before)
  | created drawn status origin logged => rw [logged]; exact List.mem_cons_self
  | requeued stale at' => have was := old.vouched id _ before; exact moved.history was
  | claimed pass free head holds => have was := old.vouched id _ before; exact moved.history was
  | settled pass holds st final dropped => have was := old.vouched id _ before; exact moved.history was

theorem Step.once (moved : Step x cfg s a t) (old : Accounted x s) (endpointId : Uuid) (key : String) :
    t.world.history.countP (·.accepts endpointId key) ≤ 1 := by
  obtain ⟨new,log,history⟩ := moved.log
  rw [history]
  cases log with
  | silent => exact old.once endpointId key
  | accepted called unused inserted =>
    rename_i e k body headers now
    obtain ⟨_,_,⟨p,parent⟩,_⟩ := Db.insertEvent_parts inserted
    by_cases same : e = endpointId ∧ k = key
    · obtain ⟨rfl,rfl⟩ := same
      rw [List.countP_append,old.unused unused parent]
      exact List.countP_le_length
    · have other : Happening.accepts endpointId key
          (.accepted (x.nowV7 s.world.drawn) e k body headers) = false := by
        simpa [Happening.accepts] using same
      rw [List.countP_append,List.countP_cons_of_neg (by simp [other])]
      simpa using old.once endpointId key
  | _ =>
    rw [List.countP_append,List.countP_cons_of_neg (by simp [Happening.accepts])]
    simpa using old.once endpointId key

theorem Step.kept (moved : Step x cfg s a t) (old : Accounted x s)
    (member : .accepted id endpointId key rawBody headers ∈ t.world.history) :
    t.world.db.endpoint endpointId = none ∨
      ∃ row, t.world.db.event id = some row ∧ Holds row endpointId key rawBody headers := by
  have before : .accepted id endpointId key rawBody headers ∈ s.world.history →
      t.world.db.endpoint endpointId = none ∨
        ∃ row, t.world.db.event id = some row ∧ Holds row endpointId key rawBody headers := by
    intro older
    rcases old.kept id endpointId key rawBody headers older with gone | ⟨row,found,holds⟩
    · left
      have change := moved.endpoint endpointId
      rw [gone] at change
      generalize after : t.world.db.endpoint endpointId = e at change
      cases change with
      | same => rfl
      | created drawn named logged =>
        have spent := old.supplied.world.past _ older endpointId (by simp [Happening.ids])
        exact absurd drawn.symm (spent _ (Nat.le_refl _))
    · have change := moved.row old.supplied id
      rw [found] at change
      generalize after : t.world.db.event id = e at change
      cases change with
      | same => exact .inr ⟨row,rfl,holds⟩
      | removed cascade settled gone => exact .inl (holds.parent ▸ gone)
      | requeued stale at' => exact .inr ⟨_,rfl,holds.withStatus _⟩
      | claimed pass free head hand => exact .inr ⟨_,rfl,holds.withStatus _⟩
      | settled pass hand st final dropped => exact .inr ⟨_,rfl,holds.withStatus _⟩
  obtain ⟨new,log,history⟩ := moved.log
  rw [history] at member
  cases log with
  | silent => exact before member
  | accepted called unused inserted =>
    rcases List.mem_cons.mp member with same | older
    · cases same
      obtain ⟨_,_,_,_,_,_,_,rows⟩ := Db.insertEvent_parts inserted
      exact .inr ⟨_,(rows _).trans (if_pos rfl),⟨rfl,rfl,rfl,rfl⟩⟩
    · exact before older
  | _ =>
    rcases List.mem_cons.mp member with same | older
    · cases same
    · exact before older

theorem Step.accounted (moved : Step x cfg s a t) (old : Accounted x s) : Accounted x t :=
  ⟨moved.supplied old.supplied,fun _ _ found => moved.vouched old found,moved.once old,
    fun _ _ _ _ _ member => moved.kept old member⟩

theorem boot_accounted (x : Externals) (cfg : AppConfig) : Accounted x (boot cfg) :=
  ⟨(boot_booted x cfg).supplied,fun _ _ found => (by cases found),fun _ _ => Nat.zero_le _,
    fun _ _ _ _ _ member => (by cases member)⟩

structure CallLawful (x : Externals) (w : World) (inp : Input) (endpointId : Uuid) (key : String) (rawBody : Bytes)
    (headers : String) : Prop where
  won : ∀ id, (acceptEvent x inp w endpointId key rawBody headers).2 = .ok id →
    (acceptEvent x inp w endpointId key rawBody headers).1.db.event id =
        some ⟨id,endpointId,key,rawBody,headers,.received,inp.now⟩ ∧
      (acceptEvent x inp w endpointId key rawBody headers).1.history =
        .accepted id endpointId key rawBody headers :: w.history
  lost : ∀ e, (acceptEvent x inp w endpointId key rawBody headers).2 = .error e →
    (acceptEvent x inp w endpointId key rawBody headers).1.db = w.db ∧
      (acceptEvent x inp w endpointId key rawBody headers).1.history = .rejected endpointId key e :: w.history ∧
      ∀ status, e = .duplicateIdempotencyKey status → ∃ row ∈ w.db.incomingEvents.rows,
        row.endpointId = endpointId ∧ row.idempotencyKey = key ∧ status = row.status.asStr
  one : inp.fault = none → (∃ p, w.db.endpoint endpointId = some p) →
    (acceptEvent x inp w endpointId key rawBody headers).1.history.countP (·.accepts endpointId key) = 1

theorem Accounted.call (old : Accounted x s) (inp : Input) (endpointId : Uuid) (key : String) (rawBody : Bytes)
    (headers : String) : CallLawful x s.world inp endpointId key rawBody headers := by
  have effect := acceptEvent_step x inp s.world endpointId key rawBody headers
  generalize ended : acceptEvent x inp s.world endpointId key rawBody headers = call at effect
  obtain ⟨next,result⟩ := call
  constructor
  · intro id won
    rw [ended] at won ⊢
    cases effect with
    | stored live unused inserted =>
      cases won
      obtain ⟨_,_,_,_,_,_,_,rows⟩ := Db.insertEvent_parts inserted
      exact ⟨(rows _).trans (if_pos rfl),rfl⟩
    | refused e cause => cases won
  · intro e lost
    rw [ended] at lost ⊢
    cases effect with
    | stored live unused inserted => cases lost
    | refused error cause =>
      cases lost
      refine ⟨rfl,rfl,?_⟩
      intro status equal
      subst equal
      rcases cause with ⟨fault,_,other⟩ | ⟨_,row,found,same⟩ | ⟨_,_,failure,_,other⟩
      · cases other
      · cases same
        obtain ⟨member,parent,named⟩ := Db.eventByKey_some found
        exact ⟨row,member,parent,named,rfl⟩
      · cases other
  · rintro live ⟨p,parent⟩
    rw [ended]
    cases effect with
    | stored clean unused inserted =>
      have counts : Happening.accepts endpointId key
          (.accepted (x.nowV7 s.world.drawn) endpointId key rawBody headers) = true := by simp [Happening.accepts]
      exact (List.countP_cons_of_pos counts).trans (congrArg (·+1) (old.unused unused parent))
    | refused e cause =>
      have silent : Happening.accepts endpointId key (.rejected endpointId key e) = false := rfl
      have same : (s.world.log (.rejected endpointId key e)).history.countP (·.accepts endpointId key) =
          s.world.history.countP (·.accepts endpointId key) := by simp [silent]
      refine same.trans (le_antisymm (old.once endpointId key) (List.countP_pos_iff.mpr ?_))
      rcases cause with ⟨fault,struck,_⟩ | ⟨_,row,found,_⟩ | ⟨_,unused,failure,failed,_⟩
      · rw [live] at struck
        cases struck
      · obtain ⟨member,rfl,rfl⟩ := Db.eventByKey_some found
        exact ⟨_,old.vouched row.id row (Db.event_of_mem member),by simp [Happening.accepts]⟩
      · have fresh : s.world.db.event (x.nowV7 s.world.drawn) = none := by
          cases taken : s.world.db.event (x.nowV7 s.world.drawn) with
          | none => rfl
          | some row =>
            exact absurd rfl (old.supplied.world.store _ (Db.ids_event taken) _ (Nat.le_refl _))
        obtain ⟨db,stored⟩ : ∃ db, s.world.db.insertEvent
            ⟨x.nowV7 s.world.drawn,endpointId,key,rawBody,headers,.received,inp.now⟩ = .ok db :=
          Db.insertEvent_ok fresh unused parent
        rw [stored] at failed
        cases failed

-- Over every history, kills and failing statements included: a pair is accepted
-- at most once, and by exactly one call when its endpoint is there to be called.
theorem accept_idempotent (path : Transition.Run (step x cfg) (fun _ _ => True) (boot cfg) actions s) :
    (∀ endpointId key, s.world.history.countP (·.accepts endpointId key) ≤ 1) ∧
    (∀ inp endpointId key rawBody headers, CallLawful x s.world inp endpointId key rawBody headers) ∧
    (∀ id endpointId key rawBody headers, .accepted id endpointId key rawBody headers ∈ s.world.history →
      s.world.db.endpoint endpointId = none ∨
        ∃ row, s.world.db.event id = some row ∧ Holds row endpointId key rawBody headers) ∧
    ∀ a t, step x cfg s a = some t → ∀ id row, s.world.db.event id = some row →
      (∃ status, t.world.db.event id = some (row.withStatus status)) ∨
        (t.world.db.event id = none ∧ ∃ headers inp, a = .deleteEndpoint headers row.endpointId inp) := by
  have accounted : Accounted x s := path.preserves (Accounted x)
    (fun u a v old _ moved => (step_sound moved).accounted old) (boot_accounted x cfg)
  refine ⟨accounted.once,accounted.call,accounted.kept,fun a t moved id row found => ?_⟩
  have change := (step_sound moved).row accounted.supplied id
  rw [found] at change
  generalize t.world.db.event id = after at change
  cases change with
  | same => exact .inl ⟨row.status,rfl⟩
  | removed cascade settled gone => exact .inr ⟨rfl,_,_,cascade⟩
  | requeued stale at' => exact .inl ⟨_,rfl⟩
  | claimed pass free head holds => exact .inl ⟨_,rfl⟩
  | settled pass holds st final dropped => exact .inl ⟨_,rfl⟩

theorem accept_idempotent_twice :
    ∃ s, Transition.Run (step .tabletop .default) (fun _ _ => True) (boot .default)
        (registerAndAccept ++ [.accept "1" "key-1" [1] "{}" ⟨none,7,7,.error "",0⟩]) s ∧
      s.world.history.countP (·.accepts "1" "key-1") ≤ 1 := by
  have served : (Transition.exec (step .tabletop .default) (boot .default)
      (registerAndAccept ++ [.accept "1" "key-1" [1] "{}" ⟨none,7,7,.error "",0⟩])).isSome = true := by decide +kernel
  obtain ⟨s,reached⟩ := Option.isSome_iff_exists.mp served
  have path := Transition.Run.check (fun _ _ => True) reached (.all fun _ _ => trivial)
  exact ⟨s,path,(accept_idempotent path).1 "1" "key-1"⟩

end System
end AetherRelay
