import AetherRelay.Api.Dlq
import AetherRelay.Api.Management
import AetherRelay.Core.Idempotency
import AetherRelay.Worker.Runner

namespace AetherRelay

structure Replayed (before after : Db) (letter : DeadLetter) : Prop where
  endpoints : after.endpoints.rows = before.endpoints.rows
  events : after.incomingEvents.rows = before.incomingEvents.rows.map fun row =>
    if row.id = letter.eventId then row.withStatus .received else row
  attempts : after.deliveryAttempts.rows = before.deliveryAttempts.rows.filter fun a => a.eventId ≠ letter.eventId
  letters : after.deadLetterQueue.rows = before.deadLetterQueue.rows.filter fun d => d.id ≠ letter.id

def ReplayAtomic (before after : Db) (dlqId : Uuid) : Prop :=
  after = before ∨ ∃ letter, before.letter dlqId = some letter ∧ Replayed before after letter

def LettersFailed (db : Db) : Prop := ∀ d ∈ db.deadLetterQueue.rows, db.status d.eventId = some .failed

def executed (inputs : List Input) : Nat := (inputs.takeWhile fun inp => inp.fault = none).length

-- The cut falls before the first write or after the last, or the writes before
-- it found nothing to change.
def CutHarmless (db : Db) (dlqId : Uuid) (inputs : List Input) : Prop :=
  ∀ letter, db.letter dlqId = some letter → executed inputs ≤ 1 ∨ 4 ≤ executed inputs ∨
    db.status letter.eventId = some .received ∧ (executed inputs = 2 ∨ db.attempts letter.eventId = [])

def replayPc (letter : DeadLetter) : Nat → ReplayPc
  | 0 => .selectLetter letter.id
  | 1 => .updateStatus letter.id letter.eventId
  | 2 => .deleteAttempts letter.id letter.eventId
  | 3 => .deleteLetter letter.id letter.eventId
  | _ => .done (.ok letter.eventId)

def replayDb (db : Db) (letter : DeadLetter) : Nat → Db
  | 0 | 1 => db
  | 2 => db.setStatus letter.eventId .received
  | 3 => (db.setStatus letter.eventId .received).deleteAttempts letter.eventId
  | _ => ((db.setStatus letter.eventId .received).deleteAttempts letter.eventId).deleteLetter letter.id

section
variable {db : Db} {letter : DeadLetter} {w next : World} {pc : ReplayPc} {inp : Input} {inputs : List Input}

theorem replaying_live (found : db.letter letter.id = some letter) (small : n < 4) (here : w.db = replayDb db letter n)
    (live : inp.fault = none) :
    ∃ next, replaying (w,replayPc letter n) inp = some (next,replayPc letter (n+1)) ∧
      next.db = replayDb db letter (n+1) := by
  match n,small with
  | 0,_ =>
    have row : w.db.letter letter.id = some letter := here ▸ found
    refine ⟨w,?_,here⟩
    simp [replaying,replayStep,replayPc,ReplayPc.perform,selectLetter,statement,live,row,Except.map]
  | 1,_ =>
    refine ⟨{w with db:=w.db.setStatus letter.eventId .received},?_,by simp [here,replayDb]⟩
    simp [replaying,replayStep,replayPc,ReplayPc.perform,statement,live,Except.map]
  | 2,_ =>
    refine ⟨{w with db:=w.db.deleteAttempts letter.eventId},?_,by simp [here,replayDb]⟩
    simp [replaying,replayStep,replayPc,ReplayPc.perform,statement,live,Except.map]
  | 3,_ =>
    refine ⟨({w with db:=w.db.deleteLetter letter.id} : World).log (.replayed letter.eventId),?_,
      by simp [here,replayDb,World.log]⟩
    simp [replaying,replayStep,replayPc,ReplayPc.perform,statement,live,Except.map]

theorem replaying_struck (struck : inp.fault ≠ none) (moved : replaying (w,pc) inp = some (next,after)) :
    next = w ∧ ∃ e, after = .done (.error e) := by
  cases replayStep_sound moved with
  | failed e cause => exact ⟨rfl,e,rfl⟩
  | found live row => exact absurd live struck
  | requeued live => exact absurd live struck
  | cleared live => exact absurd live struck
  | removed live => exact absurd live struck

theorem replaying_done (reached : Transition.exec replaying (w,.done result) inputs = some (next,after)) :
    inputs = [] ∧ next = w := by
  cases inputs with
  | nil => cases Option.some.inj reached; exact ⟨rfl,rfl⟩
  | cons inp rest => cases reached

-- By induction on the inputs: each one that is live carries out one statement.
theorem replaying_db (found : db.letter letter.id = some letter) (small : n ≤ 4) (here : w.db = replayDb db letter n)
    (reached : Transition.exec replaying (w,replayPc letter n) inputs = some (next,after)) :
    n + executed inputs ≤ 4 ∧ next.db = replayDb db letter (n + executed inputs) := by
  induction inputs generalizing n w with
  | nil =>
    cases Option.some.inj reached
    exact ⟨small,here⟩
  | cons inp rest ih =>
    by_cases finished : n = 4
    · subst finished
      cases reached
    obtain ⟨⟨between,place⟩,moved,further⟩ := Option.bind_eq_some_iff.mp reached
    cases fault : inp.fault with
    | some e =>
      have none : executed (inp :: rest) = 0 := by simp [executed,fault]
      obtain ⟨rfl,e',rfl⟩ := replaying_struck (by simp [fault]) moved
      obtain ⟨_,rfl⟩ := replaying_done further
      rw [none]
      exact ⟨small,here⟩
    | none =>
      have one : executed (inp :: rest) = executed rest + 1 := by simp [executed,fault]
      obtain ⟨between',moved',here'⟩ := replaying_live found (by omega) here fault
      cases moved.symm.trans moved'
      have later := ih (n:=n+1) (by omega) here' further
      rw [one]
      rwa [Nat.add_right_comm] at later

theorem replaying_absent (missing : w.db.letter dlqId = none)
    (reached : Transition.exec replaying (w,.selectLetter dlqId) inputs = some (next,after)) : next = w := by
  cases inputs with
  | nil => cases Option.some.inj reached; rfl
  | cons inp rest =>
    obtain ⟨⟨between,place⟩,moved,further⟩ := Option.bind_eq_some_iff.mp reached
    cases replayStep_sound moved with
    | found live row => rw [missing] at row; cases row
    | failed e cause => exact (replaying_done further).2

theorem replayDb_whole : Replayed db (replayDb db letter 4) letter := ⟨rfl,rfl,rfl,rfl⟩

theorem not_replayed (found : db.letter letter.id = some letter) (kept : cut.deadLetterQueue = db.deadLetterQueue) :
    ¬Replayed db cut letter := by
  intro whole
  have inside : letter ∈ cut.deadLetterQueue.rows := by
    rw [kept]
    exact Table.lookup_mem found
  rw [whole.letters] at inside
  simpa using (List.mem_filter.mp inside).2

theorem setStatus_eq_self (parent : db.event eventId ≠ none) :
    db.setStatus eventId .received = db ↔ db.status eventId = some .received := by
  constructor
  · intro same
    have written := Db.status_setStatus db eventId eventId .received
    rw [same,if_pos rfl] at written
    rw [written]
    cases row : db.event eventId with
    | none => exact absurd row parent
    | some e => simp [Db.status,row]
  · intro already
    exact Db.setStatus_same already

theorem deleteAttempts_eq_self : db.deleteAttempts eventId = db ↔ db.attempts eventId = [] := by
  have rows : (db.deleteAttempts eventId).deliveryAttempts.rows = db.deliveryAttempts.rows ↔
      db.attempts eventId = [] := by
    simp [Db.deleteAttempts,Table.retain,Db.attempts]
  rw [← rows]
  constructor
  · intro same
    rw [same]
  · intro same
    exact Db.ext rfl rfl (Table.ext same) rfl

theorem replayDb_failed (found : db.letter letter.id = some letter) (failed : LettersFailed db) :
    LettersFailed (replayDb db letter 4) := by
  intro d present
  obtain ⟨old,others⟩ := Table.mem_retain.mp present
  have apart : d.eventId ≠ letter.eventId := by
    intro same
    have one := db.letterUnique d old letter (Table.lookup_mem found) same
    simp [one] at others
  have kept : (replayDb db letter 4).status d.eventId = db.status d.eventId := by
    change (db.setStatus letter.eventId .received).status d.eventId = _
    rw [Db.status_setStatus,if_neg apart]
  rw [kept]
  exact failed d old

-- Cut by cut: two of the five are neither the state before nor the one after.
theorem replayDb_atomic (found : db.letter letter.id = some letter) (small : n ≤ 4) :
    (ReplayAtomic db (replayDb db letter n) letter.id ∧ (LettersFailed db → LettersFailed (replayDb db letter n))) ↔
      n ≤ 1 ∨ 4 ≤ n ∨ db.status letter.eventId = some .received ∧ (n = 2 ∨ db.attempts letter.eventId = []) := by
  have parent : db.event letter.eventId ≠ none := by
    intro orphan
    have known := db.letterParent letter (Table.lookup_mem found)
    rw [show db.incomingEvents.lookup letter.eventId = none from orphan] at known
    cases known
  have unchanged : ∀ {cut : Db}, cut = db →
      ReplayAtomic db cut letter.id ∧ (LettersFailed db → LettersFailed cut) := by
    intro cut same
    subst same
    exact ⟨.inl rfl,fun failed => failed⟩
  have only : ∀ cut : Db, cut.deadLetterQueue = db.deadLetterQueue → ReplayAtomic db cut letter.id → cut = db := by
    intro cut kept atomic
    rcases atomic with same | ⟨other,found',whole⟩
    · exact same
    · cases found.symm.trans found'
      exact absurd whole (not_replayed found kept)
  match n,small with
  | 0,_ => exact ⟨fun _ => .inl (by decide),fun _ => unchanged rfl⟩
  | 1,_ => exact ⟨fun _ => .inl (by decide),fun _ => unchanged rfl⟩
  | 2,_ =>
    constructor
    · intro whole
      exact .inr (.inr ⟨(setStatus_eq_self parent).mp (only (replayDb db letter 2) rfl whole.1),.inl rfl⟩)
    · intro condition
      rcases condition with few | many | ⟨already,_⟩
      · omega
      · omega
      · exact unchanged (Db.setStatus_same already)
  | 3,_ =>
    constructor
    · intro whole
      have same := only (replayDb db letter 3) rfl whole.1
      have eventRows : (replayDb db letter 3).incomingEvents = db.incomingEvents := by rw [same]
      have attemptRows : (replayDb db letter 3).deliveryAttempts = db.deliveryAttempts := by rw [same]
      have events : db.setStatus letter.eventId .received = db := Db.ext rfl eventRows rfl rfl
      have attempts : db.attempts letter.eventId = [] := by
        rw [← deleteAttempts_eq_self]
        exact Db.ext rfl rfl attemptRows rfl
      exact .inr (.inr ⟨(setStatus_eq_self parent).mp events,.inr attempts⟩)
    · intro condition
      rcases condition with few | many | ⟨already,either⟩
      · omega
      · omega
      · rcases either with wrong | none
        · omega
        · apply unchanged
          change (db.setStatus letter.eventId .received).deleteAttempts letter.eventId = db
          rw [Db.setStatus_same already,deleteAttempts_eq_self.mpr none]
  | 4,_ =>
    exact ⟨fun _ => .inr (.inl (by decide)),fun _ => ⟨.inr ⟨letter,found,replayDb_whole⟩,replayDb_failed found⟩⟩

end

-- The handler cut short anywhere: by the failure of a statement, or by the end
-- of the process after the statements the inputs stand for.
theorem replay_atomic_exact (cfg : AppConfig) (headers : HeaderMap) (dlqId : Uuid) {w next : World} {pc : ReplayPc}
    {inputs : List Input}
    (ran : Transition.exec replaying (w,startReplay cfg headers dlqId) inputs = some (next,pc)) :
    (ReplayAtomic w.db next.db dlqId ∧ (LettersFailed w.db → LettersFailed next.db)) ↔
      CutHarmless w.db dlqId inputs := by
  have untouched : next = w → (ReplayAtomic w.db next.db dlqId ∧ (LettersFailed w.db → LettersFailed next.db)) := by
    intro same
    rw [same]
    exact ⟨.inl rfl,fun failed => failed⟩
  cases key : verifyApiKey headers cfg.auth.apiKeys with
  | error e =>
    simp only [startReplay,key] at ran
    obtain ⟨rfl,same⟩ := replaying_done ran
    exact ⟨fun _ _ _ => .inl (Nat.zero_le 1),fun _ => untouched same⟩
  | ok u =>
    simp only [startReplay,key] at ran
    cases found : w.db.letter dlqId with
    | none =>
      exact ⟨fun _ letter row => (by rw [found] at row; cases row),fun _ => untouched (replaying_absent found ran)⟩
    | some letter =>
      obtain rfl : letter.id = dlqId := Table.lookup_key found
      obtain ⟨small,here⟩ := replaying_db (n:=0) found (Nat.zero_le 4) rfl ran
      rw [Nat.zero_add] at small here
      rw [here,replayDb_atomic found small]
      constructor
      · intro condition other row
        cases found.symm.trans row
        exact condition
      · intro harmless
        exact harmless letter found

def calmInput : Input := ⟨none,0,0,.error "timeout",0⟩

def parked : World :=
  (runDispatchOnce .tabletop {DispatchLoopConfig.fromAppConfig .default with maxAttempts:=1} (fun _ => calmInput)
    (acceptEvent .tabletop calmInput (createEndpoint .tabletop .default calmInput ⟨.empty,fun _ => none,0,[]⟩ []
      ⟨"orders","generic","secret","https://hooks.example.com/in"⟩).1 "1" "key-1" [] "{}").1).1

def struckInput : Input := {calmInput with fault:=some (.failure "disk I/O error")}

theorem replay_atomic_exact_completed :
    ∃ next pc, Transition.exec replaying (parked,startReplay .default [] "1111") (List.replicate 4 calmInput) =
        some (next,pc) ∧
      ReplayAtomic parked.db next.db "1111" ∧ (LettersFailed parked.db → LettersFailed next.db) := by
  have ran : (Transition.exec replaying (parked,startReplay .default [] "1111")
      (List.replicate 4 calmInput)).isSome = true := by decide +kernel
  obtain ⟨⟨next,pc⟩,reached⟩ := Option.isSome_iff_exists.mp ran
  exact ⟨next,pc,reached,(replay_atomic_exact .default [] "1111" reached).mpr fun _ _ => .inr (.inl (by decide))⟩

-- The first DELETE fails: the event waits to be delivered while its letter can
-- still be replayed.
theorem replay_cut_after_update :
    ∃ next pc, Transition.exec replaying (parked,startReplay .default [] "1111") [calmInput,calmInput,struckInput] =
        some (next,pc) ∧
      LettersFailed parked.db ∧ ¬ReplayAtomic parked.db next.db "1111" ∧ ¬LettersFailed next.db := by
  have ran : (Transition.exec replaying (parked,startReplay .default [] "1111")
      [calmInput,calmInput,struckInput]).map (fun s => (s.1.db.status "11",(s.1.db.letter "1111").map (·.eventId))) =
      some (some .received,some "11") := by decide +kernel
  have before : parked.db.status "11" = some .failed := by decide +kernel
  have failed : LettersFailed parked.db := by
    unfold LettersFailed
    decide +kernel
  obtain ⟨⟨next,pc⟩,reached,seen⟩ := Option.map_eq_some_iff.mp ran
  obtain ⟨waiting,kept⟩ := Prod.mk.inj seen
  obtain ⟨letter,found,owner⟩ := Option.map_eq_some_iff.mp kept
  refine ⟨next,pc,reached,failed,?_,?_⟩
  · intro atomic
    rcases atomic with same | ⟨other,was,whole⟩
    · rw [same,before] at waiting
      cases waiting
    · have inside := Table.lookup_mem found
      rw [whole.letters] at inside
      have sameId : letter.id = other.id := (Table.lookup_key found).trans (Table.lookup_key was).symm
      simp [sameId] at inside
  · intro all
    have parkedStill := all letter (Table.lookup_mem found)
    rw [owner,waiting] at parkedStill
    cases parkedStill

end AetherRelay
