import AetherRelay.Lib.Transition
import AetherRelay.Db.Store

namespace AetherRelay.Migrations

structure SchemaObject where
  name : String
  onTable : Option String
  definition : String
deriving DecidableEq, Repr

def schemaVersion : Int := 1

-- SCHEMA_SQL, statement by statement.
def schemaSql : List SchemaObject :=
  [⟨"endpoints",none,
      "id TEXT PRIMARY KEY, name TEXT NOT NULL, provider TEXT NOT NULL, secret TEXT NOT NULL, target_url TEXT NOT NULL, created_at INTEGER NOT NULL"⟩,
   ⟨"incoming_events",none,
      "id TEXT PRIMARY KEY, endpoint_id TEXT NOT NULL, idempotency_key TEXT NOT NULL, raw_body BLOB NOT NULL, headers TEXT NOT NULL, status TEXT NOT NULL, created_at INTEGER NOT NULL, UNIQUE(endpoint_id, idempotency_key), FOREIGN KEY(endpoint_id) REFERENCES endpoints(id) ON DELETE CASCADE"⟩,
   ⟨"idx_events_status",some "incoming_events","status"⟩,
   ⟨"idx_events_endpoint",some "incoming_events","endpoint_id"⟩,
   ⟨"delivery_attempts",none,
      "id TEXT PRIMARY KEY, event_id TEXT NOT NULL, attempt_number INTEGER NOT NULL, response_status INTEGER, response_body TEXT, error_message TEXT, created_at INTEGER NOT NULL, FOREIGN KEY(event_id) REFERENCES incoming_events(id) ON DELETE CASCADE"⟩,
   ⟨"dead_letter_queue",none,
      "id TEXT PRIMARY KEY, event_id TEXT NOT NULL UNIQUE, endpoint_id TEXT NOT NULL, error_reason TEXT NOT NULL, last_attempt_status INTEGER, created_at INTEGER NOT NULL, FOREIGN KEY(event_id) REFERENCES incoming_events(id) ON DELETE CASCADE"⟩]

structure DbFile (ρ : Type*) where
  userVersion : Int
  objects : List SchemaObject
  rows : String → List ρ

namespace DbFile
variable {ρ : Type*}

def hasTable (f : DbFile ρ) (name : String) : Bool := f.objects.any fun o => o.onTable.isNone && o.name = name

-- CREATE TABLE IF NOT EXISTS and CREATE INDEX IF NOT EXISTS. The two kinds share
-- one name space, and a name in use is not looked at any further.
def create (f : DbFile ρ) (obj : SchemaObject) : Except SqlError (DbFile ρ) :=
  match f.objects.find? (fun o => o.name = obj.name) with
  | some other =>
    if other.onTable.isSome = obj.onTable.isSome then .ok f
    else
      let kind := if other.onTable.isSome then "an index" else "a table"
      .error (.failure s!"there is already {kind} named {obj.name}")
  | none =>
    match obj.onTable with
    | none => .ok {f with objects:=f.objects ++ [obj]}
    | some table =>
      if f.hasTable table then .ok {f with objects:=f.objects ++ [obj]}
      else .error (.failure s!"no such table: main.{table}")

def Has (f : DbFile ρ) (obj : SchemaObject) : Prop :=
  ∃ o ∈ f.objects, o.name = obj.name ∧ o.onTable.isSome = obj.onTable.isSome

def Complete (f : DbFile ρ) : Prop := ∀ obj ∈ schemaSql, f.Has obj

def Clear (f : DbFile ρ) : Prop :=
  ∀ obj ∈ schemaSql, ∀ o ∈ f.objects, o.name = obj.name → o.onTable.isSome = obj.onTable.isSome

structure Grows (f g : DbFile ρ) : Prop where
  kept : f.objects <+: g.objects
  only : ∀ o ∈ g.objects, o ∈ f.objects ∨ o ∈ schemaSql

section
variable {f g h : DbFile ρ} {obj : SchemaObject}

theorem Grows.refl (f : DbFile ρ) : Grows f f := ⟨List.prefix_rfl,fun _ member => .inl member⟩

theorem Grows.trans (one : Grows f g) (two : Grows g h) : Grows f h := by
  refine ⟨one.kept.trans two.kept,?_⟩
  intro o member
  rcases two.only o member with earlier | new
  · exact one.only o earlier
  · exact .inr new

theorem Has.grows (has : f.Has obj) (grows : Grows f g) : g.Has obj := by
  obtain ⟨o,member,named⟩ := has
  exact ⟨o,grows.kept.subset member,named⟩

theorem create_ok (inside : obj ∈ schemaSql) (made : f.create obj = .ok g) :
    Grows f g ∧ g.Has obj ∧ g.userVersion = f.userVersion ∧ g.rows = f.rows := by
  have added : Grows f {f with objects:=f.objects ++ [obj]} := by
    refine ⟨List.prefix_append ..,?_⟩
    intro o member
    rcases List.mem_append.mp member with old | new
    · exact .inl old
    · exact .inr (List.mem_singleton.mp new ▸ inside)
  have has : Has {f with objects:=f.objects ++ [obj]} obj :=
    ⟨obj,List.mem_append_right _ (List.mem_singleton_self obj),rfl,rfl⟩
  unfold create at made
  split at made
  · rename_i other found
    split at made
    · rename_i kind
      cases made
      have named : other.name = obj.name := by simpa using List.find?_some found
      exact ⟨.refl f,⟨other,List.mem_of_find?_eq_some found,named,kind⟩,rfl,rfl⟩
    · cases made
  · split at made
    · cases made
      exact ⟨added,has,rfl,rfl⟩
    · split at made
      · cases made
        exact ⟨added,has,rfl,rfl⟩
      · cases made

theorem create_clear (inside : obj ∈ schemaSql) (clear : f.Clear)
    (table : ∀ name, obj.onTable = some name → f.hasTable name = true) : ∃ g, f.create obj = .ok g := by
  unfold create
  split
  · rename_i other found
    have named : other.name = obj.name := by simpa using List.find?_some found
    rw [if_pos (clear obj inside other (List.mem_of_find?_eq_some found) named)]
    exact ⟨f,rfl⟩
  · split
    · exact ⟨_,rfl⟩
    · rename_i name on
      rw [if_pos (table name on)]
      exact ⟨_,rfl⟩

theorem schemaSql_distinct : ∀ one ∈ schemaSql, ∀ two ∈ schemaSql, one.name = two.name → one = two := by
  have names : (schemaSql.map (·.name)).Nodup := by decide
  exact fun one first two second same => List.inj_on_of_nodup_map names first second same

theorem Clear.grows (clear : f.Clear) (grows : Grows f g) : g.Clear := by
  intro obj inside o member named
  rcases grows.only o member with old | new
  · exact clear obj inside o old named
  · rw [schemaSql_distinct o new obj inside named]

theorem Has.table (has : f.Has obj) (table : obj.onTable = none) : f.hasTable obj.name = true := by
  obtain ⟨o,member,named,kind⟩ := has
  simp only [hasTable,List.any_eq_true]
  refine ⟨o,member,?_⟩
  rw [table] at kind
  simpa [named] using kind

end
end DbFile

-- Where a starting process is: the next statement of run_migrations it executes.
-- `failed` is what create_pool hands to main, which ends the process.
inductive StartPc where
  | down
  | readVersion
  | create (obj : SchemaObject) (rest : List SchemaObject)
  | setVersion
  | ready
  | failed (e : SqlError)
deriving DecidableEq

def StartPc.batch : List SchemaObject → StartPc
  | [] => .setVersion
  | obj :: rest => .create obj rest

-- One statement. Each commits by itself, so a file may be left between any two.
def runMigrationsStep (fault : Option SqlError) (f : DbFile ρ) : StartPc → Option (DbFile ρ × StartPc)
  | .readVersion => some (f,match fault with
    | some e => .failed e
    | none => if schemaVersion ≤ f.userVersion then .ready else .batch schemaSql)
  | .create obj rest => some <| match fault with
    | some e => (f,.failed e)
    | none => match f.create obj with
      | .error e => (f,.failed e)
      | .ok next => (next,.batch rest)
  | .setVersion => some <| match fault with
    | some e => (f,.failed e)
    | none => ({f with userVersion:=schemaVersion},.ready)
  | .down | .ready | .failed _ => none

-- The file and the process that starts on it. Nothing but a process whose start
-- has succeeded writes rows.
structure Startup (ρ : Type*) where
  file : DbFile ρ
  pc : StartPc

inductive StartAction (ρ : Type*) where
  | start
  | statement (fault : Option SqlError)
  | write (table : String) (edit : List ρ → List ρ)
  | kill

def startStep (s : Startup ρ) : StartAction ρ → Option (Startup ρ)
  | .start => if s.pc = .down then some {s with pc:=.readVersion} else none
  | .statement fault => (runMigrationsStep fault s.file s.pc).map fun (file,pc) => ⟨file,pc⟩
  | .write table edit =>
    if s.pc = .ready ∧ s.file.hasTable table = true then
      some {s with file := {s.file with rows:=Function.update s.file.rows table (edit (s.file.rows table))}}
    else none
  | .kill => if s.pc = .down then none else some {s with pc:=.down}

def written (rows : String → List ρ) (a : StartAction ρ) : String → List ρ :=
  match a with
  | .write table edit => Function.update rows table (edit (rows table))
  | _ => rows

structure Underway (s : Startup ρ) : Prop where
  stamped : schemaVersion ≤ s.file.userVersion → s.file.Complete
  creating : ∀ obj rest, s.pc = .create obj rest →
    (obj ∈ schemaSql ∧ rest ⊆ schemaSql) ∧ ∀ o ∈ schemaSql, o ∈ obj :: rest ∨ s.file.Has o
  created : s.pc = .setVersion → s.file.Complete
  served : s.pc = .ready → schemaVersion ≤ s.file.userVersion

section
variable {s t : Startup ρ} {a : StartAction ρ}

theorem batch_underway {f : DbFile ρ} {rest : List SchemaObject} (stamped : schemaVersion ≤ f.userVersion → f.Complete)
    (inside : rest ⊆ schemaSql) (others : ∀ o ∈ schemaSql, o ∈ rest ∨ f.Has o) : Underway ⟨f,.batch rest⟩ := by
  cases rest with
  | nil =>
    refine ⟨stamped,fun obj rest at' => (by cases at'),fun _ o member => ?_,fun at' => (by cases at')⟩
    rcases others o member with none' | has
    · cases none'
    · exact has
  | cons obj rest =>
    refine ⟨stamped,?_,fun at' => (by cases at'),fun at' => (by cases at')⟩
    intro obj' rest' at'
    cases at'
    exact ⟨⟨inside List.mem_cons_self,fun o member => inside (List.mem_cons_of_mem _ member)⟩,others⟩

theorem idle_underway {f : DbFile ρ} (stamped : schemaVersion ≤ f.userVersion → f.Complete)
    (idle : ∀ obj rest, pc ≠ .create obj rest) (other : pc ≠ .setVersion) (served : pc = .ready → schemaVersion ≤ f.userVersion) :
    Underway ⟨f,pc⟩ :=
  ⟨stamped,fun obj rest at' => absurd at' (idle obj rest),fun at' => absurd at' other,served⟩

theorem statement_underway (old : Underway s) (moved : runMigrationsStep fault s.file s.pc = some (file,pc)) :
    Underway ⟨file,pc⟩ ∧ DbFile.Grows s.file file ∧ file.rows = s.file.rows := by
  obtain ⟨f,at'⟩ := s
  have stuck : ∀ e, Underway ⟨f,.failed e⟩ ∧ DbFile.Grows f f ∧ f.rows = f.rows :=
    fun e => ⟨idle_underway old.stamped (by simp) (by simp) (by simp),.refl f,rfl⟩
  cases at' with
  | down => cases moved
  | ready => cases moved
  | failed e => cases moved
  | readVersion =>
    simp only [runMigrationsStep,Option.some.injEq,Prod.mk.injEq] at moved
    obtain ⟨rfl,rfl⟩ := moved
    cases fault with
    | some e => exact stuck e
    | none =>
      refine ⟨?_,.refl f,rfl⟩
      dsimp only
      split
      · rename_i new
        exact idle_underway old.stamped (by simp) (by simp) fun _ => new
      · exact batch_underway old.stamped (List.Subset.refl _) fun o member => .inl member
  | setVersion =>
    have complete := old.created rfl
    cases fault with
    | some e =>
      simp only [runMigrationsStep,Option.some.injEq,Prod.mk.injEq] at moved
      obtain ⟨rfl,rfl⟩ := moved
      exact stuck e
    | none =>
      simp only [runMigrationsStep,Option.some.injEq,Prod.mk.injEq] at moved
      obtain ⟨rfl,rfl⟩ := moved
      exact ⟨idle_underway (fun _ => complete) (by simp) (by simp) fun _ => Int.le_refl _,⟨List.prefix_rfl,fun _ member => .inl member⟩,rfl⟩
  | create obj rest =>
    obtain ⟨⟨inside,others⟩,left⟩ := old.creating obj rest rfl
    cases fault with
    | some e =>
      simp only [runMigrationsStep,Option.some.injEq,Prod.mk.injEq] at moved
      obtain ⟨rfl,rfl⟩ := moved
      exact stuck e
    | none =>
      simp only [runMigrationsStep,Option.some.injEq] at moved
      cases made : f.create obj with
      | error e =>
        rw [made] at moved
        cases moved
        exact stuck e
      | ok next =>
        rw [made] at moved
        cases moved
        obtain ⟨grows,has,version,rows⟩ := DbFile.create_ok inside made
        refine ⟨batch_underway ?_ others ?_,grows,rows⟩
        · rw [version]
          exact fun new o member => (old.stamped new o member).grows grows
        · intro o member
          rcases left o member with now | had
          · rcases List.mem_cons.mp now with rfl | later
            · exact .inr has
            · exact .inl later
          · exact .inr (had.grows grows)

theorem startStep_underway (old : Underway s) (moved : startStep s a = some t) :
    Underway t ∧ DbFile.Grows s.file t.file ∧ t.file.rows = written s.file.rows a := by
  cases a with
  | start =>
    simp only [startStep] at moved
    split at moved
    · cases moved
      exact ⟨idle_underway old.stamped (by simp) (by simp) (by simp),.refl _,rfl⟩
    · cases moved
  | statement fault =>
    obtain ⟨⟨file,pc⟩,inner,rfl⟩ := Option.map_eq_some_iff.mp moved
    exact statement_underway old inner
  | write table edit =>
    simp only [startStep] at moved
    split at moved
    · rename_i serving
      cases moved
      refine ⟨⟨old.stamped,?_,old.created,old.served⟩,⟨List.prefix_rfl,fun _ member => .inl member⟩,rfl⟩
      intro obj rest at'
      rw [serving.1] at at'
      cases at'
    · cases moved
  | kill =>
    simp only [startStep] at moved
    split at moved
    · cases moved
    · cases moved
      exact ⟨idle_underway old.stamped (by simp) (by simp) (by simp),.refl _,rfl⟩

theorem starts_underway {f : DbFile ρ} (sound : schemaVersion ≤ f.userVersion → f.Complete)
    (reached : Transition.exec startStep ⟨f,.down⟩ actions = some t) :
    Underway t ∧ DbFile.Grows f t.file ∧ t.file.rows = actions.foldl written f.rows := by
  have path := Transition.Run.check (fun _ _ => True) reached (fun _ _ _ _ _ _ => trivial)
  clear reached
  induction path with
  | nil => exact ⟨idle_underway sound (by simp) (by simp) (by simp),.refl f,rfl⟩
  | snoc prior allowed moved ih =>
    obtain ⟨underway,grows,rows⟩ := ih
    obtain ⟨next,more,write⟩ := startStep_underway underway moved
    refine ⟨next,grows.trans more,?_⟩
    rw [write,rows,List.foldl_append]
    rfl

-- Wherever earlier starts were cut short and whatever failed in them: a process that
-- serves has the whole schema under it, a file that calls itself migrated is, nothing
-- that stood in the file is touched, and no row changes but by a process that serves.
theorem serving_on_whole_schema {f : DbFile ρ} (sound : schemaVersion ≤ f.userVersion → f.Complete)
    (reached : Transition.exec startStep ⟨f,.down⟩ actions = some t) :
    (t.pc = .ready → t.file.Complete ∧ schemaVersion ≤ t.file.userVersion) ∧
    (schemaVersion ≤ t.file.userVersion → t.file.Complete) ∧ DbFile.Grows f t.file ∧
    t.file.rows = actions.foldl written f.rows := by
  obtain ⟨underway,grows,rows⟩ := starts_underway sound reached
  exact ⟨fun ready => ⟨underway.stamped (underway.served ready),underway.served ready⟩,underway.stamped,grows,rows⟩

def StartAction.writes : StartAction ρ → Bool
  | .write _ _ => true
  | _ => false

theorem written_quiet {actions : List (StartAction ρ)} (quiet : ∀ a ∈ actions, a.writes = false) (rows : String → List ρ) :
    actions.foldl written rows = rows := by
  induction actions with
  | nil => rfl
  | cons a rest ih =>
    have same : written rows a = rows := by
      cases a with
      | write table edit => cases quiet _ List.mem_cons_self
      | _ => rfl
    rw [List.foldl_cons,same]
    exact ih fun b member => quiet b (List.mem_cons_of_mem _ member)

def declared (tables : List String) : List SchemaObject → Bool
  | [] => true
  | obj :: rest => obj.onTable.all (fun table => table ∈ tables) &&
      declared (if obj.onTable.isNone then obj.name :: tables else tables) rest

theorem schemaSql_declared : declared [] schemaSql = true := by decide

theorem batch_runs {f : DbFile ρ} {tables : List String} (inside : rest ⊆ schemaSql) (clear : f.Clear)
    (ordered : declared tables rest = true) (there : ∀ name ∈ tables, f.hasTable name = true) :
    ∃ g, Transition.exec startStep ⟨f,.batch rest⟩ (List.replicate (rest.length+1) (.statement none)) = some ⟨g,.ready⟩ ∧
      g.rows = f.rows := by
  induction rest generalizing f tables with
  | nil => exact ⟨_,rfl,rfl⟩
  | cons obj rest ih =>
    simp only [declared,Bool.and_eq_true,Option.all_eq_true_iff_get,decide_eq_true_eq] at ordered
    obtain ⟨table,later⟩ := ordered
    have first : obj ∈ schemaSql := inside List.mem_cons_self
    obtain ⟨next,made⟩ := f.create_clear first clear (by
      intro name on
      have known := table (by rw [on]; rfl)
      simp only [on,Option.get_some] at known
      exact there name known)
    obtain ⟨grows,has,_,rows⟩ := DbFile.create_ok first made
    have still : ∀ name ∈ (if obj.onTable.isNone then obj.name :: tables else tables), next.hasTable name = true := by
      intro name member
      have old : ∀ name ∈ tables, next.hasTable name = true := by
        intro name member
        have had := there name member
        simp only [DbFile.hasTable,List.any_eq_true] at had ⊢
        obtain ⟨o,inside,named⟩ := had
        exact ⟨o,grows.kept.subset inside,named⟩
      split at member
      · rename_i table
        rcases List.mem_cons.mp member with rfl | earlier
        · exact has.table (Option.isNone_iff_eq_none.mp table)
        · exact old name earlier
      · exact old name member
    obtain ⟨g,ran,same⟩ := ih (fun o member => inside (List.mem_cons_of_mem _ member)) (clear.grows grows) later still
    refine ⟨g,?_,same.trans rows⟩
    have moved : startStep ⟨f,.batch (obj :: rest)⟩ (.statement none) = some ⟨next,.batch rest⟩ := by
      simp only [startStep,StartPc.batch,runMigrationsStep,made,Option.map_some]
    rw [List.length_cons,List.replicate_succ,Transition.exec,moved]
    exact ran

theorem next_start_succeeds {f : DbFile ρ} (clear : f.Clear) (sound : schemaVersion ≤ f.userVersion → f.Complete)
    (reached : Transition.exec startStep ⟨f,.down⟩ actions = some t) (down : t.pc = .down) :
    ∃ n u, n ≤ schemaSql.length + 2 ∧
      Transition.exec startStep t (.start :: List.replicate n (.statement none)) = some u ∧ u.pc = .ready ∧
      u.file.Complete ∧ u.file.rows = t.file.rows := by
  have path := Transition.Run.check (fun _ _ => True) reached (fun _ _ _ _ _ _ => trivial)
  obtain ⟨file,pc⟩ := t
  cases down
  obtain ⟨underway,clear⟩ := path.preserves (fun u : Startup ρ => Underway u ∧ u.file.Clear)
    (by
      intro u a v old _ moved
      obtain ⟨underway,grows,_⟩ := startStep_underway old.1 moved
      exact ⟨underway,old.2.grows grows⟩)
    ⟨idle_underway sound (by simp) (by simp) (by simp),clear⟩
  by_cases new : schemaVersion ≤ file.userVersion
  · refine ⟨1,⟨file,.ready⟩,by decide,?_,rfl,underway.stamped new,rfl⟩
    simp [Transition.exec,startStep,runMigrationsStep,new]
  · obtain ⟨g,ran,rows⟩ := batch_runs (List.Subset.refl schemaSql) clear schemaSql_declared (by simp)
    have whole : Transition.exec startStep ⟨file,.down⟩ (.start :: List.replicate (schemaSql.length+2) (.statement none)) =
        some ⟨g,.ready⟩ := by
      have read : startStep (ρ := ρ) ⟨file,.readVersion⟩ (.statement none) = some ⟨file,.batch schemaSql⟩ := by
        simp [startStep,runMigrationsStep,new]
      have begun : startStep (ρ := ρ) ⟨file,.down⟩ .start = some ⟨file,.readVersion⟩ := rfl
      rw [Transition.exec,begun,Option.bind_some,List.replicate_succ,Transition.exec,read]
      exact ran
    have longer := Transition.Run.check (fun _ _ => True) whole (fun _ _ _ _ _ _ => trivial)
    have last := longer.preserves Underway (fun u a v old _ moved => (startStep_underway old moved).1) underway
    exact ⟨_,_,Nat.le_refl _,whole,rfl,last.stamped (last.served rfl),rows⟩

end

def newFile : DbFile Nat := ⟨0,[],fun _ => []⟩

-- Killed after three of its statements, then failed, then through; a row is written.
def interruptedStarts : List (StartAction Nat) :=
  .start :: List.replicate 4 (.statement none) ++ [.kill,.start,.statement none,.statement (some (.failure "disk I/O error")),.kill]

theorem serving_on_whole_schema_interrupted :
    ∃ t, Transition.exec startStep ⟨newFile,.down⟩
        (interruptedStarts ++ .start :: List.replicate 8 (.statement none) ++ [.write "endpoints" (7 :: ·)]) = some t ∧
      t.pc = .ready ∧ t.file.Complete ∧ t.file.rows "endpoints" = [7] := by
  have ran : (Transition.exec startStep ⟨newFile,.down⟩
      (interruptedStarts ++ .start :: List.replicate 8 (.statement none) ++ [.write "endpoints" (7 :: ·)])).map (·.pc) =
      some .ready := by decide +kernel
  obtain ⟨t,reached,ready⟩ := Option.map_eq_some_iff.mp ran
  have unstamped : schemaVersion ≤ newFile.userVersion → newFile.Complete := fun stamped => absurd stamped (by decide)
  obtain ⟨whole,_,_,rows⟩ := serving_on_whole_schema unstamped reached
  exact ⟨t,reached,ready,(whole ready).1,by rw [rows]; rfl⟩

theorem next_start_succeeds_interrupted :
    ∃ s n t, Transition.exec startStep ⟨newFile,.down⟩ interruptedStarts = some s ∧
      Transition.exec startStep s (.start :: List.replicate n (.statement none)) = some t ∧ t.pc = .ready ∧ t.file.Complete := by
  have ran : (Transition.exec startStep ⟨newFile,.down⟩ interruptedStarts).map (·.pc) = some .down := by decide +kernel
  obtain ⟨s,reached,down⟩ := Option.map_eq_some_iff.mp ran
  obtain ⟨n,t,_,further,ready,complete,_⟩ := next_start_succeeds (f := newFile)
    (fun _ _ _ none' => (by cases none')) (fun stamped => absurd stamped (by decide)) reached down
  exact ⟨s,n,t,reached,further,ready,complete⟩

inductive Row where
  | endpoint (row : EndpointRecord)
  | event (row : IncomingEventRecord)
  | attempt (row : DeliveryAttempt)
  | letter (row : DeadLetter)

def fileRows (db : Db) (table : String) : List Row :=
  if table = "endpoints" then db.endpoints.rows.map .endpoint
  else if table = "incoming_events" then db.incomingEvents.rows.map .event
  else if table = "delivery_attempts" then db.deliveryAttempts.rows.map .attempt
  else if table = "dead_letter_queue" then db.deadLetterQueue.rows.map .letter
  else []

theorem fileRows_injective : Function.Injective fileRows := by
  intro a b same
  have rows : ∀ table, fileRows a table = fileRows b table := congrFun same
  apply Db.ext
  · exact Table.ext ((List.map_injective_iff.mpr fun _ _ => Row.endpoint.inj) (rows "endpoints"))
  · exact Table.ext ((List.map_injective_iff.mpr fun _ _ => Row.event.inj) (rows "incoming_events"))
  · exact Table.ext ((List.map_injective_iff.mpr fun _ _ => Row.attempt.inj) (rows "delivery_attempts"))
  · exact Table.ext ((List.map_injective_iff.mpr fun _ _ => Row.letter.inj) (rows "dead_letter_queue"))

end AetherRelay.Migrations
