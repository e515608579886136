import AetherRelay.Api.Management
import AetherRelay.Api.IngestSteps
import AetherRelay.Crypto.Framing
import AetherRelay.Lib.Transition

namespace AetherRelay

-- Where handle_ingest can stand on one request, whatever the other parties do to
-- the world between its sections.
inductive Handled (x : Externals) (cfg : AppConfig) (req : IngestRequest) : IngestPc → Prop where
  | arrived (w : World) : Handled x cfg req (startIngest cfg w req).2
  | moved (before : Handled x cfg req pc) (moved : ingestStep x inp w pc = some (next,after)) : Handled x cfg req after

def namesRead (headers : HeaderMap) : Provider → List String
  | .gitHub => ["idempotency-key","x-hub-signature-256"]
  | .stripe => ["idempotency-key","stripe-signature"]
  | .midtrans => ["idempotency-key"]
  | .discord => ["idempotency-key","x-signature-ed25519","x-signature-timestamp"]
  | .generic => ["idempotency-key","x-signature"] ++
      (if (headers.get "x-signature").isSome then [] else ["signature"])

def Rereads (x : Externals) (fields : List (String × String)) : Prop :=
  x.parseJson (asBytes (x.renderHeaders fields)) = some (.object (fields.map fun field => (field.1,.string field.2)))

def storedHeader (x : Externals) (column name : String) : Option String :=
  (x.parseJson (asBytes column)).bind fun json => (json.index name).asStr

def SnapshotAgrees (x : Externals) (headers : HeaderMap) (provider : Provider) (column : String) : Prop :=
  ∀ name ∈ namesRead headers provider, storedHeader x column name = headerText headers name

def printable (headers : HeaderMap) (name : String) : List String :=
  headers.filterMap fun header => if header.1 = name then toStr header.2 else none

def Undisputed (headers : HeaderMap) (provider : Provider) : Prop :=
  ∀ name ∈ namesRead headers provider, (printable headers name).getLast? = (printable headers name).head?

instance (headers : HeaderMap) (provider : Provider) : Decidable (Undisputed headers provider) :=
  inferInstanceAs (Decidable (∀ name ∈ _,_))

section snapshot

theorem insertSorted_find (name value : String) (fields : List (String × String)) (k : String) :
    (insertSorted name value fields).find? (fun field => field.1 = k) =
      if name = k then some (name,value) else fields.find? (fun field => field.1 = k) := by
  induction fields with
  | nil => by_cases same : name = k <;> simp [insertSorted,same]
  | cons head rest ih =>
    obtain ⟨n,v⟩ := head
    unfold insertSorted
    split
    · rename_i equal
      subst equal
      by_cases same : name = k <;> simp [same]
    · rename_i other
      split
      · by_cases same : name = k <;> simp [same]
      · by_cases same : name = k
        · have apart : n ≠ k := fun equal => other (same.trans equal.symm)
          rw [List.find?_cons_of_neg (by simpa using apart),ih,if_pos same,if_pos same]
        · rw [if_neg same] at ih ⊢
          by_cases here : n = k <;> simp [here,ih]

theorem headerMap_find (headers : HeaderMap) (name : String) :
    ((headerMap headers).find? (fun field => field.1 = name)).map (·.2) = (printable headers name).getLast? := by
  induction headers using List.reverseRecOn with
  | nil => rfl
  | append_singleton earlier header ih =>
    obtain ⟨n,value⟩ := header
    unfold headerMap at ih ⊢
    unfold printable at ih ⊢
    rw [List.foldl_append,List.filterMap_append,List.foldl_cons,List.foldl_nil]
    cases read : toStr value with
    | none => simpa [read] using ih
    | some text =>
      dsimp only
      rw [insertSorted_find]
      by_cases same : n = name
      · simp [same,read]
      · simpa [same] using ih

theorem storedHeader_last (rereads : Rereads x (headerMap headers)) (name : String) :
    storedHeader x (headersJson x headers) name = (printable headers name).getLast? := by
  rw [storedHeader,headersJson,rereads,← headerMap_find,Option.bind_some,Json.index,List.find?_map]
  simp only [Function.comp_def]
  cases (headerMap headers).find? (fun field => field.1 = name) <;> rfl

theorem get_none (absent : headers.get name = none) : printable headers name = [] := by
  apply List.filterMap_eq_nil_iff.mpr
  intro header inside
  have none := List.find?_eq_none.mp (Option.map_eq_none_iff.mp absent) header inside
  rw [if_neg (by simpa using none)]

theorem printable_head (value : HeaderMap.get headers name = some bytes) (printed : toStr bytes = some text) :
    (printable headers name).head? = some text := by
  induction headers with
  | nil => cases value
  | cons first rest ih =>
    by_cases here : first.1 = name
    · have same : first.2 = bytes := by simpa [HeaderMap.get,here] using value
      simp [printable,here,same,printed]
    · have later : HeaderMap.get rest name = some bytes := by simpa [HeaderMap.get,here] using value
      simpa [printable,here] using ih later

theorem headerText_first (read : HeaderMap.get headers name = none ∨ headerText headers name ≠ none) :
    headerText headers name = (printable headers name).head? := by
  cases value : HeaderMap.get headers name with
  | none =>
    rw [headerText,value,get_none value]
    rfl
  | some bytes =>
    rcases read with absent | read
    · rw [value] at absent
      cases absent
    · obtain ⟨text,printed⟩ := Option.ne_none_iff_exists'.mp read
      have inner : toStr bytes = some text := by simpa [headerText,value] using printed
      rw [printed,printable_head value inner]

end snapshot

theorem verified_reads (verified : verifySignature x provider secret body headers now = .ok ()) :
    ∀ name ∈ namesRead headers provider, name = "idempotency-key" ∨ HeaderMap.get headers name = none ∨
      headerText headers name ≠ none := by
  have present {text name : String} (read : headerText headers name = some text) : headerText headers name ≠ none := by
    rw [read]
    exact Option.some_ne_none _
  intro name member
  cases provider with
  | midtrans => exact .inl (by simpa [namesRead] using member)
  | gitHub =>
    cases read : headerText headers "x-hub-signature-256" with
    | none => simp [verifySignature,read] at verified
    | some sig =>
      simp only [namesRead,List.mem_cons,List.not_mem_nil,or_false] at member
      exact member.imp id fun (same : name = _) => .inr (same ▸ present read)
  | stripe =>
    cases read : headerText headers "stripe-signature" with
    | none => simp [verifySignature,read] at verified
    | some sig =>
      simp only [namesRead,List.mem_cons,List.not_mem_nil,or_false] at member
      exact member.imp id fun (same : name = _) => .inr (same ▸ present read)
  | discord =>
    cases read : headerText headers "x-signature-ed25519" with
    | none => simp [verifySignature,read] at verified
    | some sig =>
      cases time : headerText headers "x-signature-timestamp" with
      | none => simp [verifySignature,read,time] at verified
      | some ts =>
        simp only [namesRead,List.mem_cons,List.not_mem_nil,or_false] at member
        rcases member with same | same | same
        · exact .inl same
        · exact .inr (.inr (same ▸ present read))
        · exact .inr (.inr (same ▸ present time))
  | generic =>
    cases read : ((HeaderMap.get headers "x-signature").or (HeaderMap.get headers "signature")).bind toStr with
    | none => simp [verifySignature,read] at verified
    | some sig =>
      cases first : HeaderMap.get headers "x-signature" with
      | some value =>
        have text : headerText headers "x-signature" = some sig := by simpa [headerText,first] using read
        simp only [namesRead,first,Option.isSome_some,if_true,List.append_nil,List.mem_cons,List.not_mem_nil,
          or_false] at member
        exact member.imp id fun (same : name = _) => .inr (same ▸ present text)
      | none =>
        have text : headerText headers "signature" = some sig := by simpa [headerText,first] using read
        simp only [namesRead,first,Option.isSome_none,Bool.false_eq_true,if_false,List.cons_append,List.nil_append,
          List.mem_cons,List.not_mem_nil,or_false] at member
        rcases member with same | same | same
        · exact .inl same
        · exact .inr (.inl (same ▸ first))
        · exact .inr (.inr (same ▸ present text))

def IngestPc.Shown (x : Externals) (cfg : AppConfig) (req : IngestRequest) : IngestPc → Prop
  | .selectEndpoint r key => r = req ∧ Admitted cfg req key
  | .verify r key _ => r = req ∧ Admitted cfg req key
  | .accept r key provider => r = req ∧ Admitted cfg req key ∧ ∃ p secret now, Provider.fromStr x provider = .ok p ∧
      verifySignature x p secret req.body req.headers now = .ok ()
  | .done _ => True

theorem Handled.shown (handled : Handled x cfg req pc) : pc.Shown x cfg req := by
  induction handled with
  | arrived w =>
    unfold startIngest
    cases gates : admitIngest cfg req with
    | error e => trivial
    | ok key => exact ⟨rfl,admitIngest_ok gates⟩
  | moved before moved ih =>
    cases ingestStep_sound moved with
    | found row => exact ih
    | verified valid =>
      obtain ⟨now,p,named,checked⟩ := verifyIngest_ok valid
      obtain ⟨same,admitted⟩ := ih
      rw [same] at checked
      exact ⟨same,admitted,p,_,now,named,checked⟩
    | accepted effect => trivial
    | refused e => trivial

theorem accepted_parts (handled : Handled x cfg req pc)
    (moved : ingestStep x inp w pc = some (next,.done (.ok (provider,eventId)))) :
    ∃ p row, Provider.fromStr x provider = .ok p ∧ next.db.event eventId = some row ∧
      row.headers = headersJson x req.headers ∧ headerText req.headers "idempotency-key" = some row.idempotencyKey ∧
      ∃ secret now, verifySignature x p secret req.body req.headers now = .ok () := by
  have shown := handled.shown
  generalize ended : IngestPc.done (.ok (provider,eventId)) = after at moved
  cases ingestStep_sound moved with
  | accepted effect =>
    obtain ⟨same,admitted,p,secret,now,named,verified⟩ := shown
    obtain rfl := same.symm
    cases effect with
    | refused e cause => cases ended
    | stored live unused inserted =>
      cases ended
      obtain ⟨_,_,_,_,_,_,_,rows⟩ := Db.insertEvent_parts inserted
      exact ⟨p,_,named,(rows _).trans (if_pos rfl),rfl,admitted.named,secret,now,verified⟩
  | _ => cases ended

-- A request that is accepted has its snapshot in the row, and the snapshot says
-- what the checks read unless a later value of a header says otherwise.
theorem snapshot_agrees_exact (rereads : Rereads x (headerMap req.headers)) (handled : Handled x cfg req pc)
    (moved : ingestStep x inp w pc = some (next,.done (.ok (provider,eventId)))) :
    ∃ p row, Provider.fromStr x provider = .ok p ∧ next.db.event eventId = some row ∧
      (SnapshotAgrees x req.headers p row.headers ↔ Undisputed req.headers p) := by
  obtain ⟨p,row,named,stored,column,key,secret,now,verified⟩ := accepted_parts handled moved
  refine ⟨p,row,named,stored,?_⟩
  have read : ∀ name ∈ namesRead req.headers p,
      headerText req.headers name = (printable req.headers name).head? := by
    intro name member
    apply headerText_first
    rcases verified_reads verified name member with same | other
    · exact .inr (by rw [same,key]; exact Option.some_ne_none _)
    · exact other
  rw [SnapshotAgrees,column]
  constructor
  · intro agrees name member
    rw [← storedHeader_last rereads,← read name member]
    exact agrees name member
  · intro undisputed name member
    rw [storedHeader_last rereads,read name member]
    exact undisputed name member

def ingesting (x : Externals) (s : World × IngestPc) (inp : Input) : Option (World × IngestPc) :=
  ingestStep x inp s.1 s.2

theorem Handled.run (before : Handled x cfg req pc)
    (reached : Transition.exec (ingesting x) (w,pc) inputs = some (next,after)) : Handled x cfg req after := by
  induction inputs generalizing w pc with
  | nil =>
    cases Option.some.inj reached
    exact before
  | cons inp rest ih =>
    obtain ⟨⟨between,place⟩,moved,further⟩ := Option.bind_eq_some_iff.mp reached
    exact ih (before.moved moved) further

namespace Parcel

def tag : String := "77325902caca812dc259733aacd046b73817372c777b8d95b402647474516e13"

def once : HeaderMap := [("idempotency-key",asBytes "key-1"),("x-signature",asBytes tag)]
def twice : HeaderMap := [("idempotency-key",asBytes "key-1"),("idempotency-key",asBytes "key-2"),("x-signature",asBytes tag)]

def request (headers : HeaderMap) : IngestRequest := ⟨"1",headers,[123,125]⟩

def render (fields : List (String × String)) : String :=
  "\x7b" ++ ",".intercalate (fields.map fun field => "\"" ++ field.1 ++ "\":\"" ++ field.2 ++ "\"") ++ "\x7d"

def fields (key : String) : List (String × String) := [("idempotency-key",key),("x-signature",tag)]

def json (key : String) : Json := .object ((fields key).map fun field => (field.1,.string field.2))

def scribe : Externals := { Externals.tabletop with
  renderHeaders := render
  parseJson := fun text =>
    if text = asBytes (render (fields "key-1")) then some (json "key-1")
    else if text = asBytes (render (fields "key-2")) then some (json "key-2") else none }

theorem renders_differ : asBytes (render (fields "key-2")) ≠ asBytes (render (fields "key-1")) := by
  intro same
  exact absurd (asBytes_injective same) (by decide +kernel)

theorem once_rereads : Rereads scribe (headerMap once) := by
  have map : headerMap once = fields "key-1" := by decide +kernel
  rw [map]
  exact if_pos rfl

theorem twice_rereads : Rereads scribe (headerMap twice) := by
  have map : headerMap twice = fields "key-2" := by decide +kernel
  rw [map]
  exact (if_neg renders_differ).trans (if_pos rfl)

def quiet : Input := ⟨none,0,0,.error "",0⟩

def registered : World := (createEndpoint scribe .default quiet ⟨.empty,fun _ => none,0,[]⟩ []
  ⟨"orders","generic","secret","https://hooks.example.com/in"⟩).1

def verdict : IngestPc → Option (String × Uuid)
  | .done (.ok answer) => some answer
  | _ => none

theorem accepted (run : ((Transition.exec (ingesting scribe) (registered,(startIngest .default registered (request headers)).2)
    [quiet,quiet,quiet]).bind fun s => verdict s.2) = some ("generic","11")) :
    ∃ pc w next, Handled scribe .default (request headers) pc ∧
      ingestStep scribe quiet w pc = some (next,.done (.ok ("generic","11"))) := by
  obtain ⟨⟨next,after⟩,reached,answer⟩ := Option.bind_eq_some_iff.mp run
  have last : after = .done (.ok ("generic","11")) := by
    unfold verdict at answer
    split at answer
    · cases answer
      assumption
    · cases answer
  subst last
  rw [show [quiet,quiet,quiet] = [quiet,quiet] ++ [quiet] from rfl,Transition.exec_append] at reached
  obtain ⟨⟨w,pc⟩,first,rest⟩ := Option.bind_eq_some_iff.mp reached
  obtain ⟨s,moved,same⟩ := Option.bind_eq_some_iff.mp rest
  cases same
  exact ⟨pc,w,next,(Handled.arrived registered).run first,moved⟩

theorem once_accepted : ∃ pc w next, Handled scribe .default (request once) pc ∧
    ingestStep scribe quiet w pc = some (next,.done (.ok ("generic","11"))) := accepted (by decide +kernel)

theorem twice_accepted : ∃ pc w next, Handled scribe .default (request twice) pc ∧
    ingestStep scribe quiet w pc = some (next,.done (.ok ("generic","11"))) := accepted (by decide +kernel)

end Parcel

open Parcel in
theorem snapshot_agrees_exact_once : ∃ (next : World) (p : Provider) (row : IncomingEventRecord),
    Provider.fromStr scribe "generic" = .ok p ∧ next.db.event "11" = some row ∧
      (SnapshotAgrees scribe (request once).headers p row.headers ↔ Undisputed (request once).headers p) := by
  obtain ⟨pc,w,next,handled,moved⟩ := once_accepted
  exact ⟨next,snapshot_agrees_exact once_rereads handled moved⟩

open Parcel in
theorem snapshot_second_key : ∃ (pc : IngestPc) (w next : World) (row : IncomingEventRecord),
    Rereads scribe (headerMap twice) ∧ Handled scribe .default (request twice) pc ∧
    ingestStep scribe quiet w pc = some (next,.done (.ok ("generic","11"))) ∧
    next.db.event "11" = some row ∧ Provider.fromStr scribe "generic" = .ok .generic ∧
    headerText twice "idempotency-key" = some "key-1" ∧ row.idempotencyKey = "key-1" ∧
    storedHeader scribe row.headers "idempotency-key" = some "key-2" ∧
    ¬SnapshotAgrees scribe twice .generic row.headers := by
  obtain ⟨pc,w,next,handled,moved⟩ := twice_accepted
  obtain ⟨p,row,named,stored,column,key,_⟩ := accepted_parts handled moved
  have first : headerText (request twice).headers "idempotency-key" = some "key-1" := by decide +kernel
  have last : storedHeader scribe row.headers "idempotency-key" = some "key-2" := by
    rw [column]
    exact (storedHeader_last twice_rereads _).trans (by decide +kernel)
  refine ⟨pc,w,next,row,twice_rereads,handled,moved,stored,by decide +kernel,first,
    Option.some.inj (key.symm.trans first),last,fun agrees => ?_⟩
  have same := agrees "idempotency-key" (by decide)
  rw [last] at same
  exact absurd (same.trans first) (by decide)

end AetherRelay
