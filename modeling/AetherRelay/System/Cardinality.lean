import Mathlib.Data.Finset.Prod
import Mathlib.Data.Fintype.EquivFin
import AetherRelay.Lib.Watch
import AetherRelay.System.Rows

namespace AetherRelay

def IngestPc.Drawn (registered : List EndpointRecord) (req : IngestRequest) : IngestPc → Prop
  | .selectEndpoint r _ => r = req
  | .verify r _ endpoint => r = req ∧ endpoint ∈ registered ∧ endpoint.id = req.endpointId
  | .accept r _ provider => r = req ∧ ∃ row ∈ registered, row.id = req.endpointId ∧ row.provider = provider
  | .done (.ok (provider,_)) => ∃ row ∈ registered, row.id = req.endpointId ∧ row.provider = provider
  | .done (.error _) => True

theorem IngestPc.Drawn.mono {pc : IngestPc} (old : IngestPc.Drawn registered req pc)
    (more : ∀ row ∈ registered, row ∈ later) : IngestPc.Drawn later req pc := by
  cases pc with
  | selectEndpoint r key => exact old
  | verify r key endpoint => exact ⟨old.1,more _ old.2.1,old.2.2⟩
  | accept r key provider =>
    obtain ⟨same,row,member,named⟩ := old
    exact ⟨same,row,more row member,named⟩
  | done result =>
    cases result with
    | error e => trivial
    | ok answer =>
      obtain ⟨row,member,named⟩ := old
      exact ⟨row,more row member,named⟩

theorem IngestStep.drawn {w next : World} (effect : IngestStep x inp w pc next after)
    (old : IngestPc.Drawn registered req pc) (stored : ∀ row ∈ w.db.endpoints.rows, row ∈ registered) :
    IngestPc.Drawn registered req after := by
  cases effect with
  | found row =>
    obtain ⟨member,named⟩ := Table.lookup_exact.mp row
    obtain rfl := old
    exact ⟨rfl,stored _ member,named⟩
  | verified valid => exact ⟨old.1,_,old.2.1,old.2.2,rfl⟩
  | @accepted _ _ _ result _ _ effect =>
    cases result with
    | error e => trivial
    | ok eventId => exact old.2
  | refused e => trivial

namespace System

-- One series of aether_webhook_ingest_total.
structure Series where
  endpoint : String
  provider : String
  status : Nat
deriving DecidableEq, Repr

def ingestSeries (endpointId : Uuid) : Except AppError (String × Uuid) → Series
  | .ok (provider,_) => ⟨endpointId,provider,202⟩
  | .error e => ⟨endpointId,"unknown",e.statusCode⟩

structure Scraped where
  requests : List IngestRequest
  registered : List EndpointRecord
  recorded : List Series

def answers (s : State) (requests : List IngestRequest) (a : Action) (t : State) :
    Option (IngestRequest × Except AppError (String × Uuid)) :=
  match a with
  | .startIngest req _ =>
    match t.ingests[s.ingests.length]? with
    | some (.done result) => some (req,result)
    | _ => none
  | .ingest r _ =>
    match requests[r]?,t.ingests[r]? with
    | some req,some (.done result) => some (req,result)
    | _,_ => none
  | _ => none

def scrape (s : State) (seen : Scraped) (a : Action) (t : State) : Scraped where
  requests := match a with
    | .startIngest req _ => seen.requests ++ [req]
    | .kill | .shutdown => []
    | _ => seen.requests
  registered := seen.registered ∪ t.world.db.endpoints.rows
  recorded := ((answers s seen.requests a t).map fun answer => ingestSeries answer.1.endpointId answer.2).toList ++
    seen.recorded

abbrev Scraping := Transition.Watched State Scraped

def scrapeStep (x : Externals) (cfg : AppConfig) : Scraping → Action → Option Scraping :=
  Transition.watch (step x cfg) scrape

def Scraping.start (b : State) : Scraping := ⟨b,[],b.world.db.endpoints.rows,[]⟩

def ingestStatuses : List Nat := [202,400,401,404,409,413,500]

def Known (extra : List String) (registered : List EndpointRecord) (endpointId : String) : Prop :=
  (∃ row ∈ registered, row.id = endpointId) ∨ endpointId ∈ extra

structure Contained (extra : List String) (seen : Scraped) : Prop where
  endpoints : ∀ series ∈ seen.recorded, Known extra seen.registered series.endpoint
  providers : ∀ series ∈ seen.recorded, (∃ row ∈ seen.registered, row.provider = series.provider) ∨ series.provider ∈ extra
  statuses : ∀ series ∈ seen.recorded, series.status ∈ ingestStatuses
  refusals : (seen.recorded.filter fun series => series.status ≠ 202).toFinset.card ≤
    (seen.registered.map (·.id) ++ extra).toFinset.card * 6

def NamesKnown (x : Externals) (cfg : AppConfig) (extra : List String) (s : Scraping) (a : Action) : Prop :=
  ∀ t req result, step x cfg s.state a = some t → answers s.state s.notes.requests a t = some (req,result) →
    Known extra s.notes.registered req.endpointId

theorem statusCode_listed (e : AppError) : e.statusCode ∈ [400,401,404,409,413,500] := by
  cases e <;> simp [AppError.statusCode]

def Series.Sourced (registered : List EndpointRecord) (series : Series) : Prop :=
  (series.status = 202 ∧ ∃ row ∈ registered, row.id = series.endpoint ∧ row.provider = series.provider) ∨
    (series.provider = "unknown" ∧ series.status ∈ [400,401,404,409,413,500])

theorem Series.Sourced.mono {series : Series} (old : series.Sourced registered)
    (more : ∀ row ∈ registered, row ∈ later) : series.Sourced later := by
  rcases old with ⟨taken,row,member,same⟩ | refused
  · exact .inl ⟨taken,row,more row member,same⟩
  · exact .inr refused

theorem ingestSeries_sourced {req : IngestRequest} (drawn : IngestPc.Drawn registered req (.done result)) :
    (ingestSeries req.endpointId result).Sourced registered := by
  cases result with
  | error e => exact .inr ⟨rfl,statusCode_listed e⟩
  | ok answer =>
    obtain ⟨row,member,same⟩ := drawn
    exact .inl ⟨rfl,row,member,same⟩

theorem startIngest_db {w next : World} (started : AetherRelay.startIngest cfg w req = (next,pc)) : next.db = w.db := by
  cases started
  rfl

theorem startIngest_drawn {w next : World} (started : AetherRelay.startIngest cfg w req = (next,pc)) :
    pc.Drawn registered req := by
  cases started
  cases admitIngest cfg req with
  | error e => trivial
  | ok key => rfl

structure Carried (s : State) (seen : Scraped) : Prop where
  length : seen.requests.length = s.ingests.length
  drawn : ∀ (r : Nat) req pc, seen.requests[r]? = some req → s.ingests[r]? = some pc → pc.Drawn seen.registered req

structure Followed (s : Scraping) : Prop where
  carried : Carried s.state s.notes
  stored : ∀ row ∈ s.state.world.db.endpoints.rows, row ∈ s.notes.registered
  sourced : ∀ series ∈ s.notes.recorded, series.Sourced s.notes.registered

theorem Step.carried {s t : State} {a : Action} {seen : Scraped} (moved : Step x cfg s a t)
    (old : Carried s seen) (stored : ∀ row ∈ s.world.db.endpoints.rows, row ∈ seen.registered) :
    Carried t (scrape s seen a t) := by
  have more : ∀ row ∈ seen.registered, row ∈ (scrape s seen a t).registered :=
    fun row member => List.mem_union_iff.mpr (.inl member)
  have kept : ∀ (r : Nat) req pc, seen.requests[r]? = some req → s.ingests[r]? = some pc →
      pc.Drawn (scrape s seen a t).registered req :=
    fun r req pc asked here => (old.drawn r req pc asked here).mono more
  cases moved with
  | ingestStarted live gates =>
    refine ⟨by simp [scrape,old.length],fun r req pc asked here => ?_⟩
    by_cases earlier : r < seen.requests.length
    · refine kept r req pc ?_ ?_
      · rwa [scrape,List.getElem?_append_left earlier] at asked
      · rwa [List.getElem?_append_left (old.length ▸ earlier)] at here
    · have last : r - seen.requests.length = 0 := by
        have bound := (List.getElem?_eq_some_iff.mp asked).1
        simp only [scrape,List.length_append,List.length_singleton] at bound
        omega
      rw [scrape,List.getElem?_append_right (by omega),last] at asked
      rw [List.getElem?_append_right (by rw [← old.length]; omega),← old.length,last] at here
      cases asked
      cases here
      exact startIngest_drawn gates
  | ingested live present effect =>
    rename_i r' pc' next after inp
    refine ⟨by simpa [scrape] using old.length,fun r req pc asked here => ?_⟩
    by_cases same : r' = r
    · subst same
      rw [List.getElem?_set_self (List.getElem?_eq_some_iff.mp present).1] at here
      cases here
      exact effect.drawn (kept _ _ _ asked present) fun row member => more row (stored row member)
    · rw [List.getElem?_set_ne same] at here
      exact kept r req pc asked here
  | killed live => exact ⟨rfl,fun r req pc asked => by cases asked⟩
  | shutDown live quiet => exact ⟨rfl,fun r req pc asked => by cases asked⟩
  | created live effect => exact ⟨old.length,kept⟩
  | deleted live effect => exact ⟨old.length,kept⟩
  | accepted live effect => exact ⟨old.length,kept⟩
  | replayStarted live => exact ⟨old.length,kept⟩
  | replayed live present effect => exact ⟨old.length,kept⟩
  | worked live effect => exact ⟨old.length,kept⟩
  | restarted down => exact ⟨old.length,kept⟩

theorem Carried.answered {s : State} {seen : Scraped} (here : Carried t (scrape s seen a t))
    (answer : answers s seen.requests a t = some (req,result)) (length : seen.requests.length = s.ingests.length) :
    IngestPc.Drawn (scrape s seen a t).registered req (.done result) := by
  unfold answers at answer
  split at answer
  · rename_i asked inp
    split at answer
    · rename_i done
      cases answer
      refine here.drawn _ _ _ ?_ done
      rw [scrape,← length,List.getElem?_append_right le_rfl,Nat.sub_self]
      rfl
    · cases answer
  · split at answer
    · rename_i asked done
      cases answer
      exact here.drawn _ _ _ asked done
    · cases answer
  · cases answer

theorem scrape_followed {s t : Scraping} (moved : scrapeStep x cfg s a = some t) (old : Followed s) : Followed t := by
  obtain ⟨stepped,noted⟩ := Transition.watch_some.mp moved
  obtain ⟨state,notes⟩ := t
  have noted : notes = scrape s.state s.notes a state := noted
  subst noted
  have carried := (step_sound stepped).carried old.carried old.stored
  refine ⟨carried,fun row member => List.mem_union_iff.mpr (.inr member),fun series recorded => ?_⟩
  rcases List.mem_append.mp recorded with new | before
  · obtain ⟨answer,found,rfl⟩ := Option.map_eq_some_iff.mp (Option.mem_toList.mp new)
    exact ingestSeries_sourced (carried.answered found old.carried.length)
  · exact (old.sourced series before).mono fun row member => List.mem_union_iff.mpr (.inl member)

theorem start_followed (start : Booted x cfg b) : Followed (.start b) where
  carried := ⟨by simp [Scraping.start,start.ingests],fun r req pc asked => by cases asked⟩
  stored := fun row member => member
  sourced := fun series recorded => by cases recorded

theorem Contained.of_known {seen : Scraped} (sourced : ∀ series ∈ seen.recorded, series.Sourced seen.registered)
    (unknown : "unknown" ∈ extra) (known : ∀ series ∈ seen.recorded, Known extra seen.registered series.endpoint) :
    Contained extra seen where
  endpoints := known
  providers := by
    intro series recorded
    rcases sourced series recorded with ⟨_,row,member,same⟩ | ⟨same,_⟩
    · exact .inl ⟨row,member,same.2⟩
    · exact .inr (same ▸ unknown)
  statuses := by
    intro series recorded
    rcases sourced series recorded with ⟨same,_⟩ | ⟨_,listed⟩
    · simp [ingestStatuses,same]
    · exact List.mem_cons_of_mem _ listed
  refusals := by
    let ids := (seen.registered.map (·.id) ++ extra).toFinset
    let codes := [400,401,404,409,413,500].toFinset
    have refused : (seen.recorded.filter fun series => series.status ≠ 202).toFinset ⊆
        (ids ×ˢ codes).image fun label => ⟨label.1,"unknown",label.2⟩ := by
      intro series member
      obtain ⟨recorded,other⟩ := List.mem_filter.mp (List.mem_toFinset.mp member)
      have other : series.status ≠ 202 := by simpa using other
      rcases sourced series recorded with ⟨taken,_⟩ | ⟨provider,listed⟩
      · exact absurd taken other
      · refine Finset.mem_image.mpr ⟨(series.endpoint,series.status),Finset.mem_product.mpr ⟨?_,?_⟩,?_⟩
        · rcases known series recorded with ⟨row,stored,same⟩ | allowed
          · exact List.mem_toFinset.mpr (List.mem_append_left _ (List.mem_map.mpr ⟨row,stored,same⟩))
          · exact List.mem_toFinset.mpr (List.mem_append_right _ allowed)
        · exact List.mem_toFinset.mpr listed
        · rw [← provider]
    calc (seen.recorded.filter fun series => series.status ≠ 202).toFinset.card
      _ ≤ ((ids ×ˢ codes).image fun label => (⟨label.1,"unknown",label.2⟩ : Series)).card := Finset.card_le_card refused
      _ ≤ (ids ×ˢ codes).card := Finset.card_image_le
      _ = ids.card * 6 := by rw [Finset.card_product]; rfl

theorem Known.mono (old : Known extra registered endpointId) (more : ∀ row ∈ registered, row ∈ later) :
    Known extra later endpointId := by
  rcases old with ⟨row,member,same⟩ | allowed
  · exact .inl ⟨row,more row member,same⟩
  · exact .inr allowed

theorem Step.answers_endpoints {s t : State} {a : Action} (moved : Step x cfg s a t)
    (answer : answers s requests a t = some (req,result)) : t.world.db.endpoints = s.world.db.endpoints := by
  cases moved with
  | ingestStarted live gates => exact congrArg Db.endpoints (startIngest_db gates)
  | ingested live present effect =>
    cases effect with
    | accepted inner => exact AcceptStep.endpoints inner
    | _ => rfl
  | _ => cases answer

theorem scrape_known {s t : Scraping} (moved : scrapeStep x cfg s a = some t) (names : NamesKnown x cfg extra s a)
    (old : ∀ series ∈ s.notes.recorded, Known extra s.notes.registered series.endpoint) :
    ∀ series ∈ t.notes.recorded, Known extra t.notes.registered series.endpoint := by
  obtain ⟨stepped,noted⟩ := Transition.watch_some.mp moved
  rw [noted]
  intro series recorded
  rcases List.mem_append.mp recorded with new | before
  · obtain ⟨answer,found,rfl⟩ := Option.map_eq_some_iff.mp (Option.mem_toList.mp new)
    have label : (ingestSeries answer.1.endpointId answer.2).endpoint = answer.1.endpointId := by
      unfold ingestSeries
      split <;> rfl
    rw [label]
    exact (names _ _ _ stepped found).mono fun row member => List.mem_union_iff.mpr (.inl member)
  · exact (old series before).mono fun row member => List.mem_union_iff.mpr (.inl member)

theorem scrape_names {s t : Scraping} (moved : scrapeStep x cfg s a = some t) (old : Followed s)
    (known : ∀ series ∈ t.notes.recorded, Known extra t.notes.registered series.endpoint) : NamesKnown x cfg extra s a := by
  obtain ⟨stepped,noted⟩ := Transition.watch_some.mp moved
  intro t' req result stepped' answer
  rw [stepped] at stepped'
  obtain rfl := Option.some.inj stepped'
  have recorded : ingestSeries req.endpointId result ∈ t.notes.recorded := by
    rw [noted]
    exact List.mem_append_left _ (by rw [answer]; exact List.mem_singleton_self _)
  have named := known _ recorded
  have label : (ingestSeries req.endpointId result).endpoint = req.endpointId := by
    unfold ingestSeries
    split <;> rfl
  rw [label,noted] at named
  refine named.mono fun row member => ?_
  rcases List.mem_union_iff.mp member with before | now
  · exact before
  · rw [(step_sound stepped).answers_endpoints answer] at now
    exact old.stored row now

-- The series stay within what was registered, a fixed list and the status codes as
-- long as every request that is answered names what is on the list, and in no other run.
theorem series_contained_exact (start : Booted x cfg b) (unknown : "unknown" ∈ extra)
    (reached : Transition.exec (scrapeStep x cfg) (.start b) actions = some t) :
    Transition.Always (scrapeStep x cfg) (fun s => Contained extra s.notes) (.start b) actions ↔
      Transition.EachStep (scrapeStep x cfg) (NamesKnown x cfg extra) (.start b) actions := by
  constructor
  · intro always earlier a later u parts before
    obtain ⟨v,moved,_,contained⟩ := always.each reached earlier a later u parts before
    have path := Transition.Run.check (fun _ _ => True) before (.all fun _ _ => trivial)
    have followed := path.preserves Followed (fun s a t old _ moved => scrape_followed moved old) (start_followed start)
    exact scrape_names moved followed contained.endpoints
  · intro each
    have path := Transition.Run.check (NamesKnown x cfg extra) reached each
    refine path.always fun earlier u prior => ?_
    obtain ⟨followed,known⟩ := prior.preserves
      (fun s => Followed s ∧ ∀ series ∈ s.notes.recorded, Known extra s.notes.registered series.endpoint)
      (fun s a t old names moved => ⟨scrape_followed moved old.1,scrape_known moved names old.2⟩)
      ⟨start_followed start,fun series recorded => by cases recorded⟩
    exact .of_known followed.sourced unknown known

theorem answers_started {s t : State} (answer : answers s requests (.startIngest asked inp) t = some (req,result)) :
    req = asked := by
  simp only [answers] at answer
  split at answer
  · exact (Prod.mk.inj (Option.some.inj answer)).1.symm
  · cases answer

def keyMissing : List Action :=
  [.createEndpoint [] ⟨"orders","generic","secret","https://hooks.example.com/in"⟩ ⟨none,0,0,.error "",0⟩,
   .startIngest ⟨"1",[],[]⟩ ⟨none,0,0,.error "",0⟩]

theorem series_contained_exact_registered :
    ∃ t, Transition.exec (scrapeStep .tabletop .default) (.start (boot .default)) keyMissing = some t ∧
      t.notes.recorded = [⟨"1","unknown",400⟩] ∧
      Transition.Always (scrapeStep .tabletop .default) (fun s => Contained ["unknown"] s.notes)
        (.start (boot .default)) keyMissing := by
  have ran : (Transition.exec (scrapeStep .tabletop .default) (.start (boot .default)) keyMissing).map
      (fun t => t.notes.recorded) = some [⟨"1","unknown",400⟩] := by decide +kernel
  obtain ⟨t,reached,recorded⟩ := Option.map_eq_some_iff.mp ran
  refine ⟨t,reached,recorded,(series_contained_exact (boot_booted .tabletop .default) (by simp) reached).mpr ?_⟩
  refine Transition.eachStep_cons.mpr ⟨fun _ _ _ _ answer => (by cases answer),fun s moved => ?_⟩
  refine Transition.eachStep_cons.mpr ⟨fun _ req result _ answer => ?_,fun _ _ => Transition.eachStep_nil⟩
  obtain rfl := answers_started answer
  have registered : (scrapeStep .tabletop .default (.start (boot .default)) (.createEndpoint []
      ⟨"orders","generic","secret","https://hooks.example.com/in"⟩ ⟨none,0,0,.error "",0⟩)).map
      (fun s => s.notes.registered.map (·.id)) = some ["1"] := by decide +kernel
  rw [moved] at registered
  have ids : s.notes.registered.map (·.id) = ["1"] := Option.some.inj registered
  obtain ⟨row,member,same⟩ := List.mem_map.mp (ids ▸ List.mem_singleton_self "1")
  exact .inl ⟨row,member,same⟩

-- Nothing is registered, and one request of an anonymous client adds a series
-- for the tag it has put in the path: no list holds them all.
theorem series_from_path : ¬∃ extra, ∀ actions t,
    Transition.exec (scrapeStep .tabletop .default) (.start (boot .default)) actions = some t →
      t.notes.registered = [] → Contained extra t.notes := by
  intro ⟨extra,bounded⟩
  obtain ⟨tag,unlisted⟩ := Infinite.exists_notMem_finset extra.toFinset
  have contained := bounded [.startIngest ⟨tag,[],[]⟩ ⟨none,0,0,.error "",0⟩] _ rfl rfl
  rcases contained.endpoints ⟨tag,"unknown",400⟩ (List.mem_singleton_self _) with ⟨row,member,_⟩ | allowed
  · cases member
  · exact unlisted (List.mem_toFinset.mpr allowed)

end System
end AetherRelay
