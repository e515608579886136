import Mathlib.Data.Fintype.Defs
import AetherRelay.Api.Listing
import AetherRelay.System.Supply

namespace AetherRelay

-- An operator's way of emptying the queue: replay what the list shows, one letter
-- after the other, and list again.
def replayAll (cfg : AppConfig) (headers : HeaderMap) (inp : Uuid → Fin 4 → Input) :
    World → List Uuid → World × List (Except AppError Uuid)
  | w,[] => (w,[])
  | w,dlqId :: rest =>
    let (next,answer) := replayDlq cfg (inp dlqId) w headers dlqId
    let (last,answers) := replayAll cfg headers inp next rest
    (last,answer :: answers)

structure Round where
  list : Input
  replay : Uuid → Fin 4 → Input

def Round.Clean (round : Round) : Prop := round.list.fault = none ∧ ∀ dlqId i, (round.replay dlqId i).fault = none

def replayPage (cfg : AppConfig) (headers : HeaderMap) (round : Round) (w : World) :
    World × List (Except AppError Uuid) :=
  match listDlq cfg round.list w headers with
  | .error e => (w,[.error e])
  | .ok page => replayAll cfg headers round.replay w (page.map (·.id))

def drainDlq (cfg : AppConfig) (headers : HeaderMap) : World → List Round → World × List (Except AppError Uuid)
  | w,[] => (w,[])
  | w,round :: rest =>
    let (next,answers) := replayPage cfg headers round w
    let (last,more) := drainDlq cfg headers next rest
    (last,answers ++ more)

structure Requeued (done : List DeadLetter) (before after : Db) : Prop where
  endpoints : after.endpoints = before.endpoints
  letters : after.deadLetterQueue.rows = before.deadLetterQueue.rows.filter (fun d => d ∉ done)
  events : after.incomingEvents.rows = before.incomingEvents.rows.map fun e =>
    if ∃ d ∈ done, d.eventId = e.id then e.withStatus .received else e
  attempts : after.deliveryAttempts.rows = before.deliveryAttempts.rows.filter fun a => ∀ d ∈ done, d.eventId ≠ a.eventId

namespace Requeued
variable {one two done : List DeadLetter} {a b c : Db}

theorem nothing (db : Db) : Requeued [] db db :=
  ⟨rfl,by simp,by simp,by simp⟩

theorem trans (first : Requeued one a b) (second : Requeued two b c) : Requeued (one ++ two) a c := by
  constructor
  · exact second.endpoints.trans first.endpoints
  · rw [second.letters,first.letters,List.filter_filter]
    apply List.filter_congr
    intro d _
    simp only [List.mem_append,not_or,Bool.decide_and]
    exact Bool.and_comm _ _
  · rw [second.events,first.events,List.map_map]
    apply List.map_congr_left
    intro e _
    simp only [Function.comp_apply]
    by_cases early : ∃ d ∈ one, d.eventId = e.id
    · have both : ∃ d ∈ one ++ two, d.eventId = e.id := by
        obtain ⟨d,member,same⟩ := early
        exact ⟨d,List.mem_append_left _ member,same⟩
      rw [if_pos early,if_pos both]
      split <;> rfl
    · have both : (∃ d ∈ one ++ two, d.eventId = e.id) ↔ ∃ d ∈ two, d.eventId = e.id := by
        constructor
        · rintro ⟨d,member,same⟩
          rcases List.mem_append.mp member with first | last
          · exact absurd ⟨d,first,same⟩ early
          · exact ⟨d,last,same⟩
        · rintro ⟨d,member,same⟩
          exact ⟨d,List.mem_append_right _ member,same⟩
      rw [if_neg early]
      simp only [both]
  · rw [second.attempts,first.attempts,List.filter_filter]
    apply List.filter_congr
    intro attempt _
    simp only [List.mem_append,or_imp,forall_and,Bool.decide_and]
    exact Bool.and_comm _ _

theorem congr (old : Requeued one a b) (same : ∀ d, d ∈ one ↔ d ∈ two) : Requeued two a b := by
  obtain ⟨endpoints,letters,events,attempts⟩ := old
  simp only [same] at letters events attempts
  exact ⟨endpoints,letters,events,attempts⟩

theorem single {db : Db} {letter : DeadLetter} (stored : letter ∈ db.deadLetterQueue.rows) :
    Requeued [letter] db
      (((db.setStatus letter.eventId .received).deleteAttempts letter.eventId).deleteLetter letter.id) := by
  constructor
  · rfl
  · change db.deadLetterQueue.rows.filter _ = _
    apply List.filter_congr
    intro d member
    by_cases same : d = letter
    · simp [same]
    · have other : d.id ≠ letter.id := fun equal => same (Table.eq_of_key member stored equal)
      simp [same,other]
  · change db.incomingEvents.rows.map _ = _
    apply List.map_congr_left
    intro e _
    simp [eq_comm]
  · change db.deliveryAttempts.rows.filter _ = _
    apply List.filter_congr
    intro attempt _
    simp [eq_comm]

end Requeued

section
variable {cfg : AppConfig} {headers : HeaderMap} {w : World}

theorem replayDlq_found {inp : Fin 4 → Input} (allowed : KeyAllowed headers cfg.auth.apiKeys)
    (clean : ∀ i, (inp i).fault = none) {letter : DeadLetter} (stored : letter ∈ w.db.deadLetterQueue.rows) :
    (replayDlq cfg inp w headers letter.id).2 = .ok letter.eventId ∧
      Requeued [letter] w.db (replayDlq cfg inp w headers letter.id).1.db := by
  have found : w.db.letter letter.id = some letter := Table.lookup_of_mem stored
  have ran : replayDlq cfg inp w headers letter.id =
      (({w with db:=((w.db.setStatus letter.eventId .received).deleteAttempts letter.eventId).deleteLetter letter.id} :
        World).log (.replayed letter.eventId),.ok letter.eventId) := by
    simp only [replayDlq,verifyApiKey_exact.mpr allowed,selectLetter,statement,clean,found]
  rw [ran]
  exact ⟨rfl,.single stored⟩

theorem replayAll_found {inp : Uuid → Fin 4 → Input} (allowed : KeyAllowed headers cfg.auth.apiKeys)
    (clean : ∀ dlqId i, (inp dlqId i).fault = none) {page : List DeadLetter} (apart : page.Nodup)
    (stored : ∀ d ∈ page, d ∈ w.db.deadLetterQueue.rows) :
    (replayAll cfg headers inp w (page.map (·.id))).2 = page.map (fun d => .ok d.eventId) ∧
      Requeued page w.db (replayAll cfg headers inp w (page.map (·.id))).1.db := by
  induction page generalizing w with
  | nil => exact ⟨rfl,.nothing w.db⟩
  | cons letter rest ih =>
    obtain ⟨new,others⟩ := List.nodup_cons.mp apart
    obtain ⟨answer,first⟩ := replayDlq_found (w:=w) allowed (clean letter.id) (stored letter List.mem_cons_self)
    have left : ∀ d ∈ rest, d ∈ (replayDlq cfg (inp letter.id) w headers letter.id).1.db.deadLetterQueue.rows := by
      intro d member
      rw [first.letters]
      refine List.mem_filter.mpr ⟨stored d (List.mem_cons_of_mem _ member),?_⟩
      have other : d ≠ letter := by
        rintro rfl
        exact new member
      simpa using other
    obtain ⟨answers,further⟩ := ih others left
    constructor
    · exact congrArg₂ List.cons answer answers
    · exact first.trans further

theorem page_rest {rows sorted : List DeadLetter} (perm : sorted.Perm rows) (apart : rows.Nodup) (n : Nat) :
    (rows.filter (fun d => d ∉ sorted.take n)).length = rows.length - n := by
  have distinct := perm.nodup_iff.mpr apart
  rw [← (perm.filter _).length_eq,← perm.length_eq,← List.length_drop]
  generalize left : sorted.drop n = late
  generalize taken : sorted.take n = page
  have parts : sorted = page ++ late := by rw [← taken,← left,List.take_append_drop]
  rw [parts,List.nodup_append'] at distinct
  obtain ⟨_,_,disjoint⟩ := distinct
  have gone : page.filter (fun d => d ∉ page) = [] :=
    List.filter_eq_nil_iff.mpr fun d member => by simpa using member
  have kept : late.filter (fun d => d ∉ page) = late :=
    List.filter_eq_self.mpr fun d member => by simpa using fun inside => disjoint inside member
  rw [parts,List.filter_append,gone,kept,List.nil_append]

theorem replayPage_round (allowed : KeyAllowed headers cfg.auth.apiKeys) {round : Round} (clean : round.Clean) (w : World) :
    ∃ page, (∀ d ∈ page, d ∈ w.db.deadLetterQueue.rows) ∧ Requeued page w.db (replayPage cfg headers round w).1.db ∧
      (replayPage cfg headers round w).2 = page.map (fun d => .ok d.eventId) ∧
      (replayPage cfg headers round w).1.db.deadLetterQueue.rows.length = w.db.deadLetterQueue.rows.length - dlqPageLen := by
  let sorted := newestFirst DeadLetter.createdAt w.db.deadLetterQueue.rows
  have perm : sorted.Perm w.db.deadLetterQueue.rows := newestFirst_perm _ _
  have apart : w.db.deadLetterQueue.rows.Nodup := w.db.deadLetterQueue.distinct.of_map _
  have stored : ∀ d ∈ sorted.take dlqPageLen, d ∈ w.db.deadLetterQueue.rows :=
    fun d member => perm.mem_iff.mp (List.mem_of_mem_take member)
  have distinct : (sorted.take dlqPageLen).Nodup :=
    (perm.nodup_iff.mpr apart).sublist (List.take_sublist _ _)
  obtain ⟨answers,effect⟩ := replayAll_found allowed clean.2 distinct stored
  have ran : replayPage cfg headers round w = replayAll cfg headers round.replay w ((sorted.take dlqPageLen).map (·.id)) := by
    rw [replayPage,listDlq_ok allowed clean.1]
  rw [ran]
  refine ⟨sorted.take dlqPageLen,stored,effect,answers,?_⟩
  rw [effect.letters]
  exact page_rest perm apart dlqPageLen

theorem drainDlq_rounds (allowed : KeyAllowed headers cfg.auth.apiKeys) (rounds : List Round)
    (clean : ∀ round ∈ rounds, round.Clean) (w : World) :
    ∃ done, (∀ d ∈ done, d ∈ w.db.deadLetterQueue.rows) ∧ Requeued done w.db (drainDlq cfg headers w rounds).1.db ∧
      (drainDlq cfg headers w rounds).2 = done.map (fun d => .ok d.eventId) ∧
      (drainDlq cfg headers w rounds).1.db.deadLetterQueue.rows.length =
        w.db.deadLetterQueue.rows.length - dlqPageLen * rounds.length := by
  induction rounds generalizing w with
  | nil => exact ⟨[],by simp,.nothing w.db,rfl,by simp [drainDlq]⟩
  | cons round rest ih =>
    obtain ⟨page,stored,effect,answers,length⟩ := replayPage_round allowed (clean round List.mem_cons_self) w
    obtain ⟨done,later,further,more,left⟩ := ih (fun r member => clean r (List.mem_cons_of_mem _ member))
      (replayPage cfg headers round w).1
    refine ⟨page ++ done,?_,effect.trans further,?_,?_⟩
    · intro d member
      rcases List.mem_append.mp member with first | last
      · exact stored d first
      · have kept := later d last
        rw [effect.letters] at kept
        exact (List.mem_filter.mp kept).1
    · rw [drainDlq,List.map_append,← answers,← more]
    · rw [drainDlq,left,length,List.length_cons,Nat.mul_succ]
      omega

-- The list shows a hundred letters at most, and still the queue can be emptied
-- through the API: in as many rounds as there are pages every letter is replayed,
-- each answered with success, and nothing but the rows of the letters changes.
theorem dlq_drained (allowed : KeyAllowed headers cfg.auth.apiKeys) (rounds : List Round)
    (clean : ∀ round ∈ rounds, round.Clean) (w : World)
    (enough : w.db.deadLetterQueue.rows.length ≤ 100 * rounds.length) :
    Requeued w.db.deadLetterQueue.rows w.db (drainDlq cfg headers w rounds).1.db ∧
      (drainDlq cfg headers w rounds).1.db.deadLetterQueue.rows = [] ∧
      (∀ answer ∈ (drainDlq cfg headers w rounds).2, ∃ eventId, answer = .ok eventId) := by
  obtain ⟨done,stored,effect,answers,length⟩ := drainDlq_rounds allowed rounds clean w
  have empty : (drainDlq cfg headers w rounds).1.db.deadLetterQueue.rows = [] := by
    apply List.length_eq_zero_iff.mp
    rw [length,dlqPageLen]
    omega
  refine ⟨effect.congr fun d => ⟨stored d,fun member => ?_⟩,empty,?_⟩
  · have gone := effect.letters
    rw [empty] at gone
    have out := List.filter_eq_nil_iff.mp gone.symm d member
    simpa using out
  · intro answer member
    rw [answers] at member
    obtain ⟨d,_,rfl⟩ := List.mem_map.mp member
    exact ⟨d.eventId,rfl⟩

end

namespace Backlog
open Externals

def numbered {key : ρ → Uuid} (row : Nat → ρ) (named : ∀ k, key (row k) = tally k) (n : Nat) : Table Uuid ρ key where
  rows := (List.range n).map row
  distinct := by
    have keys : key ∘ row = tally := funext named
    rw [List.map_map,keys]
    exact List.nodup_range.map tally_injective

theorem numbered_found {key : ρ → Uuid} {row : Nat → ρ} {named : ∀ k, key (row k) = tally k} (small : k < n) :
    ((numbered row named n).lookup (tally k)).isSome = true := by
  have member : row k ∈ (numbered row named n).rows := List.mem_map_of_mem (List.mem_range.mpr small)
  rw [← named k,Table.lookup_of_mem member]
  rfl

def event (k : Nat) : IncomingEventRecord := ⟨tally k,"1",tally k,[],"{}",.failed,0⟩
def attempt (k : Nat) : DeliveryAttempt := ⟨tally k,tally k,1,none,some "connection refused",0⟩
def letter (k : Nat) : DeadLetter := ⟨tally k,tally k,"1","connection refused",none,k⟩

def queue (n : Nat) : Db where
  endpoints := ⟨[⟨"1","orders","generic","secret","https://hooks.example.com/in",0⟩],List.nodup_singleton _⟩
  incomingEvents := numbered event (fun _ => rfl) n
  deliveryAttempts := numbered attempt (fun _ => rfl) n
  deadLetterQueue := numbered letter (fun _ => rfl) n
  keyUnique := by
    intro a one b two _ same
    obtain ⟨k,_,rfl⟩ := List.mem_map.mp one
    obtain ⟨l,_,rfl⟩ := List.mem_map.mp two
    exact congrArg event (tally_injective same)
  letterUnique := by
    intro a one b two same
    obtain ⟨k,_,rfl⟩ := List.mem_map.mp one
    obtain ⟨l,_,rfl⟩ := List.mem_map.mp two
    exact congrArg letter (tally_injective same)
  eventParent := by
    intro e member
    obtain ⟨k,_,rfl⟩ := List.mem_map.mp member
    rfl
  attemptParent := by
    intro a member
    obtain ⟨k,small,rfl⟩ := List.mem_map.mp member
    exact numbered_found (List.mem_range.mp small)
  letterParent := by
    intro d member
    obtain ⟨k,small,rfl⟩ := List.mem_map.mp member
    exact numbered_found (List.mem_range.mp small)

def world (n : Nat) : World := ⟨queue n,fun _ => none,n,[]⟩
def quietRound : Round := ⟨⟨none,0,0,.error "",0⟩,fun _ _ => ⟨none,0,0,.error "",0⟩⟩

theorem quietRound_clean : quietRound.Clean := ⟨rfl,fun _ _ => rfl⟩

theorem queue_length (n : Nat) : (queue n).deadLetterQueue.rows.length = n := by
  simp [queue,numbered]

end Backlog

open Backlog in
theorem dlq_drained_pages :
    (drainDlq .default [] (world 150) [quietRound]).1.db.deadLetterQueue.rows.length = 50 ∧
      (drainDlq .default [] (world 150) [quietRound,quietRound]).1.db.deadLetterQueue.rows = [] ∧
      ∀ e ∈ (drainDlq .default [] (world 150) [quietRound,quietRound]).1.db.incomingEvents.rows, e.status = .received := by
  have allowed : KeyAllowed [] AppConfig.default.auth.apiKeys := .inl rfl
  have clean : ∀ rounds : List Round, (∀ round ∈ rounds, round = quietRound) → ∀ round ∈ rounds, round.Clean := by
    intro rounds same round member
    rw [same round member]
    exact quietRound_clean
  have enough : (world 150).db.deadLetterQueue.rows.length ≤ 100 * [quietRound,quietRound].length := by
    have full : (world 150).db.deadLetterQueue.rows.length = 150 := queue_length 150
    rw [full]
    decide
  obtain ⟨effect,empty,_⟩ := dlq_drained allowed [quietRound,quietRound] (clean _ (by simp)) (world 150) enough
  obtain ⟨_,_,_,_,left⟩ := drainDlq_rounds allowed [quietRound] (clean _ (by simp)) (world 150)
  refine ⟨?_,empty,?_⟩
  · have full : (world 150).db.deadLetterQueue.rows.length = 150 := queue_length 150
    rw [left,full,dlqPageLen,List.length_singleton]
  · intro e member
    rw [effect.events] at member
    obtain ⟨before,stored,rfl⟩ := List.mem_map.mp member
    obtain ⟨k,small,rfl⟩ := List.mem_map.mp stored
    have listed : letter k ∈ (world 150).db.deadLetterQueue.rows := List.mem_map_of_mem small
    rw [if_pos ⟨letter k,listed,rfl⟩]
    rfl

end AetherRelay
