import AetherRelay.Worker.Client
import AetherRelay.System.Rows

namespace AetherRelay

-- What a pass that awaits its answer has under way: a request some server has
-- still to answer, or the answer send() is about to return.
inductive Flight where
  | asking (eventId : Uuid) (req : Request) (past : List Reply)
  | returned (answer : Answer)

inductive Hop where
  | asked (eventId : Uuid) (req : Request)
  | replied (eventId : Uuid) (req : Request) (reply : Reply)
deriving DecidableEq

def WorkerPc.offWire : WorkerPc → Bool
  | .dispatching _ _ (.send _ _) | .dispatching _ _ (.await _ _) => false
  | _ => true

def Hop.target : Hop → Option String
  | .asked _ req => some req.url
  | .replied _ _ _ => none

namespace System

-- The relay and the requests of its passes. A pass sends at its `send` section
-- and leaves its `await` section with what the client has made of the replies.
structure Wired where
  relay : State
  flights : Nat → Option Flight
  wire : List Hop

inductive WireAction where
  | relay (a : Action)
  | reply (i : Nat) (reply : Reply)

namespace Wired

def boot (cfg : AppConfig) : Wired := ⟨System.boot cfg,fun _ => none,[]⟩

def past (s : Wired) (i : Nat) : List Reply :=
  match s.flights i with
  | some (.asking _ _ past) => past
  | _ => []

def receive (client : Client) (s : Wired) (i : Nat) (e : Uuid) (req : Request) (past : List Reply) (reply : Reply) : Wired :=
  match client.next req past.length reply with
  | .inl after => {s with
      flights := Function.update s.flights i (some (.asking e after (reply :: past)))
      wire := .asked e after :: .replied e req reply :: s.wire}
  | .inr answer => {s with
      flights := Function.update s.flights i (some (.returned answer))
      wire := .replied e req reply :: s.wire}

def send (s : Wired) (t : State) (i : Nat) (d : Delivery) : Wired where
  relay := t
  flights := Function.update s.flights i (some (.asking d.eventId (.post d.targetUrl d.rawBody) []))
  wire := .asked d.eventId (.post d.targetUrl d.rawBody) :: s.wire

end Wired

def wireStep (client : Client) (x : Externals) (cfg : AppConfig) (s : Wired) : WireAction → Option Wired
  | .reply i reply =>
    match s.flights i with
    | some (.asking e req past) => some (s.receive client i e req past reply)
    | _ => none
  | .relay (.worker i inp) =>
    match (s.relay.workers i).pc with
    | .dispatching _ _ (.send d _) => (step x cfg s.relay (.worker i inp)).map fun t => s.send t i d
    | .dispatching _ _ (.await _ _) =>
      match s.flights i with
      | some (.returned answer) => (step x cfg s.relay (.worker i {inp with answer:=answer})).map fun t =>
          {s with relay:=t,flights:=Function.update s.flights i none}
      | _ => none
    | _ => (step x cfg s.relay (.worker i inp)).map fun t => {s with relay:=t}
  | .relay a => (step x cfg s.relay a).map fun t =>
      {s with relay:=t,flights:=if a.ends = true then fun _ => none else s.flights}

inductive WireStep (client : Client) (x : Externals) (cfg : AppConfig) (s : Wired) : WireAction → Wired → Prop where
  | followed (aloft : s.flights i = some (.asking e req past))
      (next : client.next req past.length reply = .inl after) :
      WireStep client x cfg s (.reply i reply) {s with
        flights := Function.update s.flights i (some (.asking e after (reply :: past)))
        wire := .asked e after :: .replied e req reply :: s.wire}
  | answered (aloft : s.flights i = some (.asking e req past))
      (next : client.next req past.length reply = .inr answer) :
      WireStep client x cfg s (.reply i reply) {s with
        flights := Function.update s.flights i (some (.returned answer))
        wire := .replied e req reply :: s.wire}
  | sent (at' : (s.relay.workers i).pc = .dispatching claimed parent (.send d mode))
      (moved : Step x cfg s.relay (.worker i inp) t) :
      WireStep client x cfg s (.relay (.worker i inp)) (s.send t i d)
  | returned (at' : (s.relay.workers i).pc = .dispatching claimed parent (.await d mode))
      (aloft : s.flights i = some (.returned answer))
      (moved : Step x cfg s.relay (.worker i {inp with answer:=answer}) t) :
      WireStep client x cfg s (.relay (.worker i inp)) {s with relay:=t,flights:=Function.update s.flights i none}
  | worked (off : (s.relay.workers i).pc.offWire = true) (moved : Step x cfg s.relay (.worker i inp) t) :
      WireStep client x cfg s (.relay (.worker i inp)) {s with relay:=t}
  | served (other : ∀ i inp, a ≠ .worker i inp) (moved : Step x cfg s.relay a t) :
      WireStep client x cfg s (.relay a) {s with
        relay:=t,flights:=if a.ends = true then fun _ => none else s.flights}

variable {client : Client} {x : Externals} {cfg : AppConfig} {s t : Wired} {a : WireAction}

theorem wireStep_sound (moved : wireStep client x cfg s a = some t) : WireStep client x cfg s a t := by
  cases a with
  | reply i reply =>
    simp only [wireStep] at moved
    split at moved
    · rename_i e req past aloft
      cases Option.some.inj moved
      unfold Wired.receive
      cases next : client.next req past.length reply with
      | inl after => exact .followed aloft next
      | inr answer => exact .answered aloft next
    · cases moved
  | relay a =>
    by_cases worker : ∃ i inp, a = .worker i inp
    · obtain ⟨i,inp,rfl⟩ := worker
      simp only [wireStep] at moved
      split at moved
      · rename_i at'
        obtain ⟨next,stepped,rfl⟩ := Option.map_eq_some_iff.mp moved
        exact .sent at' (step_sound stepped)
      · rename_i at'
        split at moved
        · rename_i answer aloft
          obtain ⟨next,stepped,rfl⟩ := Option.map_eq_some_iff.mp moved
          exact .returned at' aloft (step_sound stepped)
        · cases moved
      · rename_i unsent unawaited
        obtain ⟨next,stepped,rfl⟩ := Option.map_eq_some_iff.mp moved
        refine .worked ?_ (step_sound stepped)
        unfold WorkerPc.offWire
        split
        · rename_i claimed parent d mode at'
          exact absurd at' (unsent claimed parent d mode)
        · rename_i claimed parent d mode at'
          exact absurd at' (unawaited claimed parent d mode)
        · rfl
    · have other : ∀ i inp, a ≠ .worker i inp := fun i inp same => worker ⟨i,inp,same⟩
      have moved : (step x cfg s.relay a).map (fun t =>
          ({s with relay:=t,flights:=if a.ends = true then fun _ => none else s.flights} : Wired)) = some t := by
        cases a with
        | worker i inp => exact absurd rfl (other i inp)
        | _ => exact moved
      obtain ⟨next,stepped,rfl⟩ := Option.map_eq_some_iff.mp moved
      exact .served other (step_sound stepped)

theorem WireStep.relay (moved : WireStep client x cfg s a t) : t.relay = s.relay ∨ ∃ a, Step x cfg s.relay a t.relay := by
  cases moved with
  | followed aloft next => exact .inl rfl
  | answered aloft next => exact .inl rfl
  | sent at' moved => exact .inr ⟨_,moved⟩
  | returned at' aloft moved => exact .inr ⟨_,moved⟩
  | worked off moved => exact .inr ⟨_,moved⟩
  | served other moved => exact .inr ⟨_,moved⟩

theorem WireStep.wire (moved : WireStep client x cfg s a t) (seen : h ∈ s.wire) : h ∈ t.wire := by
  cases moved with
  | followed aloft next => exact List.mem_cons_of_mem _ (List.mem_cons_of_mem _ seen)
  | answered aloft next => exact List.mem_cons_of_mem _ seen
  | sent at' moved => exact List.mem_cons_of_mem _ seen
  | returned at' aloft moved => exact seen
  | worked off moved => exact seen
  | served other moved => exact seen

def registerAndAcceptObject : List Action :=
  [.createEndpoint [] ⟨"orders","generic","secret","https://hooks.example.com/in"⟩ ⟨none,0,0,.error "",0⟩,
   .accept "1" "key-1" [123,125] "{}" ⟨none,0,0,.error "",0⟩]

def delivering (replies : List Reply) : List WireAction :=
  (registerAndAcceptObject ++ Action.pass 0 6 (.error "")).map .relay ++ replies.map (.reply 0) ++
    (Action.pass 0 4 (.error "")).map .relay

end System
end AetherRelay
