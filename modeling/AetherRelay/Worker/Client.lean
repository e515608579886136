import AetherRelay.Worker.World

namespace AetherRelay

inductive Method where
  | get
  | post
deriving DecidableEq, Repr

structure Request where
  method : Method
  url : String
  body : Option Bytes
deriving DecidableEq

def Request.post (url : String) (body : Bytes) : Request := ⟨.post,url,some body⟩

-- How one request ends: with a status and the http or https URL that a Location
-- header names, if there is one; or in an error. The client does not follow a URL
-- of another scheme and fails there, so a redirect to one is `broken`.
inductive Reply where
  | response (status : StatusCode) (location : Option String)
  | broken (text : String)
deriving DecidableEq

namespace StatusCode

def found : StatusCode := ⟨302,by decide⟩
def temporaryRedirect : StatusCode := ⟨307,by decide⟩

-- The redirects after which a client goes on with a GET and drops the body, and
-- those after which it repeats the request elsewhere.
def rewrites (s : StatusCode) : Bool := s.code = 301 || s.code = 302 || s.code = 303
def repeats (s : StatusCode) : Bool := s.code = 307 || s.code = 308
def redirects (s : StatusCode) : Bool := s.rewrites || s.repeats

end StatusCode

def Request.redirected (req : Request) (status : StatusCode) (location : String) : Request :=
  if status.rewrites then ⟨.get,location,none⟩ else {req with url:=location}

@[simp] theorem Request.redirected_url (req : Request) (status : StatusCode) (location : String) :
    (req.redirected status location).url = location := by
  unfold redirected
  split <;> rfl

def Reply.rewrites : Reply → Bool
  | .response status (some _) => status.rewrites
  | _ => false

-- The reqwest client that main builds: no redirect policy is set, so its default
-- one holds. `next` is what it does with a reply to its request when it has
-- followed so many redirects: it sends another request, or send() returns.
structure Client where
  next : Request → Nat → Reply → Request ⊕ Answer
  follows : ∀ {req : Request} {followed status location}, followed < 10 → status.redirects = true →
    next req followed (.response status (some location)) = .inl (req.redirected status location)
  gives_up : ∀ {req : Request} {followed status location}, 10 ≤ followed → status.redirects = true →
    ∃ answer : Answer, next req followed (.response status (some location)) = .inr answer ∧ answer.success = false
  returns : ∀ {req : Request} {followed status location}, status.redirects = false ∨ location = none →
    next req followed (.response status location) = .inr (.response status)
  breaks : ∀ {req : Request} {followed text}, next req followed (.broken text) = .inr (.error text)

namespace Client

def followLimited (req : Request) (followed : Nat) : Reply → Request ⊕ Answer
  | .broken text => .inr (.error text)
  | .response status none => .inr (.response status)
  | .response status (some location) =>
    if status.redirects then
      if followed < 10 then .inl (req.redirected status location)
      else .inr (.error "error following redirect: too many redirects")
    else .inr (.response status)

theorem followLimited_returns {req : Request} (final : status.redirects = false ∨ location = none) :
    followLimited req followed (.response status location) = .inr (.response status) := by
  cases location with
  | none => rfl
  | some location =>
    rcases final with final | gone
    · simp only [followLimited,final,Bool.false_eq_true,if_false]
    · cases gone

def limited : Client where
  next := followLimited
  follows few redirects := by simp only [followLimited,redirects,if_true,if_pos few]
  gives_up many redirects := by
    simp only [followLimited,redirects,if_true,if_neg (Nat.not_lt.mpr many)]
    exact ⟨_,rfl,rfl⟩
  returns := followLimited_returns
  breaks := rfl

variable {client : Client} {req after : Request}

theorem next_request (next : client.next req followed reply = .inl after) :
    ∃ status location, reply = .response status (some location) ∧ status.redirects = true ∧ followed < 10 ∧
      after = req.redirected status location := by
  cases reply with
  | broken text =>
    rw [client.breaks] at next
    cases next
  | response status location =>
    cases redirects : status.redirects with
    | false =>
      rw [client.returns (.inl redirects)] at next
      cases next
    | true =>
      cases location with
      | none =>
        rw [client.returns (.inr rfl)] at next
        cases next
      | some location =>
        by_cases few : followed < 10
        · rw [client.follows few redirects] at next
          exact ⟨status,location,rfl,redirects,few,(Sum.inl.inj next).symm⟩
        · obtain ⟨answer,gone,_⟩ := client.gives_up (Nat.le_of_not_lt few) redirects
          rw [gone] at next
          cases next

theorem next_success (next : client.next req followed reply = .inr answer) (good : answer.success = true) :
    ∃ status location, reply = .response status location ∧ status.isSuccess = true := by
  cases reply with
  | broken text =>
    rw [client.breaks] at next
    cases next
    cases good
  | response status location =>
    refine ⟨status,location,rfl,?_⟩
    by_cases final : status.redirects = false ∨ location = none
    · rw [client.returns final] at next
      cases next
      exact good
    · obtain ⟨redirects,target⟩ := not_or.mp final
      obtain ⟨location,rfl⟩ := Option.ne_none_iff_exists'.mp target
      have redirects : status.redirects = true := by simpa using redirects
      by_cases few : followed < 10
      · rw [client.follows few redirects] at next
        cases next
      · obtain ⟨other,gone,bad⟩ := client.gives_up (Nat.le_of_not_lt few) redirects
        rw [gone] at next
        cases next
        rw [bad] at good
        cases good

end Client

inductive Asks (url : String) (body : Bytes) : List Reply → Request → Prop where
  | first : Asks url body [] (.post url body)
  | redirected (asks : Asks url body past req) (status : StatusCode) (location : String) :
      Asks url body (.response status (some location) :: past) (req.redirected status location)

theorem Asks.posts (asks : Asks url body past req) :
    (∀ reply ∈ past, reply.rewrites = false) ↔ req = .post req.url body := by
  induction asks with
  | first => simp [Request.post]
  | @redirected past req asks status location ih =>
    rw [List.forall_mem_cons,Request.redirected_url]
    cases rewrites : status.rewrites with
    | true => simp [Reply.rewrites,Request.redirected,Request.post,rewrites]
    | false =>
      have kept : (Reply.response status (some location)).rewrites = false := rewrites
      have same : req.redirected status location = {req with url:=location} := if_neg (by simp [rewrites])
      simp only [kept,true_and,ih,same]
      obtain ⟨method,url,sent⟩ := req
      simp [Request.post]

end AetherRelay
