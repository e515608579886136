import Mathlib.Data.List.Sort
import AetherRelay.Api.Management

namespace AetherRelay

-- ORDER BY created_at DESC. The order among rows of one second is left open by
-- the statement; here they stay as they were written, and no result depends on it.
def newestFirst (stamp : ρ → Nat) (rows : List ρ) : List ρ := rows.insertionSort fun a b => stamp b ≤ stamp a

-- LIMIT 100
def dlqPageLen : Nat := 100

def listEndpoints (cfg : AppConfig) (inp : Input) (w : World) (headers : HeaderMap) :
    Except AppError (List EndpointResponse) :=
  match verifyApiKey headers cfg.auth.apiKeys with
  | .error e => .error e
  | .ok () => statement inp (.ok ((newestFirst (·.createdAt) w.db.endpoints.rows).map (·.response)))

def listDlq (cfg : AppConfig) (inp : Input) (w : World) (headers : HeaderMap) : Except AppError (List DeadLetter) :=
  match verifyApiKey headers cfg.auth.apiKeys with
  | .error e => .error e
  | .ok () => statement inp (.ok ((newestFirst (·.createdAt) w.db.deadLetterQueue.rows).take dlqPageLen))

section
variable {cfg : AppConfig} {inp : Input} {headers : HeaderMap}

theorem newestFirst_perm (stamp : ρ → Nat) (rows : List ρ) : (newestFirst stamp rows).Perm rows :=
  List.perm_insertionSort _ rows

theorem newestFirst_sorted (stamp : ρ → Nat) (rows : List ρ) :
    (newestFirst stamp rows).Pairwise fun a b => stamp b ≤ stamp a := by
  let newer (a b : ρ) : Prop := stamp b ≤ stamp a
  have total : Std.Total newer := ⟨fun a b => Nat.le_total (stamp b) (stamp a)⟩
  have chain : IsTrans ρ newer := ⟨fun a b c one two => Nat.le_trans two one⟩
  exact List.pairwise_insertionSort newer rows

theorem listEndpoints_ok (allowed : KeyAllowed headers cfg.auth.apiKeys) (live : inp.fault = none) (w : World) :
    listEndpoints cfg inp w headers =
      .ok ((newestFirst (·.createdAt) w.db.endpoints.rows).map (·.response)) := by
  rw [listEndpoints,verifyApiKey_exact.mpr allowed]
  exact statement_ok.mpr ⟨live,rfl⟩

theorem listDlq_ok (allowed : KeyAllowed headers cfg.auth.apiKeys) (live : inp.fault = none) (w : World) :
    listDlq cfg inp w headers = .ok ((newestFirst (·.createdAt) w.db.deadLetterQueue.rows).take dlqPageLen) := by
  rw [listDlq,verifyApiKey_exact.mpr allowed]
  exact statement_ok.mpr ⟨live,rfl⟩

theorem listDlq_mem {letter : DeadLetter} (listed : listDlq cfg inp w headers = .ok page) (inside : letter ∈ page) :
    letter ∈ w.db.deadLetterQueue.rows := by
  unfold listDlq at listed
  split at listed
  · cases listed
  · obtain ⟨_,same⟩ := statement_ok.mp listed
    cases same
    exact (newestFirst_perm _ _).mem_iff.mp (List.mem_of_mem_take inside)

end
end AetherRelay
