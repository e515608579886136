import Mathlib.Logic.Function.Basic
import AetherRelay.Db.Models

namespace AetherRelay

-- serde_json::Value. Numbers are kept as their text: nothing here computes with them.
inductive Json where
  | null
  | bool (value : Bool)
  | number (text : String)
  | string (value : String)
  | array (items : List Json)
  | object (fields : List (String × Json))

namespace Json

def index (json : Json) (name : String) : Json :=
  match json with
  | .object fields => ((fields.find? (fun field => field.1 = name)).map (·.2)).getD .null
  | _ => .null

def asStr : Json → Option String
  | .string value => some value
  | _ => none

end Json

structure Url where
  scheme : String
  host : Option String
deriving DecidableEq, Repr

-- The crates the relay calls and does not contain. Only the id generator comes
-- with a law here; what else a result needs of them it says for itself.
structure Externals where
  hmacSha256 : Bytes → Bytes → Bytes
  sha512 : Bytes → Bytes
  ed25519Key : Bytes → Bool
  ed25519Verify : Bytes → Bytes → Bytes → Bool
  parseJson : Bytes → Option Json
  renderHeaders : List (String × String) → String
  parseUrl : String → Except String Url
  -- str::to_lowercase on a text that is not all ASCII
  lowercaseUnicode : String → String
  -- the n-th value Uuid::now_v7 returns
  nowV7 : Nat → Uuid
  nowV7_never_repeats : Function.Injective nowV7

namespace Externals

def tally (n : Nat) : Uuid := String.ofList (List.replicate (n+1) '1')

theorem tally_injective : Function.Injective tally := by
  intro m n same
  simpa [tally] using congrArg String.length same

theorem tally_grows : StrictMono tally := by
  apply strictMono_nat_of_lt_succ
  intro n
  rw [String.lt_iff_toList_lt]
  simp only [tally,String.toList_ofList]
  induction n with
  | zero => decide
  | succ n ih =>
    rw [List.replicate_succ,List.replicate_succ]
    exact List.cons_lt_cons_iff.mpr (.inr ⟨rfl,ih⟩)

-- An instance for evaluating runs. It knows one message, the bytes of `{}` under
-- the key `secret`, and one URL, and answers on them what the crates answer.
def tabletop : Externals where
  hmacSha256 key message :=
    if key = [115,101,99,114,101,116] ∧ message = [123,125] then
      [119,50,89,2,202,202,129,45,194,89,115,58,172,208,70,183,56,23,55,44,119,123,141,149,180,2,100,116,116,81,110,19]
    else []
  sha512 _ := []
  ed25519Key _ := false
  ed25519Verify _ _ _ := false
  parseJson _ := none
  renderHeaders _ := "{}"
  parseUrl raw :=
    if raw = "https://hooks.example.com/in" then .ok ⟨"https",some "hooks.example.com"⟩
    else .error "relative URL without a base"
  lowercaseUnicode := id
  nowV7 := tally
  nowV7_never_repeats := tally_injective

end Externals
end AetherRelay
