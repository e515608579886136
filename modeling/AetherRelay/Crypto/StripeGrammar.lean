import AetherRelay.Crypto.Verify
import AetherRelay.Crypto.Framing

namespace AetherRelay.Stripe

-- The grammar the adapter's loop is to agree with. An item is what stands
-- between two commas; its field is the two sides of its first '='.
def items (signatureHeader : String) : List (List Char) := signatureHeader.toList.splitOn ','

def field (item : List Char) : Option (List Char × List Char) :=
  (splitOnce '=' item).map fun sides => (trim sides.1,trim sides.2)

def valueOf (key : String) (item : List Char) : Option (List Char) :=
  (field item).bind fun sides => if sides.1 = key.toList then some sides.2 else none

def timestamp (item : List Char) : Option Nat := (valueOf "t" item).bind parseU64

def digest (item : List Char) : Option Bytes := (valueOf "v1" item).bind hexDecode

def timestamps (signatureHeader : String) : List Nat := (items signatureHeader).filterMap timestamp

def digests (signatureHeader : String) : List Bytes := (items signatureHeader).filterMap digest

def Noise (item : List Char) : Prop :=
  ∀ sides, field item = some sides →
    (sides.1 = "t".toList → parseU64 sides.2 = none) ∧ (sides.1 = "v1".toList → hexDecode sides.2 = none)

section
variable (x : Externals)

def Accepts (secret body : Bytes) (signatureHeader : String) (toleranceSecs : Option Nat) (now : Nat) : Prop :=
  ∃ ts, (timestamps signatureHeader).getLast? = some ts ∧
    ((now : Int) - ts).natAbs ≤ toleranceSecs.getD 300 ∧
    x.hmacSha256 secret (payload ts body) ∈ digests signatureHeader

end

theorem readItem_field (seen : Option Nat × List (List Char)) (item : List Char) :
    readItem seen item = ((timestamp item).or seen.1,seen.2 ++ (valueOf "v1" item).toList) := by
  unfold readItem timestamp valueOf field
  cases splitOnce '=' item with
  | none => simp
  | some sides =>
    obtain ⟨rawKey,rawVal⟩ := sides
    by_cases time : trim rawKey = ['t']
    · cases parsed : parseU64 (trim rawVal) <;> simp [time,parsed]
    · by_cases version : trim rawKey = ['v','1'] <;> simp [time,version]

theorem foldl_readItem (list : List (List Char)) (seen : Option Nat × List (List Char)) :
    list.foldl readItem seen =
      ((list.filterMap timestamp).getLast?.or seen.1,seen.2 ++ list.filterMap (valueOf "v1")) := by
  induction list generalizing seen with
  | nil => simp
  | cons item rest ih =>
    rw [List.foldl_cons,readItem_field,ih]
    apply Prod.ext
    · cases written : timestamp item with
      | none => simp [written]
      | some ts => cases last : (rest.filterMap timestamp).getLast? <;> simp [written,last,List.getLast?_cons]
    · cases kept : valueOf "v1" item <;> simp [kept]

theorem read_header (signatureHeader : String) :
    (signatureHeader.toList.splitOn ',').foldl readItem (none,[]) =
      ((timestamps signatureHeader).getLast?,(items signatureHeader).filterMap (valueOf "v1")) := by
  rw [foldl_readItem]
  simp [timestamps,items]

section
variable (x : Externals)

theorem mem_digests : expected ∈ digests signatureHeader ↔
    ∃ sigHex ∈ (items signatureHeader).filterMap (valueOf "v1"), hexDecode sigHex = some expected := by
  simp only [digests,digest,List.mem_filterMap,Option.bind_eq_some_iff]
  constructor
  · intro ⟨item,inside,sigHex,value,decoded⟩
    exact ⟨sigHex,⟨item,inside,value⟩,decoded⟩
  · intro ⟨sigHex,⟨item,inside,value⟩,decoded⟩
    exact ⟨item,inside,sigHex,value,decoded⟩

theorem verify_accepts : verify x secret body signatureHeader toleranceSecs now = .ok () ↔
    Accepts x secret body signatureHeader toleranceSecs now := by
  unfold verify Accepts
  rw [read_header]
  cases last : (timestamps signatureHeader).getLast? with
  | none => simp
  | some ts =>
    have window : max now ts - min now ts = ((now : Int) - ts).natAbs := by omega
    simp only [window,defaultToleranceSecs,Option.some.injEq,exists_eq_left',mem_digests]
    constructor
    · intro accepted
      split at accepted
      · cases accepted
      · split at accepted
        · cases accepted
        · split at accepted
          · rename_i near found
            obtain ⟨sigHex,inside,decoded⟩ := List.any_eq_true.mp found
            exact ⟨Nat.le_of_not_lt near,sigHex,inside,of_decide_eq_true decoded⟩
          · cases accepted
    · intro ⟨near,sigHex,inside,decoded⟩
      rw [if_neg (List.ne_nil_of_mem inside),if_neg (Nat.not_lt.mpr near),if_pos]
      exact List.any_eq_true.mpr ⟨sigHex,inside,by simpa using decoded⟩

theorem verify_refuses (refused : verify x secret body signatureHeader toleranceSecs now ≠ .ok ()) :
    verify x secret body signatureHeader toleranceSecs now = .error .invalidSignature := by
  unfold verify at refused ⊢
  rw [read_header] at refused ⊢
  cases last : (timestamps signatureHeader).getLast? with
  | none => rfl
  | some ts =>
    simp only [last] at refused ⊢
    split
    · rfl
    · split
      · rfl
      · rename_i some_signature near
        rw [if_neg some_signature,if_neg near] at refused
        split
        · rename_i found
          exact absurd (if_pos found) refused
        · rfl

theorem verify_determined (times : timestamps other = timestamps signatureHeader)
    (tags : ∀ expected, expected ∈ digests other ↔ expected ∈ digests signatureHeader) :
    verify x secret body other toleranceSecs now = verify x secret body signatureHeader toleranceSecs now := by
  have same : Accepts x secret body other toleranceSecs now ↔
      Accepts x secret body signatureHeader toleranceSecs now := by
    simp only [Accepts,times,tags]
  by_cases accepted : Accepts x secret body signatureHeader toleranceSecs now
  · rw [(verify_accepts x).mpr accepted,(verify_accepts x).mpr (same.mpr accepted)]
  · rw [verify_refuses x fun ok => accepted ((verify_accepts x).mp ok),
      verify_refuses x fun ok => accepted (same.mp ((verify_accepts x).mp ok))]

end

theorem noise_silent (noise : Noise item) : timestamp item = none ∧ digest item = none := by
  unfold timestamp digest valueOf
  cases cut : field item with
  | none => exact ⟨rfl,rfl⟩
  | some sides =>
    obtain ⟨time,version⟩ := noise sides cut
    exact ⟨by simpa using time,by simpa using version⟩

theorem payload_injective (same : payload ts₁ b₁ = payload ts₂ b₂) : ts₁ = ts₂ ∧ b₁ = b₂ := by
  have stop : asBytes "." = [46] := asBytes_ofList ['.']
  have digits (n : Nat) : (46 : UInt8) ∉ asBytes (toString n) := by
    intro inside
    have known := decimal_digits n 46 inside
    exact absurd known.1 (by decide)
  unfold payload at same
  rw [stop,List.append_assoc,List.append_assoc] at same
  obtain ⟨texts,bodies⟩ := separated_inj (digits ts₁) (digits ts₂) same
  exact ⟨toString_injective (asBytes_injective texts),bodies⟩

theorem verify_grammar (x : Externals) (secret body : Bytes) (signatureHeader : String)
    (toleranceSecs : Option Nat) (now : Nat) :
    (verify x secret body signatureHeader toleranceSecs now = .ok () ↔
      Accepts x secret body signatureHeader toleranceSecs now) ∧
    (∀ other, (items other).Perm (items signatureHeader) → timestamps other = timestamps signatureHeader →
      verify x secret body other toleranceSecs now = verify x secret body signatureHeader toleranceSecs now) ∧
    (∀ other before item after, items other = before ++ item :: after → items signatureHeader = before ++ after →
      Noise item →
      verify x secret body other toleranceSecs now = verify x secret body signatureHeader toleranceSecs now) ∧
    (∀ ts₁ ts₂ b₁ b₂, payload ts₁ b₁ = payload ts₂ b₂ → ts₁ = ts₂ ∧ b₁ = b₂) := by
  refine ⟨verify_accepts x,?_,?_,?_⟩
  · intro other shuffled times
    apply verify_determined x times
    intro expected
    exact (shuffled.filterMap digest).mem_iff
  · intro other before item after longer shorter noise
    obtain ⟨noTime,noDigest⟩ := noise_silent noise
    apply verify_determined x
    · simp [timestamps,longer,shorter,noTime]
    · simp [digests,longer,shorter,noDigest]
  · intro ts₁ ts₂ b₁ b₂ same
    exact payload_injective same

end AetherRelay.Stripe
