import AetherRelay.Externals

namespace AetherRelay

-- str::as_bytes
def asBytes (s : String) : Bytes := s.toUTF8.toList

-- char::is_whitespace, the Unicode property White_Space
def isWhitespace (c : Char) : Bool :=
  let n := c.toNat
  (9 ≤ n && n ≤ 13) || n = 0x20 || n = 0x85 || n = 0xA0 || n = 0x1680 ||
    (0x2000 ≤ n && n ≤ 0x200A) || n = 0x2028 || n = 0x2029 || n = 0x202F || n = 0x205F || n = 0x3000

-- str::trim
def trim (s : List Char) : List Char :=
  ((s.dropWhile isWhitespace).reverse.dropWhile isWhitespace).reverse

-- str::splitn(2, c) when it yields two parts
def splitOnce (c : Char) (s : List Char) : Option (List Char × List Char) :=
  match s.dropWhile (· ≠ c) with
  | [] => none
  | _ :: rest => some (s.takeWhile (· ≠ c),rest)

def hexDigit (c : Char) : Option Nat :=
  if '0' ≤ c ∧ c ≤ '9' then some (c.toNat - '0'.toNat)
  else if 'a' ≤ c ∧ c ≤ 'f' then some (c.toNat - 'a'.toNat + 10)
  else if 'A' ≤ c ∧ c ≤ 'F' then some (c.toNat - 'A'.toNat + 10)
  else none

-- hex::decode. A character outside ASCII is not a digit, so reading characters
-- instead of bytes fails on the same strings.
def hexDecode : List Char → Option Bytes
  | [] => some []
  | [_] => none
  | high :: low :: rest => do
    let h ← hexDigit high
    let l ← hexDigit low
    let bytes ← hexDecode rest
    return UInt8.ofNat (16*h+l) :: bytes

def hexChar (n : Nat) : Char := if n < 10 then Char.ofNat ('0'.toNat + n) else Char.ofNat ('a'.toNat + (n-10))

-- hex::encode
def hexEncode (bytes : Bytes) : String :=
  String.ofList (bytes.flatMap fun b => [hexChar (b.toNat / 16),hexChar (b.toNat % 16)])

def decimalDigits : List Char → Option Nat
  | digits => digits.foldlM (fun n c => if '0' ≤ c ∧ c ≤ '9' then some (10*n + (c.toNat - '0'.toNat)) else none) 0

-- str::parse::<u64>: an optional plus sign, then at least one digit, in range.
def parseU64 (s : List Char) : Option Nat :=
  let digits := match s with | '+' :: rest => rest | other => other
  if digits = [] then none
  else (decimalDigits digits).filter (· < 2^64)

-- Header names are stored in lower case and a name may occur several times.
abbrev HeaderMap := List (String × Bytes)

namespace HeaderMap

-- HeaderMap::get answers the first value of a name.
def get (headers : HeaderMap) (name : String) : Option Bytes :=
  (headers.find? (fun header => header.1 = name)).map (·.2)

end HeaderMap

-- The http crate's own is_visible_ascii, behind HeaderValue::to_str.
def isVisibleAscii (b : UInt8) : Bool := (32 ≤ b && b < 127) || b = 9

def toStr (value : Bytes) : Option String :=
  if value.all isVisibleAscii then some (String.ofList (value.map fun b => Char.ofNat b.toNat)) else none

-- headers.get(name).and_then(|v| v.to_str().ok())
def headerText (headers : HeaderMap) (name : String) : Option String := (headers.get name).bind toStr

def VisibleAscii (c : Char) : Prop := (32 ≤ c.toNat ∧ c.toNat < 127) ∨ c.toNat = 9

theorem toStr_visible (read : toStr value = some s) (member : c ∈ s.toList) : VisibleAscii c := by
  unfold toStr at read
  split at read
  · rename_i visible
    cases read
    rw [String.toList_ofList] at member
    obtain ⟨b,inside,rfl⟩ := List.mem_map.mp member
    have known := List.all_eq_true.mp visible b inside
    have small : b.toNat.isValidChar := .inl (by have := b.toNat_lt; omega)
    have same : (Char.ofNat b.toNat).toNat = b.toNat := by
      rw [Char.ofNat,dif_pos small]
      rfl
    unfold VisibleAscii
    rw [same]
    simpa [isVisibleAscii,UInt8.le_iff_toNat_le,UInt8.lt_iff_toNat_lt,← UInt8.toNat_inj] using known
  · cases read

end AetherRelay
