import AetherRelay.Crypto.Verify

namespace AetherRelay

structure CreateEndpointRequest where
  name : String
  provider : String
  secret : String
  targetUrl : String
deriving DecidableEq, Repr

inductive IpAddr where
  | v4 (a b c d : Nat)
  | v6 (segments : List Nat)
deriving DecidableEq, Repr

-- std's textual address parser, as far as `parse::<IpAddr>` uses it. Each reader
-- returns the value and what it left unread.
namespace IpAddr

def readDigits (base maxDigits : Nat) (value count : Nat) : List Char → Nat × Nat × List Char
  | [] => (value,count,[])
  | c :: rest =>
    match hexDigit c with
    | some digit =>
      if digit < base ∧ count < maxDigits then readDigits base maxDigits (value*base+digit) (count+1) rest
      else (value,count,c :: rest)
    | none => (value,count,c :: rest)

def readOctet (s : List Char) : Option (Nat × List Char) :=
  match readDigits 10 4 0 0 s with
  | (value,count,rest) =>
    if count = 0 ∨ 3 < count ∨ 255 < value ∨ (1 < count ∧ s.head? = some '0') then none else some (value,rest)

def readChar (c : Char) : List Char → Option (List Char)
  | [] => none
  | d :: rest => if d = c then some rest else none

def readV4 (s : List Char) : Option ((Nat × Nat × Nat × Nat) × List Char) := do
  let (a,s) ← readOctet s
  let s ← readChar '.' s
  let (b,s) ← readOctet s
  let s ← readChar '.' s
  let (c,s) ← readOctet s
  let s ← readChar '.' s
  let (d,s) ← readOctet s
  return ((a,b,c,d),s)

def readGroup (s : List Char) : Option (Nat × List Char) :=
  match readDigits 16 5 0 0 s with
  | (value,count,rest) => if count = 0 ∨ 4 < count then none else some (value,rest)

-- Colon-separated groups, at most `limit` of them, of which the last two may be
-- written as an IPv4 address. `seen` says whether a separator is due.
def readGroups : Nat → Bool → List Char → List Nat × Bool × List Char
  | 0,_,s => ([],false,s)
  | limit+1,seen,s =>
    match if seen then readChar ':' s else some s with
    | none => ([],false,s)
    | some body =>
      match if 0 < limit then readV4 body else none with
      | some ((a,b,c,d),rest) => ([a*256+b,c*256+d],true,rest)
      | none =>
        match readGroup body with
        | none => ([],false,s)
        | some (group,rest) =>
          let (groups,mapped,left) := readGroups limit true rest
          (group :: groups,mapped,left)

def readV6 (s : List Char) : Option (List Nat × List Char) :=
  match readGroups 8 false s with
  | (head,mapped,rest) =>
    if head.length = 8 then some (head,rest)
    else if mapped then none
    else do
      let rest ← readChar ':' rest
      let rest ← readChar ':' rest
      let (tail,_,rest) := readGroups (8 - (head.length+1)) false rest
      return (head ++ List.replicate (8 - head.length - tail.length) 0 ++ tail,rest)

def parse (s : List Char) : Option IpAddr :=
  match readV4 s with
  | some ((a,b,c,d),[]) => some (.v4 a b c d)
  | _ => match readV6 s with
    | some (segments,[]) => some (.v6 segments)
    | _ => none

end IpAddr

def isBlockedV4 (a b c d : Nat) : Bool :=
  a = 127 ||                                                          -- is_loopback
  (a = 10 || (a = 172 && 16 ≤ b && b ≤ 31) || (a = 192 && b = 168)) || -- is_private
  (a = 169 && b = 254) ||                                             -- is_link_local
  (a = 255 && b = 255 && c = 255 && d = 255) ||                       -- is_broadcast
  (a = 0 && b = 0 && c = 0 && d = 0) ||                               -- is_unspecified
  ((a = 192 && b = 0 && c = 2) || (a = 198 && b = 51 && c = 100) || (a = 203 && b = 0 && c = 113)) ||
  (a = 100 && 64 ≤ b && b < 128)

def toIpv4Mapped (segments : List Nat) : Option (Nat × Nat × Nat × Nat) :=
  match segments with
  | [0,0,0,0,0,0xffff,ab,cd] => some (ab / 256,ab % 256,cd / 256,cd % 256)
  | _ => none

def isBlockedIp : IpAddr → Bool
  | .v4 a b c d => isBlockedV4 a b c d
  | .v6 segments =>
    segments = [0,0,0,0,0,0,0,1] || segments = [0,0,0,0,0,0,0,0] ||
    (segments.headD 0 &&& 0xfe00) = 0xfc00 || (segments.headD 0 &&& 0xffc0) = 0xfe80 ||
    (toIpv4Mapped segments).any (fun (a,b,c,d) => isBlockedV4 a b c d)

def isBlockedHost (host : String) : Bool :=
  let bare := ((host.toList.dropWhile (· = '[')).reverse.dropWhile (· = ']')).reverse
  bare.map Char.toLower = "localhost".toList || ".localhost".toList.isSuffixOf bare ||
    (IpAddr.parse bare).any isBlockedIp

def validateTargetUrl (x : Externals) (raw : String) : Except AppError Unit :=
  match x.parseUrl raw with
  | .error e => .error (.badRequest ("target_url is not a valid URL: " ++ e))
  | .ok url =>
    if url.scheme = "http" ∨ url.scheme = "https" then
      match url.host with
      | none => .error (.badRequest "target_url must have a host")
      | some host =>
        if isBlockedHost host then
          .error (.badRequest ("target_url host " ++ host ++
            " is not routable from the relay (loopback, private, or link-local address)"))
        else .ok ()
    else .error (.badRequest ("target_url scheme must be http or https, got " ++ url.scheme))

def validateNewEndpoint (x : Externals) (req : CreateEndpointRequest) : Except AppError Unit := do
  if trim req.name.toList = [] then throw (.badRequest "name must not be empty")
  let _ ← Provider.fromStr x req.provider
  if req.secret = "" then throw (.badRequest "secret must not be empty")
  validateTargetUrl x req.targetUrl

end AetherRelay
