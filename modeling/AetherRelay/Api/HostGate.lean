import AetherRelay.Api.IpText

namespace AetherRelay

structure DomainName where
  name : List Char
  lower : name.map Char.toLower = name
  plain : ∀ c ∈ name, c ≠ '[' ∧ c ≠ ']' ∧ c ≠ ':'
  named : ¬IpAddr.EndsInNumber name

inductive UrlHost where
  | domain (name : DomainName)
  | ipv4 (a b c d : UInt8)
  | ipv6 (segments : Vector UInt16 8)

def Localhost (name : List Char) : Prop :=
  name.map Char.toLower = "localhost".toList ∨ ".localhost".toList <:+ name.map Char.toLower

namespace UrlHost

def Prints : UrlHost → String → Prop
  | .domain called,text => text.toList = called.name
  | .ipv4 a b c d,text => text.toList = IpAddr.printV4 a.toNat b.toNat c.toNat d.toNat
  | .ipv6 segments,text => ∃ literal, IpAddr.LiteralV6 (segments.toList.map UInt16.toNat) literal ∧
      text.toList = '[' :: (literal ++ [']'])

def RootedLocal : UrlHost → Prop
  | .domain called => called.name.getLast? = some '.' ∧ Localhost called.name.dropLast
  | _ => False

def Refused : UrlHost → Prop
  | .domain called => Localhost called.name ∨ (domain called).RootedLocal
  | .ipv4 a b c d => isBlockedIp (.v4 a.toNat b.toNat c.toNat d.toNat) = true
  | .ipv6 segments => isBlockedIp (.v6 (segments.toList.map UInt16.toNat)) = true

end UrlHost

def Web (url : Url) : Prop := url.scheme = "http" ∨ url.scheme = "https"

-- The URL parser, seen through what it writes: `host` is what a text denotes,
-- whatever spelling it has there.
structure Whatwg (x : Externals) (host : String → Option UrlHost) : Prop where
  hosted : x.parseUrl raw = .ok url → Web url → (host raw).isSome = url.host.isSome
  printed : x.parseUrl raw = .ok url → Web url → url.host = some text → host raw = some h → h.Prints text

def HostGate (x : Externals) (host : String → Option UrlHost) (raw : String) : Prop :=
  validateTargetUrl x raw = .ok () ↔
    ∃ url, x.parseUrl raw = .ok url ∧ Web url ∧ ∃ h, host raw = some h ∧ ¬h.Refused

def NamesRootedLocal (x : Externals) (host : String → Option UrlHost) (raw : String) : Prop :=
  ∃ url, x.parseUrl raw = .ok url ∧ Web url ∧ ∃ h, host raw = some h ∧ h.RootedLocal

section host

theorem UrlHost.RootedLocal.refused (rooted : UrlHost.RootedLocal h) : h.Refused := by
  cases h with
  | domain called => exact .inr rooted
  | ipv4 a b c d => cases rooted
  | ipv6 segments => cases rooted

def unbracket (host : List Char) : List Char :=
  ((host.dropWhile (· = '[')).reverse.dropWhile (· = ']')).reverse

theorem dropWhile_absent {s : List Char} (absent : c ∉ s) : s.dropWhile (· = c) = s := by
  cases s with
  | nil => rfl
  | cons d rest =>
    have apart : d ≠ c := fun same => absent (same ▸ List.mem_cons_self)
    rw [List.dropWhile_cons_of_neg (by simpa using apart)]

theorem unbracket_plain (opened : '[' ∉ s) (closed : ']' ∉ s) : unbracket s = s := by
  unfold unbracket
  rw [dropWhile_absent opened,dropWhile_absent (by simpa using closed),List.reverse_reverse]

theorem unbracket_literal (opened : '[' ∉ s) (closed : ']' ∉ s) : unbracket ('[' :: (s ++ [']'])) = s := by
  have opened' : '[' ∉ s ++ [']'] := by simpa using opened
  unfold unbracket
  rw [List.dropWhile_cons_of_pos (by simp),dropWhile_absent opened',List.reverse_append,List.reverse_singleton,
    List.singleton_append,List.dropWhile_cons_of_pos (by simp),dropWhile_absent (by simpa using closed),
    List.reverse_reverse]

theorem localhost_letter (own : Localhost s) : ∃ c ∈ s, c.toLower = 't' := by
  have letter : 't' ∈ s.map Char.toLower := by
    rcases own with whole | suffix
    · rw [whole]
      decide
    · exact suffix.subset (by decide)
  exact List.mem_map.mp letter

theorem address_unnamed (letters : ∀ c ∈ s, c.toLower ≠ 't') : ¬Localhost s := by
  intro own
  obtain ⟨c,inside,letter⟩ := localhost_letter own
  exact letters c inside letter

theorem hexChar_letter : ∀ digit < 16, (hexChar digit).toLower ≠ 't' := by decide

theorem isBlockedHost_iff (text : String) :
    isBlockedHost text = true ↔
      (unbracket text.toList).map Char.toLower = "localhost".toList ∨ ".localhost".toList <:+ unbracket text.toList ∨
        ∃ ip, IpAddr.parse (unbracket text.toList) = some ip ∧ isBlockedIp ip = true := by
  unfold isBlockedHost unbracket
  simp only [Bool.or_eq_true,decide_eq_true_eq,List.isSuffixOf_iff_suffix,Option.any_eq_true,or_assoc]

theorem isBlockedHost_address (bare : unbracket text.toList = s) (letters : ∀ c ∈ s, c.toLower ≠ 't')
    (parsed : IpAddr.parse s = some ip) : isBlockedHost text = true ↔ isBlockedIp ip = true := by
  have unnamed := address_unnamed letters
  rw [isBlockedHost_iff,bare]
  constructor
  · intro blocked
    rcases blocked with whole | suffix | ⟨found,read,blocked⟩
    · exact absurd (.inl whole) unnamed
    · exact absurd rfl (letters 't' (suffix.subset (by decide)))
    · rw [parsed] at read
      cases read
      exact blocked
  · intro blocked
    exact .inr (.inr ⟨ip,parsed,blocked⟩)

theorem isBlockedHost_domain (called : DomainName) (written : text.toList = called.name) :
    isBlockedHost text = true ↔ Localhost called.name := by
  have opened : '[' ∉ called.name := fun inside => (called.plain _ inside).1 rfl
  have closed : ']' ∉ called.name := fun inside => (called.plain _ inside).2.1 rfl
  have uncoloned : ':' ∉ called.name := fun inside => (called.plain _ inside).2.2 rfl
  have unread := IpAddr.parse_name uncoloned called.named
  rw [isBlockedHost_iff,written,unbracket_plain opened closed,unread]
  unfold Localhost
  rw [called.lower]
  simp

theorem Localhost.unrooted (own : Localhost name) : name.getLast? ≠ some '.' := by
  intro rooted
  have last : (name.map Char.toLower).getLast? = some '.' := by
    rw [List.getLast?_map,rooted]
    rfl
  rcases own with whole | ⟨front,suffix⟩
  · rw [whole] at last
    exact absurd last (by decide)
  · rw [← suffix,List.getLast?_append] at last
    exact absurd last (by simp)

theorem isBlockedHost_printed (printed : UrlHost.Prints h text) :
    isBlockedHost text = true ↔ h.Refused ∧ ¬h.RootedLocal := by
  cases h with
  | domain called =>
    rw [isBlockedHost_domain called printed]
    constructor
    · intro own
      exact ⟨.inl own,fun rooted => own.unrooted rooted.1⟩
    · rintro ⟨own | rooted,unrooted⟩
      · exact own
      · exact absurd rooted unrooted
  | ipv4 a b c d =>
    have absent : ∀ k, hexDigit k = none → k ≠ '.' → k ∉ IpAddr.printV4 a.toNat b.toNat c.toNat d.toNat := by
      intro k sign apart inside
      exact IpAddr.printV4_all (p := (· ≠ k)) (IpAddr.hexChar_sign sign) apart.symm k inside rfl
    have bare : unbracket text.toList = IpAddr.printV4 a.toNat b.toNat c.toNat d.toNat := by
      have written : text.toList = IpAddr.printV4 a.toNat b.toNat c.toNat d.toNat := printed
      rw [written]
      exact unbracket_plain (absent _ (by decide) (by decide)) (absent _ (by decide) (by decide))
    rw [isBlockedHost_address bare (IpAddr.printV4_all hexChar_letter (by decide))
      (IpAddr.parse_dotted a.toNat_lt b.toNat_lt c.toNat_lt d.toNat_lt)]
    simp [UrlHost.Refused,UrlHost.RootedLocal]
  | ipv6 segments =>
    obtain ⟨literal,address,written⟩ := printed
    have absent : ∀ k, hexDigit k = none → k ≠ ':' → k ∉ literal := by
      intro k sign apart inside
      exact address.all (p := (· ≠ k)) (IpAddr.hexChar_sign sign) apart.symm k inside rfl
    have bare : unbracket text.toList = literal := by
      rw [written]
      exact unbracket_literal (absent _ (by decide) (by decide)) (absent _ (by decide) (by decide))
    have sized : ∀ segment ∈ segments.toList.map UInt16.toNat, segment < 65536 := by
      intro segment inside
      obtain ⟨word,_,rfl⟩ := List.mem_map.mp inside
      exact word.toNat_lt
    rw [isBlockedHost_address bare (address.all hexChar_letter (by decide)) (IpAddr.parse_literal address sized)]
    simp [UrlHost.Refused,UrlHost.RootedLocal]

theorem validateTargetUrl_ok (x : Externals) (raw : String) :
    validateTargetUrl x raw = .ok () ↔
      ∃ url, x.parseUrl raw = .ok url ∧ Web url ∧ ∃ text, url.host = some text ∧ ¬isBlockedHost text = true := by
  unfold validateTargetUrl
  cases parsed : x.parseUrl raw with
  | error e => simp
  | ok url =>
    dsimp only
    by_cases web : Web url
    · rw [if_pos (show _ ∨ _ from web)]
      cases hosted : url.host with
      | none => simp [hosted]
      | some text =>
        by_cases blocked : isBlockedHost text = true
        · simp [hosted,blocked]
        · simp [hosted,blocked,web]
    · rw [if_neg (show ¬(_ ∨ _) from web)]
      simp [web]

end host

section gate

variable {x : Externals} {host : String → Option UrlHost} {raw : String}

theorem Whatwg.written (parser : Whatwg x host) (parsed : x.parseUrl raw = .ok url) (web : Web url)
    (meant : host raw = some h) :
    ∃ text, url.host = some text ∧ (isBlockedHost text = true ↔ h.Refused ∧ ¬h.RootedLocal) := by
  have present : url.host.isSome = true := by
    rw [← parser.hosted parsed web,meant]
    rfl
  obtain ⟨text,written⟩ := Option.isSome_iff_exists.mp present
  exact ⟨text,written,isBlockedHost_printed (parser.printed parsed web written meant)⟩

theorem Whatwg.meant (parser : Whatwg x host) (parsed : x.parseUrl raw = .ok url) (web : Web url)
    (written : url.host = some text) :
    ∃ h, host raw = some h ∧ (isBlockedHost text = true ↔ h.Refused ∧ ¬h.RootedLocal) := by
  have present : (host raw).isSome = true := by
    rw [parser.hosted parsed web,written]
    rfl
  obtain ⟨h,meant⟩ := Option.isSome_iff_exists.mp present
  exact ⟨h,meant,isBlockedHost_printed (parser.printed parsed web written meant)⟩

-- The gate is exact apart from the one spelling of the machine's own name that
-- the suffix test does not see.
theorem host_gate_exact (parser : Whatwg x host) (raw : String) :
    HostGate x host raw ↔ ¬NamesRootedLocal x host raw := by
  unfold HostGate NamesRootedLocal
  rw [validateTargetUrl_ok]
  constructor
  · rintro gate ⟨url,parsed,web,h,meant,rooted⟩
    obtain ⟨text,written,caught⟩ := parser.written parsed web meant
    have missed : ¬isBlockedHost text = true := fun blocked => (caught.mp blocked).2 rooted
    obtain ⟨url',_,_,h',meant',allowed⟩ := gate.mp ⟨url,parsed,web,text,written,missed⟩
    cases meant.symm.trans meant'
    exact allowed rooted.refused
  · intro unrooted
    constructor
    · rintro ⟨url,parsed,web,text,written,missed⟩
      obtain ⟨h,meant,caught⟩ := parser.meant parsed web written
      refine ⟨url,parsed,web,h,meant,?_⟩
      intro refused
      exact missed (caught.mpr ⟨refused,fun rooted => unrooted ⟨url,parsed,web,h,meant,rooted⟩⟩)
    · rintro ⟨url,parsed,web,h,meant,allowed⟩
      obtain ⟨text,written,caught⟩ := parser.written parsed web meant
      exact ⟨url,parsed,web,text,written,fun blocked => allowed (caught.mp blocked).1⟩

theorem IpAddr.EndsInNumber.last (numbered : IpAddr.EndsInNumber name) : ∃ c, name.getLast? = some c ∧ c.isDigit := by
  obtain ⟨front,label,cut,filled,each⟩ := numbered
  refine ⟨label.getLast filled,?_,each _ (List.getLast_mem filled)⟩
  rw [cut,List.getLast?_append,List.getLast?_cons,List.getLast?_eq_getLast_of_ne_nil filled]
  rfl

def rootedName : DomainName where
  name := "localhost.".toList
  lower := by decide
  plain := by simp
  named numbered := by
    obtain ⟨c,last,digit⟩ := IpAddr.EndsInNumber.last numbered
    cases last
    exact absurd digit (by decide)

def resolver : Externals := { Externals.tabletop with
  parseUrl := fun raw =>
    if raw = "http://0x7f.1/" then .ok ⟨"http",some "127.0.0.1"⟩
    else if raw = "http://localhost./" then .ok ⟨"http",some "localhost."⟩
    else .error "relative URL without a base" }

def denoted (raw : String) : Option UrlHost :=
  if raw = "http://0x7f.1/" then some (.ipv4 127 0 0 1)
  else if raw = "http://localhost./" then some (.domain rootedName)
  else none

theorem resolver_whatwg : Whatwg resolver denoted := by
  have number : "127.0.0.1".toList = IpAddr.printV4 127 0 0 1 := by
    simp [IpAddr.printV4,IpAddr.printNumber,IpAddr.numeral]
    decide
  constructor
  · intro raw url parsed _
    simp only [resolver] at parsed
    unfold denoted
    by_cases first : raw = "http://0x7f.1/"
    · rw [if_pos first] at parsed ⊢
      cases parsed
      rfl
    · rw [if_neg first] at parsed ⊢
      by_cases second : raw = "http://localhost./"
      · rw [if_pos second] at parsed ⊢
        cases parsed
        rfl
      · rw [if_neg second] at parsed
        cases parsed
  · intro raw url text h parsed _ written means
    simp only [resolver] at parsed
    unfold denoted at means
    by_cases first : raw = "http://0x7f.1/"
    · rw [if_pos first] at parsed means
      cases parsed
      cases written
      cases means
      exact number
    · rw [if_neg first] at parsed means
      by_cases second : raw = "http://localhost./"
      · rw [if_pos second] at parsed means
        cases parsed
        cases written
        cases means
        rfl
      · rw [if_neg second] at parsed
        cases parsed

theorem host_gate_exact_hexadecimal :
    HostGate resolver denoted "http://0x7f.1/" ∧ ¬NamesRootedLocal resolver denoted "http://0x7f.1/" := by
  have unrooted : ¬NamesRootedLocal resolver denoted "http://0x7f.1/" := by
    rintro ⟨url,_,_,h,means,rooted⟩
    cases (show some (UrlHost.ipv4 127 0 0 1) = some h from means)
    exact rooted
  exact ⟨(host_gate_exact resolver_whatwg _).mpr unrooted,unrooted⟩

theorem rooted_localhost_accepted :
    Whatwg resolver denoted ∧ validateTargetUrl resolver "http://localhost./" = .ok () ∧
      ¬HostGate resolver denoted "http://localhost./" := by
  have accepted : validateTargetUrl resolver "http://localhost./" = .ok () := by
    rw [validateTargetUrl_ok]
    exact ⟨⟨"http",some "localhost."⟩,rfl,.inl rfl,"localhost.",rfl,by decide⟩
  refine ⟨resolver_whatwg,accepted,?_⟩
  intro gate
  obtain ⟨url,_,_,h,means,allowed⟩ := gate.mp accepted
  cases (show some (UrlHost.domain rootedName) = some h from means)
  apply allowed
  right
  exact ⟨rfl,.inl (by decide)⟩

end gate

end AetherRelay
