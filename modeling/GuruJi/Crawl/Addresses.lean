import GuruJi.Lib.Text
import Mathlib.Data.List.DropRight

/-!
# URLs and addresses

What `urlparse` finds in the network location of a URL, which addresses are public, and the network
location that pins a request to an address.

* `hostname_pinnedNetloc`: a request to a pinned URL goes to the address it is pinned to.
-/

namespace GuruJi.Crawl

open GuruJi.Lib

/-- A URL as `urlparse` splits it: the scheme in lower case, and after the path the rest. -/
structure Url where
  scheme : String
  netloc : String
  path : String
  rest : String
  deriving DecidableEq

/-! ## The network location -/

/-- What stands before the last `@`. -/
def userinfo (netloc : String) : Option (List Char) :=
  if '@' ∈ netloc.toList then some ((netloc.toList.rdropWhile (· ≠ '@')).dropLast) else none

/-- `parsed.username or parsed.password`. -/
def hasCredentials (netloc : String) : Bool :=
  (userinfo netloc).any fun info => info.takeWhile (· ≠ ':') ≠ [] || (info.dropWhile (· ≠ ':')).drop 1 ≠
      []

/-- `_hostinfo`: the texts of the host and of the port. -/
def hostinfo (netloc : String) : List Char × List Char :=
  let info := netloc.toList.rtakeWhile (· ≠ '@')
  if '[' ∈ info then
    let bracketed := (info.dropWhile (· ≠ '[')).drop 1
    (bracketed.takeWhile (· ≠ ']'), (((bracketed.dropWhile (· ≠ ']')).drop 1).dropWhile (· ≠ ':')).drop
        1)
  else (info.takeWhile (· ≠ ':'), (info.dropWhile (· ≠ ':')).drop 1)

/-- `parsed.hostname`: in lower case, but for the zone of an address. -/
def hostname (lower : String → String) (netloc : String) : Option String :=
  let host := (hostinfo netloc).1
  if host = [] then none
  else some (lower (String.ofList (host.takeWhile (· ≠ '%'))) ++
    String.ofList (host.dropWhile (· ≠ '%')))

/-- `parsed.port`; `none` where it raises. -/
def port (netloc : String) : Option (Option Nat) :=
  let text := (hostinfo netloc).2
  let number := text.foldl (fun n c => 10 * n + (c.toNat - '0'.toNat)) 0
  if text = [] then some none else if text.all Char.isDigit ∧ number ≤ 65535 then some (some number) else
    none

/-! ## Addresses -/

/-- An address of the `ipaddress` module. -/
inductive IP where
  | v4 (bits : BitVec 32)
  | v6 (bits : BitVec 128)
  deriving DecidableEq

/-- `ip_address`, which may raise, `is_global` and `is_multicast`. -/
structure IpAddress where
  parse : String → Option IP
  isGlobal : IP → Bool
  isMulticast : IP → Bool

/-- The IPv4 address in an IPv6 address: `ipv4_mapped`, `sixtofour`, `teredo` or NAT64. -/
def embedded (bits : BitVec 128) : Option (BitVec 32) :=
  if bits.extractLsb' 32 96 = 0xffff then some (bits.extractLsb' 0 32)
  else if bits.extractLsb' 112 16 = 0x2002 then some (bits.extractLsb' 80 32)
  else if bits.extractLsb' 96 32 = 0x20010000 then some (~~~ bits.extractLsb' 0 32)
  else if bits.extractLsb' 32 96 = 0x64ff9b0000000000000000 then some (bits.extractLsb' 0 32)
  else none

/-- `_NON_PUBLIC_NETWORKS`. -/
def nonPublic : IP → Bool
  | .v4 bits => bits.extractLsb' 22 10 = 0x191
  | .v6 bits => bits.extractLsb' 118 10 = 0x3fb

def plainlyPublic (ipaddress : IpAddress) (ip : IP) : Bool :=
  !nonPublic ip && ipaddress.isGlobal ip && !ipaddress.isMulticast ip

/-- `is_public_address`, of an address that was parsed. -/
def isPublic (ipaddress : IpAddress) : IP → Bool
  | .v4 bits => plainlyPublic ipaddress (.v4 bits)
  | .v6 bits => plainlyPublic ipaddress (((embedded bits).map .v4).getD (.v6 bits))

/-- `is_public_address`. -/
def isPublicAddress (ipaddress : IpAddress) (address : String) : Bool :=
  (ipaddress.parse (String.ofList (address.toList.takeWhile (· ≠ '%')))).any (isPublic ipaddress)

/-! ## Pinning -/

/-- A digit of an address as resolvers write them. -/
def isNumeric (c : Char) : Bool := c.isDigit || ('a' ≤ c && c ≤ 'f') || c = '.' || c = ':'

/-- The texts of addresses: numeric up to a zone. -/
structure IsAddress (text : String) : Prop where
  nonempty : text ≠ ""
  plain : ∀ c ∈ text.toList, c ≠ '@' ∧ c ≠ '[' ∧ c ≠ ']'
  numeric : ∀ c ∈ text.toList.takeWhile (· ≠ '%'), isNumeric c = true

def Address := { text : String // IsAddress text }

/-- `literal`. -/
def literal (address : String) : String := if ':' ∈ address.toList then "[" ++ address ++ "]" else
    address

def portText : Option Nat → String
  | none => ""
  | some port => ":" ++ Nat.repr port

/-- `netloc` of a pinned URL. -/
def pinnedNetloc (address : String) (port : Option Nat) : String := literal address ++ portText port

theorem portText_plain {port : Option Nat} {c : Char} (h : c ∈ (portText port).toList) : c ≠ '@' ∧
  c ≠ '[' := by cases port with
  | none => cases h
  | some n =>
    rw [portText, String.toList_append, List.mem_append] at h
    rcases h with h | h
    · obtain rfl : c = ':' := by simpa using h
      decide
    · rw [Nat.repr, String.toList_ofList] at h
      have hdigit : c.isDigit = true := @Nat.isDigit_of_mem_toDigits 10 n c (by decide) (by decide) h
      constructor
      · rintro rfl
        cases hdigit
      · rintro rfl
        cases hdigit

theorem takeWhile_portText (port : Option Nat) : (portText port).toList.takeWhile (· ≠ ':') = [] := by
  cases port with
  | none => rfl
  | some n =>
    rw [portText, String.toList_append]
    rfl

theorem rtakeWhile_eq_self {α : Type*} {p : α → Bool} {l : List α} (h : ∀ x ∈ l, p x = true) :
    l.rtakeWhile p = l := by
  rw [List.rtakeWhile_eq_self_iff]
  exact h

/-- **A pinned request goes to its address.** -/
theorem hostname_pinnedNetloc {lower : String → String} {address : String} (h : IsAddress address)
    (hlower : ∀ text : String, (∀ c ∈ text.toList, isNumeric c = true) → lower text = text)
        (port : Option Nat) :
    hostname lower (pinnedNetloc address port) = some address := by
  have hall : ∀ {text : String}, (∀ c ∈ text.toList, c ≠ '@') →
      (text ++ portText port).toList.rtakeWhile (· ≠ '@') = text.toList ++ (portText port).toList := by
    intro text htext
    rw [String.toList_append]
    refine rtakeWhile_eq_self fun c hc => decide_eq_true ?_
    rcases List.mem_append.mp hc with hc | hc
    · exact htext c hc
    · exact (portText_plain hc).1
  have hhost : (hostinfo (pinnedNetloc address port)).1 = address.toList := by
    unfold hostinfo pinnedNetloc literal
    by_cases hcolon : ':' ∈ address.toList
    · have hbracketed : ("[" ++ address ++ "]").toList = '[' :: (address.toList ++ [']']) := by
        rw [String.toList_append, String.toList_append]
        rfl
      rw [if_pos hcolon, hall, hbracketed, List.cons_append, if_pos List.mem_cons_self]
      · show ((address.toList ++ [']'] ++ (portText port).toList).takeWhile (· ≠ ']')) = _
        rw [List.append_assoc, List.takeWhile_append_of_pos fun c hc =>
          decide_eq_true (h.plain c hc).2.2]
        exact List.append_nil _
      · intro c hc
        rw [hbracketed, List.mem_cons, List.mem_append, List.mem_singleton] at hc
        rcases hc with rfl | hc | rfl
        · decide
        · exact (h.plain c hc).1
        · decide
    · rw [if_neg hcolon, hall fun c hc => (h.plain c hc).1, if_neg]
      · rw [List.takeWhile_append_of_pos, takeWhile_portText, List.append_nil]
        intro c hc
        exact decide_eq_true fun heq => hcolon (heq ▸ hc)
      · intro hmem
        rcases List.mem_append.mp hmem with hmem | hmem
        · exact (h.plain _ hmem).2.1 rfl
        · exact (portText_plain hmem).2 rfl
  unfold hostname
  rw [hhost, if_neg (by simpa using h.nonempty), hlower _ (by simpa using h.numeric),
    ← String.ofList_append, List.takeWhile_append_dropWhile, String.ofList_toList]

end GuruJi.Crawl
