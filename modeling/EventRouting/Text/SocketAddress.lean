namespace EventRouting.Text

structure Ipv4 where
  octets : List UInt8
  deriving DecidableEq, Repr

structure Ipv6 where
  groups : List UInt16
  /-- The number of the link that the address is meant for. -/
  scope : UInt32 := 0
  deriving DecidableEq, Repr

inductive IpAddress where
  | v4 (a : Ipv4)
  | v6 (a : Ipv6)
  deriving DecidableEq, Repr

structure SocketAddress where
  ip : IpAddress
  port : UInt16
  deriving DecidableEq, Repr

namespace SocketAddress

/-- The value of a digit to base ten or sixteen. -/
def digit? (base : Nat) (c : Char) : Option Nat :=
  let n :=
    if c.isDigit then c.toNat - '0'.toNat
    else if 'a' ≤ c ∧ c ≤ 'f' then c.toNat - 'a'.toNat + 10
    else if 'A' ≤ c ∧ c ≤ 'F' then c.toNat - 'A'.toNat + 10
    else base
  if n < base then some n else none

def char? (c : Char) : List Char → Option (List Char)
  | d :: s => if d = c then some s else none
  | [] => none

/-- All digits that follow, as a number of at most `limit`, with the rest. -/
def number? (base limit : Nat) (s : List Char) : Option (Nat × List Char) :=
  let run := s.takeWhile fun c => (digit? base c).isSome
  let n := run.foldl (fun n c => base * n + (digit? base c).getD 0) 0
  if run.isEmpty || n > limit then none else some (n, s.drop run.length)

/-- A number without zeros before it. -/
def octet? (s : List Char) : Option (UInt8 × List Char) := do
  let (n, rest) ← number? 10 255 s
  if s.head? = some '0' ∧ s.length - rest.length ≠ 1 then none
  else some (.ofNat n, rest)

def ipv4? (s : List Char) : Option (Ipv4 × List Char) := do
  let (a, s) ← octet? s
  let (b, s) ← octet? (← char? '.' s)
  let (c, s) ← octet? (← char? '.' s)
  let (d, s) ← octet? (← char? '.' s)
  return (⟨[a, b, c, d]⟩, s)

/-- One to four hexadecimal digits. -/
def group? (s : List Char) : Option (UInt16 × List Char) := do
  let (n, rest) ← number? 16 0xFFFF s
  if s.length - rest.length > 4 then none else some (.ofNat n, rest)

def Ipv4.groups : Ipv4 → List UInt16
  | ⟨[a, b, c, d]⟩ => [a.toUInt16 * 256 + b.toUInt16, c.toUInt16 * 256 + d.toUInt16]
  | _ => []

/-- Up to `limit` groups with colons between them, the last two of which may be an IPv4 address.
Also tells whether they are. -/
def groups (first : Bool) (s : List Char) : Nat → List UInt16 × Bool × List Char
  | 0 => ([], false, s)
  | limit + 1 =>
    match if first then some s else char? ':' s with
    | none => ([], false, s)
    | some t =>
      match if limit = 0 then none else ipv4? t with
      | some (a, rest) => (Ipv4.groups a, true, rest)
      | none =>
        match group? t with
        | none => ([], false, s)
        | some (g, rest) =>
          let (more, embedded, rest) := groups false rest limit
          (g :: more, embedded, rest)

/-- Eight groups, or fewer with two colons for groups of zeros. -/
def ipv6? (s : List Char) : Option (Ipv6 × List Char) := do
  let (head, embedded, s) := groups true s 8
  if head.length = 8 then return (⟨head, 0⟩, s)
  if embedded then none
  let s ← char? ':' (← char? ':' s)
  let (tail, _, s) := groups true s (7 - head.length)
  return (⟨head ++ List.replicate (8 - head.length - tail.length) 0 ++ tail, 0⟩, s)

/-- The scope after a percent sign. -/
def scope? (s : List Char) : Option (UInt32 × List Char) := do
  let (n, s) ← number? 10 0xFFFFFFFF (← char? '%' s)
  return (.ofNat n, s)

def port? (s : List Char) : Option (UInt16 × List Char) := do
  let (n, s) ← number? 10 65535 (← char? ':' s)
  return (.ofNat n, s)

def withIpv4? (s : List Char) : Option (SocketAddress × List Char) := do
  let (ip, s) ← ipv4? s
  let (port, s) ← port? s
  return (⟨.v4 ip, port⟩, s)

def withIpv6? (s : List Char) : Option (SocketAddress × List Char) := do
  let (ip, s) ← ipv6? (← char? '[' s)
  let (scope, s) := (scope? s).getD (0, s)
  let (port, s) ← port? (← char? ']' s)
  return (⟨.v6 { ip with scope }, port⟩, s)

/-- Reads a whole text as a socket address. -/
def parse? (s : String) : Option SocketAddress :=
  match (withIpv4? s.toList).orElse fun _ => withIpv6? s.toList with
  | some (a, []) => some a
  | _ => none

end SocketAddress

end EventRouting.Text
