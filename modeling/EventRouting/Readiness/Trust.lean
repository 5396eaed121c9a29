import EventRouting.Failure
import EventRouting.Text.Base64

namespace EventRouting

/-- The certificates that TLS addresses are checked against. -/
structure TrustRoots where
  certificates : List (List UInt8) := []
  deriving DecidableEq, Repr

def TrustRoots.count (r : TrustRoots) : Nat := r.certificates.length

/-- A short text about the roots. -/
def TrustRoots.summary (r : TrustRoots) : String := s!"TrustRoots \x7b certificates: {r.count} \x7d"

namespace Der

/-- The element at the start of the bytes: its tag, its content and what follows. -/
def element? : List UInt8 → Option (UInt8 × List UInt8 × List UInt8)
  | tag :: length :: s =>
    let n := length.toNat
    if n < 0x80 then
      if n ≤ s.length then some (tag, s.take n, s.drop n) else none
    else
      let digits := n - 0x80
      let n := (s.take digits).foldl (fun n b => n * 256 + b.toNat) 0
      let s' := s.drop digits
      if 0 < digits ∧ digits ≤ s.length ∧ n ≤ s'.length then some (tag, s'.take n, s'.drop n)
      else none
  | _ => none

/-- Whether the bytes start with elements of these tags, which `rest` may follow. -/
def startsWith (tags : List UInt8) (s : List UInt8) (rest : Bool) : Bool :=
  match tags with
  | [] => rest || s.isEmpty
  | tag :: tags =>
    match element? s with
    | some (t, _, s) => t = tag && startsWith tags s rest
    | none => false

def sequence : UInt8 := 0x30

def integer : UInt8 := 0x02

def bitString : UInt8 := 0x03

/-- Serial number, algorithm, issuer, validity, subject and key, after the version if it is
given. -/
def isCertificateBody (s : List UInt8) : Bool :=
  let fields := [integer, sequence, sequence, sequence, sequence, sequence]
  match element? s with
  | some (0xA0, _, s) => startsWith fields s true
  | _ => startsWith fields s true

/-- Whether the bytes have the structure of an X.509 certificate. -/
def isCertificate (s : List UInt8) : Bool :=
  match element? s with
  | some (0x30, content, []) =>
    startsWith [sequence, sequence, bitString] content false
      && (element? content).any fun (_, body, _) => isCertificateBody body
  | _ => false

end Der

namespace Pem

/-- The kinds of sections that bundles may hold; others are passed over unread. -/
def kinds : List String :=
  ["CERTIFICATE", "PUBLIC KEY", "RSA PRIVATE KEY", "PRIVATE KEY", "EC PRIVATE KEY", "X509 CRL",
    "CERTIFICATE REQUEST", "ECHCONFIG"]

def isLineEnd (b : UInt8) : Bool := b == 0x0A || b == 0x0D

def isFiller (b : UInt8) : Bool := isLineEnd b || b == 0x20

def trimEnd (line : List UInt8) : List UInt8 := (line.reverse.dropWhile isFiller).reverse

def beginMark : List UInt8 := Utf8.bytes "-----BEGIN "

def endMark (kind : List UInt8) : List UInt8 :=
  Utf8.bytes "-----END " ++ kind ++ Utf8.bytes "-----"

/-- The kind of the section that a line begins: what stands before exactly five dashes. -/
def beginning? (line : List UInt8) : Option (List UInt8) :=
  let body := trimEnd (line.drop beginMark.length)
  let dashes := (body.reverse.takeWhile (· == 0x2D)).length
  if dashes = 5 then some (body.take (body.length - 5)) else none

/-- A section that is still to end: its kind and its text so far. -/
structure Section where
  kind : List UInt8
  text : List UInt8

/-- The certificates of the lines that follow, unless the bundle is spoilt. -/
def certificates? (current? : Option Section) : List (List UInt8) → Option (List (List UInt8))
  | [] => if current?.isSome then none else some []
  | line :: lines =>
    if beginMark.isPrefixOf line then do
      let kind ← beginning? line
      certificates? (some ⟨kind, (current?.map (·.text)).getD []⟩) lines
    else match current? with
      | none => certificates? none lines
      | some s =>
        if (endMark s.kind).isPrefixOf line then
          if kinds.any (Utf8.bytes · = s.kind) then do
            let der ← Base64.decode? (s.text.filter fun b => !isFiller b && b != 0x09)
            let rest ← certificates? none lines
            return if s.kind = Utf8.bytes "CERTIFICATE" then der :: rest else rest
          else certificates? none lines
        else certificates? (some { s with text := s.text ++ trimEnd line }) lines

def parse? (data : List UInt8) : Option (List (List UInt8)) :=
  certificates? none (data.splitOnP isLineEnd)

end Pem

/-- Why a bundle gives no trust roots. -/
inductive BundleError where
  | unparsable
  | empty
  | badCertificate
  /-- The file cannot be read. -/
  | unreadable (path : String)
  deriving DecidableEq, Repr

def BundleError.message : BundleError → String
  | .unparsable => "Failed to parse PEM"
  | .empty => "No certificates found in PEM data"
  | .badCertificate => "Failed to add root CA"
  | .unreadable path => s!"Failed to read {path}"

def BundleError.failure (e : BundleError) : Failure := .trustBundle e.message

/-- The trust roots of a PEM bundle. -/
def TrustRoots.ofPem (data : List UInt8) : Except BundleError TrustRoots :=
  match Pem.parse? data with
  | none => .error .unparsable
  | some [] => .error .empty
  | some certificates =>
    if certificates.all Der.isCertificate then .ok ⟨certificates⟩ else .error .badCertificate

end EventRouting
