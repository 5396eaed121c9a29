import EventRouting.Routing.Fragment
import EventRouting.Text.Character

namespace EventRouting

/-- The request of a probe. -/
def Address.request (a : Address) : List UInt8 :=
  Utf8.bytes <| "\r\n".intercalate [
    s!"GET {a.path} HTTP/1.1",
    s!"Host: {a.host}",
    "User-Agent: kafka-eventing-prober",
    "Connection: close",
    "",
    ""]

namespace Exchange

/-- The greatest number of bytes that one read brings. -/
def readSize : Nat := 256

/-- The number of bytes after which reading stops. -/
def readLimit : Nat := 1024

def lineFeed : UInt8 := 0x0A

def carriageReturn : UInt8 := 0x0D

/-- Whether a line is complete. -/
def hasLine : List UInt8 → Bool
  | a :: b :: s => (a = carriageReturn && b = lineFeed) || hasLine (b :: s)
  | _ => false

def isEnough (response : List UInt8) : Bool :=
  hasLine response || readLimit ≤ response.length

/-- A text split at white space. -/
def words (s : List Char) : List (List Char) :=
  (s.splitOnP Text.isBlank).filter (!·.isEmpty)

/-- The verdict on what was read. -/
def isOk (response : List UInt8) : Bool :=
  (words (Utf8.decodeLossy response).toList)[1]? == some ['2', '0', '0']

inductive Interruption where
  | connectionReset
  | brokenPipe
  deriving DecidableEq, Repr

/-- What one read brings; no bytes stand for the end of the stream. -/
abbrev Chunks := List (List UInt8)

/-- Reads until enough has come. Answers what was read, unless a read failed, and the number of
reads. After the last chunk the stream ends, or fails. -/
def collect (failing : Bool) (response : List UInt8) : Chunks → Option (List UInt8) × Nat
  | [] =>
    if isEnough response then (some response, 0)
    else (if failing then none else some response, 1)
  | chunk :: chunks =>
    if isEnough response then (some response, 0)
    else if chunk.isEmpty then (some response, 1)
    else
      let (result, reads) := collect failing (response ++ chunk) chunks
      (result, reads + 1)

/-- What reads bring of a chunk that is longer than one read. -/
def splitChunk (chunk : List UInt8) : Chunks :=
  if _h : chunk.length ≤ readSize then [chunk]
  else chunk.take readSize :: splitChunk (chunk.drop readSize)
termination_by chunk.length
decreasing_by simp [readSize] at *; omega

/-- The side that a probe talks to: what its reads bring, and whether writing fails or reading fails
after the last chunk. -/
structure Peer where
  chunks : Chunks
  failsWrite : Bool := false
  failsRead : Bool := false

structure Result where
  verdict : Except Interruption Bool
  written : List UInt8
  reads : Nat

end Exchange

open Exchange in
/-- Sends the request and judges the answer. -/
def Address.exchange (a : Address) (peer : Peer) : Result :=
  if peer.failsWrite then ⟨.error .brokenPipe, [], 0⟩
  else
    let (response?, reads) := collect peer.failsRead [] (peer.chunks.flatMap splitChunk)
    match response? with
    | some response => ⟨.ok (isOk response), a.request, reads⟩
    | none => ⟨.error .connectionReset, a.request, reads⟩

/-- Whether an address answers a probe. `none` stands for a refused connection. -/
def Address.probe (a : Address) (peer? : Option Exchange.Peer) : Bool :=
  match peer? with
  | some peer => (a.exchange peer).verdict.toOption.getD false
  | none => false

end EventRouting
