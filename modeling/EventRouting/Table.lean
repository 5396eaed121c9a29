namespace EventRouting

abbrev Table (κ β : Type) := List (κ × β)

namespace Table

variable {κ β : Type} [DecidableEq κ]

def get? (t : Table κ β) (k : κ) : Option β := (t.find? (·.1 = k)).map Prod.snd

def contains (t : Table κ β) (k : κ) : Bool := t.any (·.1 = k)

/-- Puts a value under a key, in the place of the former value if there is one. -/
def insert (t : Table κ β) (k : κ) (v : β) : Table κ β :=
  match t with
  | [] => [(k, v)]
  | (l, w) :: t => if l = k then (k, v) :: t else (l, w) :: insert t k v

def erase (t : Table κ β) (k : κ) : Table κ β := t.filter (·.1 ≠ k)

def keys (t : Table κ β) : List κ := t.map Prod.fst

def ofList (l : List (κ × β)) : Table κ β := l.foldl (fun t (k, v) => t.insert k v) []

end Table

end EventRouting
