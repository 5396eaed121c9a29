import EventRouting.Json.Value

namespace EventRouting.Json.Yaml

/-- Characters that a plain text does not start with. -/
def indicators : List Char :=
  ['#', ',', '[', ']', '\x7b', '\x7d', '&', '*', '!', '|', '>', '\'', '"', '%', '@', '\x60']

/-- Whether a colon before a blank or a comment shows up after the first character. -/
def hasMark : List Char → Bool
  | ':' :: ' ' :: _ | [':'] | ' ' :: '#' :: _ => true
  | _ :: s => hasMark s
  | [] => false

/-- Whether a text starts or ends with what has a meaning of its own there. -/
def hasEdge (s : List Char) : Bool :=
  match s with
  | [] => true
  | c :: rest =>
    indicators.contains c || c == ' ' || s.getLast? == some ' '
      || ((c == '-' || c == '?' || c == ':') && (rest.isEmpty || rest.head? == some ' '))
      || ['-', '-', '-'].isPrefixOf s || ['.', '.', '.'].isPrefixOf s

/-- Words that are read as other values. -/
def reserved : List String :=
  ["null", "~", "true", "false", "yes", "no", "y", "n", "on", "off", ".inf", "-.inf", "+.inf",
    ".nan"]

def isNumeral (s : List Char) : Bool :=
  s.any Char.isDigit && s.all fun c => c.isDigit || "+-._eExXoOabcdfABCDF".toList.contains c
    && !(s.head?.any Char.isAlpha)

def isPlain (s : String) : Bool :=
  let cs := s.toList
  !hasEdge cs && !hasMark cs && !reserved.contains s.toLower && !isNumeral cs

def quoted (s : String) : String :=
  "'" ++ (s.replace "'" "''") ++ "'"

/-- The text of a value on a line, and the lines below it that belong to it. -/
def scalar : Value → String × List String
  | .null => ("null", [])
  | .bool b => (if b then "true" else "false", [])
  | .int i => (toString i, [])
  | .float literal => (literal, [])
  | .string s =>
    if s.toList.contains '\n' then
      let body := if s.endsWith "\n" then (s.dropEnd 1).toString else s
      (if s.endsWith "\n" then "|" else "|-", body.splitOn "\n")
    else (if isPlain s then s else quoted s, [])
  | .array _ => ("[]", [])
  | .object _ => ("\x7b\x7d", [])

def indent (lines : List String) : List String :=
  lines.map fun line => if line.isEmpty then line else "  " ++ line

/-- The lines of an item after its hyphen. -/
def hang : List String → List String
  | [] => ["-"]
  | line :: lines => ("- " ++ line) :: indent lines

mutual

/-- The lines of a value by itself. -/
def lines : Value → List String
  | .object (m :: members) => memberLines (m :: members)
  | .array (v :: items) => itemLines (v :: items)
  | v => let (text, below) := scalar v; text :: indent below

def memberLines : List (String × Value) → List String
  | [] => []
  | (name, v) :: members =>
    let key := (scalar (.string name)).1
    let entry := match v with
      | .object (m :: ms) => (key ++ ":") :: indent (lines (.object (m :: ms)))
      | .array (w :: ws) => (key ++ ":") :: lines (.array (w :: ws))
      | v => let (text, below) := scalar v; (key ++ ": " ++ text) :: indent below
    entry ++ memberLines members

def itemLines : List Value → List String
  | [] => []
  | v :: items => hang (lines v) ++ itemLines items

end

/-- The lines of a document, after the mark that begins it. -/
def document (v : Value) : List String := "---" :: lines v

end EventRouting.Json.Yaml
