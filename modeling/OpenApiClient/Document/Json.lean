import OpenApiClient.Document.Value
import OpenApiClient.Text.Digit

/-! # Documents in JSON

The text is cut into tokens, and a stack of open collections takes them one by one. Beyond the
standard, `NaN` and the infinities are numbers, a repeated key keeps its first place and takes its
last value, and a whole number of too many digits is a bad value instead of a malformed text. -/
namespace OpenApiClient.Json

/-- A part of the text that has a meaning of its own. -/
inductive Token
  | openSequence
  | closeSequence
  | openMapping
  | closeMapping
  | comma
  | colon
  | scalar (s : Scalar)
  /-- A whole number of too many digits. -/
  | oversized
  /-- A stretch that is no token. -/
  | unknown
  deriving DecidableEq

def hexValue? (c : Char) : Option Nat :=
  if '0' ≤ c ∧ c ≤ '9' then some (c.toNat - '0'.toNat)
  else if 'a' ≤ c ∧ c ≤ 'f' then some (c.toNat - 'a'.toNat + 10)
  else if 'A' ≤ c ∧ c ≤ 'F' then some (c.toNat - 'A'.toNat + 10)
  else none

def readHex? (cs : List Char) : Option Nat :=
  cs.foldlM (fun n c => (hexValue? c).map (n * 16 + ·)) 0

def shortEscape? : Char → Option Char
  | '"' => some '"'
  | '\\' => some '\\'
  | '/' => some '/'
  | 'b' => some '\x08'
  | 'f' => some '\x0c'
  | 'n' => some '\n'
  | 'r' => some '\r'
  | 't' => some '\t'
  | _ => none

/-- The units of a quoted text after its opening quote, and what follows the closing one. -/
def stringUnits : List Char → Option (List Nat × List Char)
  | [] => none
  | '"' :: rest => some ([], rest)
  | '\\' :: 'u' :: a :: b :: c :: d :: rest => do
    let unit ← readHex? [a, b, c, d]
    let (units, rest) ← stringUnits rest
    return (unit :: units, rest)
  | '\\' :: e :: rest => do
    let c ← shortEscape? e
    let (units, rest) ← stringUnits rest
    return (c.toNat :: units, rest)
  | c :: rest => do
    if c = '\\' ∨ c.toNat < 0x20 then none
    let (units, rest) ← stringUnits rest
    return (c.toNat :: units, rest)

/-- The characters of units, two halves of a pair making one. -/
def unitChars : List Nat → List Char
  | [] => []
  | [unit] => [Text.ofCode unit]
  | high :: low :: rest =>
    if 0xd800 ≤ high ∧ high ≤ 0xdbff ∧ 0xdc00 ≤ low ∧ low ≤ 0xdfff then
      Char.ofNat (0x10000 + (high - 0xd800) * 0x400 + (low - 0xdc00)) :: unitChars rest
    else Text.ofCode high :: unitChars (low :: rest)

def isDigit (c : Char) : Bool := '0' ≤ c && c ≤ '9'

/-- The fraction of a number: its digits after a point, and what follows. -/
def fraction : List Char → List Char × List Char
  | '.' :: d :: rest =>
    if isDigit d then (d :: rest.takeWhile isDigit, rest.dropWhile isDigit)
    else ([], '.' :: d :: rest)
  | cs => ([], cs)

/-- The exponent of a number, if it has one, and what follows. -/
def exponent (cs : List Char) : Option Int × List Char :=
  match cs with
  | e :: rest =>
    if e = 'e' ∨ e = 'E' then
      let (negative, digits) : Bool × List Char :=
        match rest with
        | '-' :: more => (true, more)
        | '+' :: more => (false, more)
        | more => (false, more)
      let number := digits.takeWhile isDigit
      if number.isEmpty then (none, cs)
      else
        let n : Int := Nat.ofDigitChars 10 number 0
        (some (if negative then -n else n), digits.dropWhile isDigit)
    else (none, cs)
  | [] => (none, cs)

/-- The token of a number after its sign, and what follows. -/
def number (negative : Bool) (cs : List Char) : Token × List Char :=
  let digits := match cs with
    | '0' :: _ => ['0']
    | _ => cs.takeWhile isDigit
  if digits.isEmpty then (.unknown, cs)
  else
    let (places, rest) := fraction (cs.drop digits.length)
    let (power, rest) := exponent rest
    if places.isEmpty ∧ power.isNone then
      match Text.readDigits? digits with
      | none => (.oversized, rest)
      | some n => (.scalar (.int (if negative then -n else n)), rest)
    else
      let written := Nat.ofDigitChars 10 (digits ++ places) 0
      (.scalar (.decimal (.read negative written (power.getD 0 - places.length))), rest)

def words : List (List Char × Scalar) :=
  [("null".toList, .null), ("true".toList, .bool true), ("false".toList, .bool false),
    ("NaN".toList, .decimal .nan), ("Infinity".toList, .decimal (.infinite false)),
    ("-Infinity".toList, .decimal (.infinite true))]

/-- The first token of a text that starts with no blank, and what follows it. -/
def token (cs : List Char) : Token × List Char :=
  match cs with
  | [] => (.unknown, [])
  | '[' :: rest => (.openSequence, rest)
  | ']' :: rest => (.closeSequence, rest)
  | '\x7b' :: rest => (.openMapping, rest)
  | '\x7d' :: rest => (.closeMapping, rest)
  | ',' :: rest => (.comma, rest)
  | ':' :: rest => (.colon, rest)
  | '"' :: rest =>
    match stringUnits rest with
    | some (units, rest) => (.scalar (.text (String.ofList (unitChars units))), rest)
    | none => (.unknown, rest)
  | cs =>
    match words.find? fun w => w.1.isPrefixOf cs with
    | some (word, s) => (.scalar s, cs.drop word.length)
    | none =>
      match cs with
      | '-' :: rest => number true rest
      | cs => number false cs

def isSpace (c : Char) : Bool := c = ' ' || c = '\t' || c = '\n' || c = '\r'

/-- The tokens of a text. The first stretch that is no token ends them. -/
def tokens (cs : List Char) : List Token :=
  match cs.dropWhile isSpace with
  | [] => []
  | c :: rest =>
    let (t, more) := token (c :: rest)
    if t = .unknown then [.unknown]
    else if more.length < cs.length then t :: tokens more
    else [.unknown]
termination_by cs.length

/-- A collection that is still open. -/
inductive Frame
  | sequence (items : List Value)
  | mapping (members : Members) (key : String)

/-- What may come next. -/
inductive Expectation
  | value
  | firstItem
  | firstKey (members : Members)
  | key (members : Members)
  | colon (members : Members) (key : String)
  | separator
  | nothing (result : Value)

/-- The open collections, innermost first, and what may come next. -/
structure State where
  frames : List Frame
  next : Expectation

/-- The state after a complete value. -/
def State.deliver (frames : List Frame) (v : Value) : State :=
  match frames with
  | [] => ⟨[], .nothing v⟩
  | .sequence items :: outer => ⟨.sequence (v :: items) :: outer, .separator⟩
  | .mapping ms key :: outer => ⟨.mapping (Members.set ms (.text key) v) key :: outer, .separator⟩

/-- The state after a token at which a value may start. -/
def State.open (frames : List Frame) : Token → Except ReadFlaw State
  | .openSequence => .ok ⟨.sequence [] :: frames, .firstItem⟩
  | .openMapping => .ok ⟨frames, .firstKey []⟩
  | .scalar s => .ok (State.deliver frames (.scalar s))
  | .oversized => .error .badValue
  | _ => .error .malformed

def State.step (s : State) (t : Token) : Except ReadFlaw State :=
  match s.next, t with
  | .value, t => State.open s.frames t
  | .firstItem, .closeSequence => .ok (State.deliver (s.frames.drop 1) (.sequence []))
  | .firstItem, t => State.open s.frames t
  | .firstKey ms, .closeMapping => .ok (State.deliver s.frames (.mapping ms))
  | .firstKey ms, .scalar (.text key) | .key ms, .scalar (.text key) =>
    .ok ⟨s.frames, .colon ms key⟩
  | .colon ms key, .colon => .ok ⟨.mapping ms key :: s.frames, .value⟩
  | .separator, t =>
    match s.frames, t with
    | .sequence items :: outer, .comma => .ok ⟨.sequence items :: outer, .value⟩
    | .sequence items :: outer, .closeSequence =>
      .ok (State.deliver outer (.sequence items.reverse))
    | .mapping ms _ :: outer, .comma => .ok ⟨outer, .key ms⟩
    | .mapping ms _ :: outer, .closeMapping => .ok (State.deliver outer (.mapping ms))
    | _, _ => .error .malformed
  | _, _ => .error .malformed

def State.result (s : State) : Except ReadFlaw Value :=
  match s.next with
  | .nothing v => .ok v
  | _ => .error .malformed

def read (text : String) : Except ReadFlaw Value := do
  (← (tokens text.toList).foldlM State.step ⟨[], .value⟩).result

/-- How many collections are open. -/
def State.depth (s : State) : Nat :=
  match s.next with
  | .firstKey _ | .key _ | .colon _ _ => s.frames.length + 1
  | _ => s.frames.length

def State.stepWithin (room : Nat) (s : State) (t : Token) : Except ReadFlaw State := do
  let next ← s.step t
  if room < next.depth then throw .endless else return next

/-- Reads a text where there is room for so many collections inside one another. -/
def readWithin (room : Nat) (text : String) : Except ReadFlaw Value := do
  (← (tokens text.toList).foldlM (State.stepWithin room) ⟨[], .value⟩).result

end OpenApiClient.Json
