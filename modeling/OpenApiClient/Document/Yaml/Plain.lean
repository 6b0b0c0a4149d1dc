import OpenApiClient.Document.Json

/-! # Scalars without quotes

A scalar without quotes is a truth value, a number or nothing if it is written as one, and a text
otherwise. Underscores in numbers do not count, a leading zero makes a number octal, and colons
separate places of sixty. -/
namespace OpenApiClient.Yaml

def splitSign : List Char → Bool × List Char
  | '-' :: rest => (true, rest)
  | '+' :: rest => (false, rest)
  | cs => (false, cs)

/-- Whether the character may stand in a decimal number after its first digit. -/
def isPlace (c : Char) : Bool := Json.isDigit c || c = '_'

def withoutMarks (cs : List Char) : List Char := cs.filter (· != '_')

/-- Whether the characters are one place of sixty. -/
def isSixtieth : List Char → Bool
  | [d] => Json.isDigit d
  | [t, d] => '0' ≤ t && t ≤ '5' && Json.isDigit d
  | _ => false

def readPlaces (cs : List Char) : Nat := Nat.ofDigitChars 10 (withoutMarks cs) 0

/-- The number of digits in a base, none without any digit. -/
def readBase? (base : Nat) (cs : List Char) : Option Nat :=
  match withoutMarks cs with
  | [] => none
  | ds => ds.foldlM (fun n c => (Json.hexValue? c).map (n * base + ·)) 0

/-- A whole number in decimal digits, none for too many of them. -/
def readDecimal? (cs : List Char) : Option Nat := Text.readDigits? (withoutMarks cs)

/-- Whether the characters after a sign write a whole number, and which one: none for one that is
out of bounds. -/
def whole? (cs : List Char) : Option (Option Nat) :=
  match cs with
  | ['0'] => some (some 0)
  | '0' :: 'b' :: ds =>
    if !ds.isEmpty && ds.all fun c => c = '0' || c = '1' || c = '_' then some (readBase? 2 ds)
    else none
  | '0' :: 'x' :: ds =>
    if !ds.isEmpty && ds.all fun c => (Json.hexValue? c).isSome || c = '_' then
      some (readBase? 16 ds)
    else none
  | '0' :: ds =>
    if ds.all fun c => ('0' ≤ c && c ≤ '7') || c = '_' then some (readBase? 8 ('0' :: ds))
    else none
  | c :: _ =>
    if !Json.isDigit c then none
    else
      match Text.fields (· == ':') cs with
      | [] => none
      | first :: places =>
        if first.all isPlace && places.all isSixtieth then
          some ((readDecimal? first).map fun n =>
            places.foldl (fun n place => n * 60 + readPlaces place) n)
        else none
  | [] => none

/-- The exponent of a number, which has to have a sign; zero where the text ends. -/
def exponent? : List Char → Option Int
  | [] => some 0
  | e :: sign :: ds =>
    if (e = 'e' || e = 'E') && (sign = '-' || sign = '+') && !ds.isEmpty && ds.all Json.isDigit then
      let n : Int := readPlaces ds
      some (if sign = '-' then -n else n)
    else none
  | _ => none

/-- The number with a fraction that characters after a sign write, if they write one. -/
def fractional? (negative : Bool) (cs : List Char) : Option Decimal :=
  let (before, rest) := (cs.takeWhile (· != '.'), cs.dropWhile (· != '.'))
  match rest with
  | [] => none
  | _ :: rest =>
    let (after, power) := (rest.takeWhile isPlace, rest.dropWhile isPlace)
    let places := (withoutMarks after).length
    match Text.fields (· == ':') before with
    | [] => none
    | [_] =>
      let starts := match before, after with
        | [], d :: _ => Json.isDigit d
        | d :: _, _ => Json.isDigit d && before.all isPlace
        | [], [] => false
      match starts, exponent? power with
      | true, some e => some (.read negative (readPlaces (before ++ after)) (e - places))
      | _, _ => none
    | first :: others =>
      if first.head?.any Json.isDigit && first.all isPlace && others.all isSixtieth && power.isEmpty
      then
        let n := others.foldl (fun n place => n * 60 + readPlaces place) (readPlaces first)
        some (.read negative (n * Nat.pow 10 places + readPlaces after) (-places))
      else none

/-- The words for truth values, numbers and nothing. -/
def plainWords : List (String × Scalar) :=
  [("yes", .bool true), ("Yes", .bool true), ("YES", .bool true), ("no", .bool false),
    ("No", .bool false), ("NO", .bool false), ("true", .bool true), ("True", .bool true),
    ("TRUE", .bool true), ("false", .bool false), ("False", .bool false), ("FALSE", .bool false),
    ("on", .bool true), ("On", .bool true), ("ON", .bool true), ("off", .bool false),
    ("Off", .bool false), ("OFF", .bool false), (".inf", .decimal (.infinite false)),
    (".Inf", .decimal (.infinite false)), (".INF", .decimal (.infinite false)),
    ("+.inf", .decimal (.infinite false)), ("+.Inf", .decimal (.infinite false)),
    ("+.INF", .decimal (.infinite false)), ("-.inf", .decimal (.infinite true)),
    ("-.Inf", .decimal (.infinite true)), ("-.INF", .decimal (.infinite true)),
    (".nan", .decimal .nan), (".NaN", .decimal .nan), (".NAN", .decimal .nan), ("~", .null),
    ("null", .null), ("Null", .null), ("NULL", .null), ("", .null)]

/-- The scalar that a text without quotes is, none for a number out of bounds. -/
def plain? (text : String) : Option Scalar :=
  match plainWords.lookup text with
  | some s => some s
  | none =>
    let (negative, body) := splitSign text.toList
    let signed := body.length ≠ text.length
    match if signed ∧ body.head? = some '.' then none else fractional? negative body with
    | some d => some (.decimal d)
    | none =>
      match whole? body with
      | some n => n.map fun n => .int (if negative then -n else n)
      | none => some (.text text)

end OpenApiClient.Yaml
