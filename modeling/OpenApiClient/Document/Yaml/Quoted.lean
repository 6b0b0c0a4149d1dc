import OpenApiClient.Document.Json
import OpenApiClient.Document.Yaml.Cursor

/-! # Scalars in quotes

Between single quotes a quote is written twice; between double quotes a backslash starts an escape.
The text is read as units, so that two escapes may write the halves of one character. -/
namespace OpenApiClient.Yaml.Quoted

/-- The breaks within a quoted scalar, without the white space before them. -/
def breaks : (fuel : Nat) → Cursor → Except ReadFlaw (List Char × Cursor)
  | 0, _ => .error .malformed
  | fuel + 1, c =>
    if c.startsAnyMark then .error .malformed
    else
      let c := c.dropWhile fun ch => ch == ' ' || ch == '\t'
      match c.lineBreak? with
      | some (b, c) => do
        let (more, c) ← breaks fuel c
        return (b :: more, c)
      | none => .ok ([], c)

def shortEscape? : Char → Option Char
  | '0' => some '\x00'
  | 'a' => some '\x07'
  | 'b' => some '\x08'
  | 't' => some '\t'
  | '\t' => some '\t'
  | 'n' => some '\n'
  | 'v' => some '\x0b'
  | 'f' => some '\x0c'
  | 'r' => some '\r'
  | 'e' => some '\x1b'
  | ' ' => some ' '
  | '"' => some '"'
  | '\\' => some '\\'
  | '/' => some '/'
  | 'N' => some '\x85'
  | '_' => some '\xa0'
  | 'L' => some '\u2028'
  | 'P' => some '\u2029'
  | _ => none

/-- The count of digits of a numeric escape. -/
def escapeWidth? : Char → Option Nat
  | 'x' => some 2
  | 'u' => some 4
  | 'U' => some 8
  | _ => none

def checkUnit (n : Nat) : Except ReadFlaw Unit :=
  if n ≤ 0x10ffff then .ok () else if n ≤ 0x7fffffff then .error .badValue else .error .overflow

/-- The units that an escape stands for, after its backslash. -/
def escape (c : Cursor) : Except ReadFlaw (List Nat × Cursor) := do
  match shortEscape? c.peek, escapeWidth? c.peek with
  | some ch, _ => return ([ch.toNat], c.next)
  | none, some width =>
    let digits := c.next.rest.take width
    match digits.length == width, Json.readHex? digits with
    | true, some n =>
      checkUnit n
      return ([n], c.next.advance width)
    | _, _ => throw .malformed
  | none, none =>
    match c.lineBreak? with
    | some (_, c) =>
      let (bs, c) ← breaks (c.rest.length + 1) c
      return (bs.map Char.toNat, c)
    | none => throw .malformed

/-- The units of a scalar after its first quote, and the place after the last one. -/
def units (double : Bool) : (fuel : Nat) → Cursor → Except ReadFlaw (List Nat × Cursor)
  | 0, _ => .error .malformed
  | fuel + 1, c =>
    let ch := c.peek
    let quote := if double then '"' else '\''
    if c.rest.isEmpty then .error .malformed
    else if !double && ch = '\'' && c.peekAt 1 = '\'' then do
      let (more, c) ← units double fuel (c.advance 2)
      return ('\''.toNat :: more, c)
    else if ch = quote then .ok ([], c.next)
    else if double && ch = '\\' then do
      let (here, c) ← escape c.next
      let (more, c) ← units double fuel c
      return (here ++ more, c)
    else if ch = ' ' || ch = '\t' || isBreak ch then do
      let (spaces, c) := c.takeWhile fun ch => ch == ' ' || ch == '\t'
      match c.lineBreak? with
      | some (b, c) =>
        let (bs, c) ← breaks (c.rest.length + 1) c
        let (more, c) ← units double fuel c
        return ((folded b bs).map Char.toNat ++ more, c)
      | none =>
        if c.rest.isEmpty then throw .malformed
        let (more, c) ← units double fuel c
        return (spaces.map Char.toNat ++ more, c)
    else do
      let (more, c) ← units double fuel c.next
      return (ch.toNat :: more, c)

/-- The text of a scalar after its first quote, and the place after the last one. -/
def text (double : Bool) (c : Cursor) : Except ReadFlaw (String × Cursor) := do
  let (us, c) ← units double (c.rest.length + 1) c
  return (String.ofList (Json.unitChars us), c)

end OpenApiClient.Yaml.Quoted
