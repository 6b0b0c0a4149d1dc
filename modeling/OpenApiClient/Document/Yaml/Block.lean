import OpenApiClient.Document.Value
import OpenApiClient.Document.Yaml.Cursor

/-! # Scalars in blocks

A block scalar keeps the lines that are indented as its first one is. Its head may state this
indentation, and what is kept of the line ends at its end; a folded one joins its lines. -/
namespace OpenApiClient.Yaml.Block

/-- What is kept of the line ends at the end of a block scalar. -/
inductive Chomping
  | strip
  | clip
  | keep
  deriving DecidableEq

def chomping? : Char → Option Chomping
  | '+' => some .keep
  | '-' => some .strip
  | _ => none

def increment? (c : Char) : Option Nat :=
  if '0' ≤ c ∧ c ≤ '9' then some (c.toNat - '0'.toNat) else none

/-- The indicators of a block scalar, in either order, and the place after them. -/
def indicators (c : Cursor) : Except ReadFlaw (Chomping × Option Nat × Cursor) := do
  let (chomping, increment, c) :=
    match chomping? c.peek, increment? c.peek with
    | some chomping, _ =>
      match increment? c.next.peek with
      | some n => (chomping, some n, c.advance 2)
      | none => (chomping, none, c.next)
    | none, some n =>
      match chomping? c.next.peek with
      | some chomping => (chomping, some n, c.advance 2)
      | none => (.clip, some n, c.next)
    | none, none => (.clip, none, c)
  if increment = some 0 then throw .malformed
  if c.peek = ' ' || isBreakOrEnd c.peek then return (chomping, increment, c) else throw .malformed

/-- The place after a line that holds nothing but a comment. -/
def ignoredLine (c : Cursor) : Except ReadFlaw Cursor :=
  let c := c.dropWhile (· == ' ')
  let c := if c.peek = '#' then c.dropWhile (!isBreakOrEnd ·) else c
  if isBreakOrEnd c.peek then .ok c.skipBreak else .error .malformed

/-- The breaks before the first line of a block scalar, the widest indentation in them, and the
place after them. -/
def leadingBreaks : (fuel : Nat) → (widest : Nat) → Cursor → List Char × Nat × Cursor
  | 0, widest, c => ([], widest, c)
  | fuel + 1, widest, c =>
    if c.peek = ' ' then leadingBreaks fuel (max widest c.next.column) c.next
    else
      match c.lineBreak? with
      | some (b, c) =>
        let (more, widest, c) := leadingBreaks fuel widest c
        (b :: more, widest, c)
      | none => ([], widest, c)

/-- The place at an indentation, or before it where the spaces end. -/
def toIndent (indent : Nat) : (fuel : Nat) → Cursor → Cursor
  | 0, c => c
  | fuel + 1, c => if c.column < indent ∧ c.peek = ' ' then toIndent indent fuel c.next else c

def innerBreaks (indent : Nat) : (fuel : Nat) → Cursor → List Char × Cursor
  | 0, c => ([], c)
  | fuel + 1, c =>
    let c := toIndent indent c.rest.length c
    match c.lineBreak? with
    | some (b, c) =>
      let (more, c) := innerBreaks indent fuel c
      (b :: more, c)
    | none => ([], c)

/-- The lines of a block scalar from a place at its indentation. Gives the text before the end of
the last line, this end, the breaks after it and the place after them. -/
def lines (folding : Bool) (indent : Nat) :
    (fuel : Nat) → Cursor → List Char × List Char × List Char × Cursor
  | 0, c => ([], [], [], c)
  | fuel + 1, c =>
    let startsBlank := c.peek = ' ' || c.peek = '\t'
    let (line, c) := c.takeWhile (!isBreakOrEnd ·)
    let (lineEnd, c) := match c.lineBreak? with
      | some (b, c) => ([b], c)
      | none => ([], c)
    let (breaks, c) := innerBreaks indent (c.rest.length + 1) c
    if c.column = indent && !c.rest.isEmpty then
      let nextBlank := c.peek = ' ' || c.peek = '\t'
      let between :=
        if folding && lineEnd = ['\n'] && !startsBlank && !nextBlank then
          (if breaks.isEmpty then [' '] else [])
        else lineEnd
      let (more, last, after, c) := lines folding indent fuel c
      (line ++ between ++ breaks ++ more, last, after, c)
    else (line, lineEnd, breaks, c)

def text (folding : Bool) (outer : Int) (c : Cursor) : Except ReadFlaw (List Char × Cursor) := do
  let (chomping, increment, c) ← indicators c
  let c ← ignoredLine c
  let least : Nat := max (outer + 1) 1 |>.toNat
  let fuel := c.rest.length + 1
  let (breaks, indent, c) := match increment with
    | none =>
      let (breaks, widest, c) := leadingBreaks fuel 0 c
      (breaks, max least widest, c)
    | some n =>
      let (breaks, c) := innerBreaks (least + n - 1) fuel c
      (breaks, least + n - 1, c)
  let (text, lineEnd, after, c) :=
    if c.column = indent && !c.rest.isEmpty then
      let (text, lineEnd, after, c) := lines folding indent fuel c
      (breaks ++ text, lineEnd, after, c)
    else ([], [], breaks, c)
  return match chomping with
    | .strip => (text, c)
    | .clip => (text ++ lineEnd, c)
    | .keep => (text ++ lineEnd ++ after, c)

end OpenApiClient.Yaml.Block
