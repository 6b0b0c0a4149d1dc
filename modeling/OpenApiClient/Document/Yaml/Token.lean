import OpenApiClient.Document.Yaml.Block
import OpenApiClient.Document.Yaml.Quoted

/-! # Tokens of YAML

The text is cut into tokens under the rules of indentation. A key of the short form is recognized
only at its colon; so every token that may turn out to be a key leaves a slot before it, which is
filled at the colon or stays empty. A flaw of the text ends its tokens, and it counts only for those
who look for a token beyond them. Tags and directives are not part of this format. -/
namespace OpenApiClient.Yaml

/-- A part of the text that has a meaning of its own. -/
inductive Token
  | documentStart
  | documentEnd
  | blockSequenceStart
  | blockMappingStart
  | blockEnd
  | flowSequenceStart
  | flowSequenceEnd
  | flowMappingStart
  | flowMappingEnd
  | blockEntry
  | flowEntry
  | key
  | value
  | reference (name : String)
  | anchor (name : String)
  /-- A scalar; one without quotes is plain. -/
  | scalar (text : String) (plain : Bool)
  deriving DecidableEq

/-- The tokens of a text, up to its first flaw. -/
structure Tokens where
  list : List Token
  /-- What ended the tokens before the text did. -/
  flaw : Option ReadFlaw := none

/-- A token that may turn out to be a key. -/
structure PendingKey where
  slot : Nat
  required : Bool
  index : Nat
  line : Nat
  column : Nat

/-- A text that is cut into tokens up to a place. -/
structure Scanner where
  cursor : Cursor
  /-- How many flow collections are open. -/
  flow : Nat := 0
  indent : Int := -1
  /-- The indentations around the current one, innermost first. -/
  outer : List Int := []
  /-- Whether a key of the short form may start here. -/
  keyAllowed : Bool := true
  /-- What may turn out to be a key, at each level of flow collections, innermost first. -/
  pending : List (Option PendingKey) := [none]
  /-- The tokens, with a slot for each pending key. -/
  slots : Array (List Token) := #[]

namespace Scanner

def inFlow (s : Scanner) : Bool := s.flow != 0

def emit (s : Scanner) (t : Token) : Scanner := { s with slots := s.slots.push [t] }

def skip (s : Scanner) (count : Nat) : Scanner := { s with cursor := s.cursor.advance count }

def pending? (s : Scanner) : Option PendingKey := s.pending.head?.join

def setPending (s : Scanner) (k : Option PendingKey) : Scanner :=
  { s with pending := k :: s.pending.drop 1 }

/-- Gives up the pending key of the current level; a required one has to be a key. -/
def dropPending (s : Scanner) : Except ReadFlaw Scanner :=
  match s.pending? with
  | some k => if k.required then .error .malformed else .ok (s.setPending none)
  | none => .ok s

/-- Notes that the next token may turn out to be a key. -/
def savePending (s : Scanner) : Except ReadFlaw Scanner := do
  if !s.keyAllowed then return s
  let s ← s.dropPending
  let c := s.cursor
  let k : PendingKey :=
    { slot := s.slots.size, required := !s.inFlow && s.indent == c.column
      index := c.index, line := c.line, column := c.column }
  return { s with slots := s.slots.push [] }.setPending (some k)

/-- Gives up the pending keys that ended with their line, or that are too long. -/
def dropStale (s : Scanner) : Except ReadFlaw Scanner := do
  let c := s.cursor
  let pending ← s.pending.mapM fun
    | none => Except.ok none
    | some k =>
      if k.line != c.line || 1024 < c.index - k.index then
        if k.required then .error .malformed else .ok none
      else .ok (some k)
  return { s with pending }

/-- Closes the blocks that are indented more than a column. -/
def unwindFrom (column : Int) : List Int → Scanner → Scanner
  | [], s => s
  | outer :: rest, s =>
    if column < s.indent then
      unwindFrom column rest ({ s with indent := outer, outer := rest }.emit .blockEnd)
    else s

/-- Closes the blocks that are indented more than a column, outside of flow collections. -/
def unwind (s : Scanner) (column : Int) : Scanner :=
  if s.inFlow then s else unwindFrom column s.outer s

/-- The scanner indented to a column, if that is further in. -/
def indentTo (s : Scanner) (column : Nat) : Option Scanner :=
  if s.indent < column then some { s with outer := s.indent :: s.outer, indent := column } else none

/-- The scanner in a block that starts at a column, if that is further in. -/
def openBlock (s : Scanner) (column : Nat) (start : Token) : Scanner :=
  match s.indentTo column with
  | some s => s.emit start
  | none => s

/-- The place of the next token, past spaces, comments and line ends. -/
def toToken : (fuel : Nat) → Scanner → Scanner
  | 0, s => s
  | fuel + 1, s =>
    let c := s.cursor.dropWhile (· == ' ')
    let c := if c.peek = '#' then c.dropWhile (!isBreakOrEnd ·) else c
    match c.lineBreak? with
    | some (_, c) =>
      toToken fuel { s with cursor := c, keyAllowed := s.keyAllowed || !s.inFlow }
    | none => { s with cursor := c }

/-! ## Plain scalars -/

/-- The line ends after a plain scalar's line; none where a document is marked. -/
def plainBreaks : (fuel : Nat) → Cursor → List Char × Cursor × Bool
  | 0, c => ([], c, false)
  | fuel + 1, c =>
    if c.peek = ' ' then plainBreaks fuel c.next
    else
      match c.lineBreak? with
      | none => ([], c, false)
      | some (b, c) =>
        if c.startsAnyMark then ([], c, true)
        else
          let (more, c, marked) := plainBreaks fuel c
          (b :: more, c, marked)

/-- What separates two words of a plain scalar, empty at its end; the place after it; and whether
a line ended. -/
def plainGap (c : Cursor) : List Char × Cursor × Bool :=
  let (spaces, c) := c.takeWhile (· == ' ')
  match c.lineBreak? with
  | none => (spaces, c, false)
  | some (b, c) =>
    if c.startsAnyMark then ([], c, true)
    else
      let (breaks, c, marked) := plainBreaks (c.rest.length + 1) c
      if marked then ([], c, true) else (folded b breaks, c, true)

/-- The characters of a plain scalar up to the next white space or indicator. -/
def plainWord (inFlow : Bool) : List Char → List Char
  | [] => []
  | c :: rest =>
    let after := rest.headD '\x00'
    if isGap c || (c = ':' && (isGap after || (inFlow && ",[]\x7b\x7d".toList.contains after))) ||
        (inFlow && ",?[]\x7b\x7d".toList.contains c) then []
    else c :: plainWord inFlow rest

/-- The words of a plain scalar and what separates them. -/
def plainText : (fuel : Nat) → (gap : List Char) → Scanner → List Char × Scanner
  | 0, _, s => ([], s)
  | fuel + 1, gap, s =>
    if s.cursor.peek = '#' then ([], s)
    else
      match plainWord s.inFlow s.cursor.rest with
      | [] => ([], s)
      | word =>
        let (next, c, ended) := plainGap (s.cursor.advance word.length)
        let s := { s with cursor := c, keyAllowed := ended }
        if next.isEmpty || c.peek = '#' || (!s.inFlow && (c.column : Int) < s.indent + 1) then
          (gap ++ word, s)
        else
          let (more, s) := plainText fuel next s
          (gap ++ word ++ more, s)

/-! ## Single tokens -/

/-- The start or the end of a document. -/
def documentMark (s : Scanner) (t : Token) : Except ReadFlaw Scanner := do
  let s ← (s.unwind (-1)).dropPending
  return ({ s with keyAllowed := false }.skip 3).emit t

def flowStart (s : Scanner) (t : Token) : Except ReadFlaw Scanner := do
  let s ← s.savePending
  let s := { s with flow := s.flow + 1, keyAllowed := true, pending := none :: s.pending }
  return (s.skip 1).emit t

def flowEnd (s : Scanner) (t : Token) : Except ReadFlaw Scanner := do
  let s ← s.dropPending
  if s.flow = 0 then throw .malformed
  let s := { s with flow := s.flow - 1, keyAllowed := false, pending := s.pending.drop 1 }
  return (s.skip 1).emit t

def flowEntry (s : Scanner) : Except ReadFlaw Scanner := do
  let s ← s.dropPending
  return ({ s with keyAllowed := true }.skip 1).emit .flowEntry

def blockEntry (s : Scanner) : Except ReadFlaw Scanner := do
  if !s.inFlow && !s.keyAllowed then throw .malformed
  let s := if s.inFlow then s else s.openBlock s.cursor.column .blockSequenceStart
  let s ← { s with keyAllowed := true }.dropPending
  return (s.skip 1).emit .blockEntry

/-- A key of the long form. -/
def explicitKey (s : Scanner) : Except ReadFlaw Scanner := do
  if !s.inFlow && !s.keyAllowed then throw .malformed
  let s := if s.inFlow then s else s.openBlock s.cursor.column .blockMappingStart
  let s ← { s with keyAllowed := !s.inFlow }.dropPending
  return (s.skip 1).emit .key

def valueMark (s : Scanner) : Except ReadFlaw Scanner := do
  match s.pending? with
  | some k =>
    let s := s.setPending none
    let fill (s : Scanner) (ts : List Token) := { s with slots := s.slots.setIfInBounds k.slot ts }
    let s :=
      if s.inFlow then fill s [.key]
      else
        match s.indentTo k.column with
        | some s => fill s [.blockMappingStart, .key]
        | none => fill s [.key]
    return ({ s with keyAllowed := false }.skip 1).emit .value
  | none =>
    if !s.inFlow && !s.keyAllowed then throw .malformed
    let s := if s.inFlow then s else s.openBlock s.cursor.column .blockMappingStart
    let s ← { s with keyAllowed := !s.inFlow }.dropPending
    return (s.skip 1).emit .value

def isAnchorChar (c : Char) : Bool :=
  ('0' ≤ c && c ≤ '9') || ('A' ≤ c && c ≤ 'Z') || ('a' ≤ c && c ≤ 'z') || c = '-' || c = '_'

def reference (s : Scanner) (t : String → Token) : Except ReadFlaw Scanner := do
  let s ← s.savePending
  let (name, c) := s.cursor.next.takeWhile isAnchorChar
  if name.isEmpty then throw .malformed
  if !(isGap c.peek || "?:,]\x7d%@`".toList.contains c.peek) then throw .malformed
  return { s with keyAllowed := false, cursor := c }.emit (t (String.ofList name))

def quotedScalar (s : Scanner) (double : Bool) : Except ReadFlaw Scanner := do
  let s ← s.savePending
  let (text, c) ← Quoted.text double s.cursor.next
  return { s with keyAllowed := false, cursor := c }.emit (.scalar text false)

def blockScalar (s : Scanner) (folding : Bool) : Except ReadFlaw Scanner := do
  let s ← { s with keyAllowed := true }.dropPending
  let (text, c) ← Block.text folding s.indent s.cursor.next
  return { s with cursor := c }.emit (.scalar (String.ofList text) false)

def plainScalar (s : Scanner) : Except ReadFlaw Scanner := do
  let s ← s.savePending
  let (text, s) := plainText (s.cursor.rest.length + 1) [] { s with keyAllowed := false }
  return s.emit (.scalar (String.ofList text) true)

/-- The characters that start no plain scalar. -/
def indicators : List Char := "-?:,[]\x7b\x7d#&*!|>'\"%@`".toList

def startsPlain (s : Scanner) : Bool :=
  let c := s.cursor.peek
  !(isGap c || indicators.contains c) ||
    (!isGap (s.cursor.peekAt 1) && (c = '-' || (!s.inFlow && (c = '?' || c = ':'))))

/-- The next token, at a place where one starts. -/
def token (s : Scanner) : Except ReadFlaw Scanner :=
  let c := s.cursor
  let ch := c.peek
  let gapAfter := isGap (c.peekAt 1)
  if c.column = 0 && c.startsMark '-' then s.documentMark .documentStart
  else if c.column = 0 && c.startsMark '.' then s.documentMark .documentEnd
  else if ch = '[' then s.flowStart .flowSequenceStart
  else if ch = '\x7b' then s.flowStart .flowMappingStart
  else if ch = ']' then s.flowEnd .flowSequenceEnd
  else if ch = '\x7d' then s.flowEnd .flowMappingEnd
  else if ch = ',' then s.flowEntry
  else if ch = '-' && gapAfter then s.blockEntry
  else if ch = '?' && (s.inFlow || gapAfter) then s.explicitKey
  else if ch = ':' && (s.inFlow || gapAfter) then s.valueMark
  else if ch = '*' then s.reference .reference
  else if ch = '&' then s.reference .anchor
  else if ch = '|' && !s.inFlow then s.blockScalar false
  else if ch = '>' && !s.inFlow then s.blockScalar true
  else if ch = '\'' then s.quotedScalar false
  else if ch = '"' then s.quotedScalar true
  else if s.startsPlain then s.plainScalar
  else .error .malformed

/-- The next token, and whether the text ended instead. -/
def fetch (s : Scanner) : Except ReadFlaw (Scanner × Bool) := do
  let s ← (toToken (s.cursor.rest.length + 1) s).dropStale
  let s := s.unwind s.cursor.column
  if s.cursor.rest.isEmpty then
    return (← (s.unwind (-1)).dropPending, true)
  else return (← s.token, false)

/-- The tokens before the first one that may still turn out to be a key. -/
def settled (s : Scanner) : List Token :=
  let first := s.pending.foldl (fun n k => min n (k.elim n PendingKey.slot)) s.slots.size
  (s.slots.toList.take first).flatten

/-- The tokens from a place to the end of the text, or to its first flaw. -/
def finish : (fuel : Nat) → Scanner → Tokens
  | 0, s => { list := s.settled, flaw := some .malformed }
  | fuel + 1, s =>
    match s.dropStale with
    | .error flaw => { list := s.settled, flaw := some flaw }
    | .ok s =>
      match s.fetch with
      | .error flaw => { list := s.settled, flaw := some flaw }
      | .ok (s, true) => { list := s.slots.toList.flatten }
      | .ok (s, false) => finish fuel s

end Scanner

/-- The tokens of a text. A mark of the byte order at its start does not count. -/
def Tokens.ofText (text : List Char) : Tokens :=
  if !text.all isAllowed then { list := [], flaw := some .malformed }
  else
    let cursor : Cursor := { rest := text }
    let cursor := if cursor.peek = '\ufeff' then cursor.next else cursor
    Scanner.finish (text.length + 2) { cursor }

end OpenApiClient.Yaml
