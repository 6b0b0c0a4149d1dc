import OpenApiClient.Text.Basic
import OpenApiClient.Text.LowerCase

/-! # Names of files and directories

A name is a list of steps, from the working directory or from the root. Empty steps and steps that
stay where they are do not count. A step up does, as what it leads to is known only where the name
is used. -/
namespace OpenApiClient

/-- The name of a file or a directory. -/
structure PathName where
  /-- What stands before the first step: nothing in a name from the working directory, else one
  slash or two. -/
  root : String := ""
  /-- The steps, outermost first. -/
  steps : List String := []
  deriving DecidableEq

namespace PathName

/-- The start of a name that begins with some slashes. Two of them differ from any other number. -/
def rootOf (slashes : Nat) : String :=
  if slashes = 0 then "" else if slashes = 2 then "//" else "/"

def isStep (cs : List Char) : Bool := cs ≠ [] && cs ≠ ['.']

def ofString (s : String) : PathName where
  root := rootOf (s.toList.takeWhile (· == '/')).length
  steps := ((Text.fields (· == '/') s.toList).filter isStep).map String.ofList

def isAbsolute (p : PathName) : Bool := p.root != ""

/-- The name as a text; a name without steps is the place where it starts. -/
def text (p : PathName) : String :=
  if p.root = "" ∧ p.steps = [] then "." else p.root ++ String.intercalate "/" p.steps

/-- The second name read from the place that the first one names. -/
def append (p q : PathName) : PathName :=
  if q.isAbsolute then q else { p with steps := p.steps ++ q.steps }

/-- The name of the file itself, empty without steps. -/
def fileName (p : PathName) : String := p.steps.getLast?.getD ""

/-- The end of the name of the file from its last point on. A point at the start or the end of the
name starts no suffix. -/
def suffix (p : PathName) : String :=
  let name := p.fileName.toList
  let tail := (name.reverse.takeWhile (· != '.')).reverse
  if tail.isEmpty || name.length ≤ tail.length + 1 then ""
  else String.ofList ('.' :: tail)

/-- Whether the file holds YAML, as its suffix tells; any other file holds JSON. -/
def isYaml (p : PathName) : Bool :=
  let suffix := Text.lower p.suffix
  suffix == ".yaml" || suffix == ".yml"

theorem append_of_isAbsolute {p q : PathName} (h : q.isAbsolute) : p.append q = q := by
  simp [append, h]

/-- Every step leads somewhere. -/
theorem isStep_of_mem_ofString {s step : String} (h : step ∈ (ofString s).steps) :
    isStep step.toList := by
  obtain ⟨cs, hcs, rfl⟩ := List.mem_map.mp h
  simpa using (List.mem_filter.mp hcs).2

end PathName

end OpenApiClient
