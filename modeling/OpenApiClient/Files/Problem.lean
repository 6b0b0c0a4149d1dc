import OpenApiClient.Text.Quoted

/-! # Problems with files -/
namespace OpenApiClient

/-- Why a file cannot be used. -/
inductive FileProblem
  /-- The file, or a directory on the way to it, does not exist. -/
  | missing
  /-- What is to be made exists. -/
  | alreadyThere
  /-- A step on the way is a file. -/
  | notDirectory
  /-- The file is a directory. -/
  | isDirectory
  /-- A name is too long to be the name of a file. -/
  | longName
  deriving DecidableEq

namespace FileProblem

def all : List FileProblem := [missing, alreadyThere, notDirectory, isDirectory, longName]

/-- The number of a problem, the same on every system of the family. -/
def number : FileProblem → Nat
  | missing => 2
  | alreadyThere => 17
  | notDirectory => 20
  | isDirectory => 21
  | longName => 36

def description : FileProblem → String
  | missing => "No such file or directory"
  | alreadyThere => "File exists"
  | notDirectory => "Not a directory"
  | isDirectory => "Is a directory"
  | longName => "File name too long"

def message (p : FileProblem) (path : String) : String :=
  "[Errno " ++ toString p.number ++ "] " ++ p.description ++ ": " ++ Text.quoted path

/-- The problem with a number. -/
def ofNumber? (n : Nat) : Option FileProblem := all.find? (·.number == n)

theorem ofNumber?_number (p : FileProblem) : ofNumber? p.number = some p := by cases p <;> rfl

theorem number_injective {p q : FileProblem} (h : p.number = q.number) : p = q := by
  cases p <;> cases q <;> first | rfl | exact absurd h (by decide)

end FileProblem

end OpenApiClient
