import OpenApiClient.Text.Basic
import OpenApiClient.Text.Digit

/-! # Arguments of a command line

Each argument is an operand, an option or the mark after which all are operands. A long option may
be shortened as long as one option only is meant, and may have its value behind an equals sign. A
short option may have its value, or further short options, behind its letter or behind an equals
sign after it. -/
namespace OpenApiClient.CommandLine

/-- Why a command line asks for no run. -/
inductive Usage
  /-- It asks for help. -/
  | help
  /-- It is not well formed. -/
  | mistake
  deriving DecidableEq

def Usage.exitCode : Usage → Nat
  | help => 0
  | mistake => 2

/-- The options. -/
inductive Flag
  | help
  | outputDirectory
  | arraySeparator
  | modelsModule
  | verbose
  deriving DecidableEq

namespace Flag

def all : List Flag := [help, outputDirectory, arraySeparator, modelsModule, verbose]

def long : Flag → String
  | help => "--help"
  | outputDirectory => "--output-dir"
  | arraySeparator => "--array-separator"
  | modelsModule => "--models-module"
  | verbose => "--verbose"

def letter? : Flag → Option Char
  | help => some 'h'
  | outputDirectory => some 'o'
  | verbose => some 'v'
  | arraySeparator | modelsModule => none

def takesValue : Flag → Bool
  | outputDirectory | arraySeparator | modelsModule => true
  | help | verbose => false

def ofLetter? (c : Char) : Option Flag := all.find? (·.letter? == some c)

def ofLong? (s : String) : Option Flag := all.find? (·.long == s)

theorem ofLong?_long (f : Flag) : ofLong? f.long = some f := by cases f <;> decide

theorem mem_all (f : Flag) : f ∈ all := by cases f <;> decide

end Flag

/-- One argument. What is attached to an option stands behind it in the same argument. -/
inductive Argument
  | operand (s : String)
  | long (flag : Flag) (attached : Option (List Char))
  | short (flag : Flag) (attached : Option (List Char))
  /-- An option that does not exist. -/
  | unknown
  /-- The mark after which all arguments are operands. -/
  | endOfOptions
  deriving DecidableEq

namespace Argument

/-- Whether the text is a negative number; a line feed may follow. -/
def isNegative (cs : List Char) : Bool :=
  match cs with
  | '-' :: rest =>
    let body := if rest.getLast? = some '\n' then rest.dropLast else rest
    let (whole, tail) := body.span Text.isDecimalDigit
    match tail with
    | [] => !whole.isEmpty
    | '.' :: places => !places.isEmpty && places.all Text.isDecimalDigit
    | _ => false
  | _ => false

/-- The text before the first equals sign, and what stands after it. -/
def splitEquals (cs : List Char) : List Char × Option (List Char) :=
  match cs.span (· != '=') with
  | (before, '=' :: after) => (before, some after)
  | _ => (cs, none)

/-- The long option that a text of two hyphens stands for: the option itself, or the only one that
it starts. No option at all is none; several are a mistake. -/
def longOption (name : String) : Except Usage (Option Flag) :=
  match Flag.ofLong? name, Flag.all.filter fun f => Text.startsWith f.long name with
  | some f, _ => .ok (some f)
  | none, [f] => .ok (some f)
  | none, [] => .ok none
  | none, _ => .error .mistake

/-- An argument that starts with a hyphen and is no option: an operand if it is a number or holds a
space. -/
def other (s : String) : Argument :=
  if isNegative s.toList || s.toList.contains ' ' then operand s else unknown

/-- What an argument is before the end of the options. -/
def read (s : String) : Except Usage Argument :=
  match s.toList with
  | ['-', '-'] => .ok endOfOptions
  | '-' :: '-' :: _ => do
    let (name, attached) := splitEquals s.toList
    match ← longOption (String.ofList name) with
    | some f => return long f attached
    | none => return other s
  | '-' :: c :: rest =>
    match Flag.ofLetter? c, rest with
    | none, _ => .ok (other s)
    | some f, [] => .ok (short f none)
    | some f, '=' :: text => .ok (short f (some text))
    | some f, text => .ok (short f (some text))
  | _ => .ok (operand s)

def readAll : List String → Except Usage (List Argument)
  | [] => .ok []
  | s :: rest => do
    match ← read s with
    | endOfOptions => return endOfOptions :: rest.map operand
    | a => return a :: (← readAll rest)

end Argument

end OpenApiClient.CommandLine
