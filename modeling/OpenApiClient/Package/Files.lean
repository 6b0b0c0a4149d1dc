import OpenApiClient.Document.Access
import OpenApiClient.Files.Tree
import OpenApiClient.Log
import OpenApiClient.Operation.Group
import OpenApiClient.Package.Method
import OpenApiClient.Schema.Definition
import OpenApiClient.Table

/-! # The files of the package

The package has a module for each group, a module with the models, and a module that brings them
together. -/
namespace OpenApiClient.Package
open Schema (Model ModelForm RegistryM)

/-- The title and the version of a document; neither has to be a text. -/
def title (document : Value) : Except Fault String := do
  let info := (← document.get "info").orEmpty
  let title := Text.singleSpaced ((← info.get? "title").getD (.text "")).display
  let version ← info.get "version"
  if version.isTruthy then return Text.strip (title ++ " " ++ version.display)
  return title

/-- The line that every module starts with. -/
def banner (title : String) : String :=
  "# Code generated by clientgen" ++ (if title = "" then "" else " from " ++ title) ++
    ". DO NOT EDIT.\n"

/-- The start of the definition of a method, up to its documentation. -/
def methodHead (m : ClientMethod) : String :=
  match m.signature with
  | [] => "    async def " ++ m.name ++ "(self) -> " ++ m.responseText ++ ":\n"
  | lines =>
    "    async def " ++ m.name ++ "(\n" ++ "        self,\n" ++
      String.join (lines.map fun line => "        " ++ line ++ ",\n") ++
      "    ) -> " ++ m.responseText ++ ":\n"

def methodText (m : ClientMethod) : String :=
  "\n" ++ methodHead m ++ "        " ++ m.docstring ++ "\n" ++
    "        " ++ Text.indentRest 8 m.statements ++ "\n"

def groupModule (title : String) (modelsModule : Value) (group : TagGroup) : String :=
  banner title ++
    "\"\"\"Operations tagged ``" ++ group.name ++ "``.\"\"\"\n" ++
    "\n" ++
    "from __future__ import annotations\n" ++
    "\n" ++
    "import datetime  # noqa: F401\n" ++
    "import json  # noqa: F401\n" ++
    "import urllib.parse  # noqa: F401\n" ++
    "from collections.abc import Mapping, Sequence  # noqa: F401\n" ++
    "from typing import IO, Any  # noqa: F401\n" ++
    "\n" ++
    "from . import " ++ modelsModule.display ++ "  # noqa: F401\n" ++
    "\n\n" ++
    "class " ++ group.className ++ ":\n" ++
    "    def __init__(self, client: Any) -> None:\n" ++
    "        self.client = client\n" ++
    String.join (group.methods.map methodText)

def modelDocs (docs : String) : String := "    " ++ docstringOf 4 docs ++ "\n"

def modelText (m : Model) : String :=
  match m.form with
  | .enumeration members =>
    "class " ++ m.name ++ "(enum.StrEnum):\n" ++
      (if m.docs = "" then "" else modelDocs m.docs ++ "\n") ++
      String.join (members.map fun (name, value) => "    " ++ name ++ " = " ++ value ++ "\n")
  | .record fields true =>
    "class " ++ m.name ++ "(TypedDict):\n" ++
      (if m.docs ≠ "" then modelDocs m.docs ++ (if fields.isEmpty then "" else "\n")
        else if fields.isEmpty then "    pass\n" else "") ++
      String.join (fields.map fun f => "    " ++ f.key.display ++ ": " ++ f.typeText ++ "\n")
  | .record fields false =>
    m.name ++ " = TypedDict(\n    " ++ Text.quoted m.name ++ ",\n    \x7b\n" ++
      String.join (fields.map fun f =>
        "        " ++ f.key.literal ++ ": " ++ f.typeText ++ ",\n") ++
      "    \x7d,\n)\n"
  | .synonym target => m.name ++ ": TypeAlias = " ++ target ++ "\n"

def modelsText (title : String) (models : List Model) : String :=
  banner title ++
    "\"\"\"Types shared by the generated operations.\"\"\"\n" ++
    "\n" ++
    "import datetime  # noqa: F401\n" ++
    "import enum  # noqa: F401\n" ++
    "from collections.abc import Mapping, Sequence  # noqa: F401\n" ++
    "from typing import Any, NotRequired, TypeAlias, TypedDict  # noqa: F401\n" ++
    String.join (models.map fun m => "\n\n" ++ modelText m)

def packageText (title : String) (modelsModule : Value) (groups : List TagGroup) : String :=
  banner title ++
    "\"\"\"Generated API client" ++ (if title = "" then "" else " for " ++ title) ++ ".\"\"\"\n" ++
    "\n" ++
    "from . import " ++ modelsModule.display ++ "\n" ++
    String.join (groups.map fun g => "from ." ++ g.name ++ " import " ++ g.className ++ "\n") ++
    "\n" ++
    "__all__ = [\n" ++
    "    " ++ modelsModule.literal ++ ",\n" ++
    String.join (groups.map fun g => "    " ++ Text.quoted g.className ++ ",\n") ++
    "]\n"

def packageModule : String := "__init__"

/-- The texts of all modules by name. A later module of a name takes the place of an earlier one,
and the name of the models module has to be a scalar. -/
def files (document : Value) (settings : Settings) : RegistryM (Table Scalar String) := do
  let groups ← Operation.groups document settings
  let title ← title document
  let models ← (← get).models
  let modules := groups.map fun g =>
    (Scalar.text g.name, groupModule title settings.modelsModule g)
  return Table.ofList (modules ++
    [(← settings.modelsModule.asScalar, modelsText title models),
      (.text packageModule, packageText title settings.modelsModule groups)])

/-! ## Writing the package

The modules are written one after the other, so those before a module that cannot be written stay. -/

def fileOf (directory : PathName) (module : Scalar) : PathName :=
  directory.append (.ofString (module.display ++ ".py"))

/-- Writes a module to its file. The file is made before the text is encoded, so it stays empty if no
bytes encode the text. -/
def writeModule (directory : PathName) (module : Scalar × String) : FileM Unit := do
  let bytes := Text.bytes? module.2
  FileM.change (·.write (fileOf directory module.1) (bytes.getD .empty))
  if bytes.isNone then throw .badValue

/-- Writes the modules of a package to a directory, which is made if need be. -/
def write (directory : PathName) (modules : Table Scalar String) : FileM Unit := do
  FileM.addDirectories directory.root directory.steps.reverse
  for module in modules do
    writeModule directory module

def writtenRecord (directory : PathName) (modules : Table Scalar String) : LogRecord where
  level := .info
  source := .package
  message := "generated " ++ directory.text ++ " (" ++ toString modules.length ++ " modules)"

end OpenApiClient.Package
