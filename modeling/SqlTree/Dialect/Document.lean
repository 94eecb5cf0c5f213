import SqlTree.Json.Fields
import SqlTree.Json.Printer
import SqlTree.Json.Reader
import SqlTree.Session

/-!
# Dialects and render options in JSON

A dialect is its name. Render options are a record with one field, whether values become
placeholders; without it they do.
-/

namespace SqlTree

namespace Dialect

def toJson (dialect : Dialect) : Json := .text dialect.name

def ofName? (name : String) : Option Dialect := all.find? fun dialect => dialect.name == name

def ofJson? (j : Json) : Option Dialect := j.keyword?.bind ofName?

/-- A dialect from its text. -/
def ofDocument? (text : String) : Option Dialect := (Json.parse text).bind ofJson?

end Dialect

/-- The options of a renderer. -/
structure RenderOptions where
  parameterise : Bool := true
  deriving DecidableEq

namespace RenderOptions

def toJson (options : RenderOptions) : Json :=
  .object [("parameterise", .bool options.parameterise)]

def ofJson? (j : Json) : Option RenderOptions := do
  match ← (← j.fields?).slots? ["parameterise"] with
  | [parameterise] => return ⟨← Json.orDefault Json.bool? true parameterise⟩
  | _ => none

/-- A renderer on one line with these options. -/
def renderer (options : RenderOptions) (dialect : Dialect) : Renderer :=
  { dialect, parameterise := options.parameterise }

end RenderOptions
end SqlTree
