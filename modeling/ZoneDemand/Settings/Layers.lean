import ZoneDemand.Failure
import ZoneDemand.FileTree
import ZoneDemand.Settings.Document

/-!
# Layers of settings

Settings come from at most one document, over the defaults, and from the
environment, over the document.  The document is in the file that was asked for,
else in the file that a variable names, else in the text that a variable holds,
else in the first of the usual files that is there.
-/

namespace ZoneDemand
namespace Settings

/-- The files that are looked for when no other document is named. -/
def usualFiles : List String := ["./config.toml", "./.pickups2deepar.toml"]

/-- Where the document is. -/
inductive DocumentSource where
  | file (path : String)
  | variable (text : String)
  | absent
deriving DecidableEq, Repr

/-- Chooses the document. -/
def documentSource (asked : Option String) (env : Environment) (tree : FileTree) :
    DocumentSource :=
  match asked, env.own? "CONFIG", env.own? "CONFIG_CONTENT" with
  | some path, _, _ => .file path
  | none, some path, _ => .file path
  | none, none, some text => .variable text
  | none, none, none =>
      match usualFiles.find? tree.exists? with
      | some path => .file path
      | none => .absent

/-- The settings of a document, over the defaults. -/
def ofSource (tree : FileTree) : DocumentSource → Except Failure Settings
  | .absent => .ok .default
  | .variable text =>
      match ofDocument? text with
      | some s => .ok s
      | none => .error ⟨[.parsingVariable], .document⟩
  | .file path =>
      match tree.readText path with
      | .error fault => .error ⟨[.readingSettings path], .file fault⟩
      | .ok text =>
          match ofDocument? text with
          | some s => .ok s
          | none => .error ⟨[.parsingSettings path], .document⟩

/-- All layers, in shape but not validated. -/
def ofLayers (asked : Option String) (env : Environment) (tree : FileTree) :
    Except Failure Settings :=
  match ofSource tree (documentSource asked env tree) with
  | .error failure => .error failure
  | .ok base =>
      match base.override env with
      | (_, some fault) => .error (.ofCause (.override fault))
      | (s, none) => .ok s.normalize

/-- The settings in a document given as a text, in shape. -/
def ofText (document : String) : Except Failure Settings :=
  match ofDocument? document with
  | some s => .ok s.normalize
  | none => .error ⟨[.parsingText], .document⟩

end Settings
end ZoneDemand
