import FlowGraph.Document.Decode

/-!
# Settings files

Settings are loaded from a file that holds a document in UTF-8.
-/

namespace FlowGraph

/-- What is found where a file is looked for. -/
inductive FileState where
  | missing
  | directory
  | content (bytes : ByteArray)

/-- Why no settings are obtained. -/
inductive SettingsError where
  | missingFile
  | isDirectory
  /-- The file does not hold UTF-8. -/
  | notText
  /-- The text is not a document of settings. -/
  | malformed
  deriving DecidableEq, Repr

def SettingsError.message : SettingsError → String
  | .missingFile => "Failed to read config: No such file or directory (os error 2)"
  | .isDirectory => "Failed to read config: Is a directory (os error 21)"
  | .notText => "Failed to read config: stream did not contain valid UTF-8"
  | .malformed => "Failed to parse config"

/-- Settings from the text of a document. -/
def Settings.parse (text : String) : Except SettingsError Settings :=
  match Settings.read? text with
  | some settings => .ok settings
  | none => .error .malformed

/-- Settings from a file. -/
def Settings.ofFile : FileState → Except SettingsError Settings
  | .missing => .error .missingFile
  | .directory => .error .isDirectory
  | .content bytes =>
    match String.fromUTF8? bytes with
    | none => .error .notText
    | some text => Settings.parse text

end FlowGraph
