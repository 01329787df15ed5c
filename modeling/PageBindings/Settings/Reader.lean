import PageBindings.Settings.Basic
import PageBindings.Settings.Record

/-!
# Reading settings

`Settings.parse` reads the settings of a client from a JSON text.  What the text leaves out keeps its default.
-/

namespace PageBindings

namespace Vocabulary

/-- The fields, in their order of declaration. -/
def fields : List (Settings.Field Vocabulary) :=
  [ .of "events" Settings.readString fun value names => { names with events := value },
    .of "viewId" Settings.readString fun value names => { names with viewId := value },
    .of "viewName" Settings.readString fun value names => { names with viewName := value },
    .of "viewType" Settings.readString fun value names => { names with viewType := value } ]

/-- The attribute names at the front of a text. -/
def read (cs : List Char) : Except SettingsError (Vocabulary × List Char) :=
  Settings.readRecord "struct AttributeNames" fields {} cs

end Vocabulary

namespace Settings

/-- The fields, in their order of declaration. -/
def fields : List (Field Settings) :=
  [ .of "attributes" Vocabulary.read fun value settings => { settings with vocabulary := value },
    .of "paramsKey" readString fun value settings => { settings with parameterKey := value },
    .of "clientIdHeader" readString fun value settings => { settings with idHeader := value },
    .of "rootSelector" readString fun value settings => { settings with rootSelector := value },
    .of "streamUrl" readOptionalString fun value settings => { settings with streamUrl := value },
    .of "heartbeat" readString fun value settings => { settings with heartbeat := value },
    .of "endMessage" readString fun value settings => { settings with endWord := value },
    .of "preventDefaultOn" readStrings fun value settings => { settings with preventedTypes := value } ]

/-- The settings that a JSON text makes. -/
def parse (text : String) : Except SettingsError Settings := do
  let (settings, rest) ← readRecord "struct Config" fields {} text.toList
  if (Json.skipSpace rest).isEmpty then return settings else .error .notJson

end Settings

end PageBindings
