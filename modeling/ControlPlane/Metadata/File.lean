/-
# Metadata files

A store can be filled from a TOML text or from a file. What is wrong with the text comes
before what is wrong with the document.
-/

import ControlPlane.Metadata.Codec
import ControlPlane.Metadata.Store
import ControlPlane.Toml.Reader

namespace ControlPlane.Store

/-- A store filled from a TOML text, and the document that was read. -/
def ofTomlDocument (text : String) : Except Report (MetadataDocument × Store) :=
  match Toml.readAs? MetadataDocument.ofDatum? text with
  | none => .error [.stated "failed to parse metadata TOML", .unreadableText]
  | some doc => do
      let store ← (ofDocument doc).mapError DocumentError.report
      return (doc, store)

/-- A store filled from a TOML text. -/
def ofToml (text : String) : Except Report Store :=
  (ofTomlDocument text).map (·.2)

/-- A store filled from a file with given content, if it can be read. -/
def ofFile (path : String) (content : Option String) : Except Report Store :=
  match content with
  | none => .error [.stated ("failed to read metadata file: " ++ path), .unreadableFile]
  | some text => inContext ("invalid metadata file: " ++ path) (ofToml text)

end ControlPlane.Store
