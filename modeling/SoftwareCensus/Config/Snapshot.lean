import SoftwareCensus.Config.Sources
import SoftwareCensus.Digest.Sha256
import SoftwareCensus.Document.Basic

/-!
# Snapshots

What a run was configured with, in a form in which two runs can be compared: digests of the files
that were read, and the names of the signatures.
-/

namespace SoftwareCensus.Config

/-- What a run was configured with. -/
structure Snapshot where
  /-- The digest of the file of the catalog, if it was read from one. -/
  signaturesHash : Option String
  signaturesPath : Option String
  signaturesOrigin : Origin
  /-- The digest of the file of the settings, if there is one. -/
  runSettingsHash : Option String
  runSettingsPath : Option String
  runSettingsOrigin : Origin
  /-- The names of the signatures of the catalog. -/
  signatures : List String
  deriving DecidableEq, Inhabited, Repr

namespace Snapshot

/-- The version of the form of configuration. -/
def schemaVersion : String := "1.0.0"

/-- Takes a snapshot, given the names of the signatures, the places of the files and what is in
them. -/
def take (names : List String) (locations : Locations) (signatures runSettings : Option String) :
    Snapshot where
  signaturesHash := signatures.map Sha256.hex
  signaturesPath := locations.signatures.path
  signaturesOrigin := locations.signatures.origin
  runSettingsHash := runSettings.map Sha256.hex
  runSettingsPath := locations.runSettings.path
  runSettingsOrigin := locations.runSettings.origin
  signatures := names

/-- The digest of both files together. -/
def combinedHash (s : Snapshot) : String :=
  Sha256.hex (s.signaturesHash.getD "builtin" ++ ":" ++ s.runSettingsHash.getD "none")

/-- A short name for what was read. -/
def shortId (s : Snapshot) : String := (s.combinedHash.take 12).toString

/-- Whether the same was read for both snapshots. -/
def agrees (s t : Snapshot) : Bool := s.combinedHash == t.combinedHash

/-- The entries of a snapshot besides its time. -/
def entries (s : Snapshot) : List (String × Document) :=
  let text (value : Option String) : Document := .ofOption (value.map .str)
  [("schema_version", .str schemaVersion), ("signatures_hash", text s.signaturesHash),
    ("signatures_path", text s.signaturesPath),
    ("signatures_source", .str s.signaturesOrigin.label),
    ("run_config_hash", text s.runSettingsHash), ("run_config_path", text s.runSettingsPath),
    ("run_config_source", .str s.runSettingsOrigin.label),
    ("combined_hash", .str s.combinedHash), ("signatures", .ofStrings s.signatures)]

/-- The document of a snapshot that was taken at a time. -/
def toDocument (s : Snapshot) (time : String) : Document :=
  .ofFields (("timestamp", .str time) :: s.entries)

end Snapshot

end SoftwareCensus.Config
