import CoverageMatrix.Config.Form
import CoverageMatrix.Json.Writer
import CoverageMatrix.Sha256

/-!
The digest of a configuration: SHA-256 of its compact JSON form. The reporting identifier is left
out, so that the digest may be published.
-/
namespace CoverageMatrix.Config

def withoutId (c : Config) : Config :=
  { c with reporter := { c.reporter with id := none } }

def canonicalText (c : Config) : String :=
  Json.compact c.withoutId.toData

def digest (c : Config) : String :=
  Sha256.ofText c.canonicalText

end CoverageMatrix.Config
