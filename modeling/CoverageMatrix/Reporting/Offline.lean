import CoverageMatrix.Error
import CoverageMatrix.Url.Reader

/-!
Downloads where no network is: a web address is refused by its server, an address of another kind
cannot be asked at all, and any other text is no address. An address is shown in its normal form and
without the password in it.
-/
namespace CoverageMatrix.Offline

/-- The longest address that can be asked, in characters. -/
def lengthLimit : Nat := 65534

/-- Whether a server can be asked for an address: the address has to be one of the web, and a host
that a request can name. -/
def isWeb (u : Url) : Bool :=
  (u.scheme = "http".toList || u.scheme = "https".toList)
    && !u.host.any (fun c => c ∈ ['"', '\x60', '\x7b', '\x7d'])
    && u.text.length ≤ lengthLimit

def download (url : String) : Except PipelineError ByteArray :=
  match Url.ofText? url with
  | none => .error (.helperFetch "remote" "builder error")
  | some u =>
    let u := if u.host.isEmpty then u else u.withoutUser
    let reason := if isWeb u then "error sending request" else "builder error"
    .error (.helperFetch u.text (reason ++ " for url (" ++ u.text ++ ")"))

end CoverageMatrix.Offline
