import TradingDesk.Digest.Sha256
import TradingDesk.Fault
import TradingDesk.Text.Base64
import TradingDesk.Text.Case
/-!
# Signing requests

A request is signed with the digest of its time, method, path and body under the secret. The secret
is given, and the signature written, in base64.
-/

namespace TradingDesk.Exchange

def signedText (timestamp : Int) (method path body : String) : String :=
  toString timestamp ++ Text.upper method ++ path ++ body

def sign (secret : String) (timestamp : Int) (method path body : String) : Except Fault String :=
  match Base64.decode? secret with
  | none => .error (.authentication "Failed to decode secret")
  | some key =>
    .ok (Base64.encode (Sha256.keyed key (signedText timestamp method path body).toUTF8.toList))

end TradingDesk.Exchange
