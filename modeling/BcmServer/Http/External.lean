import BcmServer.Util.Text
import BcmServer.Util.Thrown

/-!
# BcmServer.Http.External — code outside the repository

What the handling of requests takes from elsewhere: the header fields, status
codes and Base64 of `boost::beast`, the SHA-1 digest of OpenSSL, and the number
of the master device, which stands in the protocol buffers. `F` is the type of
the header fields of a message.
-/

namespace BcmServer.Http

open Util

structure External (F : Type) where
  /-- `Device::MASTER_ID` -/
  masterId : UInt32
  /-- `SHA1::digest` -/
  sha1 : Bytes → Bytes
  /-- `boost::beast::detail::base64::decoded_size` -/
  decodedSize : ℕ → ℕ
  /-- `boost::beast::detail::base64_decode` -/
  base64Decode : Bytes → Bytes
  /-- no fields -/
  noFields : F
  /-- `basic_fields::set` takes the name and the value; it throws otherwise -/
  accepts : Bytes → Bytes → Bool
  /-- the fields after `basic_fields::set` -/
  put : F → Bytes → Bytes → F
  /-- `basic_fields::operator[]`, empty if there is no such field -/
  value : F → Bytes → Bytes
  /-- the names and values in order -/
  entries : F → List (Bytes × Bytes)
  /-- `response::result(unsigned)` takes the status; it throws otherwise -/
  validStatus : ℕ → Bool
  /-- numbers of three digits are taken -/
  validStatus_of_lt : ∀ {n}, n < 1000 → validStatus n = true
  /-- `http::int_to_status` knows the status -/
  knownStatus : ℕ → Bool
  /-- `http::obsolete_reason` -/
  obsoleteReason : ℕ → Bytes

namespace External

variable {F : Type} (ext : External F)

/-- `basic_fields::set` -/
def set (fields : F) (name value : Bytes) : Except Thrown F :=
  if ext.accepts name value then .ok (ext.put fields name value)
  else .error (.exception (ascii "field name or value too large".toList))

/-- The fields as a list of names and values, for given digests and Base64 texts -/
def ofList (sha1 base64Decode : Bytes → Bytes) : External (List (Bytes × Bytes)) where
  masterId := 1
  sha1 := sha1
  decodedSize n := n / 4 * 3
  base64Decode := base64Decode
  noFields := []
  accepts name value := name.length + 2 ≤ 65535 && value.length + 2 ≤ 65535
  put fields name value := (fields.filter fun p => !iequals p.1 name) ++ [(name, value)]
  value fields name := ((fields.find? fun p => iequals p.1 name).map Prod.snd).getD []
  entries fields := fields
  validStatus n := n < 1000
  validStatus_of_lt h := by simpa using h
  knownStatus n := n ∈ [200, 400, 401, 403, 404, 500]
  obsoleteReason n :=
    ascii (if n = 200 then "OK"
      else if n = 400 then "Bad Request"
      else if n = 401 then "Unauthorized"
      else if n = 403 then "Forbidden"
      else if n = 404 then "Not Found"
      else if n = 500 then "Internal Server Error"
      else "<unknown-status>").toList

end External

end BcmServer.Http
