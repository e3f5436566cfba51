import BcmServer.Http.External

/-!
# BcmServer.Auth.AuthorizationHeader — who sends a request

The header is `Basic`, a space and the Base64 text of uid, device and token:
`uid.device:token`. A device that is missing or not a number is the master
device.
-/

namespace BcmServer.Auth

open Util Http

variable {F : Type} (ext : External F)

namespace Base64

/-- `replace_all_copy(target, "\r\n", "")` -/
def eraseLineBreaks : Bytes → Bytes
  | 13 :: 10 :: rest => eraseLineBreaks rest
  | c :: rest => c :: eraseLineBreaks rest
  | [] => []

/-- The alphabet of URLs replaced by the usual one -/
def ofUrlSafe (c : UInt8) : UInt8 := if c = 45 then 43 else if c = 95 then 47 else c

/-- `Base64::decode` -/
def decode (target : Bytes) (urlSafe : Bool) : Bytes :=
  let stripped := eraseLineBreaks target
  if stripped.isEmpty then []
  else
    let missing := if urlSafe then stripped.length % 4 else 0
    let realTarget :=
      (if urlSafe then stripped.map ofUrlSafe else stripped) ++ List.replicate missing 61
    let appendSize :=
      if missing = 0 then (realTarget.reverse.takeWhile (· == 61)).length else missing
    let decoded := ext.base64Decode realTarget
    if ext.decodedSize realTarget.length = decoded.length + appendSize then decoded else []

/-- Without a carriage return there is no line break. -/
theorem eraseLineBreaks_of_notMem {target : Bytes} (h : 13 ∉ target) :
    eraseLineBreaks target = target := by
  induction target using eraseLineBreaks.induct with
  | case1 rest ih => simp at h
  | case2 c rest hc ih =>
      rw [eraseLineBreaks, ih (fun hmem => h (List.mem_cons_of_mem c hmem))]
      exact hc
  | case3 => rfl

end Base64

structure AuthorizationHeader where
  uid : Bytes
  token : Bytes
  deviceId : ℤ
deriving DecidableEq, Repr

namespace AuthorizationHeader

/-- `AuthorizationHeader::parse` of the two parts of the credentials -/
def ofParts (uidAndDevice token : Bytes) : AuthorizationHeader :=
  let parts := uidAndDevice.splitOn '.'.toUInt8
  { uid := parts.headD []
    token := token
    deviceId := (parts[1]?.bind stoi).getD ext.masterId.toNat }

/-- `AuthorizationHeader::parse` -/
def parse (header : Bytes) : Option AuthorizationHeader :=
  match header.splitOn ' '.toUInt8 with
  | scheme :: credentials :: _ =>
      if scheme ≠ ascii "Basic".toList then none
      else
        let concatenated := Base64.decode ext credentials false
        if concatenated.isEmpty then none
        else
          match concatenated.splitOn colon with
          | uidAndDevice :: token :: _ => some (ofParts ext uidAndDevice token)
          | _ => none
  | _ => none

end AuthorizationHeader

end BcmServer.Auth
