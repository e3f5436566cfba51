import BcmServer.Auth.Authenticator
import BcmServer.Auth.Challenge

/-!
# BcmServer.Auth.AccountHelper — keys, uids and signatures

The uid of an account is the hash of its public key without the byte that tells the type of
the key. A device proves that it may use the account by a signature of its token, and the
server keeps a salted digest of the token.

The curve comes from libsignal, and the hashes and their text from a library for bitcoin
addresses; neither is a part of the repository.
-/

namespace BcmServer.Auth

open Util Http Crypto

/-- What `AccountHelper` takes from elsewhere. `K` is the type of the points of the curve. -/
structure AccountHelper (F K : Type) where
  ext : External F
  /-- `curve_decode_point` -/
  curveDecodePoint : Bytes → Option K
  /-- `curve_verify_signature` -/
  curveVerifySignature : K → Bytes → Bytes → Int32
  /-- `pubkeyHashToBase58Check` of the hashes of a key, with the version `kUidVersion` -/
  pubkeyHashToBase58Check : Bytes → Bytes
  /-- the version that `pubkeyHashFromBase58Check` leaves, which is 1 before -/
  pubkeyHashVersion : Bytes → UInt8
  /-- `Sha256::getDoubleHash` -/
  getDoubleHash : Bytes → Sha256Hash
  /-- a point has a type and 32 bytes -/
  curveDecodePoint_nil : curveDecodePoint [] = none

namespace AccountHelper

/-- Keys are the bytes of their text, a signature is the key and the message, and uids are not
hidden. -/
def plain {F : Type} (ext : External F) : AccountHelper F Bytes where
  ext := ext
  curveDecodePoint := fun s => if s.isEmpty then none else some s
  curveVerifySignature := fun key message sign => if sign = key ++ message then 1 else 0
  pubkeyHashToBase58Check := fun s => s
  pubkeyHashVersion := fun _ => 0
  getDoubleHash := fun _ => ⟨List.replicate 32 0, rfl⟩
  curveDecodePoint_nil := rfl

variable {F K : Type} (lib : AccountHelper F K)

/-- `AccountHelper::publicKeyToUid` -/
def publicKeyToUid (publicKey : Bytes) (bWithDjbType : Bool) : Bytes :=
  let decoded := Base64.decode lib.ext publicKey false
  let decoded := if bWithDjbType && !decoded.isEmpty then decoded.drop 1 else decoded
  lib.pubkeyHashToBase58Check decoded

/-- `AccountHelper::checkUid` -/
def checkUid (their publicKey : Bytes) (bWithDjbType : Bool) : Bool :=
  their == lib.publicKeyToUid publicKey bWithDjbType

/-- `AccountHelper::validUid` -/
def validUid (uid : Bytes) : Bool := lib.pubkeyHashVersion uid == 0

/-- `AccountHelper::verifySignature` -/
def verifySignature (key message sign : Bytes) : Bool :=
  match lib.curveDecodePoint (Base64.decode lib.ext key false) with
  | none => false
  | some publicKey =>
      lib.curveVerifySignature publicKey message (Base64.decode lib.ext sign false) > 0

/-- Nothing is signed with an empty key. -/
theorem verifySignature_nil (message sign : Bytes) :
    lib.verifySignature [] message sign = false := by
  have hnone : lib.curveDecodePoint (Base64.decode lib.ext [] false) = none :=
    lib.curveDecodePoint_nil
  unfold verifySignature
  rw [hnone]

end AccountHelper

/-- `Authenticator::Credential` -/
structure Credential where
  token : Bytes
  salt : Bytes
deriving DecidableEq, Repr

namespace Authenticator

variable {F : Type} (ext : External F)

/-- `Authenticator::getCredential`, with the number that is drawn -/
def getCredential (randNum : UInt32) (userToken : Bytes) : Credential :=
  let salt := decimal randNum.toNat
  { token := HexEncoder.encode (ext.sha1 (salt ++ userToken)) true []
    salt := salt }

/-- A token is that of its own credential. -/
theorem verify_getCredential (randNum : UInt32) (userToken : Bytes) :
    verify ext (getCredential ext randNum userToken).token
      (getCredential ext randNum userToken).salt userToken = true := by
  simp [verify, getCredential]

end Authenticator

end BcmServer.Auth
