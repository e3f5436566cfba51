import BcmServer.Controllers.AccountSystem

/-!
# BcmServer.Controllers.AccountTrust — what the handlers keep

The server keeps no list of the devices it trusts. That only somebody who holds the key of an
account, or the key of a device that the account has certified, gets a device in rests on two
pairs of fields of the devices: the token with its salt (`credential`), and the key with the
signature of the account (`certificate`).

What the handlers write keeps both (`sound_handle`, `sound_signin` and the others), on an
account for which they hold, and so does the store with such a write (`Sound.trusted`). A
handler changes the state of an account to deleted only, and its identity key not at all.
-/

namespace BcmServer.Controllers

open Util Lts Store Auth

namespace AccountServer

variable {F K : Type} (server : AccountServer F K) (uid : Bytes) (log : List AccountEvent)

/-! ## Trust -/

/-- A request to sign up or in that was received -/
def Sent (log : List AccountEvent) (req : SignRequest) : Prop :=
  .signup req ∈ log ∨ ∃ reads, .signin req reads ∈ log ∨ .signinDevice req reads ∈ log

/-- The hash of the key is the uid, and somebody has signed up with it. -/
def OwnKey (key : Bytes) : Prop :=
  server.lib.checkUid uid key true = true ∧
    ∃ req, AccountEvent.signup req ∈ log ∧ req.attr.attributes.publicKey = key

/-- A request has authorized the device with the key, and a key of the account has signed the key
and the number. -/
def Certified (id : UInt32) (key sign : Bytes) : Prop :=
  ∃ header client reqInfo authInfo clock reads account,
    AccountEvent.request header client (.authorizeDevice reqInfo authInfo) clock reads ∈ log ∧
      authInfo.deviceid = id ∧ reqInfo.publickey = key ∧ authInfo.accountsignature = sign ∧
      server.OwnKey uid log account ∧
      server.lib.verifySignature account (authInfo.signedContent reqInfo) sign = true

/-- A request to sign up or in came with a signature of the token, by a key of the account or by a
key that is certified for the device. -/
def Vouched (id : UInt32) (token : Bytes) : Prop :=
  ∃ req auth key, Sent log req ∧ req.auth = some auth ∧ auth.token = token ∧
    UInt32.ofInt auth.deviceId = id ∧
    (server.OwnKey uid log key ∨ ∃ sign, server.Certified uid log id key sign) ∧
    server.lib.verifySignature key token req.attr.sign = true

/-- The token of a device is the digest of one that was vouched for, if there is one. -/
def credential : FieldPair where
  first := .authToken
  second := .salt
  Holds id (authtoken salt : Bytes) := authtoken = [] ∨ ∃ token, server.Vouched uid log id token ∧
    authtoken = Crypto.HexEncoder.encode (server.lib.ext.sha1 (salt ++ token)) true []
  fresh _ := Or.inl rfl

/-- The key of a device is certified, if there is one. -/
def certificate : FieldPair where
  first := .publicKey
  second := .accountSignature
  Holds id (publickey sign : Bytes) := publickey = [] ∨ server.Certified uid log id publickey sign
  fresh _ := Or.inl rfl

/-- The account has a key of the uid, and all of its devices are trusted. -/
structure Trusted (r : Registered) : Prop where
  own : server.OwnKey uid log r.publickey
  credentials : ∀ d ∈ r.account.devices, (server.credential uid log).Of d
  certificates : ∀ d ∈ r.account.devices, (server.certificate uid log).Of d

/-- The state of the account is changed to deleted only, and the identity key is not changed. -/
structure KeepsAccount (m : ModifyAccount) : Prop where
  state : Account.Field.state.text ∈ m.field.modifyfields →
    m.account.values .state = AccountState.deleted
  identityKey : Account.Field.identityKey.text ∉ m.field.modifyfields

/-- What a handler is going to write keeps devices trusted, and such fields of the account. -/
structure Sound (w : AccountWrite) : Prop where
  credentials : (server.credential uid log).Kept w.edited
  certificates : (server.certificate uid log).Kept w.edited
  account : KeepsAccount w.edited

variable {server uid log} {log' : List AccountEvent}

/-! ## More requests -/

theorem Sent.mono {req : SignRequest} (h : Sent log req) (hlog : log ⊆ log') : Sent log' req := by
  rcases h with h | ⟨reads, h | h⟩
  · exact Or.inl (hlog h)
  · exact Or.inr ⟨reads, Or.inl (hlog h)⟩
  · exact Or.inr ⟨reads, Or.inr (hlog h)⟩

theorem OwnKey.mono {key : Bytes} (h : server.OwnKey uid log key) (hlog : log ⊆ log') :
    server.OwnKey uid log' key := by
  obtain ⟨hcheck, req, hreq, hkey⟩ := h
  exact ⟨hcheck, req, hlog hreq, hkey⟩

theorem Certified.mono {id : UInt32} {key sign : Bytes} (h : server.Certified uid log id key sign)
    (hlog : log ⊆ log') : server.Certified uid log' id key sign := by
  obtain ⟨header, client, reqInfo, authInfo, clock, reads, account, hreq, hid, hkey, hsign, hown,
    hverify⟩ := h
  exact ⟨header, client, reqInfo, authInfo, clock, reads, account, hlog hreq, hid, hkey, hsign,
    hown.mono hlog, hverify⟩

theorem Vouched.mono {id : UInt32} {token : Bytes} (h : server.Vouched uid log id token)
    (hlog : log ⊆ log') : server.Vouched uid log' id token := by
  obtain ⟨req, auth, key, hsent, hauth, htoken, hid, hkey, hverify⟩ := h
  refine ⟨req, auth, key, hsent.mono hlog, hauth, htoken, hid, ?_, hverify⟩
  rcases hkey with hown | ⟨sign, hcertified⟩
  · exact Or.inl (hown.mono hlog)
  · exact Or.inr ⟨sign, hcertified.mono hlog⟩

theorem credential_mono {d : Store.Device} (h : (server.credential uid log).Of d)
    (hlog : log ⊆ log') : (server.credential uid log').Of d := by
  rcases h with h | ⟨token, hvouched, htoken⟩
  · exact Or.inl h
  · exact Or.inr ⟨token, hvouched.mono hlog, htoken⟩

theorem certificate_mono {d : Store.Device} (h : (server.certificate uid log).Of d)
    (hlog : log ⊆ log') : (server.certificate uid log').Of d := by
  rcases h with h | h
  · exact Or.inl h
  · exact Or.inr (h.mono hlog)

theorem Trusted.mono {r : Registered} (h : server.Trusted uid log r) (hlog : log ⊆ log') :
    server.Trusted uid log' r where
  own := h.own.mono hlog
  credentials d hd := credential_mono (h.credentials d hd) hlog
  certificates d hd := certificate_mono (h.certificates d hd) hlog

theorem Sound.mono {w : AccountWrite} (h : server.Sound uid log w) (hlog : log ⊆ log') :
    server.Sound uid log' w where
  credentials := ⟨fun d hd => credential_mono (h.credentials.devices d hd) hlog,
    h.credentials.entries⟩
  certificates := ⟨fun d hd => certificate_mono (h.certificates.devices d hd) hlog,
    h.certificates.entries⟩
  account := h.account

/-! ## Operations -/

open ModifyAccount

/-- The operation sets the state of the account to deleted only, and not its identity key. -/
def KeepsState : Op → Prop
  | .setField .state v => v = AccountState.deleted
  | .setField .identityKey _ => False
  | _ => True

/-- The operation sets neither such a field of the account nor one on which trust rests. -/
def plain : Op → Bool
  | .setField f _ => f ∉ [.state, .identityKey]
  | .setDevice _ f _ => f ∉ [.authToken, .salt, .publicKey, .accountSignature]
  | _ => true

theorem keepsState_of_plain {op : Op} (h : plain op = true) : KeepsState op := by
  cases op with
  | setField f v =>
      cases f with
      | state => simp [plain] at h
      | identityKey => simp [plain] at h
      | _ => trivial
  | _ => trivial

theorem apart_of_plain {op : Op} (h : plain op = true) :
    (server.credential uid log).Apart op ∧ (server.certificate uid log).Apart op := by
  cases op with
  | setDevice id f v =>
      simp only [plain, List.mem_cons, List.not_mem_nil, or_false, not_or, decide_eq_true_eq] at h
      exact ⟨⟨h.1, h.2.1⟩, ⟨h.2.2.1, h.2.2.2⟩⟩
  | _ => exact ⟨trivial, trivial⟩

theorem state_setDevice (m : ModifyAccount) (id : UInt32) (f : Device.Field) (v : f.type) :
    (m.setDevice id f v).field.modifyfields = m.field.modifyfields ∧
      (m.setDevice id f v).account.values = m.account.values := by
  unfold setDevice
  split
  · exact ⟨rfl, rfl⟩
  · exact ⟨rfl, rfl⟩

theorem state_delDevice (masterId : UInt32) (m : ModifyAccount) (id : UInt32) :
    (m.delDevice masterId id).field.modifyfields = m.field.modifyfields ∧
      (m.delDevice masterId id).account.values = m.account.values := by
  unfold delDevice
  split
  · exact ⟨rfl, rfl⟩
  · exact ⟨rfl, rfl⟩

theorem KeepsAccount.setField {m : ModifyAccount} (h : KeepsAccount m) {f : Account.Field}
    {v : f.type} (hop : KeepsState (.setField f v)) : KeepsAccount (m.setField f v) where
  state hmem := by
    by_cases hf : f = .state
    · subst hf
      show Function.update m.account.values .state v .state = _
      rw [Function.update_self]
      exact hop
    · have hname : Account.Field.state.text ≠ f.text := fun heq =>
        hf (Account.Field.text_injective heq).symm
      have hbefore : Account.Field.state.text ∈ m.field.modifyfields := by
        rcases List.mem_append.mp hmem with hmem | hmem
        · exact hmem
        · exact absurd (List.mem_singleton.mp hmem) hname
      show Function.update m.account.values f v .state = _
      rw [Function.update_of_ne fun heq => hf heq.symm]
      exact h.state hbefore
  identityKey hmem := by
    rcases List.mem_append.mp hmem with hmem | hmem
    · exact h.identityKey hmem
    · have hf : f = .identityKey :=
        (Account.Field.text_injective (List.mem_singleton.mp hmem)).symm
      subst hf
      exact hop

theorem KeepsAccount.of_eq {m m' : ModifyAccount} (h : KeepsAccount m)
    (heq : m'.field.modifyfields = m.field.modifyfields ∧ m'.account.values = m.account.values) :
    KeepsAccount m' where
  state := by
    rw [heq.1, heq.2]
    exact h.state
  identityKey := by
    rw [heq.1]
    exact h.identityKey

theorem KeepsAccount.exec {m : ModifyAccount} (h : KeepsAccount m) (masterId : UInt32) {op : Op}
    (hop : KeepsState op) : KeepsAccount (m.exec masterId op) := by
  cases op with
  | setField f v => exact h.setField hop
  | setDevice id f v => exact h.of_eq (state_setDevice m id f v)
  | delDevice id => exact h.of_eq (state_delDevice masterId m id)
  | _ => exact h.of_eq ⟨rfl, rfl⟩

theorem KeepsAccount.foldl {ops : List Op} (hops : ∀ op ∈ ops, KeepsState op) (masterId : UInt32)
    {m : ModifyAccount} (h : KeepsAccount m) :
    KeepsAccount (ops.foldl (ModifyAccount.exec masterId) m) := by
  induction ops generalizing m with
  | nil => exact h
  | cons op ops ih =>
      rw [List.forall_mem_cons] at hops
      exact ih hops.2 (h.exec masterId hops.1)

/-! ## What the handlers write -/

/-- What a handler writes is sound, if it writes. -/
def SoundHandled (server : AccountServer F K) (uid : Bytes) (log : List AccountEvent)
    (h : Handled) : Prop :=
  ∀ w, h = .ok w → server.Sound uid log w

theorem soundHandled_error (status : RequestStatus) :
    server.SoundHandled uid log (.error status) := by
  intro w h
  cases h

theorem credential_ne : (server.credential uid log).first ≠ (server.credential uid log).second := by
  show Device.Field.authToken ≠ .salt
  decide

theorem certificate_ne :
    (server.certificate uid log).first ≠ (server.certificate uid log).second := by
  show Device.Field.publicKey ≠ .accountSignature
  decide

/-- The fields of the credential are none of the certificate. -/
theorem together_authtoken_salt (id : UInt32) (authtoken salt : Bytes) :
    (server.certificate uid log).Together [Op.setAuthtoken id authtoken, Op.setSalt id salt] := by
  refine .other ?_ (.other ?_ .nil)
  · show Device.Field.authToken ≠ .publicKey ∧ Device.Field.authToken ≠ .accountSignature
    decide
  · show Device.Field.salt ≠ .publicKey ∧ Device.Field.salt ≠ .accountSignature
    decide

/-- The fields of the certificate are none of the credential. -/
theorem together_publicKey_accountSignature {id : UInt32} {publickey sign : Bytes} {ops : List Op}
    (h : (server.credential uid log).Together ops) : (server.credential uid log).Together
      (Op.setPublicKey id publickey :: Op.setAccountSignature id sign :: ops) := by
  refine .other ?_ (.other ?_ h)
  · show Device.Field.publicKey ≠ .authToken ∧ Device.Field.publicKey ≠ .salt
    decide
  · show Device.Field.accountSignature ≠ .authToken ∧ Device.Field.accountSignature ≠ .salt
    decide

/-- Operations that set the fields of a pair together, on a trusted account -/
theorem sound_after {account : Store.Account} {ops : List Op} {device : Option UInt32}
    {status : RequestStatus}
    (hcredentials : ∀ d ∈ account.devices, (server.credential uid log).Of d)
    (hcertificates : ∀ d ∈ account.devices, (server.certificate uid log).Of d)
    (hcredential : (server.credential uid log).Together ops)
    (hcertificate : (server.certificate uid log).Together ops)
    (hstate : ∀ op ∈ ops, KeepsState op) :
    server.Sound uid log
      { edited := after server.masterId account ops
        device := device
        status := status } where
  credentials := FieldPair.kept_after hcredential credential_ne server.masterId hcredentials
  certificates := FieldPair.kept_after hcertificate certificate_ne server.masterId hcertificates
  account := KeepsAccount.foldl hstate server.masterId ⟨by simp, by simp⟩

theorem sound_edit {r : Registered} (hr : server.Trusted uid log r) {ops : List Op}
    {device : Option UInt32} {status : RequestStatus}
    (hcredential : (server.credential uid log).Together ops)
    (hcertificate : (server.certificate uid log).Together ops)
    (hstate : ∀ op ∈ ops, KeepsState op) :
    server.Sound uid log
      { edited := server.edit r ops
        device := device
        status := status } :=
  sound_after hr.credentials hr.certificates hcredential hcertificate hstate

theorem together_of_plain {ops : List Op} (h : ops.all plain = true) :
    (server.credential uid log).Together ops ∧ (server.certificate uid log).Together ops := by
  rw [List.all_eq_true] at h
  exact ⟨FieldPair.together_of_apart fun op hop => (apart_of_plain (h op hop)).1,
    FieldPair.together_of_apart fun op hop => (apart_of_plain (h op hop)).2⟩

theorem keepsState_of_all {ops : List Op} (h : ops.all plain = true) :
    ∀ op ∈ ops, KeepsState op := fun op hop =>
  keepsState_of_plain (List.all_eq_true.mp h op hop)

/-- Operations that set no such field at all -/
theorem sound_plain {r : Registered} (hr : server.Trusted uid log r) {ops : List Op}
    {device : Option UInt32} {status : RequestStatus} (h : ops.all plain = true) :
    server.SoundHandled uid log
      (.ok
        { edited := server.edit r ops
          device := device
          status := status }) := by
  intro w heq
  cases heq
  exact sound_edit hr (together_of_plain h).1 (together_of_plain h).2 (keepsState_of_all h)

/-- The fields of a device that signs in end with the credential of a token that is vouched for. -/
theorem together_signedInFields {id : UInt32} (req : SignRequest) {token : Bytes}
    (h : server.Vouched uid log id token) :
    (server.credential uid log).Together (server.signedInFields id req token) ∧
      (server.certificate uid log).Together (server.signedInFields id req token) ∧
        ∀ op ∈ server.signedInFields id req token, KeepsState op := by
  have hclient : (req.client.toList.map fun client =>
      Op.mutableClientversion id client).all plain = true := by
    cases req.client with
    | none => rfl
    | some client => rfl
  have hfront : ∀ front : List Op, front.all plain = true →
      (front ++ req.client.toList.map fun client =>
        Op.mutableClientversion id client).all plain = true := by
    intro front hfront
    rw [List.all_append, hfront, hclient]
    rfl
  refine ⟨(together_of_plain (hfront _ rfl)).1.append ?_,
    (together_of_plain (hfront _ rfl)).2.append ?_, ?_⟩
  · exact .pair (Or.inr ⟨token, h, rfl⟩) .nil
  · exact together_authtoken_salt id _ _
  · intro op hop
    rcases List.mem_append.mp hop with hop | hop
    · exact keepsState_of_all (hfront _ rfl) op hop
    · simp only [List.mem_cons, List.not_mem_nil, or_false] at hop
      rcases hop with rfl | rfl
      · trivial
      · trivial

/-- The key of the account has signed the token. -/
theorem sound_signin {lookup : AccountLookup} {req : SignRequest} (hreq : Sent log req)
    (hr : ∀ r, lookup = .found r → server.Trusted uid log r) :
    server.SoundHandled uid log (server.signin lookup req) := by
  unfold signin
  cases hauth : req.auth with
  | none => exact soundHandled_error _
  | some auth =>
      cases lookup with
      | noSuchData => exact soundHandled_error _
      | failed => exact soundHandled_error _
      | found r =>
          have htrusted := hr r rfl
          simp only
          split
          · exact soundHandled_error _
          split
          · exact soundHandled_error _
          rename_i hsigned
          have hsigned : server.lib.verifySignature r.publickey auth.token req.attr.sign =
              true := by simpa using hsigned
          have hvouched : server.Vouched uid log (UInt32.ofInt auth.deviceId) auth.token :=
            ⟨req, auth, r.publickey, hreq, hauth, rfl, rfl, Or.inl htrusted.own, hsigned⟩
          obtain ⟨hcredential, hcertificate, hstate⟩ :=
            together_signedInFields req hvouched
          intro w hw
          cases hw
          refine sound_edit htrusted (.other trivial hcredential) (.other trivial hcertificate) ?_
          rw [List.forall_mem_cons]
          exact ⟨trivial, hstate⟩

/-- The key of the device, which the account has certified, has signed the token. -/
theorem sound_signinDevice {lookup : AccountLookup} {req : SignRequest} (hreq : Sent log req)
    (hr : ∀ r, lookup = .found r → server.Trusted uid log r) :
    server.SoundHandled uid log (server.signinDevice lookup req) := by
  unfold signinDevice
  cases hauth : req.auth with
  | none => exact soundHandled_error _
  | some auth =>
      cases lookup with
      | noSuchData => exact soundHandled_error _
      | failed => exact soundHandled_error _
      | found r =>
          have htrusted := hr r rfl
          simp only
          split
          · exact soundHandled_error _
          cases hdevice : r.account.getDevice (UInt32.ofInt auth.deviceId) with
          | none => exact soundHandled_error _
          | some device =>
              simp only
              split
              · exact soundHandled_error _
              split
              · exact soundHandled_error _
              rename_i hsigned
              have hsigned : server.lib.verifySignature (device.values .publicKey) auth.token
                  req.attr.sign = true := by simpa using hsigned
              have hid : device.id = UInt32.ofInt auth.deviceId := Keyed.find_key hdevice
              have hof : (server.certificate uid log).Of device :=
                htrusted.certificates device (List.mem_of_find?_eq_some hdevice)
              -- nothing is signed with an empty key, so the key of the device is certified
              have hcertified : server.Certified uid log (UInt32.ofInt auth.deviceId)
                  (device.values .publicKey) (device.values .accountSignature) := by
                rcases hof with hempty | hcertified
                · have hkey : device.values .publicKey = ([] : Bytes) := hempty
                  rw [hkey, server.lib.verifySignature_nil] at hsigned
                  cases hsigned
                · rw [← hid]
                  exact hcertified
              have hvouched : server.Vouched uid log (UInt32.ofInt auth.deviceId) auth.token :=
                ⟨req, auth, device.values .publicKey, hreq, hauth, rfl, rfl,
                  Or.inr ⟨device.values .accountSignature, hcertified⟩, hsigned⟩
              obtain ⟨hcredential, hcertificate, hstate⟩ :=
                together_signedInFields req hvouched
              intro w hw
              cases hw
              exact sound_edit htrusted hcredential hcertificate hstate

theorem sound_destroy {lookup : AccountLookup} {sign : Bytes}
    (hr : ∀ r, lookup = .found r → server.Trusted uid log r) :
    server.SoundHandled uid log (server.destroy lookup uid sign) := by
  unfold destroy
  cases lookup with
  | noSuchData => exact soundHandled_error _
  | failed => exact soundHandled_error _
  | found r =>
      simp only
      split
      · exact soundHandled_error _
      split
      · exact soundHandled_error _
      have hcleared : ∀ id, (server.credential uid log).Together (clearedFields id) ∧
          (server.certificate uid log).Together (clearedFields id) := fun id =>
        ⟨.other (apart_of_plain rfl).1 <| .other (apart_of_plain rfl).1 <|
            .other (apart_of_plain rfl).1 <| .other (apart_of_plain rfl).1 <|
            .other (apart_of_plain rfl).1 <| .pair (Or.inl rfl) .nil,
          .other (apart_of_plain rfl).2 <| .other (apart_of_plain rfl).2 <|
            .other (apart_of_plain rfl).2 <| .other (apart_of_plain rfl).2 <|
            .other (apart_of_plain rfl).2 <| together_authtoken_salt id [] []⟩
      intro w hw
      cases hw
      refine sound_edit (hr r rfl)
        (.other trivial (FieldPair.together_flatMap fun id _ => (hcleared id).1))
        (.other trivial (FieldPair.together_flatMap fun id _ => (hcleared id).2)) ?_
      intro op hop
      rcases List.mem_cons.mp hop with rfl | hop
      · rfl
      · rcases List.mem_flatMap.mp hop with ⟨id, -, hop⟩
        simp only [clearedFields, List.mem_cons, List.not_mem_nil, or_false] at hop
        rcases hop with rfl | rfl | rfl | rfl | rfl | rfl | rfl <;> trivial

/-- Requests about devices: the key of a device that is authorized is certified. -/
theorem sound_handleDevice {r : Registered} (hr : server.Trusted uid log r) (req : DeviceRequest)
    (hreq : ∀ reqInfo authInfo, req = .authorizeDevice reqInfo authInfo →
      ∃ header client clock reads, AccountEvent.request header client
        (.authorizeDevice reqInfo authInfo) clock reads ∈ log) :
    server.SoundHandled uid log (server.handleDevice r req) := by
  unfold handleDevice
  cases hwrite : (server.deviceController r).handle r.account req with
  | none => exact soundHandled_error _
  | some dw =>
      intro w hw
      cases hw
      cases req with
      | authorizeDevice reqInfo authInfo =>
          simp only [DeviceController.handle, DeviceController.authorizeDevice] at hwrite
          split at hwrite
          · cases hwrite
          split at hwrite
          · cases hwrite
          rename_i hsigned
          have hsigned : (server.deviceController r).verifySignature
              (server.deviceController r).publickey (authInfo.signedContent reqInfo)
                authInfo.accountsignature = true := by simpa using hsigned
          cases hwrite
          refine sound_after hr.credentials hr.certificates ?_ ?_ ?_
          · exact .other trivial <| .other trivial <|
              together_publicKey_accountSignature (together_of_plain rfl).1
          · obtain ⟨header, client, clock, reads, hmem⟩ := hreq reqInfo authInfo rfl
            exact .other trivial <| .other trivial <| .pair (Or.inr ⟨header, client, reqInfo,
              authInfo, clock, reads, r.publickey, hmem, rfl, rfl, rfl, hr.own, hsigned⟩)
                (together_of_plain rfl).2
          · intro op hop
            simp only [DeviceController.authorizedFields, List.mem_cons, List.not_mem_nil,
              or_false] at hop
            rcases hop with rfl | rfl | rfl | rfl | rfl | rfl | rfl <;> trivial
      | manageDevice action =>
          simp only [DeviceController.handle, DeviceController.manageDevice] at hwrite
          split_ifs at hwrite
          cases hwrite
          have hplain : [Op.delDevice action.deviceId].all plain = true := rfl
          exact sound_plain hr hplain _ rfl
      | logout deviceId =>
          simp only [DeviceController.handle, DeviceController.logout] at hwrite
          split_ifs at hwrite
          cases hwrite
          have hplain : [Op.delDevice deviceId].all plain = true := rfl
          exact sound_plain hr hplain _ rfl
      | unregisterApn deviceId =>
          cases hwrite
          exact sound_plain hr rfl _ rfl
      | unregisterGcm deviceId =>
          cases hwrite
          exact sound_plain hr rfl _ rfl

/-- A handler of a device that is let in, on a trusted account -/
theorem sound_handle {r : Registered} (hr : server.Trusted uid log r) (deviceId : UInt32)
    (clock : Clock) (req : AuthedRequest)
    (hreq : ∃ header client clock reads, AccountEvent.request header client req clock reads ∈ log)
    {h : Handled}
    (hh : server.handle r deviceId clock req = some h) : server.SoundHandled uid log h := by
  cases req <;> simp only [handle, Option.some.injEq] at hh <;> try subst hh
  case setFeatures features =>
    unfold setFeatures
    split
    · exact soundHandled_error _
    split
    · exact soundHandled_error _
    · exact sound_plain hr rfl
  case setAttributes attr agent => exact sound_plain hr rfl
  case registerApn registration => exact sound_plain hr rfl
  case unregisterApn => exact sound_handleDevice hr _ (by simp)
  case registerGcm registration => exact sound_plain hr rfl
  case unregisterGcm => exact sound_handleDevice hr _ (by simp)
  case manageDevice action => exact sound_handleDevice hr _ (by simp)
  case logout => exact sound_handleDevice hr _ (by simp)
  case authorizeDevice reqInfo authInfo =>
    refine sound_handleDevice hr _ ?_
    intro reqInfo' authInfo' heq
    cases heq
    exact hreq
  case setKeys keyState =>
    unfold setKeys at hh
    split at hh
    · cases hh
      exact soundHandled_error _
    split at hh
    · cases hh
    simp only at hh
    split at hh
    · cases hh
      exact sound_plain hr rfl
    · cases hh
  case setSignedKey signedPreKey => exact sound_plain hr rfl
  case setName name =>
    unfold setName
    split
    · exact soundHandled_error _
    · exact sound_plain hr rfl
  case setPrivacy privacy => exact sound_plain hr rfl
  case setVersion version =>
    unfold setVersion
    split
    · exact soundHandled_error _
    · exact sound_plain hr rfl
  case setNickname nickname =>
    unfold setNickname
    split
    · exact soundHandled_error _
    · exact sound_plain hr rfl
  case setAvatar2 bundle =>
    unfold setAvatar2
    split
    · exact soundHandled_error _
    split
    · exact soundHandled_error _
    · exact sound_plain hr rfl
  case setProfileKeys keysString =>
    unfold setProfileKeys
    split
    · exact soundHandled_error _
    · exact sound_plain hr rfl
  case putContactsFilters filtersReq =>
    unfold putContactsFilters
    simp only
    split
    · exact soundHandled_error _
    split
    · exact soundHandled_error _
    split
    · exact soundHandled_error _
    · exact sound_plain hr rfl
  case patchContactsFilters filtersPatch =>
    unfold patchContactsFilters
    split
    · exact soundHandled_error _
    rename_i fw hfw
    simp only [ContactController.patchContactsFilters] at hfw
    split at hfw
    · cases hfw
    cases hfw
    intro w hw
    cases hw
    -- the copy has filters from then on, and the same devices
    exact sound_after hr.credentials hr.certificates (together_of_plain rfl).1
      (together_of_plain rfl).2 (keepsState_of_all rfl)
  case deleteContactsFilters => exact sound_plain hr rfl

/-! ## What the store makes of a write -/

/-- What is stored after a write: what was there, or what the store makes of the edited account or
of one device of it. -/
theorem perform_cases (dao : AccountsDao) (w : AccountWrite) (stored : Store.Account)
    (result : WriteResult) :
    (w.perform dao stored result).2 = stored ∨
      (w.perform dao stored result).2 = dao.updateAccount w.edited.field w.edited.account stored ∨
      ∃ e ∈ w.edited.field.devices,
        (w.perform dao stored result).2 = dao.updateDevice e w.edited.account stored := by
  unfold AccountWrite.perform
  cases w.device with
  | none =>
      by_cases hm : w.edited.isModified = true
      · cases result <;> simp [ModifyAccount.updateAccount, hm]
      · cases result <;> simp [ModifyAccount.updateAccount, hm]
  | some deviceId =>
      cases hentry : Keyed.find DeviceField.id deviceId w.edited.field.devices with
      | none => simp only [hentry, true_or]
      | some e =>
          have he : e ∈ w.edited.field.devices := List.mem_of_find?_eq_some hentry
          simp only [hentry]
          cases result with
          | done => exact Or.inr (Or.inr ⟨e, he, rfl⟩)
          | lost => exact Or.inr (Or.inr ⟨e, he, rfl⟩)
          | failed => exact Or.inl rfl

/-- A write that is sound leaves devices trusted. -/
theorem Sound.trusted {w : AccountWrite} (hw : server.Sound uid log w) (hdao : server.dao.Lawful)
    {r : Registered} (hr : server.Trusted uid log r) (result : WriteResult) :
    server.Trusted uid log { r with account := (w.perform server.dao r.account result).2 } := by
  rcases perform_cases server.dao w r.account result with h | h | ⟨e, he, h⟩
  · rw [h]
    exact hr
  · rw [h]
    exact ⟨hr.own, hw.credentials.of_updateAccount hdao hr.credentials,
      hw.certificates.of_updateAccount hdao hr.certificates⟩
  · rw [h]
    exact ⟨hr.own, hw.credentials.of_updateDevice hdao he hr.credentials,
      hw.certificates.of_updateDevice hdao he hr.certificates⟩

/-- It leaves a deleted account deleted. -/
theorem Sound.deleted {w : AccountWrite} (hw : server.Sound uid log w) (hdao : server.dao.Lawful)
    {stored : Store.Account} (h : stored.values .state = AccountState.deleted)
    (result : WriteResult) :
    (w.perform server.dao stored result).2.values .state = AccountState.deleted := by
  rcases perform_cases server.dao w stored result with heq | heq | ⟨e, he, heq⟩
  · rw [heq]
    exact h
  · rw [heq, hdao.values]
    split
    · rename_i hnamed
      exact hw.account.state hnamed
    · exact h
  · rw [heq, hdao.deviceValues]
    exact h

/-- It leaves the identity key of the account as it is. -/
theorem Sound.identityKey {w : AccountWrite} (hw : server.Sound uid log w)
    (hdao : server.dao.Lawful) (stored : Store.Account) (result : WriteResult) :
    (w.perform server.dao stored result).2.values .identityKey = stored.values .identityKey := by
  rcases perform_cases server.dao w stored result with heq | heq | ⟨e, he, heq⟩
  · rw [heq]
  · rw [heq, hdao.values, if_neg hw.account.identityKey]
  · rw [heq, hdao.deviceValues]

end AccountServer

end BcmServer.Controllers
