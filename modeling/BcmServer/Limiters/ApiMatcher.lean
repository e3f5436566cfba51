import BcmServer.Http.Api

/-!
# BcmServer.Limiters.ApiMatcher — which API a request is

The limiters know the APIs by patterns such as `/v1/profile/:uid`. `ApiMatcher`
cuts pattern and target at every `/`, keeps the empty pieces, and compares them
one by one; a piece of the pattern that starts with `:` stands for any piece of
the target. `kActiveApis` are the patterns that are limited; every other route
that the router announces is ignored (`LimiterGlobals`).
-/

namespace BcmServer.Limiters

open Util Http

/-- The separator of paths -/
def slash : UInt8 := '/'.toUInt8

/-- `boost::split` at the slashes -/
def pieces (path : Bytes) : List Bytes := path.splitOn slash

namespace ApiMatcher

/-- `ApiMatcher::matchInternal` -/
def matchInternal (pattern target : Bytes) : Bool :=
  pattern.head? = some colon || pattern == target

/-- The loop over the pieces, after the comparison of their numbers. -/
def matchPieces (patterns targets : List Bytes) : Bool :=
  patterns.length == targets.length && (List.zipWith matchInternal patterns targets).all id

/-- `ApiMatcher::match` on texts -/
def matchText (pattern target : Bytes) : Bool := matchPieces (pieces pattern) (pieces target)

/-- `ApiMatcher::match` -/
def matchApi (pattern target : Api) : Bool :=
  pattern.method == target.method && matchText pattern.name target.name

/-- `ApiMatcher::matchAndFetch`: the piece of the target at the last place where
the pattern has `key`, and `value` if there is none. -/
def matchAndFetch (pattern target : Api) (key value : Bytes) : Option Bytes :=
  if matchApi pattern target then
    let found := ((pieces pattern.name).zip (pieces target.name)).reverse.find? fun p => p.1 = key
    some (found.elim value Prod.snd)
  else none

theorem matchPieces_iff {patterns targets : List Bytes} :
    matchPieces patterns targets = true ↔
      List.Forall₂ (fun p t => matchInternal p t = true) patterns targets := by
  unfold matchPieces
  induction patterns generalizing targets with
  | nil => cases targets <;> simp
  | cons p ps ih =>
      cases targets with
      | nil => simp
      | cons t ts =>
          rw [List.forall₂_cons, ← ih]
          simp only [List.length_cons, List.zipWith_cons_cons, List.all_cons, id_eq,
            Bool.and_eq_true, beq_iff_eq, Nat.add_right_cancel_iff]
          exact and_left_comm

/-- A fixed piece of a pattern stands for itself. -/
theorem matchInternal_of_fixed {p t : Bytes} (h : p.head? ≠ some colon) :
    matchInternal p t = true ↔ p = t := by
  simp [matchInternal, h]

theorem matchInternal_of_param {p : Bytes} (h : p.head? = some colon) (t : Bytes) :
    matchInternal p t = true := by
  simp [matchInternal, h]

end ApiMatcher

namespace LimiterGlobals

/-- An entry of the table -/
def api (method : Verb) (name : String) : Api := ⟨method, ascii name.toList⟩

/-- `LimiterGlobals::kActiveApis` -/
def kActiveApis : List Api := [
  api .patch "/v2/contacts/filters",
  api .put "/v2/keys/signed",
  api .put "/v2/keys",
  api .put "/v2/group/deliver/update",
  api .put "/v2/group/deliver/invite",
  api .put "/v2/group/deliver/create",
  api .put "/v2/contacts/parts",
  api .put "/v2/contacts/friends/request",
  api .put "/v2/contacts/friends/reply",
  api .put "/v2/contacts/filters",
  api .put "/v1/profile/uploadGroupAvatar",
  api .put "/v1/profile/uploadAvatarPlaintext",
  api .put "/v1/profile/privacy",
  api .put "/v1/profile/nickname/:nickname",
  api .put "/v1/profile/namePlaintext/:name",
  api .put "/v1/profile/keys",
  api .put "/v1/profile/avatar",
  api .put "/v1/profile",
  api .put "/v1/messages/:uid",
  api .put "/v1/group/deliver/upload_password",
  api .put "/v1/group/deliver/update_user",
  api .put "/v1/group/deliver/update_notice",
  api .put "/v1/group/deliver/update",
  api .put "/v1/group/deliver/send_msg",
  api .put "/v1/group/deliver/review_join_request",
  api .put "/v1/group/deliver/recall_msg",
  api .put "/v1/group/deliver/query_member_list",
  api .put "/v1/group/deliver/query_member",
  api .put "/v1/group/deliver/query_last_mid",
  api .put "/v1/group/deliver/query_joined_list",
  api .put "/v1/group/deliver/query_info",
  api .put "/v1/group/deliver/leave",
  api .put "/v1/group/deliver/kick",
  api .put "/v1/group/deliver/join_group_by_code",
  api .put "/v1/group/deliver/invite",
  api .put "/v1/group/deliver/get_msg",
  api .put "/v1/group/deliver/create",
  api .put "/v1/group/deliver/ack_msg",
  api .put "/v1/attachments/upload/:attachmentId",
  api .put "/v1/attachments/upload",
  api .put "/v1/accounts/signup",
  api .put "/v1/accounts/signin",
  api .put "/v1/accounts/gcm",
  api .put "/v1/accounts/features",
  api .put "/v1/accounts/attributes",
  api .put "/v1/accounts/apn",
  api .post "/v2/contacts/parts",
  api .post "/v1/group/deliver/query_member_list_segment",
  api .post "/v1/group/deliver/query_info_batch",
  api .post "/v1/group/deliver/query_group_pending_list",
  api .post "/v1/group/deliver/member_list_ordered",
  api .post "/v1/group/deliver/is_qr_code_valid",
  api .post "/v1/group/deliver/get_owner_confirm",
  api .post "/v1/attachments/s3/upload_certification",
  api .get "/v2/keys/signed",
  api .get "/v2/keys/:uid/:device_id",
  api .get "/v2/keys",
  api .get "/v1/profile/version/:version",
  api .get "/v1/profile/keys",
  api .get "/v1/profile/download/:avatarId",
  api .get "/v1/profile/:uid",
  api .get "/v1/contacts",
  api .get "/v1/attachments/download/:attachmentId",
  api .get "/v1/attachments/:attachmentId",
  api .get "/v1/attachments",
  api .get "/v1/accounts/turn",
  api .get "/v1/accounts/challenge/:uid",
  api .delete_ "/v2/contacts/friends",
  api .delete_ "/v2/contacts/filters",
  api .delete_ "/v1/accounts/gcm",
  api .delete_ "/v1/accounts/apn",
  api .delete_ "/v1/accounts/:uid/:signature",
  api .put "/v3/group/deliver/update",
  api .put "/v3/group/deliver/review_join_request",
  api .put "/v3/group/deliver/leave",
  api .put "/v3/group/deliver/kick",
  api .put "/v3/group/deliver/join_group_by_code",
  api .put "/v3/group/deliver/invite",
  api .put "/v3/group/deliver/group_keys_update",
  api .put "/v3/group/deliver/create",
  api .put "/v3/group/deliver/add_me",
  api .put "/v1/opaque_data",
  api .post "v3/group/deliver/dh_keys",
  api .post "/v3/group/deliver/prepare_key_update",
  api .post "/v3/group/deliver/members",
  api .post "/v3/group/deliver/latest_group_keys",
  api .post "/v3/group/deliver/group_keys",
  api .post "/v3/group/deliver/fire_group_keys_update",
  api .get "/v1/opaque_data/:index"]

/-- `LimiterGlobals::update`: an announced API that is not active is ignored. -/
def update (ignoredApis : List Api) (a : Api) : List Api :=
  if a ∈ kActiveApis then ignoredApis else ignoredApis.insert a

end LimiterGlobals

end BcmServer.Limiters
