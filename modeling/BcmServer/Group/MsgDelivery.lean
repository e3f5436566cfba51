import BcmServer.Group.MsgController
import BcmServer.Offline.GroupStoreFormat

/-!
# BcmServer.Group.MsgDelivery — what becomes of a group message

The controller and the handler of notifications are on different servers, and agree on
nothing but the texts in redis. A JSON value is a string of another one there, and a text
that the handler cannot read ends one of its threads.

* `messages_delivered`: in every state, what is published is what some request has stored,
  and every server hands exactly that to the members who are online. It shows the uid of the
  sender only where plain uids are supported.
* `published_processed`: of what is published nothing keeps a server from anything else.
* `recalls_by_sender`: what is recalled is a message that was sent a day before at most, and
  with the same uid or with a signature of the key of the one who recalls it.
-/

namespace BcmServer.Group

open BcmServer.Util BcmServer.Lts
open BcmServer.Store (WriteResult)

/-! ## What is handed to the members -/

/-- The message for the clients -/
def PostedMsg.out {F K : Type} (c : GroupMsgController F K) : PostedMsg → GroupMsgOut
  | .sent account req msg =>
      { type := msg.type
        body := .chat
          { gid := req.gid
            mid := msg.mid
            fromUid := c.shownUid account
            text := req.text
            status := c.statusNormal
            createTime := msg.createTime
            atAll := req.atAll
            atList := req.atList
            sourceExtra := msg.sourceExtra } }
  | .recalled account req _ notice =>
      { type := .recall
        body := .recall
          { gid := req.gid
            mid := notice.mid
            fromUid := c.shownUid account
            recalledMid := req.mid
            sourceExtra := notice.sourceExtra } }

/-- The group -/
def PostedMsg.gid : PostedMsg → Gid
  | .sent _ req _ => req.gid
  | .recalled _ req _ _ => req.gid

theorem GroupMsg.Alike.trans {m m' m'' : GroupMsg} (h : m.Alike m') (h' : m'.Alike m'') :
    m.Alike m'' :=
  ⟨h.gid.trans h'.gid, h.mid.trans h'.mid, h.fromUid.trans h'.fromUid, h.type.trans h'.type,
    h.createTime.trans h'.createTime, h.verifySig.trans h'.verifySig⟩

theorem GroupMsg.alike_refl (m : GroupMsg) : m.Alike m := ⟨rfl, rfl, rfl, rfl, rfl, rfl⟩

/-- The strings of a message are UTF-8. -/
structure GroupMsg.Utf8Strings (msg : GroupMsg) : Prop where
  fromUid : Utf8 msg.fromUid
  text : Utf8 msg.text
  atList : Utf8 msg.atList
  sourceExtra : Utf8 msg.sourceExtra

namespace GroupMsgController

variable {F K : Type} (c : GroupMsgController F K) (H : OnlineMsgHandler)

/-- What is relied on: the handler reads what is printed, and knows the numbers of the types; and
texts that are printed are UTF-8, and not empty. -/
structure Lawful : Prop where
  parse : ∀ j, j.Storable → H.parse (c.dump j) = some j
  nonempty : ∀ j, c.dump j ≠ []
  utf8 : ∀ j, j.Storable → Utf8 (c.dump j)
  base64 : ∀ s, Utf8 (c.base64Encode s)
  number : ∀ type ∈ [GroupMsgType.chat, .channel, .recall], H.msgType (c.number type) = type

/-- A server reads what is published, and hands the message to the members who are online; its task
throws nothing. -/
def Delivered (pool : IoCtxPool) (n : Bytes × Bytes) (m : PostedMsg) : Prop :=
  ∃ msgObj, H.handleMessage pool n.1 n.2 =
      some (pool.getIoCtxByGid m.gid, .notification msgObj) ∧
    H.throws (.notification msgObj) = false ∧
    ∀ s : MemberMgr, ∃ lastMids, H.handleGroupMessage s msgObj =
      .ok
        { targetUsers := s.groupMembers m.gid
          message := some (m.out c)
          lastMids := lastMids }

variable {c H}

/-! ## The text of a notification -/

theorem mapOrder_notification (c : GroupMsgController F K) (msg : GroupMsg) :
    (c.notification msg).mapOrder =
      .object [("at_all", .number msg.atAll.toInt), ("at_list", .string msg.atList),
        ("create_time", .number msg.createTime.toNat), ("from_uid", .string msg.fromUid),
        ("from_uid_extra", .string (if c.plainUidSupport then msg.fromUid else [])),
        ("gid", .number msg.gid.toNat), ("mid", .number msg.mid.toNat),
        ("source_extra", .string msg.sourceExtra), ("status", .number msg.status.toInt),
        ("text", .string msg.text), ("type", .number (c.number msg.type).toInt)] := by
  simp [Json.mapOrder, notification, List.insertionSort, List.orderedInsert]

theorem storable_uint64 (n : UInt64) : (Json.number n.toNat).Storable := by
  have hlt : n.toNat < 2 ^ 64 := n.toNat_lt
  exact .number (by omega)

theorem storable_int32 (n : Int32) : (Json.number n.toInt).Storable := by
  have hle := n.le_toInt
  have hlt := n.toInt_lt
  exact .number (by omega)

theorem storable_notification {msg : GroupMsg} (h : msg.Utf8Strings) :
    (c.notification msg).mapOrder.Storable := by
  have hkeys : ["at_all", "at_list", "create_time", "from_uid", "from_uid_extra", "gid", "mid",
      "source_extra", "status", "text", "type"].Pairwise (· < ·) := by decide
  have hextra : Utf8 (if c.plainUidSupport then msg.fromUid else []) := by
    split
    · exact h.fromUid
    · exact utf8_nil
  rw [mapOrder_notification]
  refine .of_keys hkeys ?_
  simp only [List.forall_mem_cons, List.not_mem_nil, false_imp_iff, implies_true, and_true]
  exact ⟨storable_int32 _, .string h.atList, storable_uint64 _, .string h.fromUid,
    .string hextra, storable_uint64 _, storable_uint64 _, .string h.sourceExtra,
    storable_int32 _, .string h.text, storable_int32 _⟩

/-- What the handler finds in a notification -/
structure Found (c : GroupMsgController F K) (msg : GroupMsg) (j : Json) : Prop where
  type : j.at_ "type" = .ok (.number (c.number msg.type).toInt)
  gid : j.at_ "gid" = .ok (.number msg.gid.toNat)
  mid : j.at_ "mid" = .ok (.number msg.mid.toNat)
  status : j.at_ "status" = .ok (.number msg.status.toInt)
  text : j.at_ "text" = .ok (.string msg.text)
  createTime : j.at_ "create_time" = .ok (.number msg.createTime.toNat)
  atList : j.at_ "at_list" = .ok (.string msg.atList)
  atAll : j.at_ "at_all" = .ok (.number msg.atAll.toInt)
  sourceExtra : Group.sourceExtra j = .ok msg.sourceExtra
  fromUid : fromUidExtra j = .ok (if c.plainUidSupport then msg.fromUid else [])

theorem found_notification (c : GroupMsgController F K) (msg : GroupMsg) :
    Found c msg (c.notification msg).mapOrder := by
  rw [mapOrder_notification]
  constructor <;> rfl

theorem getUInt64_toNat (n : UInt64) : (Json.number n.toNat).getUInt64 = .ok n := by
  show Except.ok (UInt64.ofInt n.toNat) = _
  rw [ofInt_toNat_uInt64]

theorem getInt_toInt (n : Int32) : (Json.number n.toInt).getInt = .ok n := by
  show Except.ok (Int32.ofInt n.toInt) = _
  rw [Int32.ofInt_toInt]

/-- A text that was printed is read. -/
theorem Lawful.parseJson (h : c.Lawful H) {j : Json} (hj : j.Storable) :
    Group.parseJson H.parse (c.dump j) = .ok j := by
  rw [Group.parseJson, h.parse j hj]

theorem storable_strings {uids : List Bytes} (h : ∀ uid ∈ uids, Utf8 uid) :
    (Json.array (uids.map .string)).Storable := by
  refine .array fun j hj => ?_
  rcases List.mem_map.mp hj with ⟨uid, huid, rfl⟩
  exact .string (h uid huid)

theorem getStrings_strings (uids : List Bytes) :
    (Json.array (uids.map .string)).getStrings = .ok uids :=
  Offline.GroupMultibroadMessageInfo.getStrings_map uids

theorem isEmpty_dump (h : c.Lawful H) (j : Json) : (c.dump j).isEmpty = false := by
  simpa using h.nonempty j

/-- The handler reads the fields of a chat message. -/
theorem buildChatMessageBody_notification (h : c.Lawful H) {msg : GroupMsg} {j : Json}
    (hj : Found c msg j) {uids : List Bytes} (huids : ∀ uid ∈ uids, Utf8 uid)
    (hlist : msg.atList = c.dump (.array (uids.map .string))) {atAll : Bool}
    (hall : (msg.atAll == 1) = atAll) :
    buildChatMessageBody H.parse j = .ok
      { gid := msg.gid
        mid := msg.mid
        fromUid := if c.plainUidSupport then msg.fromUid else []
        text := msg.text
        status := msg.status
        createTime := msg.createTime
        atAll := atAll
        atList := uids
        sourceExtra := msg.sourceExtra } := by
  have hread := h.parseJson (storable_strings huids)
  have hstring : ∀ s : Bytes, (Json.string s).getString = .ok s := fun s => rfl
  simp only [buildChatMessageBody, hj.gid, hj.mid, hj.fromUid, hj.text, hj.status, hj.createTime,
    hj.atAll, hj.atList, hj.sourceExtra, getUInt64_toNat, getInt_toInt, hstring, bind, Except.bind,
    hlist, hread, getStrings_strings, isEmpty_dump h, Bool.false_eq_true, if_false, hall]
  rfl

/-- The handler reads the fields of a notice that a message is recalled. -/
theorem buildRecallMessage_notification (h : c.Lawful H) {msg : GroupMsg} {j : Json}
    (hj : Found c msg j) (mid : UInt64)
    (htext : msg.text = c.dump (.object [("recalled_mid", .number mid.toNat)])) :
    buildRecallMessage H.parse j false = .ok (some
      { type := .recall
        body := .recall
          { gid := msg.gid
            mid := msg.mid
            fromUid := if c.plainUidSupport then msg.fromUid else []
            recalledMid := mid
            sourceExtra := msg.sourceExtra } }) := by
  have hstorable : (Json.object [("recalled_mid", .number mid.toNat)]).Storable := by
    refine .of_keys (List.pairwise_singleton _ _) ?_
    simpa using storable_uint64 mid
  have hread := h.parseJson hstorable
  have hstring : ∀ s : Bytes, (Json.string s).getString = .ok s := fun s => rfl
  have hmid : (Json.object [("recalled_mid", .number mid.toNat)]).at_ "recalled_mid" =
      .ok (.number mid.toNat) := rfl
  simp only [buildRecallMessage, buildFromText, hj.gid, hj.mid, hj.fromUid, hj.text,
    hj.sourceExtra, getUInt64_toNat, hstring, bind, Except.bind, htext, hread, hmid,
    isEmpty_dump h, Bool.false_eq_true, if_false]
  rfl

/-- The handler reads a message that it can build. -/
theorem read_eq {msgObj : Json} {type : Int32} {gid : Gid} {out : GroupMsgOut}
    (htype : msgObj.at_ "type" = .ok (.number type.toInt))
    (hgid : msgObj.at_ "gid" = .ok (.number gid.toNat))
    (hbuild : H.build (H.msgType type) msgObj false = some (.ok (some out))) :
    H.read msgObj false = .ok (H.msgType type, gid, some (some out)) := by
  simp only [OnlineMsgHandler.read, htype, hgid, getInt_toInt, getUInt64_toNat, bind, Except.bind,
    hbuild]
  rfl

/-- It hands the message to the members. -/
theorem handleGroupMessage_eq {msgObj : Json} {type : GroupMsgType} {gid : Gid} {mid : UInt64}
    {out : GroupMsgOut} (hread : H.read msgObj false = .ok (type, gid, some (some out)))
    (hmid : msgObj.at_ "mid" = .ok (.number mid.toNat)) (hmember : type ≠ .memberUpdate)
    (s : MemberMgr) :
    ∃ lastMids, H.handleGroupMessage s msgObj =
      .ok
        { targetUsers := s.groupMembers gid
          message := some out
          lastMids := lastMids } := by
  unfold OnlineMsgHandler.handleGroupMessage
  simp only [hread, bind, Except.bind, hmid, getUInt64_toNat]
  split
  · rename_i hempty
    rw [List.isEmpty_iff.mp hempty]
    exact ⟨none, rfl⟩
  · exact ⟨_, rfl⟩

/-! ## What requests store -/

/-- What a request has stored is made by a handler. -/
def PostedSound (c : GroupMsgController F K) : PostedMsg → Prop
  | .sent account req msg => ∃ type now extra mid, (type = .chat ∨ type = .channel) ∧ Utf8 extra ∧
      msg = { c.sentMsg account req type now extra with mid := mid }
  | .recalled account req target notice => ∃ now extra newMid, Utf8 extra ∧ target.gid = req.gid ∧
      target.mid = req.mid ∧ c.recallMsg account req (some target) now = .ok target ∧
      notice = c.recallNotice account req target.gid newMid now extra

theorem utf8_encode (h : c.Lawful H) (s : Bytes) : Utf8 (c.encode s) := by
  unfold encode Crypto.Base64.encode
  split
  · exact utf8_nil
  · exact h.base64 s

/-- Where a message comes from is a text. -/
theorem utf8_sourceExtra (h : c.Lawful H) {account : Sender} {pubKey : Bytes} {seed : ℕ}
    {extra : Bytes} (hextra : c.sourceExtra account pubKey seed = .ok extra) : Utf8 extra := by
  unfold sourceExtra at hextra
  split at hextra
  · cases hsource : c.getSourceExtra account.uid pubKey seed with
    | none =>
        rw [hsource] at hextra
        cases hextra
    | some text =>
        rw [hsource] at hextra
        cases hextra
        rcases Option.map_eq_some_iff.mp hsource with ⟨e, -, rfl⟩
        exact utf8_encode h _
  · split at hextra
    · cases hextra
      exact utf8_nil
    · cases hextra

theorem utf8Strings_published (h : c.Lawful H) {m : PostedMsg} (hm : PostedSound c m) :
    m.published.Utf8Strings := by
  cases m with
  | sent account req msg =>
      obtain ⟨type, now, extra, mid, -, hextra, rfl⟩ := hm
      exact ⟨account.utf8, req.utf8.1, h.utf8 _ (storable_strings req.utf8.2.1), hextra⟩
  | recalled account req target notice =>
      obtain ⟨now, extra, newMid, hextra, -, -, -, rfl⟩ := hm
      have hstorable : (Json.object [("recalled_mid", .number req.mid.toNat)]).Storable := by
        refine .of_keys (List.pairwise_singleton _ _) ?_
        simpa using storable_uint64 req.mid
      have hlist : Utf8 (ascii ['[', ']']) := utf8_of_all (by decide)
      exact ⟨account.utf8, h.utf8 _ hstorable, hlist, hextra⟩

theorem gid_published {m : PostedMsg} (hm : PostedSound c m) : m.published.gid = m.gid := by
  cases m with
  | sent account req msg =>
      obtain ⟨type, now, extra, mid, -, -, rfl⟩ := hm
      rfl
  | recalled account req target notice =>
      obtain ⟨now, extra, newMid, -, hgid, -, -, rfl⟩ := hm
      exact hgid

/-- The handler builds the message for the clients. -/
theorem build_published (h : c.Lawful H) {m : PostedMsg} (hm : PostedSound c m) {j : Json}
    (hj : Found c m.published j) :
    H.build (H.msgType (c.number m.published.type)) j false = some (.ok (some (m.out c))) ∧
      H.msgType (c.number m.published.type) ≠ .memberUpdate := by
  cases m with
  | sent account req msg =>
      obtain ⟨type, now, extra, mid, htype, -, rfl⟩ := hm
      have hall : ((if req.atAll then 1 else 0 : Int32) == 1) = req.atAll := by
        cases req.atAll <;> rfl
      have hbody := buildChatMessageBody_notification h hj req.utf8.2.1 rfl hall
      have hchat : buildChatMessage H.parse type j false = .ok (some
          (PostedMsg.out c (.sent account req
            { c.sentMsg account req type now extra with mid := mid }))) := by
        rw [buildChatMessage, hbody]
        rfl
      have hnumber : H.msgType (c.number type) = type := h.number type (by grind)
      show H.build (H.msgType (c.number type)) j false = _ ∧ H.msgType (c.number type) ≠ _
      rw [hnumber]
      rcases htype with rfl | rfl
      · exact ⟨congrArg some hchat, by decide⟩
      · exact ⟨congrArg some hchat, by decide⟩
  | recalled account req target notice =>
      obtain ⟨now, extra, newMid, -, hgid, -, -, rfl⟩ := hm
      have hbody := buildRecallMessage_notification h hj req.mid rfl
      have hnumber : H.msgType (c.number .recall) = .recall := h.number .recall (by decide)
      show H.build (H.msgType (c.number .recall)) j false = _ ∧ H.msgType (c.number .recall) ≠ _
      rw [hnumber]
      refine ⟨congrArg some (hbody.trans ?_), by decide⟩
      rw [PostedMsg.out, ← hgid]
      rfl

/-- The channel of a group is one of group messages. -/
theorem isGroupMessageChannel_topic (gid : Gid) :
    isGroupMessageChannel (ascii "group_".toList ++ decimal gid.toNat) = true := by
  have hprefix : (ascii "group_".toList).isPrefixOf
      (ascii "group_".toList ++ decimal gid.toNat) = true := by simp
  rw [isGroupMessageChannel, hprefix, Bool.true_or]

/-- What is published for something that was stored is delivered, and throws nothing. -/
theorem delivered_of_sound (h : c.Lawful H) (pool : IoCtxPool) {m : PostedMsg}
    (hm : PostedSound c m) : c.Delivered H pool (c.sendGroupChatMsg m.published) m := by
  let j := (c.notification m.published).mapOrder
  have hfound : Found c m.published j := found_notification c m.published
  have hparse : H.parse (c.dump j) = some j :=
    h.parse j (storable_notification (utf8Strings_published h hm))
  obtain ⟨hbuild, hmember⟩ := build_published h hm hfound
  have hread := read_eq hfound.type hfound.gid hbuild
  refine ⟨j, ?_, ?_, fun s => ?_⟩
  · show H.handleMessage pool (ascii "group_".toList ++ decimal m.published.gid.toNat)
      (c.dump j) = _
    rw [OnlineMsgHandler.handleMessage, hparse]
    simp only [isGroupMessageChannel_topic, if_true, hfound.gid, getUInt64_toNat, bind, Except.bind]
    rw [gid_published hm]
  · rw [OnlineMsgHandler.throws, hread]
    rfl
  · rw [← gid_published hm]
    exact handleGroupMessage_eq hread hfound.mid hmember s

/-! ## Runs -/

/-- A message that a member has sent -/
def SentBy (s : GroupMsgState) (m : GroupMsg) : Prop :=
  ∃ account req msg, PostedMsg.sent account req msg ∈ s.posted ∧ m.Alike msg

/-- What a request that is going on has made sure of -/
def CallSound (c : GroupMsgController F K) (s : GroupMsgState) : GroupMsgCall → Prop
  | .getMemberRole _ _ type => type = .chat ∨ type = .channel
  | .insert account req msg => ∃ type now extra, (type = .chat ∨ type = .channel) ∧ Utf8 extra ∧
      msg = c.sentMsg account req type now extra
  | .recall account req target now extra => Utf8 extra ∧ target.gid = req.gid ∧
      target.mid = req.mid ∧ c.recallMsg account req (some target) now = .ok target ∧ SentBy s target
  | .publish posted => posted ∈ s.posted
  | _ => True

/-- What holds of what is stored and published -/
structure StateSound (c : GroupMsgController F K) (s : GroupMsgState) : Prop where
  msgs : ∀ m ∈ s.msgs, m.type = .chat ∨ m.type = .channel → SentBy s m
  posted : ∀ m ∈ s.posted, PostedSound c m
  recalled : ∀ account req target notice, .recalled account req target notice ∈ s.posted →
    SentBy s target
  published : ∀ n ∈ s.published, ∃ m ∈ s.posted, n = c.sendGroupChatMsg m.published

/-- What holds in every state -/
structure Inv (c : GroupMsgController F K) (p : Pool GroupMsgState GroupMsgCall) : Prop where
  state : StateSound c p.shared
  calls : ∀ call ∈ p.calls, CallSound c p.shared call

theorem SentBy.mono {s s' : GroupMsgState} {m : GroupMsg} (h : SentBy s m)
    (hs : s.posted ⊆ s'.posted) : SentBy s' m := by
  rcases h with ⟨account, req, msg, hmem, halike⟩
  exact ⟨account, req, msg, hs hmem, halike⟩

theorem CallSound.mono {s s' : GroupMsgState} {call : GroupMsgCall} (h : CallSound c s call)
    (hs : s.posted ⊆ s'.posted) : CallSound c s' call := by
  cases call with
  | getGroup account req => trivial
  | getMemberRole account req type => exact h
  | insert account req msg => exact h
  | getMsg account req => trivial
  | «recall» account req target now extra =>
      obtain ⟨hextra, hgid, hmid, hrecall, hsent⟩ := h
      exact ⟨hextra, hgid, hmid, hrecall, hsent.mono hs⟩
  | publish posted => exact hs h

/-- A request to send stores something, or one to recall. -/
theorem StateSound.post {s : GroupMsgState} (hs : StateSound c s) {msgs : List GroupMsg}
    {m : PostedMsg} (hm : PostedSound c m)
    (hmsgs : ∀ msg ∈ msgs, msg.type = .chat ∨ msg.type = .channel →
      (∃ msg' ∈ s.msgs, msg.Alike msg') ∨ ∃ account req msg', m = .sent account req msg' ∧
        msg.Alike msg')
    (hrecalled : ∀ account req target notice, m = .recalled account req target notice →
      SentBy s target) :
    StateSound c { s with msgs := msgs, posted := m :: s.posted } := by
  have hsub : s.posted ⊆ m :: s.posted := List.subset_cons_self m s.posted
  refine ⟨?_, ?_, ?_, ?_⟩
  · intro msg hmsg htype
    rcases hmsgs msg hmsg htype with ⟨msg', hmsg', halike⟩ | ⟨account, req, msg', rfl, halike⟩
    · have htype' : msg'.type = .chat ∨ msg'.type = .channel := halike.type ▸ htype
      obtain ⟨account, req, msg'', hmem, halike'⟩ := hs.msgs msg' hmsg' htype'
      exact ⟨account, req, msg'', hsub hmem, halike.trans halike'⟩
    · exact ⟨account, req, msg', List.mem_cons_self, halike⟩
  · rw [List.forall_mem_cons]
    exact ⟨hm, hs.posted⟩
  · intro account req target notice hmem
    rcases List.mem_cons.mp hmem with heq | hmem
    · exact SentBy.mono (hrecalled account req target notice heq.symm) hsub
    · exact (hs.recalled account req target notice hmem).mono hsub
  · intro n hn
    rcases hs.published n hn with ⟨m', hm', hn⟩
    exact ⟨m', hsub hm', hn⟩

/-- The type of the messages of a group -/
theorem type_of_sendMsgType {broadcast : Option Int32} {type : GroupMsgType}
    (h : sendMsgType broadcast = .ok type) : type = .chat ∨ type = .channel := by
  unfold sendMsgType at h
  cases broadcast with
  | none => cases h
  | some broadcast =>
      simp only at h
      split at h
      · cases h
        exact Or.inl rfl
      split at h
      · cases h
        exact Or.inr rfl
      · cases h

/-- What passes `recallMsg` is the message, one of a member. -/
theorem eq_of_recallMsg {account : Sender} {req : GRecallRequest} {msg : Option GroupMsg}
    {now : UInt64} {target : GroupMsg} (h : c.recallMsg account req msg now = .ok target) :
    msg = some target ∧ c.senderVerified account req target = true ∧
      (target.type = .chat ∨ target.type = .channel) ∧ now - target.createTime ≤ kRecallTime := by
  unfold recallMsg at h
  cases msg with
  | none => cases h
  | some msg =>
      simp only at h
      split_ifs at h with hverified htype hstatus htime
      cases h
      refine ⟨rfl, by simpa using hverified, ?_, UInt64.not_lt.mp htime⟩
      by_contra hnot
      simp [not_or] at hnot
      simp [hnot] at htype

/-- The next step of a request -/
theorem sound_next {dao : GroupMsgs} (h : c.Lawful H) (hdao : dao.Lawful) {s : GroupMsgState}
    (hs : StateSound c s) {call : GroupMsgCall} (hcall : CallSound c s call) (e : GroupMsgEffect) :
    StateSound c (c.next dao s e call).1 ∧ s.posted ⊆ (c.next dao s e call).1.posted ∧
      ∀ k ∈ (c.next dao s e call).2, CallSound c (c.next dao s e call).1 k := by
  have hrefl : s.posted ⊆ s.posted := List.Subset.refl _
  have hdone : ∀ s', ∀ k ∈ ([] : List GroupMsgCall), CallSound c s' k := by simp
  cases call with
  | getGroup account req =>
      unfold next
      cases htype : sendMsgType e.broadcast with
      | error refusal =>
          simp only
          exact ⟨hs, hrefl, hdone _⟩
      | ok type =>
          simp only [List.mem_singleton, forall_eq]
          exact ⟨hs, hrefl, type_of_sendMsgType htype⟩
  | getMemberRole account req type =>
      unfold next
      cases sendMsgRole e.role with
      | error refusal =>
          simp only
          exact ⟨hs, hrefl, hdone _⟩
      | ok u =>
          cases hextra : c.sourceExtra account req.pubKey e.seed with
          | error refusal =>
              simp only [hextra]
              exact ⟨hs, hrefl, hdone _⟩
          | ok extra =>
              simp only [hextra, List.mem_singleton, forall_eq]
              exact ⟨hs, hrefl, type, e.now, extra, hcall, utf8_sourceExtra h hextra, rfl⟩
  | insert account req msg =>
      obtain ⟨type, now, extra, htype, hextra, hmsg⟩ := hcall
      let inserted := dao.insert msg s.msgs
      let posted : PostedMsg := .sent account req { msg with mid := inserted.1 }
      have hposted : PostedSound c posted :=
        ⟨type, now, extra, inserted.1, htype, hextra, by rw [hmsg]⟩
      have hstate : StateSound c { s with msgs := inserted.2, posted := posted :: s.posted } := by
        refine hs.post hposted ?_ (by simp [posted])
        intro m hm _
        rcases hdao.insert msg s.msgs m hm with hm | hm
        · exact Or.inl ⟨m, hm, m.alike_refl⟩
        · exact Or.inr ⟨account, req, _, rfl, hm ▸ GroupMsg.alike_refl _⟩
      have hsub : s.posted ⊆ posted :: s.posted := List.subset_cons_self _ _
      unfold next
      cases e.result with
      | failed => exact ⟨hs, hrefl, hdone _⟩
      | lost => exact ⟨hstate, hsub, hdone _⟩
      | done =>
          refine ⟨hstate, hsub, ?_⟩
          rw [List.forall_mem_singleton]
          exact List.mem_cons_self
  | getMsg account req =>
      unfold next
      refine ⟨hs, hrefl, ?_⟩
      simp only
      split
      swap
      · exact hdone _
      rename_i target extra hrecall hextra
      simp only [List.mem_singleton, forall_eq]
      obtain ⟨hget, -, htype, -⟩ := eq_of_recallMsg hrecall
      rw [hget] at hrecall
      split at hget
      swap
      · cases hget
      -- what is read is where the request says, and stored
      have hfound : target.gid = req.gid ∧ target.mid = req.mid := by
        simpa using List.find?_some hget
      exact ⟨utf8_sourceExtra h hextra, hfound.1, hfound.2, hrecall,
        hs.msgs target (List.mem_of_find?_eq_some hget) htype⟩
  | «recall» account req target now extra =>
      obtain ⟨hextra, hgid, hmid, hrecall, hsent⟩ := hcall
      let recalled := dao.recall extra (c.shownUid account) req.gid req.mid s.msgs
      let posted : PostedMsg := .recalled account req target
        (c.recallNotice account req target.gid recalled.1 now extra)
      have hposted : PostedSound c posted :=
        ⟨now, extra, recalled.1, hextra, hgid, hmid, hrecall, rfl⟩
      have hstate : StateSound c { s with msgs := recalled.2, posted := posted :: s.posted } := by
        refine hs.post hposted ?_ ?_
        · intro m hm htype
          rcases hdao.recall extra (c.shownUid account) req.gid req.mid s.msgs m hm with hm | hm
          · exact Or.inl hm
          · rcases htype with htype | htype
            · cases hm.symm.trans htype
            · cases hm.symm.trans htype
        · intro account' req' target' notice' heq
          simp only [posted, PostedMsg.recalled.injEq] at heq
          rw [← heq.2.2.1]
          exact hsent
      have hsub : s.posted ⊆ posted :: s.posted := List.subset_cons_self _ _
      unfold next
      cases e.result with
      | failed => exact ⟨hs, hrefl, hdone _⟩
      | lost => exact ⟨hstate, hsub, hdone _⟩
      | done =>
          refine ⟨hstate, hsub, ?_⟩
          rw [List.forall_mem_singleton]
          exact List.mem_cons_self
  | publish posted =>
      unfold next
      simp only
      split
      · exact ⟨hs, hrefl, hdone _⟩
      · refine ⟨⟨hs.msgs, hs.posted, hs.recalled, ?_⟩, hrefl, hdone _⟩
        rw [List.forall_mem_cons]
        exact ⟨⟨posted, hcall, rfl⟩, hs.published⟩

/-- A request comes in. -/
theorem sound_receive {dao : GroupMsgs} (hdao : dao.Lawful) {s : GroupMsgState}
    (hs : StateSound c s) (event : GroupMsgEvent) :
    StateSound c (c.receive dao s event).1 ∧ (c.receive dao s event).1.posted = s.posted ∧
      ∀ k ∈ (c.receive dao s event).2, CallSound c (c.receive dao s event).1 k := by
  cases event with
  | sendMsg account req =>
      refine ⟨hs, rfl, ?_⟩
      unfold receive
      cases hsend : c.sendMsg req with
      | error refusal => simp [hsend]
      | ok u => simp [hsend, CallSound]
  | recallMsg account req => exact ⟨hs, rfl, by simp [receive, CallSound]⟩
  | store msg hother =>
      refine ⟨⟨?_, hs.posted, hs.recalled, hs.published⟩, rfl, by simp [receive]⟩
      intro m hm htype
      rcases hdao.insert msg s.msgs m hm with hm | hm
      · exact hs.msgs m hm htype
      · have heq : m.type = msg.type := by rw [hm]
        rcases htype with htype | htype
        · exact absurd (heq.symm.trans htype) hother.1
        · exact absurd (heq.symm.trans htype) hother.2

/-- Everything holds in every state. -/
theorem inv_of_run {dao : GroupMsgs} (h : c.Lawful H) (hdao : dao.Lawful)
    {p q : Pool GroupMsgState GroupMsgCall}
    {schedule : List (Sched GroupMsgEffect GroupMsgEvent)} (hp : Inv c p)
    (hrun : (c.system dao).machine.run p schedule = some q) : Inv c q := by
  refine (c.system dao).reachable_invariant (Inv c) ?_ ?_ hp hrun
  · intro p q call rest e s ks hp hperm hnext hshared hcalls
    obtain ⟨rfl, rfl⟩ := Prod.ext_iff.mp (Option.some.inj hnext)
    have hmem : call ∈ p.calls := hperm.mem_iff.mpr List.mem_cons_self
    obtain ⟨hstate, hsub, hks⟩ := sound_next h hdao hp.state (hp.calls call hmem) e
    rw [← hshared] at hstate hsub hks
    refine ⟨hstate, fun k hk => ?_⟩
    rcases List.mem_append.mp (hcalls.mem_iff.mp hk) with hk | hk
    · exact hks k hk
    · exact (hp.calls k (hperm.mem_iff.mpr (List.mem_cons_of_mem call hk))).mono hsub
  · intro p event s ks hp henv
    obtain ⟨rfl, rfl⟩ := Prod.ext_iff.mp (Option.some.inj henv)
    obtain ⟨hstate, hposted, hks⟩ := sound_receive hdao hp.state event
    refine ⟨hstate, fun k hk => ?_⟩
    rcases List.mem_append.mp hk with hk | hk
    · refine (hp.calls k hk).mono ?_
      rw [hposted]
      exact List.Subset.refl _
    · exact hks k hk

theorem inv_start : Inv c start := by
  refine ⟨⟨?_, ?_, ?_, ?_⟩, ?_⟩
  · intro m hm
    simp [start] at hm
  · intro m hm
    simp [start] at hm
  · intro account req target notice hm
    simp [start] at hm
  · intro n hn
    simp [start] at hn
  · intro call hcall
    simp [start] at hcall

/-! ## The messages that are published -/

/-- In every order of requests and their steps: what is published is of something that a request
has stored, and every server that reads it hands exactly the message for that to those of the
group who are online. -/
theorem messages_delivered (c : GroupMsgController F K) (H : OnlineMsgHandler) (h : c.Lawful H)
    (pool : IoCtxPool) (dao : GroupMsgs) (hdao : dao.Lawful)
    {schedule : List (Sched GroupMsgEffect GroupMsgEvent)} {p : Pool GroupMsgState GroupMsgCall}
    (hrun : (c.system dao).machine.run start schedule = some p) :
    ∀ n ∈ p.shared.published, ∃ m ∈ p.shared.posted, c.Delivered H pool n m := by
  have hstate := (inv_of_run h hdao inv_start hrun).state
  intro n hn
  rcases hstate.published n hn with ⟨m, hm, rfl⟩
  exact ⟨m, hm, delivered_of_sound h pool (hstate.posted m hm)⟩

/-- Senders are not encrypted, and each of the types that are sent has a number of its own. -/
def plainController : GroupMsgController (List (Bytes × Bytes)) Bytes where
  lib := .plain (Http.External.ofList (fun s => s) Crypto.Base64.readDigits)
  base64Encode := Util.Base64.encode
  dump := JsonText.dump
  encryptSender := fun _ _ _ => none
  number
    | .chat => 1
    | .channel => 2
    | .recall => 6
    | _ => 0
  statusNormal := 1
  statusRecalled := 2

/-- The parser of texts, and the same numbers -/
def readingHandler : OnlineMsgHandler where
  parse text := (JsonText.parse text).toOption
  msgType n := if n = 1 then .chat else if n = 2 then .channel else if n = 6 then .recall else .other n
  pickNoiseReceivers := none

theorem lawful_plainController : plainController.Lawful readingHandler where
  parse j hj := by
    show (JsonText.parse (JsonText.dump j)).toOption = some j
    rw [JsonText.parse_dump j hj]
    rfl
  nonempty j := by
    rcases JsonText.head_dump j with ⟨c, s, hcs, -⟩
    show JsonText.dump j ≠ []
    rw [hcs]
    exact List.cons_ne_nil c s
  utf8 j hj := JsonText.utf8_dump hj
  base64 s := by
    refine utf8_ascii fun c hc => ?_
    have hdigit : ∀ n < 64, Ascii (Util.Base64.digit n) := by decide
    have hc : c ∈ Util.Base64.digits s ++
        List.replicate ((3 - s.length % 3) % 3) Util.Base64.pad :=
      Util.Base64.encode_eq_digits s ▸ hc
    rcases List.mem_append.mp hc with hc | hc
    · rcases Util.Base64.mem_digits hc with ⟨n, hn, rfl⟩
      exact hdigit n hn
    · rw [List.eq_of_mem_replicate hc]
      decide
  number := by decide

/-- Messages are numbered one after the other. -/
def numberedMsgs : GroupMsgs where
  insert msg stored :=
    let mid := UInt64.ofNat stored.length + 1
    (mid, { msg with mid := mid } :: stored)
  «recall» extra uid gid mid stored :=
    let newMid := UInt64.ofNat stored.length + 1
    let notice : GroupMsg :=
      { gid := gid
        mid := newMid
        fromUid := uid
        text := []
        type := .recall
        status := 1
        atAll := 0
        atList := []
        createTime := 0
        sourceExtra := extra }
    (newMid, notice :: stored.map fun m =>
      if m.gid = gid ∧ m.mid = mid then { m with status := 2 } else m)

theorem lawful_numberedMsgs : numberedMsgs.Lawful where
  insert msg stored m hm := (List.mem_cons.mp hm).symm
  «recall» extra uid gid mid stored m hm := by
    rcases List.mem_cons.mp hm with rfl | hm
    · exact Or.inr rfl
    · rcases List.mem_map.mp hm with ⟨m', hm', rfl⟩
      refine Or.inl ⟨m', hm', ?_⟩
      split
      · exact ⟨rfl, rfl, rfl, rfl, rfl, rfl⟩
      · exact m'.alike_refl

def plainSender : Sender where
  uid := [117]
  publickey := []
  utf8 := utf8_singleton (by decide)

/-- A message to group 7 -/
def hello : GMsgRequest where
  gid := 7
  text := ascii "hi \x22you\x22".toList
  atList := [ascii ['v']]
  atAll := false
  pubKey := []
  sig := []
  utf8 :=
    ⟨utf8_of_all (by decide), List.forall_mem_singleton.mpr (utf8_of_all (by decide)), utf8_nil⟩

def recallHello : GRecallRequest where
  gid := 7
  mid := 1
  iv := []
  pubKey := []
  utf8 := utf8_nil

/-- A message is sent and recalled. -/
def sendsAndRecalls : List (Sched GroupMsgEffect GroupMsgEvent) :=
  [.env (.sendMsg plainSender hello), .call 0 { broadcast := some 0 },
    .call 0 { role := some .member, now := 5 }, .call 0 {}, .call 0 {},
    .env (.recallMsg plainSender recallHello), .call 0 { now := 9 }, .call 0 {}, .call 0 {}]

theorem messages_delivered_hello : ∃ p n m,
    (plainController.system numberedMsgs).machine.run start sendsAndRecalls = some p ∧
      p.shared.published.length = 2 ∧ n ∈ p.shared.published ∧ m ∈ p.shared.posted ∧
      plainController.Delivered readingHandler ⟨3, by decide, List.length⟩ n m := by
  have hresult : ((plainController.system numberedMsgs).machine.run start sendsAndRecalls).map
      (fun p => p.shared.published.length) = some 2 := by decide +kernel
  obtain ⟨p, hp, hlength⟩ := Option.map_eq_some_iff.mp hresult
  obtain ⟨n, hn⟩ := List.exists_mem_of_length_pos (l := p.shared.published) (by omega)
  obtain ⟨m, hm, hdelivered⟩ := messages_delivered plainController readingHandler
    lawful_plainController ⟨3, by decide, List.length⟩ numberedMsgs lawful_numberedMsgs hp n hn
  exact ⟨p, n, m, hp, hlength, hn, hm, hdelivered⟩

/-- A task is posted for a message, or by something else. -/
theorem mem_posted {pool : IoCtxPool} {k : ℕ} {es : List OnlineMsgHandler.ServiceEvent}
    {t : OnlineMsgHandler.PoolTask} (ht : t ∈ H.posted pool k es) :
    (∃ chan msg, .message chan msg ∈ es ∧ H.handleMessage pool chan msg = some (k, t)) ∨
      ∃ b, .post k b ∈ es ∧ t = .other b := by
  simp only [OnlineMsgHandler.posted, Worker.posted, List.mem_filterMap] at ht
  rcases ht with ⟨event, ⟨e, he, hevent⟩, htask⟩
  cases e with
  | message chan msg =>
      rcases Option.map_eq_some_iff.mp hevent with ⟨⟨j, t'⟩, hhandle, rfl⟩
      simp only [Option.ite_none_right_eq_some, Option.some.injEq] at htask
      obtain ⟨rfl, rfl⟩ := htask
      exact Or.inl ⟨chan, msg, he, hhandle⟩
  | post j b =>
      cases hevent
      simp only [Option.ite_none_right_eq_some, Option.some.injEq] at htask
      obtain ⟨rfl, rfl⟩ := htask
      exact Or.inr ⟨b, he, rfl⟩
  | run j =>
      cases hevent
      cases htask

/-- In every order of requests and their steps: of what is published, in any order and any number
of times, and beside tasks that do not throw, nothing keeps a server from anything else of it. -/
theorem published_processed (c : GroupMsgController F K) (H : OnlineMsgHandler) (h : c.Lawful H)
    (pool : IoCtxPool) (dao : GroupMsgs) (hdao : dao.Lawful)
    {schedule : List (Sched GroupMsgEffect GroupMsgEvent)} {p : Pool GroupMsgState GroupMsgCall}
    (hrun : (c.system dao).machine.run start schedule = some p)
    {es : List OnlineMsgHandler.ServiceEvent}
    (hes : ∀ chan msg, .message chan msg ∈ es → (chan, msg) ∈ p.shared.published)
    (hother : ∀ k b, .post k b ∈ es → b = false) {s : ℕ → Worker OnlineMsgHandler.PoolTask}
    (hs : H.run pool es = some s) {k : ℕ} (hrest : (s k).AtRest) :
    (s k).executed = H.posted pool k es := by
  have hstate := (inv_of_run h hdao inv_start hrun).state
  rw [(OnlineMsgHandler.accounts H hs k).executed_all_iff hrest]
  intro t ht
  rcases mem_posted (List.dropLast_subset _ ht) with ⟨chan, msg, he, hhandle⟩ | ⟨b, he, rfl⟩
  · rcases hstate.published (chan, msg) (hes chan msg he) with ⟨m, hm, hn⟩
    obtain ⟨msgObj, hhandle', hthrows, -⟩ :=
      delivered_of_sound h pool (hstate.posted m hm)
    rw [← hn, hhandle] at hhandle'
    cases hhandle'
    exact hthrows
  · exact hother k b he

/-- What is published arrives, and a context takes two steps. -/
def arrivals (p : Pool GroupMsgState GroupMsgCall) : List OnlineMsgHandler.ServiceEvent :=
  (p.shared.published.map fun n => .message n.1 n.2) ++ [.run 1, .run 1]

theorem published_processed_hello : ∃ p s,
    (plainController.system numberedMsgs).machine.run start sendsAndRecalls = some p ∧
      readingHandler.run ⟨3, by decide, List.length⟩ (arrivals p) = some s ∧
      (s 1).executed = readingHandler.posted ⟨3, by decide, List.length⟩ 1 (arrivals p) := by
  have hresult : (((plainController.system numberedMsgs).machine.run start sendsAndRecalls).bind
      fun p => (readingHandler.run ⟨3, by decide, List.length⟩ (arrivals p)).map fun s =>
        (s 1).queue.length) = some 0 := by decide +kernel
  obtain ⟨p, hp, hrun⟩ := Option.bind_eq_some_iff.mp hresult
  obtain ⟨s, hs, hqueue⟩ := Option.map_eq_some_iff.mp hrun
  have hmessages : ∀ chan msg, .message chan msg ∈ arrivals p →
      (chan, msg) ∈ p.shared.published := by
    intro chan msg hmem
    simpa [arrivals] using hmem
  have hother : ∀ k b, .post k b ∈ arrivals p → b = false := by
    intro k b hmem
    simp [arrivals] at hmem
  exact ⟨p, s, hp, hs, published_processed plainController readingHandler lawful_plainController
    ⟨3, by decide, List.length⟩ numberedMsgs lawful_numberedMsgs hp hmessages hother hs
    (Or.inr (List.length_eq_zero_iff.mp hqueue))⟩

/-- In every order of requests and their steps: what is recalled is a message that somebody has
sent to the group a day before at most, whose uid is that of the one who recalls it if it is
shown, and else the key of that one has signed what the message came with. -/
theorem recalls_by_sender (c : GroupMsgController F K) (H : OnlineMsgHandler) (h : c.Lawful H)
    (dao : GroupMsgs) (hdao : dao.Lawful)
    {schedule : List (Sched GroupMsgEffect GroupMsgEvent)} {p : Pool GroupMsgState GroupMsgCall}
    (hrun : (c.system dao).machine.run start schedule = some p) {account : Sender}
    {req : GRecallRequest} {target notice : GroupMsg}
    (hrecalled : .recalled account req target notice ∈ p.shared.posted) :
    ∃ sender sent msg, .sent sender sent msg ∈ p.shared.posted ∧ sent.gid = req.gid ∧
      msg.mid = req.mid ∧ notice.createTime - msg.createTime ≤ kRecallTime ∧
      (c.shownUid sender ≠ [] → sender.uid = account.uid) ∧
      (c.shownUid sender = [] →
        c.lib.verifySignature account.publickey (c.decode req.iv) sent.sig = true) := by
  have hstate := (inv_of_run h hdao inv_start hrun).state
  obtain ⟨sender, sent, msg, hsent, halike⟩ := hstate.recalled account req target notice hrecalled
  obtain ⟨now, extra, newMid, -, hgid, hmid, hrecall, hnotice⟩ := hstate.posted _ hrecalled
  obtain ⟨type, now', extra', mid', -, -, hmsg⟩ := hstate.posted _ hsent
  obtain ⟨-, hverified, -, htime⟩ := eq_of_recallMsg hrecall
  have hfrom : target.fromUid = c.shownUid sender := by
    rw [halike.fromUid, hmsg]
    rfl
  have hverify : target.verifySig = sent.sig := by
    rw [halike.verifySig, hmsg]
    rfl
  have hnow : notice.createTime = now := by
    rw [hnotice]
    rfl
  refine ⟨sender, sent, msg, hsent, ?_, halike.mid.symm.trans hmid, ?_, ?_, ?_⟩
  · rw [← hgid, halike.gid, hmsg]
    rfl
  · rw [hnow, ← halike.createTime]
    exact htime
  · intro hshown
    have hplain : c.plainUidSupport = true := by
      by_contra hnot
      simp [shownUid, hnot] at hshown
    rw [senderVerified, hfrom] at hverified
    simp only [shownUid, hplain, if_true] at hverified hshown
    simpa [hshown] using hverified
  · intro hshown
    rw [senderVerified, hfrom, hshown, hverify] at hverified
    exact hverified

def isRecalled : PostedMsg → Bool
  | .sent _ _ _ => false
  | .recalled _ _ _ _ => true

theorem recalls_by_sender_hello : ∃ p account req target notice,
    (plainController.system numberedMsgs).machine.run start sendsAndRecalls = some p ∧
      .recalled account req target notice ∈ p.shared.posted ∧
      ∃ sender sent msg, .sent sender sent msg ∈ p.shared.posted ∧ sent.gid = req.gid ∧
        msg.mid = req.mid ∧ notice.createTime - msg.createTime ≤ kRecallTime ∧
        (plainController.shownUid sender ≠ [] → sender.uid = account.uid) ∧
        (plainController.shownUid sender = [] → plainController.lib.verifySignature
          account.publickey (plainController.decode req.iv) sent.sig = true) := by
  have hresult : ((plainController.system numberedMsgs).machine.run start sendsAndRecalls).map
      (fun p => p.shared.posted.any isRecalled) = some true := by decide +kernel
  obtain ⟨p, hp, hany⟩ := Option.map_eq_some_iff.mp hresult
  obtain ⟨m, hm, hrecalled⟩ := List.any_eq_true.mp hany
  cases m with
  | sent account req msg => cases hrecalled
  | recalled account req target notice =>
      exact ⟨p, account, req, target, notice, hp, hm, recalls_by_sender plainController
        readingHandler lawful_plainController numberedMsgs lawful_numberedMsgs hp hm⟩

end GroupMsgController

end BcmServer.Group
