import BcmServer.Dispatcher.Channel
import BcmServer.Lts.Pool

/-!
# BcmServer.Dispatcher.Stored — sending the stored messages of a device

`sendStoredMessages` reads a page of the device's mailbox and sends it, as one
request (batch) or as one request a message (legacy). Stale messages are not
sent: their senders get a receipt and they are deleted at once. The others are
deleted when the client has answered, and a full page makes the handler of the
response call `sendStoredMessages` again.

Every fiber of this is a `StoredTask`, and any number of such chains run over
one mailbox, together with new messages being stored.

* `removed_only_delivered`: whatever the client, the database and the receipts
  do, a message leaves the mailbox only after a request with it was answered
  with a 2xx status, or as a stale message whose sender has the receipt.

The notification of an empty queue (`sendEmpty`) reads and changes nothing here.
-/

namespace BcmServer.Dispatcher

open BcmServer.Util BcmServer.Lts

/-- `kMaxCountDispatchOnce` -/
def kMaxCountDispatchOnce : ℕ := 50

/-- How `DispatchChannel::sendReceipt` went; it returns `true` but for
`failed`. -/
inductive ReceiptResult where
  | isReceipt
  | published
  | stored
  | failed
deriving DecidableEq, Repr

/-- What happened to the messages, in order. -/
inductive Entry where
  /-- the client answered a request with these messages -/
  | answered (rows : List StoredMessage) (status : UInt32)
  /-- a message was found stale, and its sender was sent a receipt -/
  | stale (m : StoredMessage) (auth : Option Device) (r : ReceiptResult)
deriving DecidableEq, Repr

/-- The mailbox of a device, oldest message first, with everything that was
ever stored in it and what happened since. -/
structure Mailroom where
  mailbox : List StoredMessage
  stored : List StoredMessage
  log : List Entry
deriving DecidableEq, Repr

/-- What the environment answers to the step of a fiber. -/
structure Reply where
  /-- the authorised device of the session -/
  auth : Option Device
  /-- the authorised device when `sendReceipt` asks again -/
  receiptAuth : Option Device
  /-- the database did what it was asked to -/
  daoOk : Bool
  /-- the receipt was published to a subscriber -/
  published : Bool
  /-- the receipt was stored for the sender -/
  storeOk : Bool
  /-- the status of the client's response -/
  status : UInt32
deriving DecidableEq, Repr

/-- A running fiber: what it does next. -/
inductive StoredTask where
  /-- `sendStoredMessages` -/
  | start
  /-- `prepareRequest` of the batch, before reading the page -/
  | batchPrepare
  /-- the loop of `prepareRequest` over the page -/
  | batchScan (d : Device) (hasMore : Bool) (todo toDelete toSend : List StoredMessage)
  /-- `prepareRequest` after the loop -/
  | batchDelete (d : Device) (hasMore : Bool) (toDelete toSend : List StoredMessage)
  /-- waiting for the response to the batch -/
  | batchAwait (hasMore : Bool) (sent : List StoredMessage)
  /-- `handleResponse` of the batch -/
  | batchAnswered (hasMore : Bool) (sent : List StoredMessage) (status : UInt32)
  /-- `sendStoredMessagesLegacy`, before reading the page -/
  | legacyPrepare
  /-- the loop of `sendStoredMessagesLegacy` over the page -/
  | legacyScan (hasMore : Bool) (count : ℕ) (todo toDelete : List StoredMessage)
  /-- `sendStoredMessagesLegacy` after the loop -/
  | legacyDelete (toDelete : List StoredMessage)
  /-- `prepareRequest` of `sendP2pMessage` for a stored message -/
  | p2pPrepare (m : StoredMessage) (remain : Bool)
  /-- waiting for the response to a stored message -/
  | p2pAwait (m : StoredMessage) (remain : Bool)
  /-- `handleResponse` of `sendP2pMessage` for a stored message -/
  | p2pAnswered (m : StoredMessage) (remain : Bool) (status : UInt32)
deriving DecidableEq, Repr

namespace Mailroom

/-- `MessagesManager::get`: the page and `hasMore`. -/
def get (s : Mailroom) : List StoredMessage × Bool :=
  let page := s.mailbox.take kMaxCountDispatchOnce
  (page, page.length ≥ kMaxCountDispatchOnce)

/-- `MessagesManager::del` of the messages' ids; the callers do not look at the
result. -/
def del (s : Mailroom) (ok : Bool) (rows : List StoredMessage) : Mailroom :=
  if ok then
    let ids := rows.map StoredMessage.id
    { s with mailbox := s.mailbox.filter fun m => m.id ∉ ids }
  else s

def write (s : Mailroom) (e : Entry) : Mailroom := { s with log := s.log ++ [e] }

end Mailroom

/-- `DispatchChannel::sendReceipt`. -/
def sendReceipt (type : EnvelopeType) (e : Reply) : ReceiptResult :=
  if type = .receipt then .isReceipt
  else
    match e.receiptAuth with
    | none => .failed
    | some _ => if e.published then .published else if e.storeOk then .stored else .failed

/-- The next atomic step of a fiber. -/
def storedNext (cfg : EncryptSenderConfig) (s : Mailroom) (k : StoredTask) (e : Reply) :
    Mailroom × List StoredTask :=
  match k with
  | .start => (s, if isSupportDispatchBatch e.auth then [.batchPrepare] else [.legacyPrepare])
  | .batchPrepare =>
      match e.auth with
      | none => (s, [])
      | some d =>
          let (page, hasMore) := s.get
          if e.daoOk && page ≠ [] then (s, [.batchScan d hasMore page [] []]) else (s, [])
  | .batchScan d hasMore [] toDelete toSend => (s, [.batchDelete d hasMore toDelete toSend])
  | .batchScan d hasMore (m :: todo) toDelete toSend =>
      if isMessageStaleAndClientObsolete e.auth cfg m then
        let r := sendReceipt (convert m).type e
        let toDelete' := if r = .failed then toDelete else toDelete ++ [m]
        (s.write (.stale m e.auth r), [.batchScan d hasMore todo toDelete' toSend])
      else (s, [.batchScan d hasMore todo toDelete (toSend ++ [m])])
  | .batchDelete d hasMore toDelete toSend =>
      let s' := if toDelete = [] then s else s.del e.daoOk toDelete
      if toSend = [] then (s', [])
      else if d.encrypts then (s', [.batchAwait hasMore toSend])
      else (s', [])
  | .batchAwait hasMore sent =>
      (s.write (.answered sent e.status), [.batchAnswered hasMore sent e.status])
  | .batchAnswered hasMore sent status =>
      match e.auth with
      | none => (s, [])
      | some _ =>
          if successful status then (s.del e.daoOk sent, if hasMore then [.start] else [])
          else (s, [])
  | .legacyPrepare =>
      match e.auth with
      | none => (s, [])
      | some _ =>
          let (page, hasMore) := s.get
          if e.daoOk && page ≠ [] then (s, [.legacyScan hasMore page.length page []]) else (s, [])
  | .legacyScan _ _ [] toDelete => (s, [.legacyDelete toDelete])
  | .legacyScan hasMore count (m :: todo) toDelete =>
      if isMessageStaleAndClientObsolete e.auth cfg m then
        let r := sendReceipt (convert m).type e
        let toDelete' := if r = .failed then toDelete else toDelete ++ [m]
        (s.write (.stale m e.auth r), [.legacyScan hasMore count todo toDelete'])
      else
        -- a stale message does not count down
        (s, [.p2pPrepare m (count - 1 = 0 && hasMore), .legacyScan hasMore (count - 1) todo toDelete])
  | .legacyDelete toDelete => (if toDelete = [] then s else s.del e.daoOk toDelete, [])
  | .p2pPrepare m remain => (s, if prepareP2p e.auth then [.p2pAwait m remain] else [])
  | .p2pAwait m remain => (s.write (.answered [m] e.status), [.p2pAnswered m remain e.status])
  | .p2pAnswered m remain status =>
      match handleP2p e.auth status (convert m).type (some m.id) remain with
      | .acked (some _) more => (s.del e.daoOk [m], if more then [.start] else [])
      | _ => (s, [])

/-- What happens besides the fibers: a chain begins (the subscription is
confirmed, or a QUERY_DB arrives), or a message is stored. -/
inductive StoredEvent where
  | query
  | store (m : StoredMessage)
deriving DecidableEq, Repr

/-- The database gives every message an id of its own. -/
def storedSystem (cfg : EncryptSenderConfig) :
    CallSystem Mailroom StoredTask Reply StoredEvent where
  next s k e := some (storedNext cfg s k e)
  env p
    | .query => some (p.shared, [.start])
    | .store m =>
        if m.id ∈ p.shared.stored.map StoredMessage.id then none
        else some ({ p.shared with
          mailbox := p.shared.mailbox ++ [m]
          stored := p.shared.stored ++ [m] }, [])

def storedInit : Pool Mailroom StoredTask := ⟨⟨[], [], []⟩, []⟩

/-! ## Why a message may be deleted -/

/-- A request with the message was answered with a 2xx status. -/
def Delivered (log : List Entry) (m : StoredMessage) : Prop :=
  ∃ rows status, .answered rows status ∈ log ∧ m ∈ rows ∧ successful status = true

/-- The message was stale, and its receipt was published or stored, or it was a
receipt itself. -/
def StaleReceipted (cfg : EncryptSenderConfig) (log : List Entry) (m : StoredMessage) : Prop :=
  ∃ auth r, .stale m auth r ∈ log ∧ isMessageStaleAndClientObsolete auth cfg m = true ∧
    (r = .published ∨ r = .stored ∨ m.msgtype = .receipt)

namespace StoredTask

/-- The messages a fiber has in hand. -/
def rows : StoredTask → List StoredMessage
  | batchScan _ _ todo toDelete toSend => todo ++ (toDelete ++ toSend)
  | batchDelete _ _ toDelete toSend => toDelete ++ toSend
  | batchAwait _ sent | batchAnswered _ sent _ => sent
  | legacyScan _ _ todo toDelete => todo ++ toDelete
  | legacyDelete toDelete => toDelete
  | p2pPrepare m _ | p2pAwait m _ | p2pAnswered m _ _ => [m]
  | start | batchPrepare | legacyPrepare => []

/-- The stale messages a fiber is going to delete. -/
def condemned : StoredTask → List StoredMessage
  | batchScan _ _ _ toDelete _ | batchDelete _ _ toDelete _ | legacyScan _ _ _ toDelete
  | legacyDelete toDelete => toDelete
  | _ => []

/-- The messages of a request that a fiber knows to be answered with 2xx. -/
def acknowledged : StoredTask → List StoredMessage
  | batchAnswered _ sent status => if successful status then sent else []
  | p2pAnswered m _ status => if successful status then [m] else []
  | _ => []

end StoredTask

/-! ## The invariant -/

section Invariant

variable {cfg : EncryptSenderConfig}

/-- The mailbox holds stored messages, ids are unique, and every deletion had a
reason. -/
structure RoomOk (cfg : EncryptSenderConfig) (s : Mailroom) : Prop where
  unique : (s.stored.map StoredMessage.id).Nodup
  mailbox : ∀ m ∈ s.mailbox, m ∈ s.stored
  gone : ∀ m ∈ s.stored, m ∉ s.mailbox → Delivered s.log m ∨ StaleReceipted cfg s.log m

/-- A fiber has stored messages in hand, and a reason to delete those it is
going to delete. -/
structure TaskOk (cfg : EncryptSenderConfig) (s : Mailroom) (k : StoredTask) : Prop where
  rows : ∀ m ∈ k.rows, m ∈ s.stored
  condemned : ∀ m ∈ k.condemned, StaleReceipted cfg s.log m
  acknowledged : ∀ m ∈ k.acknowledged, Delivered s.log m

def StoredInv (cfg : EncryptSenderConfig) (p : Pool Mailroom StoredTask) : Prop :=
  RoomOk cfg p.shared ∧ ∀ k ∈ p.calls, TaskOk cfg p.shared k

theorem delivered_mono {l l' : List Entry} {m : StoredMessage} (hl : ∀ e ∈ l, e ∈ l')
    (h : Delivered l m) : Delivered l' m := by
  rcases h with ⟨rows, status, hmem, hm, hok⟩
  exact ⟨rows, status, hl _ hmem, hm, hok⟩

theorem staleReceipted_mono {l l' : List Entry} {m : StoredMessage} (hl : ∀ e ∈ l, e ∈ l')
    (h : StaleReceipted cfg l m) : StaleReceipted cfg l' m := by
  rcases h with ⟨auth, r, hmem, hstale, hr⟩
  exact ⟨auth, r, hl _ hmem, hstale, hr⟩

/-- `s'` comes after `s`: what was stored and what happened is not forgotten. -/
def Extends (s s' : Mailroom) : Prop :=
  (∀ m ∈ s.stored, m ∈ s'.stored) ∧ ∀ e ∈ s.log, e ∈ s'.log

theorem Extends.refl (s : Mailroom) : Extends s s := ⟨fun _ => id, fun _ => id⟩

theorem Extends.write (s : Mailroom) (e : Entry) : Extends s (s.write e) :=
  ⟨fun _ => id, fun _ h => List.mem_append_left _ h⟩

theorem Extends.del (s : Mailroom) (ok : Bool) (rows : List StoredMessage) :
    Extends s (s.del ok rows) := by
  unfold Mailroom.del
  split
  · exact ⟨fun _ => id, fun _ => id⟩
  · exact Extends.refl s

theorem TaskOk.mono {s s' : Mailroom} {k : StoredTask} (h : TaskOk cfg s k)
    (hext : Extends s s') : TaskOk cfg s' k where
  rows := fun m hm => hext.1 m (h.rows m hm)
  condemned := fun m hm => staleReceipted_mono hext.2 (h.condemned m hm)
  acknowledged := fun m hm => delivered_mono hext.2 (h.acknowledged m hm)

/-! ## The single operations -/

/-- Stored messages with one id are one message. -/
theorem eq_of_id_eq {l : List StoredMessage} (h : (l.map StoredMessage.id).Nodup)
    {m m' : StoredMessage} (hm : m ∈ l) (hm' : m' ∈ l) (hid : m.id = m'.id) : m = m' :=
  List.inj_on_of_nodup_map h hm hm' hid

/-- Deleting messages that there is a reason to delete. -/
theorem roomOk_del {s : Mailroom} {ok : Bool} {rows : List StoredMessage} (h : RoomOk cfg s)
    (hrows : ∀ m ∈ rows, m ∈ s.stored)
    (hreason : ∀ m ∈ rows, Delivered s.log m ∨ StaleReceipted cfg s.log m) :
    RoomOk cfg (s.del ok rows) := by
  unfold Mailroom.del
  split
  · refine ⟨h.unique, ?_, ?_⟩
    · intro m hm
      exact h.mailbox m (List.mem_of_mem_filter hm)
    · intro m hm hgone
      by_cases hbox : m ∈ s.mailbox
      · -- deleted now: it has the id of one in hand, so it is that one
        have hid : m.id ∈ rows.map StoredMessage.id := by
          by_contra hnot
          exact hgone (List.mem_filter.mpr ⟨hbox, decide_eq_true hnot⟩)
        rcases List.mem_map.mp hid with ⟨m', hm', heq⟩
        have hsame : m' = m := eq_of_id_eq h.unique (hrows m' hm') hm heq
        rw [← hsame]
        exact hreason m' hm'
      · exact h.gone m hm hbox
  · exact h

theorem roomOk_write {s : Mailroom} {e : Entry} (h : RoomOk cfg s) : RoomOk cfg (s.write e) := by
  have hext := Extends.write s e
  refine ⟨h.unique, h.mailbox, ?_⟩
  intro m hm hgone
  exact (h.gone m hm hgone).imp (delivered_mono hext.2) (staleReceipted_mono hext.2)

/-- A receipt that did not fail went out, unless the message was one. -/
theorem sendReceipt_cases {type : EnvelopeType} {e : Reply} (h : sendReceipt type e ≠ .failed) :
    sendReceipt type e = .published ∨ sendReceipt type e = .stored ∨ type = .receipt := by
  unfold sendReceipt at h ⊢
  by_cases htype : type = .receipt
  · exact Or.inr (Or.inr htype)
  · simp only [htype, if_false] at h ⊢
    cases hauth : e.receiptAuth with
    | none => simp [hauth] at h
    | some d =>
        simp only [hauth] at h ⊢
        cases hpub : e.published with
        | true => simp
        | false =>
            cases hstore : e.storeOk with
            | true => simp
            | false => simp [hpub, hstore] at h

/-- A message joins the condemned when it is stale and its receipt went out. -/
theorem staleReceipted_scan {s : Mailroom} {m m' : StoredMessage} {e : Reply}
    {toDelete : List StoredMessage}
    (hstale : isMessageStaleAndClientObsolete e.auth cfg m = true)
    (hold : ∀ x ∈ toDelete, StaleReceipted cfg s.log x)
    (hm' : m' ∈ if sendReceipt (convert m).type e = .failed then toDelete else toDelete ++ [m]) :
    StaleReceipted cfg (s.write (.stale m e.auth (sendReceipt (convert m).type e))).log m' := by
  have hext := Extends.write s (.stale m e.auth (sendReceipt (convert m).type e))
  split at hm'
  · exact staleReceipted_mono hext.2 (hold m' hm')
  · rename_i hr
    rcases List.mem_append.mp hm' with hm' | hm'
    · exact staleReceipted_mono hext.2 (hold m' hm')
    · rw [List.mem_singleton.mp hm']
      refine ⟨e.auth, _, List.mem_append_right _ (List.mem_singleton_self _), hstale, ?_⟩
      exact sendReceipt_cases hr

theorem mem_scan {m m' : StoredMessage} {toDelete : List StoredMessage} {c : Prop} [Decidable c]
    (h : m' ∈ if c then toDelete else toDelete ++ [m]) : m' ∈ toDelete ∨ m' = m := by
  split at h
  · exact Or.inl h
  · simpa using h

/-! ## One step of a fiber -/

/-- What a step of a fiber has to keep. -/
structure StepOk (cfg : EncryptSenderConfig) (s : Mailroom) (r : Mailroom × List StoredTask) :
    Prop where
  later : Extends s r.1
  room : RoomOk cfg r.1
  tasks : ∀ k ∈ r.2, TaskOk cfg r.1 k

theorem stepOk_stop {s : Mailroom} (h : RoomOk cfg s) : StepOk cfg s (s, []) :=
  ⟨Extends.refl s, h, fun _ hk => (nomatch hk)⟩

/-- A step that leaves the mailbox alone. -/
theorem stepOk_go {s : Mailroom} {ks : List StoredTask} (h : RoomOk cfg s)
    (hks : ∀ k ∈ ks, TaskOk cfg s k) : StepOk cfg s (s, ks) :=
  ⟨Extends.refl s, h, hks⟩

/-- A step that deletes. -/
theorem stepOk_del {s : Mailroom} {ok : Bool} {rows : List StoredMessage} {ks : List StoredTask}
    (h : RoomOk cfg s) (hrows : ∀ m ∈ rows, m ∈ s.stored)
    (hreason : ∀ m ∈ rows, Delivered s.log m ∨ StaleReceipted cfg s.log m)
    (hks : ∀ k ∈ ks, TaskOk cfg s k) : StepOk cfg s (s.del ok rows, ks) :=
  ⟨Extends.del s ok rows, roomOk_del h hrows hreason,
    fun k hk => (hks k hk).mono (Extends.del s ok rows)⟩

/-- Fibers with nothing in hand. -/
theorem taskOk_empty {s : Mailroom} {k : StoredTask}
    (hk : k = .start ∨ k = .batchPrepare ∨ k = .legacyPrepare) : TaskOk cfg s k := by
  rcases hk with rfl | rfl | rfl <;> exact ⟨fun _ hm => (nomatch hm), fun _ hm => (nomatch hm),
    fun _ hm => (nomatch hm)⟩

theorem get_stored {s : Mailroom} (h : RoomOk cfg s) : ∀ m ∈ s.get.1, m ∈ s.stored :=
  fun m hm => h.mailbox m (List.mem_of_mem_take hm)

/-- A page is read. -/
theorem stepOk_page {s : Mailroom} {k : StoredTask} (hroom : RoomOk cfg s)
    (hrows : k.rows = s.get.1) (hcondemned : k.condemned = [])
    (hacknowledged : k.acknowledged = []) : StepOk cfg s (s, [k]) := by
  refine stepOk_go hroom fun k' hk' => ?_
  rw [List.mem_singleton.mp hk']
  constructor
  · rw [hrows]
    exact get_stored hroom
  · rw [hcondemned]
    exact fun m hm => (nomatch hm)
  · rw [hacknowledged]
    exact fun m hm => (nomatch hm)

/-- The loop over a page, batch form. -/
theorem stepOk_batchScan {s : Mailroom} {e : Reply} {d : Device} {hasMore : Bool}
    {todo toDelete toSend : List StoredMessage} (hroom : RoomOk cfg s)
    (hk : TaskOk cfg s (.batchScan d hasMore todo toDelete toSend)) :
    StepOk cfg s (storedNext cfg s (.batchScan d hasMore todo toDelete toSend) e) := by
  have hrows := hk.rows
  simp only [StoredTask.rows, List.mem_append] at hrows
  cases todo with
  | nil =>
      refine stepOk_go hroom fun k hk' => ?_
      rw [List.mem_singleton.mp hk']
      refine ⟨fun m hm => ?_, hk.condemned, fun m hm => (nomatch hm)⟩
      simp only [StoredTask.rows, List.mem_append] at hm
      exact hrows m (Or.inr hm)
  | cons m todo =>
      simp only [storedNext]
      split
      · rename_i hstale
        have hext := Extends.write s (.stale m e.auth (sendReceipt (convert m).type e))
        refine ⟨hext, roomOk_write hroom, fun k hk' => ?_⟩
        rw [List.mem_singleton.mp hk']
        refine ⟨fun m' hm' => ?_, fun m' hm' => ?_, fun m' hm' => (nomatch hm')⟩
        · simp only [StoredTask.rows, List.mem_append] at hm'
          rcases hm' with hm' | hm' | hm'
          · exact hrows m' (Or.inl (List.mem_cons_of_mem _ hm'))
          · rcases mem_scan hm' with hm' | rfl
            · exact hrows m' (Or.inr (Or.inl hm'))
            · exact hrows m' (Or.inl List.mem_cons_self)
          · exact hrows m' (Or.inr (Or.inr hm'))
        · exact staleReceipted_scan hstale hk.condemned hm'
      · refine stepOk_go hroom fun k hk' => ?_
        rw [List.mem_singleton.mp hk']
        refine ⟨fun m' hm' => ?_, hk.condemned, fun m' hm' => (nomatch hm')⟩
        simp only [StoredTask.rows, List.mem_append, List.mem_singleton] at hm'
        rcases hm' with hm' | hm' | hm' | rfl
        · exact hrows m' (Or.inl (List.mem_cons_of_mem _ hm'))
        · exact hrows m' (Or.inr (Or.inl hm'))
        · exact hrows m' (Or.inr (Or.inr hm'))
        · exact hrows m' (Or.inl List.mem_cons_self)

/-- The loop over a page, legacy form. -/
theorem stepOk_legacyScan {s : Mailroom} {e : Reply} {hasMore : Bool} {count : ℕ}
    {todo toDelete : List StoredMessage} (hroom : RoomOk cfg s)
    (hk : TaskOk cfg s (.legacyScan hasMore count todo toDelete)) :
    StepOk cfg s (storedNext cfg s (.legacyScan hasMore count todo toDelete) e) := by
  have hrows := hk.rows
  simp only [StoredTask.rows, List.mem_append] at hrows
  cases todo with
  | nil =>
      refine stepOk_go hroom fun k hk' => ?_
      rw [List.mem_singleton.mp hk']
      exact ⟨fun m hm => hrows m (Or.inr hm), hk.condemned, fun m hm => (nomatch hm)⟩
  | cons m todo =>
      simp only [storedNext]
      split
      · rename_i hstale
        have hext := Extends.write s (.stale m e.auth (sendReceipt (convert m).type e))
        refine ⟨hext, roomOk_write hroom, fun k hk' => ?_⟩
        rw [List.mem_singleton.mp hk']
        refine ⟨fun m' hm' => ?_, fun m' hm' => ?_, fun m' hm' => (nomatch hm')⟩
        · simp only [StoredTask.rows, List.mem_append] at hm'
          rcases hm' with hm' | hm'
          · exact hrows m' (Or.inl (List.mem_cons_of_mem _ hm'))
          · rcases mem_scan hm' with hm' | rfl
            · exact hrows m' (Or.inr hm')
            · exact hrows m' (Or.inl List.mem_cons_self)
        · exact staleReceipted_scan hstale hk.condemned hm'
      · refine stepOk_go hroom fun k hk' => ?_
        rcases List.mem_cons.mp hk' with rfl | hk'
        · refine ⟨fun m' hm' => ?_, fun m' hm' => (nomatch hm'), fun m' hm' => (nomatch hm')⟩
          rw [List.mem_singleton.mp hm']
          exact hrows m (Or.inl List.mem_cons_self)
        · rw [List.mem_singleton.mp hk']
          refine ⟨fun m' hm' => ?_, hk.condemned, fun m' hm' => (nomatch hm')⟩
          simp only [StoredTask.rows, List.mem_append] at hm'
          exact hrows m' (hm'.imp_left (List.mem_cons_of_mem m))

/-- Waiting for a response, in either form. -/
theorem stepOk_await {s : Mailroom} {rows : List StoredMessage} {status : UInt32}
    {k' : StoredTask} (hroom : RoomOk cfg s) (hrows : ∀ m ∈ rows, m ∈ s.stored)
    (hk' : k'.rows = rows) (hcond : k'.condemned = [])
    (hack : k'.acknowledged = if successful status then rows else []) :
    StepOk cfg s (s.write (.answered rows status), [k']) := by
  have hext := Extends.write s (.answered rows status)
  refine ⟨hext, roomOk_write hroom, fun k hk => ?_⟩
  rw [List.mem_singleton.mp hk]
  refine ⟨fun m hm => ?_, fun m hm => ?_, fun m hm => ?_⟩
  · rw [hk'] at hm
    exact hrows m hm
  · rw [hcond] at hm
    cases hm
  · rw [hack] at hm
    split at hm
    · rename_i hok
      exact ⟨rows, status, List.mem_append_right _ (List.mem_singleton_self _), hm, hok⟩
    · cases hm

/-- Every step of a fiber. -/
theorem storedNext_ok {s : Mailroom} {k : StoredTask} {e : Reply} (hroom : RoomOk cfg s)
    (hk : TaskOk cfg s k) : StepOk cfg s (storedNext cfg s k e) := by
  cases k with
  | start =>
      refine stepOk_go hroom fun k hk' => taskOk_empty ?_
      split at hk' <;> simp [List.mem_singleton.mp hk']
  | batchPrepare =>
      simp only [storedNext]
      split
      · exact stepOk_stop hroom
      · split
        · exact stepOk_page hroom (by simp [StoredTask.rows]) rfl rfl
        · exact stepOk_stop hroom
  | batchScan d hasMore todo toDelete toSend => exact stepOk_batchScan hroom hk
  | batchDelete d hasMore toDelete toSend =>
      have hrows := hk.rows
      simp only [StoredTask.rows, List.mem_append] at hrows
      have hsend : ∀ k ∈ [StoredTask.batchAwait hasMore toSend], TaskOk cfg s k := by
        intro k hk'
        rw [List.mem_singleton.mp hk']
        exact ⟨fun m hm => hrows m (Or.inr hm), fun m hm => (nomatch hm), fun m hm => (nomatch hm)⟩
      -- the deletion, whatever follows it
      have hdel : ∀ ks : List StoredTask, (∀ k ∈ ks, TaskOk cfg s k) →
          StepOk cfg s (if toDelete = [] then s else s.del e.daoOk toDelete, ks) := by
        intro ks hks
        split
        · exact stepOk_go hroom hks
        · exact stepOk_del hroom (fun m hm => hrows m (Or.inl hm))
            (fun m hm => Or.inr (hk.condemned m hm)) hks
      simp only [storedNext]
      split
      · exact hdel [] fun k hk' => (nomatch hk')
      · split
        · exact hdel _ hsend
        · exact hdel [] fun k hk' => (nomatch hk')
  | batchAwait hasMore sent => exact stepOk_await hroom hk.rows rfl rfl rfl
  | batchAnswered hasMore sent status =>
      simp only [storedNext]
      split
      · exact stepOk_stop hroom
      · split
        · rename_i hok
          refine stepOk_del hroom hk.rows (fun m hm => Or.inl ?_) fun k hk' => taskOk_empty ?_
          · refine hk.acknowledged m ?_
            simpa [StoredTask.acknowledged, hok] using hm
          · split at hk'
            · exact Or.inl (List.mem_singleton.mp hk')
            · cases hk'
        · exact stepOk_stop hroom
  | legacyPrepare =>
      simp only [storedNext]
      split
      · exact stepOk_stop hroom
      · split
        · exact stepOk_page hroom (by simp [StoredTask.rows]) rfl rfl
        · exact stepOk_stop hroom
  | legacyScan hasMore count todo toDelete => exact stepOk_legacyScan hroom hk
  | legacyDelete toDelete =>
      simp only [storedNext]
      split
      · exact stepOk_stop hroom
      · exact stepOk_del hroom hk.rows (fun m hm => Or.inr (hk.condemned m hm))
          fun k hk' => (nomatch hk')
  | p2pPrepare m remain =>
      refine stepOk_go hroom fun k hk' => ?_
      split at hk'
      · rw [List.mem_singleton.mp hk']
        exact ⟨hk.rows, fun m hm => (nomatch hm), fun m hm => (nomatch hm)⟩
      · cases hk'
  | p2pAwait m remain => exact stepOk_await hroom hk.rows rfl rfl rfl
  | p2pAnswered m remain status =>
      simp only [storedNext]
      split
      · rename_i id more hacked
        -- only a 2xx status leads here
        have hok : successful status = true := by
          unfold handleP2p at hacked
          split at hacked
          · cases hacked
          · by_contra hnot
            simp only [hnot, if_false] at hacked
            split at hacked <;> simp at hacked
        refine stepOk_del hroom hk.rows (fun m' hm' => Or.inl ?_) fun k hk' => taskOk_empty ?_
        · refine hk.acknowledged m' ?_
          simpa [StoredTask.acknowledged, hok] using hm'
        · split at hk'
          · exact Or.inl (List.mem_singleton.mp hk')
          · cases hk'
      · exact stepOk_stop hroom

end Invariant

/-! ## Every run -/

theorem storedInv_run (cfg : EncryptSenderConfig) {ls : List (Sched Reply StoredEvent)}
    {p : Pool Mailroom StoredTask} (hrun : (storedSystem cfg).machine.run storedInit ls = some p) :
    StoredInv cfg p := by
  refine (storedSystem cfg).reachable_invariant (StoredInv cfg) ?_ ?_ ?_ hrun
  · rintro p q k rest e s ks ⟨hroom, htasks⟩ hp hnext rfl hq
    have hstep := storedNext_ok (e := e) hroom (htasks k (hp.mem_iff.mpr List.mem_cons_self))
    rw [Option.some.inj hnext] at hstep
    refine ⟨hstep.room, fun k' hk' => ?_⟩
    rcases List.mem_append.mp (hq.mem_iff.mp hk') with hk' | hk'
    · exact hstep.tasks k' hk'
    · exact (htasks k' (hp.mem_iff.mpr (List.mem_cons_of_mem _ hk'))).mono hstep.later
  · rintro p ev s ks ⟨hroom, htasks⟩ henv
    cases ev with
    | query =>
        cases henv
        refine ⟨hroom, fun k hk => ?_⟩
        rcases List.mem_append.mp hk with hk | hk
        · exact htasks k hk
        · exact taskOk_empty (Or.inl (List.mem_singleton.mp hk))
    | store m =>
        simp only [storedSystem] at henv
        split at henv
        · cases henv
        · rename_i hfresh
          cases henv
          have hext : Extends p.shared { p.shared with
              mailbox := p.shared.mailbox ++ [m]
              stored := p.shared.stored ++ [m] } :=
            ⟨fun _ h => List.mem_append_left _ h, fun _ h => h⟩
          refine ⟨⟨?_, ?_, ?_⟩, fun k hk => ?_⟩
          · rw [List.map_append, List.map_singleton]
            exact List.nodup_append_comm.mp (List.nodup_cons.mpr ⟨hfresh, hroom.unique⟩)
          · intro m' hm'
            rcases List.mem_append.mp hm' with hm' | hm'
            · exact List.mem_append_left _ (hroom.mailbox m' hm')
            · exact List.mem_append_right _ hm'
          · intro m' hm' hgone
            rcases List.mem_append.mp hm' with hm' | hm'
            · exact hroom.gone m' hm' fun hbox => hgone (List.mem_append_left _ hbox)
            · exact absurd (List.mem_append_right _ hm') hgone
          · rw [List.append_nil] at hk
            exact (htasks k hk).mono hext
  · exact ⟨⟨List.nodup_nil, fun _ hm => (nomatch hm), fun _ hr => (nomatch hr)⟩,
      fun _ hk => (nomatch hk)⟩

/-- **Nothing is deleted undelivered.** In every interleaving of any number of
chains, with any answers of the client, the database and the receipts, a
message that was stored and is no longer in the mailbox was in a request that
the client answered with a 2xx status, or was stale and its sender has the
receipt. -/
theorem removed_only_delivered (cfg : EncryptSenderConfig) (ls : List (Sched Reply StoredEvent))
    (p : Pool Mailroom StoredTask) (hrun : (storedSystem cfg).machine.run storedInit ls = some p)
    (m : StoredMessage) (hm : m ∈ p.shared.stored) (hgone : m ∉ p.shared.mailbox) :
    Delivered p.shared.log m ∨ StaleReceipted cfg p.shared.log m :=
  (storedInv_run cfg hrun).1.gone m hm hgone

/-- A message for the device with registration `reg`. -/
def letter (id : UInt64) (reg : UInt32) : StoredMessage where
  id := id
  msgtype := .other 1
  destination := ascii ['d']
  destinationdeviceid := 1
  destinationregistrationid := reg
  source := ascii ['e']
  sourcedeviceid := 1
  sourceregistrationid := 5
  sourceextra := []
  relay := []
  timestamp := 1000
  content := ascii ['h', 'i']

/-- A phone that takes batches and is too old for encrypted senders. -/
def oldPhone : Device := ⟨1, 7, List.replicate 52 0, ⟨.ios, 2000⟩⟩

def oldConfig : EncryptSenderConfig := ⟨3000, 3000⟩

/-- Everything works. -/
def fine : Reply := ⟨some oldPhone, some oldPhone, true, true, true, 200⟩

/-- A fresh and a stale message, sent in one batch. -/
def freshAndStale : List (Sched Reply StoredEvent) :=
  [.env (.store (letter 1 7)), .env (.store (letter 2 9)), .env .query] ++
    List.replicate 8 (.call 0 fine)

theorem removed_only_delivered_batch :
    ∃ p, (storedSystem oldConfig).machine.run storedInit freshAndStale = some p ∧
      (Delivered p.shared.log (letter 1 7) ∨ StaleReceipted oldConfig p.shared.log (letter 1 7)) ∧
      (Delivered p.shared.log (letter 2 9) ∨
        StaleReceipted oldConfig p.shared.log (letter 2 9)) := by
  have hsome : ((storedSystem oldConfig).machine.run storedInit freshAndStale).isSome := by decide
  have hview : ((storedSystem oldConfig).machine.run storedInit freshAndStale).map
      (fun p => (p.shared.stored, p.shared.mailbox)) = some ([letter 1 7, letter 2 9], []) := by
    decide
  rcases Option.isSome_iff_exists.mp hsome with ⟨p, hp⟩
  rw [hp, Option.map_some, Option.some.injEq, Prod.mk.injEq] at hview
  rcases hview with ⟨hstored, hmail⟩
  have hgone : ∀ m ∈ p.shared.stored, Delivered p.shared.log m ∨
      StaleReceipted oldConfig p.shared.log m := by
    intro m hm
    exact removed_only_delivered oldConfig freshAndStale p hp m hm (by simp [hmail])
  exact ⟨p, hp, hgone _ (by simp [hstored]), hgone _ (by simp [hstored])⟩

end BcmServer.Dispatcher
