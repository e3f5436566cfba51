import BcmServer.Dispatcher.Stored

/-!
# BcmServer.Dispatcher.Drain — when the stored messages drain

A device comes online and one chain of `sendStoredMessages` begins. The client
answers every request with a 2xx status, the database does what it is asked to
and every receipt goes out (`Obliging`). `Drains` says that the chain ends,
whatever the order of its fibers, with an empty mailbox and every fresh message
delivered exactly once. `DrainsWhen` is the condition on the device and the
mailbox under which the code does that:

* A batch chain stops at the first page of stale messages only, so no message
  may be behind such a page.
* A legacy chain counts down on fresh messages only, so a full page with a stale
  message in it never reads on; and if it does read on, it does so when the
  *last* message of the page is answered, with others possibly still in the
  mailbox, which are then sent twice.
* In either form a device whose key cannot encrypt gets nothing, and a session
  without an authorised device reads nothing.

This module has what the two forms share: the measure that bounds a chain
(`weight_next`), deletion by id, and the device without a key
(`not_drains_keyless`). `DrainBatch` and `DrainLegacy` treat the forms, and
`drains_iff` in the latter is the equivalence of `Drains` and `DrainsWhen`.
-/

namespace BcmServer.Dispatcher

open BcmServer.Util BcmServer.Lts

/-! ## The property -/

/-- The environment gives a chain of the session with device `auth` all it
asks for. -/
structure Obliges (auth : Option Device) (e : Reply) : Prop where
  session : e.auth = auth
  receiptSession : e.receiptAuth = auth
  dao : e.daoOk = true
  receipt : e.published = true ∨ e.storeOk = true
  status : successful e.status = true

/-- Every step is obliging, and nothing else happens. -/
def Obliging (auth : Option Device) : Pool Mailroom StoredTask → Sched Reply StoredEvent → Prop :=
  CallSystem.allow (fun _ _ e => Obliges auth e) (fun _ _ => False)

/-- A chain begins. -/
def drainInit (rows : List StoredMessage) : Pool Mailroom StoredTask :=
  ⟨⟨rows, rows, []⟩, [.start]⟩

/-- The messages the client was given, in order, each as often as it was. -/
def deliveries : List Entry → List StoredMessage
  | [] => []
  | .answered rows status :: l => (if successful status then rows else []) ++ deliveries l
  | .stale _ _ _ :: l => deliveries l

/-- Every run of the chain is bounded, can go on until all fibers have
returned, and then the mailbox is empty and every fresh message was delivered
exactly once. -/
structure Drains (cfg : EncryptSenderConfig) (auth : Option Device) (rows : List StoredMessage) :
    Prop where
  bounded : ∃ n, ∀ ls p, (storedSystem cfg).machine.run (drainInit rows) ls = some p →
    (storedSystem cfg).machine.Meets (Obliging auth) (drainInit rows) ls → ls.length ≤ n
  progress : ∀ ls p, (storedSystem cfg).machine.run (drainInit rows) ls = some p →
    (storedSystem cfg).machine.Meets (Obliging auth) (drainInit rows) ls → p.calls ≠ [] →
    ∃ l, Obliging auth p l ∧ ((storedSystem cfg).machine.step p l).isSome
  drained : ∀ ls p, (storedSystem cfg).machine.run (drainInit rows) ls = some p →
    (storedSystem cfg).machine.Meets (Obliging auth) (drainInit rows) ls → p.calls = [] →
    p.shared.mailbox = [] ∧
    ∀ m ∈ rows, isMessageStaleAndClientObsolete auth cfg m = false →
      (deliveries p.shared.log).count m = 1

/-- The `j`-th page of a mailbox that is read page by page. -/
def page (rows : List StoredMessage) (j : ℕ) : List StoredMessage :=
  (rows.drop (kMaxCountDispatchOnce * j)).take kMaxCountDispatchOnce

/-- The condition on the device and the mailbox. -/
def DrainsWhen (cfg : EncryptSenderConfig) (auth : Option Device) (rows : List StoredMessage) :
    Prop :=
  match auth with
  | none => rows = []
  | some d =>
      (d.encrypts = true ∨ ∀ m ∈ rows, isMessageStaleAndClientObsolete auth cfg m = true) ∧
      if isSupportDispatchBatch auth then
        -- nothing is behind a page of stale messages
        ∀ j, (∀ m ∈ page rows j, isMessageStaleAndClientObsolete auth cfg m = true) →
          rows.drop (kMaxCountDispatchOnce * (j + 1)) = []
      else
        -- less than a page, or one page with a stale message in it
        rows.length < kMaxCountDispatchOnce ∨
        (rows.length = kMaxCountDispatchOnce ∧
          ∃ m ∈ rows, isMessageStaleAndClientObsolete auth cfg m = true)

/-! ## Every chain -/

section Chains

variable {cfg : EncryptSenderConfig} {auth : Option Device} {rows : List StoredMessage}

/-- A reply that obliges. -/
def obligingReply (auth : Option Device) : Reply := ⟨auth, auth, true, true, true, 200⟩

theorem obliges_obligingReply (auth : Option Device) : Obliges auth (obligingReply auth) := by
  refine ⟨rfl, rfl, rfl, Or.inl rfl, ?_⟩
  show successful 200 = true
  decide

/-- A fiber can always go on. -/
theorem drain_progress {p : Pool Mailroom StoredTask} (h : p.calls ≠ []) :
    ∃ l, Obliging auth p l ∧ ((storedSystem cfg).machine.step p l).isSome := by
  rcases List.exists_cons_of_ne_nil h with ⟨k, ks, hk⟩
  have hget : p.calls[0]? = some k := by simp [hk]
  refine ⟨.call 0 (obligingReply auth), ?_, ?_⟩
  · simpa [Obliging, CallSystem.allow, hget] using obliges_obligingReply auth
  · show ((storedSystem cfg).step p (.call 0 (obligingReply auth))).isSome
    simp [CallSystem.step, hget, storedSystem]

/-- A chain that drains has a run to its end. -/
theorem Drains.finishes (h : Drains cfg auth rows) {ls : List (Sched Reply StoredEvent)}
    {p : Pool Mailroom StoredTask}
    (hrun : (storedSystem cfg).machine.run (drainInit rows) ls = some p)
    (hok : (storedSystem cfg).machine.Meets (Obliging auth) (drainInit rows) ls) :
    ∃ bs q, (storedSystem cfg).machine.run p bs = some q ∧
      (storedSystem cfg).machine.Meets (Obliging auth) p bs ∧ q.calls = [] ∧
      q.shared.mailbox = [] ∧
      ∀ m ∈ rows, isMessageStaleAndClientObsolete auth cfg m = false →
        (deliveries q.shared.log).count m = 1 := by
  rcases (storedSystem cfg).machine.run_extends (fun p => p.calls = []) h.bounded h.progress
    hrun hok with ⟨bs, q, hbs, hmeets, hdone⟩
  have hrun' := ((storedSystem cfg).machine.run_append hrun).trans hbs
  have hok' := ((storedSystem cfg).machine.meets_append hrun).mpr ⟨hok, hmeets⟩
  rcases h.drained _ q hrun' hok' hdone with ⟨hmail, hcount⟩
  exact ⟨bs, q, hbs, hmeets, hdone, hmail, hcount⟩

theorem Drains.ends (h : Drains cfg auth rows) :
    ∃ ls p, (storedSystem cfg).machine.run (drainInit rows) ls = some p ∧
      (storedSystem cfg).machine.Meets (Obliging auth) (drainInit rows) ls ∧ p.calls = [] ∧
      p.shared.mailbox = [] ∧
      ∀ m ∈ rows, isMessageStaleAndClientObsolete auth cfg m = false →
        (deliveries p.shared.log).count m = 1 := by
  have hrun : (storedSystem cfg).machine.run (drainInit rows) [] = some (drainInit rows) := rfl
  exact h.finishes hrun trivial

theorem deliveries_append (l l' : List Entry) :
    deliveries (l ++ l') = deliveries l ++ deliveries l' := by
  induction l with
  | nil => rfl
  | cons e l ih =>
      cases e with
      | answered rows status => simp [deliveries, ih]
      | stale m auth r => simp [deliveries, ih]

theorem deliveries_answered {s : Mailroom} {rows : List StoredMessage} {status : UInt32}
    (h : successful status = true) :
    deliveries (s.write (.answered rows status)).log = deliveries s.log ++ rows := by
  simp [Mailroom.write, deliveries_append, deliveries, h]

theorem deliveries_stale {s : Mailroom} {m : StoredMessage} {auth : Option Device}
    {r : ReceiptResult} : deliveries (s.write (.stale m auth r)).log = deliveries s.log := by
  simp [Mailroom.write, deliveries_append, deliveries]

theorem deliveries_del {s : Mailroom} {ok : Bool} {rows : List StoredMessage} :
    (s.del ok rows).log = s.log := by
  unfold Mailroom.del
  split <;> rfl

theorem sendReceipt_obliging {d : Device} {e : Reply} (h : Obliges (some d) e)
    (type : EnvelopeType) : sendReceipt type e ≠ .failed := by
  unfold sendReceipt
  rw [h.receiptSession]
  rcases h.receipt with hpub | hstore
  · simp only [hpub, if_true]
    split <;> simp
  · simp only [hstore, if_true]
    split
    · simp
    · split <;> simp

/-! ## Pages and deletions -/

/-- What is left of the mailbox at page `j` is that page and what is behind. -/
theorem drop_eq_page_append (rows : List StoredMessage) (j : ℕ) :
    rows.drop (kMaxCountDispatchOnce * j) =
      page rows j ++ rows.drop (kMaxCountDispatchOnce * (j + 1)) := by
  rw [page, Nat.mul_succ, ← List.drop_drop, List.take_append_drop]

theorem take_succ_page (rows : List StoredMessage) (j : ℕ) :
    rows.take (kMaxCountDispatchOnce * (j + 1)) =
      rows.take (kMaxCountDispatchOnce * j) ++ page rows j := by
  rw [page, Nat.mul_succ, List.take_add]

/-- A page that is not full is the last one. -/
theorem drop_eq_nil_of_short {j : ℕ} (h : (page rows j).length < kMaxCountDispatchOnce) :
    rows.drop (kMaxCountDispatchOnce * (j + 1)) = [] := by
  rw [page, List.length_take, List.length_drop] at h
  rw [List.drop_eq_nil_iff, Nat.mul_succ]
  omega

theorem mem_of_mem_page {j : ℕ} {m : StoredMessage} (h : m ∈ page rows j) : m ∈ rows :=
  List.mem_of_mem_drop (List.mem_of_mem_take h)

/-- Ids tell messages apart, so deleting by id deletes the given messages. -/
theorem mailbox_del {s : Mailroom} {ok : Bool} {del : List StoredMessage} (hok : ok = true)
    (hids : (s.mailbox.map StoredMessage.id).Nodup) (hdel : ∀ m ∈ del, m ∈ s.mailbox) :
    (s.del ok del).mailbox = s.mailbox.filter fun m => m ∉ del := by
  simp only [Mailroom.del, hok, if_true]
  apply List.filter_congr
  intro m hm
  rw [decide_eq_decide, not_iff_not, List.mem_map]
  constructor
  · rintro ⟨m', hm', heq⟩
    rwa [← eq_of_id_eq hids (hdel m' hm') hm heq]
  · intro hm'
    exact ⟨m, hm', rfl⟩

/-- Deleting the messages of a page that satisfy `P`. -/
theorem mailbox_del_filter {s : Mailroom} {ok : Bool} {pg rest : List StoredMessage}
    {P : StoredMessage → Bool} (hok : ok = true) (hbox : s.mailbox = pg ++ rest)
    (hids : (s.mailbox.map StoredMessage.id).Nodup) :
    (s.del ok (pg.filter P)).mailbox = pg.filter (fun m => !P m) ++ rest := by
  have hnodup : (pg ++ rest).Nodup := by
    rw [← hbox]
    exact hids.of_map
  have hdisj := (List.nodup_append.mp hnodup).2.2
  rw [mailbox_del hok hids, hbox, List.filter_append]
  · congr 1
    · apply List.filter_congr
      intro m hm
      simp [List.mem_filter, hm]
    · apply List.filter_eq_self.mpr
      intro m hm
      have hnot : m ∉ pg := fun hpg => hdisj m hpg m hm rfl
      simp [List.mem_filter, hnot]
  · intro m hm
    rw [hbox]
    exact List.mem_append_left _ (List.mem_of_mem_filter hm)

/-! ## A measure -/

/-- An upper bound for the steps a fiber and those it starts take on one page. -/
def StoredTask.weight : StoredTask → ℕ
  | start => 204
  | batchPrepare => 203
  | batchScan _ _ todo _ _ => todo.length + 5
  | batchDelete _ _ _ _ => 4
  | batchAwait _ _ => 3
  | batchAnswered _ _ _ => 2
  | legacyPrepare => 203
  | legacyScan _ _ todo _ => 4 * todo.length + 2
  | legacyDelete _ => 1
  | p2pPrepare _ _ => 3
  | p2pAwait _ _ => 2
  | p2pAnswered _ _ _ => 1

/-- The weight of the fibers, and of a page for every message left. -/
def drainRank (p : Pool Mailroom StoredTask) : ℕ :=
  (p.calls.map StoredTask.weight).sum + 204 * p.shared.mailbox.length

theorem del_length_le {s : Mailroom} {ok : Bool} {del : List StoredMessage} :
    (s.del ok del).mailbox.length ≤ s.mailbox.length := by
  unfold Mailroom.del
  split
  · exact List.length_filter_le _ _
  · exact Nat.le_refl _

theorem get_length_le (s : Mailroom) : s.get.1.length ≤ 50 := by
  simp only [Mailroom.get, List.length_take, kMaxCountDispatchOnce]
  omega

/-- A step lowers the measure, unless it begins a new page without having
deleted anything. -/
theorem weight_next {s : Mailroom} {k : StoredTask} {e : Reply}
    (hrestart : StoredTask.start ∈ (storedNext cfg s k e).2 →
      (storedNext cfg s k e).1.mailbox.length < s.mailbox.length) :
    ((storedNext cfg s k e).2.map StoredTask.weight).sum +
        204 * (storedNext cfg s k e).1.mailbox.length <
      k.weight + 204 * s.mailbox.length := by
  have hget := get_length_le s
  cases k with
  | start =>
      simp only [storedNext]
      split <;> simp [StoredTask.weight]
  | batchPrepare =>
      simp only [storedNext]
      split
      · simp [StoredTask.weight]
      · split
        · simp [StoredTask.weight]
          omega
        · simp [StoredTask.weight]
  | batchScan d hasMore todo toDelete toSend =>
      cases todo with
      | nil => simp [storedNext, StoredTask.weight]
      | cons m todo =>
          simp only [storedNext]
          split <;> simp [StoredTask.weight, Mailroom.write]
  | batchDelete d hasMore toDelete toSend =>
      have hle : (if toDelete = [] then s else s.del e.daoOk toDelete).mailbox.length ≤
          s.mailbox.length := by
        split
        · exact Nat.le_refl _
        · exact del_length_le
      simp only [storedNext]
      split
      · simp [StoredTask.weight]
        omega
      · split <;> simp [StoredTask.weight] <;> omega
  | batchAwait hasMore sent => simp [storedNext, StoredTask.weight, Mailroom.write]
  | batchAnswered hasMore sent status =>
      have hle : (s.del e.daoOk sent).mailbox.length ≤ s.mailbox.length := del_length_le
      simp only [storedNext] at hrestart ⊢
      split
      · simp [StoredTask.weight]
      · rename_i hauth
        split
        · rename_i hok
          simp only [hauth, hok, if_true] at hrestart
          cases hasMore with
          | true =>
              have hlt := hrestart (by simp)
              simp [StoredTask.weight]
              omega
          | false =>
              simp [StoredTask.weight]
              omega
        · simp [StoredTask.weight]
  | legacyPrepare =>
      simp only [storedNext]
      split
      · simp [StoredTask.weight]
      · split
        · simp [StoredTask.weight]
          omega
        · simp [StoredTask.weight]
  | legacyScan hasMore count todo toDelete =>
      cases todo with
      | nil => simp [storedNext, StoredTask.weight]
      | cons m todo =>
          simp only [storedNext]
          split
          · simp [StoredTask.weight, Mailroom.write]
          · simp [StoredTask.weight]
            omega
  | legacyDelete toDelete =>
      have hle : (if toDelete = [] then s else s.del e.daoOk toDelete).mailbox.length ≤
          s.mailbox.length := by
        split
        · exact Nat.le_refl _
        · exact del_length_le
      simp only [storedNext, List.map_nil, List.sum_nil, StoredTask.weight]
      omega
  | p2pPrepare m remain =>
      simp only [storedNext]
      split <;> simp [StoredTask.weight]
  | p2pAwait m remain => simp [storedNext, StoredTask.weight, Mailroom.write]
  | p2pAnswered m remain status =>
      have hle : (s.del e.daoOk [m]).mailbox.length ≤ s.mailbox.length := del_length_le
      simp only [storedNext] at hrestart ⊢
      split
      · rename_i id more hacked
        simp only [hacked] at hrestart
        cases more with
        | true =>
            have hlt := hrestart (by simp)
            simp [StoredTask.weight]
            omega
        | false =>
            simp [StoredTask.weight]
            omega
      · simp [StoredTask.weight]

theorem drainRank_next {p q : Pool Mailroom StoredTask} {k : StoredTask} {rest : List StoredTask}
    {e : Reply} (hp : p.calls.Perm (k :: rest)) (hs : q.shared = (storedNext cfg p.shared k e).1)
    (hq : q.calls.Perm ((storedNext cfg p.shared k e).2 ++ rest))
    (hrestart : StoredTask.start ∈ (storedNext cfg p.shared k e).2 →
      q.shared.mailbox.length < p.shared.mailbox.length) : drainRank q < drainRank p := by
  have hpsum := (hp.map StoredTask.weight).sum_eq
  have hqsum := (hq.map StoredTask.weight).sum_eq
  rw [List.map_cons, List.sum_cons] at hpsum
  rw [List.map_append, List.sum_append] at hqsum
  rw [hs] at hrestart
  have hlt := weight_next hrestart
  rw [drainRank, drainRank, hpsum, hqsum, hs]
  omega

/-! ## Rules for chains -/

/-- What follows from a step of the chain follows from the step of the system. -/
theorem of_storedSystem_next {P : Prop} {p q : Pool Mailroom StoredTask} {k : StoredTask}
    {rest : List StoredTask} {e : Reply}
    (h : q.shared = (storedNext cfg p.shared k e).1 →
      q.calls.Perm ((storedNext cfg p.shared k e).2 ++ rest) → P)
    {s : Mailroom} {ks : List StoredTask}
    (hnext : (storedSystem cfg).next p.shared k e = some (s, ks)) (hs : q.shared = s)
    (hq : q.calls.Perm (ks ++ rest)) : P := by
  have hnext' : storedNext cfg p.shared k e = (s, ks) := Option.some.inj hnext
  apply h
  · rw [hnext', hs]
  · rw [hnext']
    exact hq

/-- What every step of an obliging chain keeps, whatever the order of its
fibers, it keeps to the end. -/
theorem drain_invariant (inv : Pool Mailroom StoredTask → Prop)
    (hstep : ∀ p q k rest e, Obliges auth e → inv p → p.calls.Perm (k :: rest) →
      q.shared = (storedNext cfg p.shared k e).1 →
      q.calls.Perm ((storedNext cfg p.shared k e).2 ++ rest) → inv q)
    (hinit : inv (drainInit rows)) {ls : List (Sched Reply StoredEvent)}
    {p : Pool Mailroom StoredTask}
    (hrun : (storedSystem cfg).machine.run (drainInit rows) ls = some p)
    (hok : (storedSystem cfg).machine.Meets (Obliging auth) (drainInit rows) ls) : inv p := by
  refine (storedSystem cfg).run_invariant inv ?_ ?_ hinit hok hrun
  · intro p q k rest e s ks hinv hp he hnext hs hq
    exact of_storedSystem_next (hstep p q k rest e he hinv hp) hnext hs hq
  · intro p e s ks _ hfalse _
    cases hfalse

/-- A chain drains if it keeps an invariant, its steps lower the measure, and the
invariant says so of a chain that has ended. -/
theorem drains_of_invariant (inv : Pool Mailroom StoredTask → Prop)
    (hstep : ∀ p q k rest e, Obliges auth e → inv p → p.calls.Perm (k :: rest) →
      q.shared = (storedNext cfg p.shared k e).1 →
      q.calls.Perm ((storedNext cfg p.shared k e).2 ++ rest) →
      inv q ∧ drainRank q < drainRank p)
    (hinit : inv (drainInit rows))
    (hended : ∀ p, inv p → p.calls = [] → p.shared.mailbox = [] ∧
      ∀ m ∈ rows, isMessageStaleAndClientObsolete auth cfg m = false →
        (deliveries p.shared.log).count m = 1) : Drains cfg auth rows := by
  constructor
  · refine ⟨drainRank (drainInit rows), fun ls p hrun hok => ?_⟩
    refine (storedSystem cfg).length_le_rank inv drainRank ?_ ?_ hinit hok hrun
    · intro p q k rest e s ks hinv hp he hnext hs hq
      exact of_storedSystem_next (hstep p q k rest e he hinv hp) hnext hs hq
    · intro p e s ks _ hfalse _
      cases hfalse
  · intro ls p _ _ hcalls
    exact drain_progress hcalls
  · intro ls p hrun hok hdone
    apply hended p _ hdone
    apply drain_invariant inv _ hinit hrun hok
    intro p q k rest e he hinv hp hs hq
    exact (hstep p q k rest e he hinv hp hs hq).1

/-! ## A device that cannot be encrypted for -/

/-- Stale for the device of the session, which is too old to have its senders
encrypted. -/
def stale (cfg : EncryptSenderConfig) (d : Device) (m : StoredMessage) : Bool :=
  isMessageStaleAndClientObsolete (some d) cfg m

def fresh (cfg : EncryptSenderConfig) (d : Device) (m : StoredMessage) : Bool := !stale cfg d m

/-- The fresh messages of a mailbox have each of them once. -/
theorem count_fresh {d : Device} (hids : (rows.map StoredMessage.id).Nodup) {m : StoredMessage}
    (hm : m ∈ rows) (hfresh : isMessageStaleAndClientObsolete (some d) cfg m = false) :
    (rows.filter (fresh cfg d)).count m = 1 := by
  apply List.count_eq_one_of_mem
  · exact hids.of_map.filter _
  · exact List.mem_filter.mpr ⟨hm, by simp [fresh, stale, hfresh]⟩

/-- A fiber that holds no request, and is going to delete stale messages only. -/
def KeylessTask (cfg : EncryptSenderConfig) (d : Device) (rows : List StoredMessage) :
    StoredTask → Prop
  | .start | .batchPrepare | .legacyPrepare | .p2pPrepare _ _ => True
  | .batchScan d' _ todo toDelete _ => d' = d ∧ (∀ m ∈ todo, m ∈ rows) ∧
      ∀ m ∈ toDelete, m ∈ rows ∧ stale cfg d m = true
  | .batchDelete d' _ toDelete _ => d' = d ∧ ∀ m ∈ toDelete, m ∈ rows ∧ stale cfg d m = true
  | .legacyScan _ _ todo toDelete => (∀ m ∈ todo, m ∈ rows) ∧
      ∀ m ∈ toDelete, m ∈ rows ∧ stale cfg d m = true
  | .legacyDelete toDelete => ∀ m ∈ toDelete, m ∈ rows ∧ stale cfg d m = true
  | .batchAwait _ _ | .batchAnswered _ _ _ | .p2pAwait _ _ | .p2pAnswered _ _ _ => False

/-- A fresh message stays in the mailbox. -/
structure KeylessInv (cfg : EncryptSenderConfig) (d : Device) (rows : List StoredMessage)
    (m : StoredMessage) (p : Pool Mailroom StoredTask) : Prop where
  kept : m ∈ p.shared.mailbox
  mailbox : ∀ x ∈ p.shared.mailbox, x ∈ rows
  tasks : ∀ k ∈ p.calls, KeylessTask cfg d rows k

theorem keyless_del {d : Device} {s : Mailroom} {ok : Bool} {del : List StoredMessage}
    {m : StoredMessage} (hids : (rows.map StoredMessage.id).Nodup) (hm : m ∈ rows)
    (hfresh : stale cfg d m = false) (hkept : m ∈ s.mailbox)
    (hdel : ∀ x ∈ del, x ∈ rows ∧ stale cfg d x = true) : m ∈ (s.del ok del).mailbox := by
  unfold Mailroom.del
  split
  · refine List.mem_filter.mpr ⟨hkept, decide_eq_true ?_⟩
    intro hid
    rcases List.mem_map.mp hid with ⟨x, hx, heq⟩
    have hsame : x = m := eq_of_id_eq hids (hdel x hx).1 hm heq
    rw [← hsame, (hdel x hx).2] at hfresh
    cases hfresh
  · exact hkept

theorem del_subset {s : Mailroom} {ok : Bool} {del : List StoredMessage} :
    ∀ x ∈ (s.del ok del).mailbox, x ∈ s.mailbox := by
  intro x hx
  unfold Mailroom.del at hx
  split at hx
  · exact List.mem_of_mem_filter hx
  · exact hx

theorem keyless_next {d : Device} {s : Mailroom} {k : StoredTask} {e : Reply} {m : StoredMessage}
    (hids : (rows.map StoredMessage.id).Nodup) (hkey : d.encrypts = false) (hm : m ∈ rows)
    (hfresh : stale cfg d m = false) (he : Obliges (some d) e) (hkept : m ∈ s.mailbox)
    (hmail : ∀ x ∈ s.mailbox, x ∈ rows) (hk : KeylessTask cfg d rows k) :
    m ∈ (storedNext cfg s k e).1.mailbox ∧ (∀ x ∈ (storedNext cfg s k e).1.mailbox, x ∈ rows) ∧
    ∀ k' ∈ (storedNext cfg s k e).2, KeylessTask cfg d rows k' := by
  have hpage : ∀ x ∈ s.get.1, x ∈ rows := fun x hx => hmail x (List.mem_of_mem_take hx)
  cases k with
  | start =>
      refine ⟨hkept, hmail, fun k' hk' => ?_⟩
      simp only [storedNext] at hk'
      split at hk' <;> rw [List.mem_singleton.mp hk'] <;> trivial
  | batchPrepare =>
      simp only [storedNext, he.session]
      split
      · refine ⟨hkept, hmail, fun k' hk' => ?_⟩
        rw [List.mem_singleton.mp hk']
        exact ⟨rfl, hpage, fun x hx => absurd hx List.not_mem_nil⟩
      · exact ⟨hkept, hmail, fun k' hk' => absurd hk' List.not_mem_nil⟩
  | batchScan d' hasMore todo toDelete toSend =>
      rcases hk with ⟨rfl, htodo, hdel⟩
      cases todo with
      | nil =>
          refine ⟨hkept, hmail, fun k' hk' => ?_⟩
          rw [List.mem_singleton.mp hk']
          exact ⟨rfl, hdel⟩
      | cons x todo =>
          have htodo' : ∀ y ∈ todo, y ∈ rows := fun y hy => htodo y (List.mem_cons_of_mem _ hy)
          simp only [storedNext, he.session]
          split
          · rename_i hst
            refine ⟨hkept, hmail, fun k' hk' => ?_⟩
            rw [List.mem_singleton.mp hk']
            refine ⟨rfl, htodo', fun y hy => ?_⟩
            rcases mem_scan hy with hy | rfl
            · exact hdel y hy
            · exact ⟨htodo y List.mem_cons_self, hst⟩
          · refine ⟨hkept, hmail, fun k' hk' => ?_⟩
            rw [List.mem_singleton.mp hk']
            exact ⟨rfl, htodo', hdel⟩
  | batchDelete d' hasMore toDelete toSend =>
      rcases hk with ⟨rfl, hdel⟩
      -- whatever was to be sent, the request cannot be encrypted
      have hnone : (storedNext cfg s (.batchDelete d' hasMore toDelete toSend) e) =
          (if toDelete = [] then s else s.del e.daoOk toDelete, []) := by
        simp only [storedNext, hkey, Bool.false_eq_true, if_false]
        split <;> rfl
      rw [hnone]
      split
      · exact ⟨hkept, hmail, fun k' hk' => absurd hk' List.not_mem_nil⟩
      · exact ⟨keyless_del hids hm hfresh hkept hdel, fun x hx => hmail x (del_subset x hx),
          fun k' hk' => absurd hk' List.not_mem_nil⟩
  | legacyPrepare =>
      simp only [storedNext, he.session]
      split
      · refine ⟨hkept, hmail, fun k' hk' => ?_⟩
        rw [List.mem_singleton.mp hk']
        exact ⟨hpage, fun x hx => absurd hx List.not_mem_nil⟩
      · exact ⟨hkept, hmail, fun k' hk' => absurd hk' List.not_mem_nil⟩
  | legacyScan hasMore count todo toDelete =>
      rcases hk with ⟨htodo, hdel⟩
      cases todo with
      | nil =>
          refine ⟨hkept, hmail, fun k' hk' => ?_⟩
          rw [List.mem_singleton.mp hk']
          exact hdel
      | cons x todo =>
          have htodo' : ∀ y ∈ todo, y ∈ rows := fun y hy => htodo y (List.mem_cons_of_mem _ hy)
          simp only [storedNext, he.session]
          split
          · rename_i hst
            refine ⟨hkept, hmail, fun k' hk' => ?_⟩
            rw [List.mem_singleton.mp hk']
            refine ⟨htodo', fun y hy => ?_⟩
            rcases mem_scan hy with hy | rfl
            · exact hdel y hy
            · exact ⟨htodo y List.mem_cons_self, hst⟩
          · refine ⟨hkept, hmail, fun k' hk' => ?_⟩
            rcases List.mem_cons.mp hk' with rfl | hk'
            · trivial
            · rw [List.mem_singleton.mp hk']
              exact ⟨htodo', hdel⟩
  | legacyDelete toDelete =>
      simp only [storedNext]
      split
      · exact ⟨hkept, hmail, fun k' hk' => absurd hk' List.not_mem_nil⟩
      · exact ⟨keyless_del hids hm hfresh hkept hk, fun x hx => hmail x (del_subset x hx),
          fun k' hk' => absurd hk' List.not_mem_nil⟩
  | p2pPrepare x remain =>
      simp only [storedNext, he.session, prepareP2p, hkey, Bool.false_eq_true, if_false]
      exact ⟨hkept, hmail, fun k' hk' => absurd hk' List.not_mem_nil⟩
  | batchAwait | batchAnswered | p2pAwait | p2pAnswered => cases hk

/-- A fresh message for a device that cannot be encrypted for is stranded, in
either form. -/
theorem not_drains_keyless {d : Device} {m : StoredMessage}
    (hids : (rows.map StoredMessage.id).Nodup) (hkey : d.encrypts = false) (hm : m ∈ rows)
    (hfresh : stale cfg d m = false) : ¬ Drains cfg (some d) rows := by
  intro hdrains
  rcases hdrains.ends with ⟨ls, p, hrun, hok, -, hmail, -⟩
  have hinv : KeylessInv cfg d rows m p := by
    refine drain_invariant (KeylessInv cfg d rows m) ?_ ?_ hrun hok
    · intro p q k rest e he hinv hp hs hq
      have hstep := keyless_next hids hkey hm hfresh he hinv.kept hinv.mailbox
        (hinv.tasks k (hp.mem_iff.mpr List.mem_cons_self))
      rw [← hs] at hstep
      refine ⟨hstep.1, hstep.2.1, ?_⟩
      intro k' hk'
      rcases List.mem_append.mp (hq.mem_iff.mp hk') with hk' | hk'
      · exact hstep.2.2 k' hk'
      · exact hinv.tasks k' (hp.mem_iff.mpr (List.mem_cons_of_mem _ hk'))
    · refine ⟨hm, fun x hx => hx, fun k hk => ?_⟩
      rw [List.mem_singleton.mp hk]
      trivial
  have hkept := hinv.kept
  rw [hmail] at hkept
  cases hkept

end Chains

end BcmServer.Dispatcher
