import BcmServer.Dispatcher.DrainBatch

/-!
# BcmServer.Dispatcher.DrainLegacy — draining one by one

The fibers of a legacy page run in any order. As long as none of them reads on,
the page is an account up to order: every message left in the mailbox is in the
hands of one fiber or behind the page, and every fresh message of the page was
delivered or is with one fiber that will send it (`Ledger`). A page with a
stale message in it, or a short one, never reads on, so it leaves what is
behind it (`ledger_drains_iff`).

A full page of fresh messages does read on, when its last message is answered.
Nothing keeps that answer from being the first one, and then the page is read
again with its other messages still in the mailbox: `not_drains_fresh_page`.

`drains_iff` puts the two forms together.
-/

namespace BcmServer.Dispatcher

open BcmServer.Util BcmServer.Lts

variable {cfg : EncryptSenderConfig} {d : Device} {rows : List StoredMessage}

/-! ## The account of one page -/

/-- The fresh messages a fiber is going to send. -/
def StoredTask.unsent (cfg : EncryptSenderConfig) (d : Device) : StoredTask → List StoredMessage
  | legacyScan _ _ todo _ => todo.filter (fresh cfg d)
  | p2pPrepare m _ | p2pAwait m _ => [m]
  | _ => []

/-- A fiber of a legacy page that will not read on: the countdown of a full
page stays ahead of the fresh messages to come. -/
def OnePageTask (cfg : EncryptSenderConfig) (d : Device) : StoredTask → Prop
  | .legacyScan hasMore count todo _ =>
      hasMore = true → (todo.filter (fresh cfg d)).length < count
  | .legacyDelete _ => True
  | .p2pPrepare _ remain | .p2pAwait _ remain => remain = false
  | .p2pAnswered _ remain status => remain = false ∧ successful status = true
  | .start | .batchPrepare | .batchScan _ _ _ _ _ | .batchDelete _ _ _ _ | .batchAwait _ _
  | .batchAnswered _ _ _ | .legacyPrepare => False

structure Ledger (cfg : EncryptSenderConfig) (d : Device) (rows : List StoredMessage)
    (p : Pool Mailroom StoredTask) : Prop where
  tasks : ∀ k ∈ p.calls, OnePageTask cfg d k
  mailbox : p.shared.mailbox.Perm
    (p.calls.flatMap StoredTask.rows ++ rows.drop kMaxCountDispatchOnce)
  sublist : p.shared.mailbox.Sublist rows
  delivered : (deliveries p.shared.log ++ p.calls.flatMap (StoredTask.unsent cfg d)).Perm
    ((rows.take kMaxCountDispatchOnce).filter (fresh cfg d))

/-- What a step of a fiber does to the account. -/
structure LedgerMove (cfg : EncryptSenderConfig) (d : Device) (s : Mailroom) (k : StoredTask)
    (r : Mailroom × List StoredTask) : Prop where
  tasks : ∀ k' ∈ r.2, OnePageTask cfg d k'
  mailbox : ∀ others, s.mailbox.Perm (k.rows ++ others) →
    r.1.mailbox.Perm (r.2.flatMap StoredTask.rows ++ others)
  sublist : r.1.mailbox.Sublist s.mailbox
  delivered : (deliveries r.1.log ++ r.2.flatMap (StoredTask.unsent cfg d)).Perm
    (deliveries s.log ++ k.unsent cfg d)

theorem del_sublist {s : Mailroom} {ok : Bool} {del : List StoredMessage} :
    (s.del ok del).mailbox.Sublist s.mailbox := by
  unfold Mailroom.del
  split
  · exact List.filter_sublist
  · exact List.Sublist.refl _

/-- Deleting messages in hand leaves the others. -/
theorem del_perm {s : Mailroom} {ok : Bool} {del others : List StoredMessage} (hok : ok = true)
    (hids : (s.mailbox.map StoredMessage.id).Nodup) (hperm : s.mailbox.Perm (del ++ others)) :
    (s.del ok del).mailbox.Perm others := by
  have hnodup : (del ++ others).Nodup := hperm.nodup_iff.mp hids.of_map
  have hdisj := (List.nodup_append.mp hnodup).2.2
  rw [mailbox_del hok hids fun m hm => hperm.mem_iff.mpr (List.mem_append_left _ hm)]
  refine (hperm.filter _).trans ?_
  rw [List.filter_append]
  have hnone : del.filter (fun m => decide (m ∉ del)) = [] := by
    rw [List.filter_eq_nil_iff]
    intro m hm
    simp [hm]
  have hall : others.filter (fun m => decide (m ∉ del)) = others := by
    rw [List.filter_eq_self]
    intro m hm
    exact decide_eq_true fun hdel => hdisj m hdel m hm rfl
  rw [hnone, hall, List.nil_append]

section Moves

variable {s : Mailroom} {e : Reply} (he : Obliges (some d) e)

include he

theorem ledgerMove_scan {hasMore : Bool} {count : ℕ} {todo toDelete : List StoredMessage}
    (hk : OnePageTask cfg d (.legacyScan hasMore count todo toDelete)) :
    LedgerMove cfg d s (.legacyScan hasMore count todo toDelete)
      (storedNext cfg s (.legacyScan hasMore count todo toDelete) e) := by
  cases todo with
  | nil =>
      refine ⟨?_, ?_, List.Sublist.refl _, ?_⟩
      · intro k' hk'
        rw [List.mem_singleton.mp hk']
        trivial
      · intro others h
        simpa [storedNext, StoredTask.rows] using h
      · simp [storedNext, StoredTask.unsent]
  | cons m todo =>
      by_cases hm : isMessageStaleAndClientObsolete (some d) cfg m = true
      · -- a stale message moves to those to be deleted, and the countdown stays
        have hr : sendReceipt (convert m).type e ≠ .failed := sendReceipt_obliging he _
        have hnot : fresh cfg d m = false := by simp [fresh, stale, hm]
        have hnext : storedNext cfg s (.legacyScan hasMore count (m :: todo) toDelete) e =
            (s.write (.stale m (some d) (sendReceipt (convert m).type e)),
              [.legacyScan hasMore count todo (toDelete ++ [m])]) := by
          simp only [storedNext, he.session, hm, if_true, hr, if_false]
        rw [hnext]
        refine ⟨?_, ?_, List.Sublist.refl _, ?_⟩
        · intro k' hk'
          rw [List.mem_singleton.mp hk']
          intro hmore
          have hlt := hk hmore
          rwa [List.filter_cons_of_neg (by simp [hnot])] at hlt
        · intro others h
          have hmove : ((m :: todo) ++ toDelete).Perm (todo ++ (toDelete ++ [m])) := by
            rw [← List.append_assoc]
            exact (List.perm_append_singleton m _).symm
          simpa [StoredTask.rows, Mailroom.write] using h.trans (hmove.append_right others)
        · rw [deliveries_stale]
          simp [StoredTask.unsent, List.filter_cons_of_neg, hnot]
      · have hm' : isMessageStaleAndClientObsolete (some d) cfg m = false :=
          Bool.eq_false_iff.mpr hm
        have hyes : fresh cfg d m = true := by simp [fresh, stale, hm']
        have hnext : storedNext cfg s (.legacyScan hasMore count (m :: todo) toDelete) e =
            (s, [.p2pPrepare m (count - 1 = 0 && hasMore),
              .legacyScan hasMore (count - 1) todo toDelete]) := by
          simp only [storedNext, he.session, hm', Bool.false_eq_true, if_false]
        have hlt : hasMore = true → (todo.filter (fresh cfg d)).length < count - 1 := by
          intro hmore
          have hlt := hk hmore
          rw [List.filter_cons_of_pos hyes, List.length_cons] at hlt
          omega
        rw [hnext]
        refine ⟨?_, ?_, List.Sublist.refl _, ?_⟩
        · intro k' hk'
          rcases List.mem_cons.mp hk' with rfl | hk'
          · show (decide (count - 1 = 0) && hasMore) = false
            cases hmore : hasMore with
            | false => simp
            | true =>
                have hpos := hlt hmore
                have hne : count - 1 ≠ 0 := by omega
                simp [hne]
          · rw [List.mem_singleton.mp hk']
            exact hlt
        · intro others h
          simpa [StoredTask.rows] using h
        · simp [StoredTask.unsent, List.filter_cons_of_pos hyes]

theorem ledgerMove_p2p {k : StoredTask} {m : StoredMessage} (hk : OnePageTask cfg d k)
    (hids : (s.mailbox.map StoredMessage.id).Nodup)
    (hform : (∃ r, k = .p2pPrepare m r) ∨ (∃ r, k = .p2pAwait m r) ∨
      ∃ r st, k = .p2pAnswered m r st)
    (hkey : (∃ r, k = .p2pPrepare m r) → d.encrypts = true) :
    LedgerMove cfg d s k (storedNext cfg s k e) := by
  rcases hform with ⟨r, rfl⟩ | ⟨r, rfl⟩ | ⟨r, status, rfl⟩
  · obtain rfl : r = false := hk
    have henc : d.encrypts = true := hkey ⟨_, rfl⟩
    have hnext : storedNext cfg s (.p2pPrepare m false) e = (s, [.p2pAwait m false]) := by
      simp [storedNext, he.session, prepareP2p, henc]
    rw [hnext]
    refine ⟨?_, fun others h => by simpa [StoredTask.rows] using h, List.Sublist.refl _, ?_⟩
    · intro k' hk'
      rw [List.mem_singleton.mp hk']
      rfl
    · simp [StoredTask.unsent]
  · obtain rfl : r = false := hk
    refine ⟨?_, fun others h => by simpa [storedNext, StoredTask.rows, Mailroom.write] using h,
      List.Sublist.refl _, ?_⟩
    · intro k' hk'
      rw [List.mem_singleton.mp hk']
      exact ⟨rfl, he.status⟩
    · -- the answer moves the message to the delivered ones
      simp only [storedNext, deliveries_answered he.status]
      simp [StoredTask.unsent]
  · rcases hk with ⟨rfl, hok⟩
    have hnext : storedNext cfg s (.p2pAnswered m false status) e = (s.del e.daoOk [m], []) := by
      simp [storedNext, handleP2p, he.session, hok]
    rw [hnext]
    refine ⟨fun k' hk' => absurd hk' List.not_mem_nil, ?_, del_sublist, ?_⟩
    · intro others h
      exact del_perm he.dao hids h
    · rw [deliveries_del]
      simp [StoredTask.unsent]

theorem ledgerMove_next {k : StoredTask} (hk : OnePageTask cfg d k)
    (hids : (s.mailbox.map StoredMessage.id).Nodup)
    (hkey : ∀ m ∈ k.unsent cfg d, (∃ r, k = .p2pPrepare m r) → d.encrypts = true) :
    LedgerMove cfg d s k (storedNext cfg s k e) := by
  cases k with
  | legacyScan hasMore count todo toDelete => exact ledgerMove_scan he hk
  | legacyDelete toDelete =>
      refine ⟨fun k' hk' => absurd hk' List.not_mem_nil, ?_, ?_, ?_⟩
      · intro others h
        simp only [storedNext]
        split
        · rename_i hnil
          simpa [StoredTask.rows, hnil] using h
        · exact del_perm he.dao hids h
      · simp only [storedNext]
        split
        · exact List.Sublist.refl _
        · exact del_sublist
      · simp only [storedNext]
        split
        · simp [StoredTask.unsent]
        · rw [deliveries_del]
          simp [StoredTask.unsent]
  | p2pPrepare m r =>
      exact ledgerMove_p2p he hk hids (Or.inl ⟨r, rfl⟩)
        (hkey m (List.mem_singleton_self m))
  | p2pAwait m r =>
      exact ledgerMove_p2p he hk hids (Or.inr (Or.inl ⟨r, rfl⟩)) (by rintro ⟨_, h⟩; cases h)
  | p2pAnswered m r status =>
      exact ledgerMove_p2p he hk hids (Or.inr (Or.inr ⟨r, status, rfl⟩)) (by rintro ⟨_, h⟩; cases h)
  | start | batchPrepare | batchScan | batchDelete | batchAwait | batchAnswered | legacyPrepare =>
      cases hk

end Moves

/-! ## A page that does not read on -/

/-- A legacy chain that has not read its page, or keeps the account of it. -/
def LegacyInv (cfg : EncryptSenderConfig) (d : Device) (rows : List StoredMessage)
    (p : Pool Mailroom StoredTask) : Prop :=
  (∃ k, (k = .start ∨ k = .legacyPrepare) ∧ p.calls = [k] ∧ p.shared.mailbox = rows ∧
    p.shared.log = []) ∨ Ledger cfg d rows p

/-- The first page is short, or has a stale message. -/
def ReadsOnce (cfg : EncryptSenderConfig) (d : Device) (rows : List StoredMessage) : Prop :=
  rows.length < kMaxCountDispatchOnce ∨
    ∃ m ∈ rows.take kMaxCountDispatchOnce, stale cfg d m = true

theorem ledger_step {p q : Pool Mailroom StoredTask} {k : StoredTask} {rest : List StoredTask}
    {e : Reply} (hids : (rows.map StoredMessage.id).Nodup)
    (hkey : d.encrypts = true ∨ ∀ m ∈ rows, stale cfg d m = true) (he : Obliges (some d) e)
    (hinv : Ledger cfg d rows p) (hp : p.calls.Perm (k :: rest))
    (hs : q.shared = (storedNext cfg p.shared k e).1)
    (hq : q.calls.Perm ((storedNext cfg p.shared k e).2 ++ rest)) :
    Ledger cfg d rows q ∧ drainRank q < drainRank p := by
  have hk : OnePageTask cfg d k := hinv.tasks k (hp.mem_iff.mpr List.mem_cons_self)
  have hboxids : (p.shared.mailbox.map StoredMessage.id).Nodup :=
    hids.sublist (hinv.sublist.map _)
  -- a message that is going to be sent is fresh, so the device has a key
  have hunsent : ∀ m ∈ k.unsent cfg d, (∃ r, k = .p2pPrepare m r) → d.encrypts = true := by
    intro m hm _
    have hmem : m ∈ deliveries p.shared.log ++ p.calls.flatMap (StoredTask.unsent cfg d) := by
      refine List.mem_append_right _ (List.mem_flatMap.mpr ⟨k, ?_, hm⟩)
      exact hp.mem_iff.mpr List.mem_cons_self
    rcases List.mem_filter.mp (hinv.delivered.mem_iff.mp hmem) with ⟨hrow, hfresh⟩
    rcases hkey with henc | hall
    · exact henc
    · rw [fresh, hall m (List.mem_of_mem_take hrow)] at hfresh
      cases hfresh
  have hmove := ledgerMove_next he hk hboxids hunsent
  have hprows := hp.flatMap_right StoredTask.rows
  have hpunsent := hp.flatMap_right (StoredTask.unsent cfg d)
  have hqrows := hq.flatMap_right StoredTask.rows
  have hqunsent := hq.flatMap_right (StoredTask.unsent cfg d)
  rw [List.flatMap_cons] at hprows hpunsent
  rw [List.flatMap_append] at hqrows hqunsent
  refine ⟨⟨?_, ?_, ?_, ?_⟩, ?_⟩
  · intro k' hk'
    rcases List.mem_append.mp (hq.mem_iff.mp hk') with hk' | hk'
    · exact hmove.tasks k' hk'
    · exact hinv.tasks k' (hp.mem_iff.mpr (List.mem_cons_of_mem _ hk'))
  · have hbox := hinv.mailbox.trans (hprows.append_right _)
    rw [List.append_assoc] at hbox
    rw [hs]
    refine (hmove.mailbox _ hbox).trans ?_
    rw [← List.append_assoc]
    exact (hqrows.symm).append_right _
  · rw [hs]
    exact hmove.sublist.trans hinv.sublist
  · rw [hs]
    calc (deliveries (storedNext cfg p.shared k e).1.log ++
            q.calls.flatMap (StoredTask.unsent cfg d))
        |>.Perm (deliveries (storedNext cfg p.shared k e).1.log ++
            ((storedNext cfg p.shared k e).2.flatMap (StoredTask.unsent cfg d) ++
              rest.flatMap (StoredTask.unsent cfg d))) := hqunsent.append_left _
      _ |>.Perm (deliveries p.shared.log ++
            (k.unsent cfg d ++ rest.flatMap (StoredTask.unsent cfg d))) := by
          rw [← List.append_assoc, ← List.append_assoc]
          exact hmove.delivered.append_right _
      _ |>.Perm (deliveries p.shared.log ++ p.calls.flatMap (StoredTask.unsent cfg d)) :=
          hpunsent.symm.append_left _
      _ |>.Perm ((rows.take kMaxCountDispatchOnce).filter (fresh cfg d)) := hinv.delivered
  · refine drainRank_next hp hs hq fun hstart => ?_
    exact (hmove.tasks _ hstart).elim

/-- Reading the page opens the account. -/
theorem ledger_open {p q : Pool Mailroom StoredTask} {e : Reply} (honce : ReadsOnce cfg d rows)
    (he : Obliges (some d) e) (hbox : p.shared.mailbox = rows) (hlog : p.shared.log = [])
    (hs : q.shared = (storedNext cfg p.shared .legacyPrepare e).1)
    (hq : q.calls.Perm (storedNext cfg p.shared .legacyPrepare e).2) : Ledger cfg d rows q := by
  have hget : p.shared.get.1 = rows.take kMaxCountDispatchOnce := by
    simp only [Mailroom.get, hbox]
  simp only [storedNext, he.session, he.dao, Bool.true_and] at hs hq
  rw [hget] at hs hq
  by_cases hempty : rows.take kMaxCountDispatchOnce = []
  · -- nothing is stored
    simp only [hempty, ne_eq, not_true_eq_false, decide_false, Bool.false_eq_true, if_false] at hs hq
    have hrows : rows = [] := by
      have hlen := congrArg List.length hempty
      rw [List.length_take, List.length_nil] at hlen
      apply List.eq_nil_of_length_eq_zero
      simp only [kMaxCountDispatchOnce] at hlen
      omega
    have hcalls : q.calls = [] := List.perm_nil.mp hq
    refine ⟨?_, ?_, ?_, ?_⟩
    · intro k hk
      rw [hcalls] at hk
      cases hk
    · rw [hs, hbox, hcalls, hrows]
      exact List.Perm.refl _
    · rw [hs, hbox]
    · rw [hs, hlog, hcalls, hrows]
      exact List.Perm.refl _
  · simp only [ne_eq, hempty, not_false_eq_true, decide_true, if_true] at hs hq
    have hcalls := List.perm_singleton.mp hq
    refine ⟨?_, ?_, ?_, ?_⟩
    · intro k hk
      rw [hcalls] at hk
      rw [List.mem_singleton.mp hk]
      intro hmore
      -- a full page has a stale message, which does not count down
      have hfull : kMaxCountDispatchOnce ≤ (rows.take kMaxCountDispatchOnce).length := by
        simpa [Mailroom.get, hbox] using hmore
      rcases honce with hshort | ⟨m, hm, hst⟩
      · rw [List.length_take] at hfull
        omega
      · apply List.length_filter_lt_length_iff_exists.mpr
        exact ⟨m, hm, by simp [fresh, hst]⟩
    · rw [hs, hbox, hcalls]
      simp only [StoredTask.rows, List.flatMap_cons, List.flatMap_nil, List.append_nil]
      rw [List.take_append_drop]
    · rw [hs, hbox]
    · rw [hs, hlog, hcalls]
      simp only [deliveries, StoredTask.unsent, List.flatMap_cons, List.flatMap_nil,
        List.append_nil, List.nil_append]
      exact List.Perm.refl _

theorem legacyInv_step {p q : Pool Mailroom StoredTask} {k : StoredTask} {rest : List StoredTask}
    {e : Reply} (hlegacy : isSupportDispatchBatch (some d) = false)
    (hids : (rows.map StoredMessage.id).Nodup)
    (hkey : d.encrypts = true ∨ ∀ m ∈ rows, stale cfg d m = true)
    (honce : ReadsOnce cfg d rows) (he : Obliges (some d) e)
    (hinv : LegacyInv cfg d rows p) (hp : p.calls.Perm (k :: rest))
    (hs : q.shared = (storedNext cfg p.shared k e).1)
    (hq : q.calls.Perm ((storedNext cfg p.shared k e).2 ++ rest)) :
    LegacyInv cfg d rows q ∧ drainRank q < drainRank p := by
  rcases hinv with ⟨k', hk', hcalls, hbox, hlog⟩ | hledger
  · have hone : k = k' ∧ rest = [] := by
      rw [hcalls] at hp
      have heq := List.singleton_perm.mp hp
      rw [List.cons.injEq] at heq
      exact ⟨heq.1.symm, heq.2.symm⟩
    rcases hone with ⟨rfl, rfl⟩
    rcases hk' with rfl | rfl
    · -- the device does not take batches
      have hnext : storedNext cfg p.shared .start e = (p.shared, [.legacyPrepare]) := by
        simp [storedNext, he.session, hlegacy]
      constructor
      · refine Or.inl ⟨.legacyPrepare, Or.inr rfl, ?_, ?_, ?_⟩
        · rw [hnext] at hq
          exact List.perm_singleton.mp hq
        · rw [hs, hnext, hbox]
        · rw [hs, hnext, hlog]
      · refine drainRank_next hp hs hq fun hstart => ?_
        rw [hnext] at hstart
        cases List.mem_singleton.mp hstart
    · have hq' := hq
      rw [List.append_nil] at hq'
      refine ⟨Or.inr (ledger_open honce he hbox hlog hs hq'), ?_⟩
      refine drainRank_next hp hs hq fun hstart => ?_
      exfalso
      simp only [storedNext, he.session] at hstart
      split at hstart
      · cases List.mem_singleton.mp hstart
      · cases hstart
  · have hstep := ledger_step hids hkey he hledger hp hs hq
    exact ⟨Or.inr hstep.1, hstep.2⟩

theorem legacyInv_init : LegacyInv cfg d rows (drainInit rows) :=
  Or.inl ⟨.start, Or.inl rfl, rfl, rfl, rfl⟩

/-- At the end of a chain that reads once, what is behind the page is left and
the fresh messages of the page are delivered. -/
theorem legacyInv_ended {p : Pool Mailroom StoredTask} (hinv : LegacyInv cfg d rows p)
    (hdone : p.calls = []) :
    p.shared.mailbox.Perm (rows.drop kMaxCountDispatchOnce) ∧
    (deliveries p.shared.log).Perm ((rows.take kMaxCountDispatchOnce).filter (fresh cfg d)) := by
  rcases hinv with ⟨k, -, hcalls, -⟩ | hledger
  · rw [hdone] at hcalls
    cases hcalls
  · have hmail := hledger.mailbox
    have hdel := hledger.delivered
    rw [hdone] at hmail hdel
    simp only [List.flatMap_nil, List.nil_append, List.append_nil] at hmail hdel
    exact ⟨hmail, hdel⟩

theorem ledger_drains_iff (hlegacy : isSupportDispatchBatch (some d) = false)
    (hids : (rows.map StoredMessage.id).Nodup)
    (hkey : d.encrypts = true ∨ ∀ m ∈ rows, stale cfg d m = true)
    (honce : ReadsOnce cfg d rows) :
    Drains cfg (some d) rows ↔ rows.length ≤ kMaxCountDispatchOnce := by
  constructor
  · intro hdrains
    rcases hdrains.ends with ⟨ls, p, hrun, hok, hdone, hmail, -⟩
    have hinv : LegacyInv cfg d rows p := by
      refine drain_invariant (LegacyInv cfg d rows) ?_ legacyInv_init hrun hok
      intro p q k rest e he hinv hp hs hq
      exact (legacyInv_step hlegacy hids hkey honce he hinv hp hs hq).1
    have hend := (legacyInv_ended hinv hdone).1
    rw [hmail] at hend
    exact List.drop_eq_nil_iff.mp (List.nil_perm.mp hend)
  · intro hlen
    refine drains_of_invariant (LegacyInv cfg d rows) ?_ legacyInv_init ?_
    · intro p q k rest e he hinv hp hs hq
      exact legacyInv_step hlegacy hids hkey honce he hinv hp hs hq
    · intro p hinv hdone
      rcases legacyInv_ended hinv hdone with ⟨hmail, hdel⟩
      rw [List.drop_eq_nil_iff.mpr hlen] at hmail
      rw [List.take_of_length_le hlen] at hdel
      refine ⟨List.perm_nil.mp hmail, ?_⟩
      intro m hm hfresh
      rw [hdel.count_eq]
      exact count_fresh hids hm hfresh

/-! ## A full page of fresh messages -/

/-- The log only grows. -/
theorem log_next (cfg : EncryptSenderConfig) (s : Mailroom) (k : StoredTask) (e : Reply) :
    ∃ es, (storedNext cfg s k e).1.log = s.log ++ es := by
  have hsame : ∃ es, s.log = s.log ++ es := ⟨[], (List.append_nil _).symm⟩
  have hwrite : ∀ en, ∃ es, (s.write en).log = s.log ++ es := fun en => ⟨[en], rfl⟩
  have hdel : ∀ ok del, ∃ es, (s.del ok del).log = s.log ++ es := by
    intro ok del
    rw [deliveries_del]
    exact hsame
  cases k with
  | batchScan d hasMore todo toDelete toSend =>
      cases todo with
      | nil => exact hsame
      | cons m todo =>
          simp only [storedNext]
          split
          · exact hwrite _
          · exact hsame
  | legacyScan hasMore count todo toDelete =>
      cases todo with
      | nil => exact hsame
      | cons m todo =>
          simp only [storedNext]
          split
          · exact hwrite _
          · exact hsame
  | batchDelete d hasMore toDelete toSend =>
      have hmaybe : ∃ es, (if toDelete = [] then s else s.del e.daoOk toDelete).log =
          s.log ++ es := by
        split
        · exact hsame
        · exact hdel _ _
      simp only [storedNext]
      split
      · exact hmaybe
      · split <;> exact hmaybe
  | legacyDelete toDelete =>
      simp only [storedNext]
      split
      · exact hsame
      · exact hdel _ _
  | batchAwait hasMore sent => exact hwrite _
  | p2pAwait m remain => exact hwrite _
  | batchAnswered hasMore sent status =>
      simp only [storedNext]
      split
      · exact hsame
      · split
        · exact hdel _ _
        · exact hsame
  | p2pAnswered m remain status =>
      simp only [storedNext]
      split
      · exact hdel _ _
      · exact hsame
  | start => exact hsame
  | batchPrepare | legacyPrepare =>
      simp only [storedNext]
      split
      · exact hsame
      · split <;> exact hsame
  | p2pPrepare m remain => exact hsame

/-- A message that was delivered twice on the way stays delivered twice. -/
theorem count_deliveries_run {m : StoredMessage} {n : ℕ} {p q : Pool Mailroom StoredTask}
    {ls : List (Sched Reply StoredEvent)} (hrun : (storedSystem cfg).machine.run p ls = some q)
    (hp : n ≤ (deliveries p.shared.log).count m) : n ≤ (deliveries q.shared.log).count m := by
  refine (storedSystem cfg).reachable_invariant
    (fun p => n ≤ (deliveries p.shared.log).count m) ?_ ?_ hp hrun
  · intro p q k rest e s ks hinv _ hnext hs _
    have hnext' : storedNext cfg p.shared k e = (s, ks) := Option.some.inj hnext
    rcases log_next cfg p.shared k e with ⟨es, hes⟩
    rw [hnext', ← hs] at hes
    show n ≤ (deliveries q.shared.log).count m
    rw [hes, deliveries_append, List.count_append]
    exact hinv.trans (Nat.le_add_right _ _)
  · intro p ev s ks hinv henv
    cases ev with
    | query =>
        cases henv
        exact hinv
    | store x =>
        simp only [storedSystem] at henv
        split at henv
        · cases henv
        · cases henv
          exact hinv

/-- The chain for rows `rows` can get to the state `s` with the fibers `L`. -/
abbrev Reaches (cfg : EncryptSenderConfig) (d : Device) (rows : List StoredMessage) (s : Mailroom)
    (L : List StoredTask) : Prop :=
  (storedSystem cfg).Leads (Obliging (some d)) (drainInit rows) s L

theorem reaches_next {s s' : Mailroom} {k : StoredTask} {L ks : List StoredTask}
    (h : Reaches cfg d rows s (k :: L))
    (hnext : storedNext cfg s k (obligingReply (some d)) = (s', ks)) :
    Reaches cfg d rows s' (ks ++ L) :=
  (storedSystem cfg).leads_call h (congrArg some hnext) fun _ => obliges_obligingReply _

/-- The loop posts a fiber for each fresh message it passes. -/
theorem reaches_scan {s : Mailroom} {hasMore : Bool} {count : ℕ}
    {seen todo toDelete : List StoredMessage} {L : List StoredTask}
    (hfresh : ∀ m ∈ seen, stale cfg d m = false)
    (h : Reaches cfg d rows s
      (.legacyScan hasMore (seen.length + count) (seen ++ todo) toDelete :: L)) :
    ∃ L', Reaches cfg d rows s (.legacyScan hasMore count todo toDelete :: (L' ++ L)) := by
  induction seen generalizing L with
  | nil =>
      rw [List.length_nil, Nat.zero_add, List.nil_append] at h
      exact ⟨[], h⟩
  | cons m seen ih =>
      have hm : isMessageStaleAndClientObsolete (some d) cfg m = false :=
        hfresh m List.mem_cons_self
      have hcount : (m :: seen).length + count - 1 = seen.length + count := by
        rw [List.length_cons]
        omega
      have hnext : storedNext cfg s
          (.legacyScan hasMore ((m :: seen).length + count) (m :: (seen ++ todo)) toDelete)
          (obligingReply (some d)) =
          (s, [.p2pPrepare m (seen.length + count = 0 && hasMore),
            .legacyScan hasMore (seen.length + count) (seen ++ todo) toDelete]) := by
        simp only [storedNext, obligingReply, hm, Bool.false_eq_true, if_false, hcount]
      have hstep := reaches_next h hnext
      have hswap := (storedSystem cfg).leads_perm hstep (List.Perm.swap _ _ L)
      rcases ih (fun x hx => hfresh x (List.mem_cons_of_mem _ hx)) hswap with ⟨L', hL'⟩
      refine ⟨L' ++ [.p2pPrepare m (seen.length + count = 0 && hasMore)], ?_⟩
      rw [List.append_assoc]
      exact hL'

/-- A stored message is sent and answered. -/
theorem reaches_answered {s : Mailroom} {m : StoredMessage} {remain : Bool} {L : List StoredTask}
    (henc : d.encrypts = true) (h : Reaches cfg d rows s (.p2pPrepare m remain :: L)) :
    Reaches cfg d rows (s.write (.answered [m] 200)) (.p2pAnswered m remain 200 :: L) := by
  have hsend : storedNext cfg s (.p2pPrepare m remain) (obligingReply (some d)) =
      (s, [.p2pAwait m remain]) := by
    simp [storedNext, obligingReply, prepareP2p, henc]
  exact reaches_next (reaches_next h hsend) rfl

/-- Reading a page whose first message is fresh. -/
theorem reaches_page {s : Mailroom} {m : StoredMessage} {box : List StoredMessage}
    {L : List StoredTask} (hlegacy : isSupportDispatchBatch (some d) = false)
    (hbox : s.mailbox = m :: box) (hm : stale cfg d m = false)
    (h : Reaches cfg d rows s (.start :: L)) :
    ∃ remain, Reaches cfg d rows s (.p2pPrepare m remain ::
      .legacyScan (s.mailbox.length ≥ kMaxCountDispatchOnce)
        ((s.mailbox.take kMaxCountDispatchOnce).length - 1) (box.take 49) [] :: L) := by
  have hstart : storedNext cfg s .start (obligingReply (some d)) = (s, [.legacyPrepare]) := by
    simp [storedNext, obligingReply, hlegacy]
  have htake : s.mailbox.take kMaxCountDispatchOnce = m :: box.take 49 := by
    rw [hbox]
    rfl
  have hmore : s.get = (m :: box.take 49, decide (s.mailbox.length ≥ kMaxCountDispatchOnce)) := by
    simp only [Mailroom.get, htake, Prod.mk.injEq, true_and]
    rw [← htake, List.length_take]
    simp
  have hread : storedNext cfg s .legacyPrepare (obligingReply (some d)) =
      (s, [.legacyScan (s.mailbox.length ≥ kMaxCountDispatchOnce) (m :: box.take 49).length
        (m :: box.take 49) []]) := by
    simp [storedNext, obligingReply, hmore]
  have hm' : isMessageStaleAndClientObsolete (some d) cfg m = false := hm
  have hpost : storedNext cfg s (.legacyScan (s.mailbox.length ≥ kMaxCountDispatchOnce)
      (m :: box.take 49).length (m :: box.take 49) []) (obligingReply (some d)) =
      (s, [.p2pPrepare m ((m :: box.take 49).length - 1 = 0 &&
          decide (s.mailbox.length ≥ kMaxCountDispatchOnce)),
        .legacyScan (s.mailbox.length ≥ kMaxCountDispatchOnce) ((m :: box.take 49).length - 1)
          (box.take 49) []]) := by
    simp only [storedNext, obligingReply, hm', Bool.false_eq_true, if_false]
  rw [htake]
  exact ⟨_, reaches_next (reaches_next (reaches_next h hstart) hread) hpost⟩

/-- **A full page of fresh messages does not drain.** The last message of the
page is answered first; the page is read again, and its first message is sent
for the second time. -/
theorem not_drains_fresh_page (hlegacy : isSupportDispatchBatch (some d) = false)
    (hids : (rows.map StoredMessage.id).Nodup) (henc : d.encrypts = true)
    {first last : StoredMessage} {mid behind : List StoredMessage}
    (hrows : rows = first :: (mid ++ last :: behind)) (hmid : mid.length = 48)
    (hfresh : ∀ m ∈ first :: (mid ++ [last]), stale cfg d m = false) :
    ¬ Drains cfg (some d) rows := by
  intro hdrains
  have hlen : rows.length ≥ kMaxCountDispatchOnce := by
    rw [hrows]
    simp only [List.length_cons, List.length_append, hmid, kMaxCountDispatchOnce]
    omega
  have hfirst : stale cfg d first = false := hfresh first List.mem_cons_self
  have hlast : isMessageStaleAndClientObsolete (some d) cfg last = false := hfresh last (by simp)
  -- the page is posted, and the fiber of its last message is going to read on
  have hbegin : Reaches cfg d rows ⟨rows, rows, []⟩ [.start] :=
    (storedSystem cfg).leads_refl _ (drainInit rows)
  rcases reaches_page hlegacy hrows hfirst hbegin with ⟨r, hpage⟩
  have htake : (mid ++ last :: behind).take 49 = mid ++ [last] := by
    rw [List.take_append, hmid, List.take_of_length_le (by omega)]
    rfl
  have hcount : (rows.take kMaxCountDispatchOnce).length - 1 = mid.length + 1 := by
    rw [List.length_take, Nat.min_eq_left hlen, hmid]
    rfl
  simp only [htake, hcount, hlen, decide_true] at hpage
  have hscan := (storedSystem cfg).leads_perm hpage (List.Perm.swap _ _ [])
  have hmidfresh : ∀ m ∈ mid, stale cfg d m = false := fun m hm => hfresh m (by simp [hm])
  rcases reaches_scan hmidfresh hscan with ⟨L, hscanned⟩
  have hpost : storedNext cfg ⟨rows, rows, []⟩ (.legacyScan true 1 [last] [])
      (obligingReply (some d)) =
      (⟨rows, rows, []⟩, [.p2pPrepare last true, .legacyScan true 0 [] []]) := by
    simp only [storedNext, obligingReply, hlast, Bool.false_eq_true, if_false]
    rfl
  have hposted := reaches_next hscanned hpost
  -- its answer comes first, and the page is read again
  have hanswered := reaches_answered henc hposted
  have hstatus : successful 200 = true := by decide
  have hdelete : storedNext cfg (Mailroom.write ⟨rows, rows, []⟩ (.answered [last] 200))
      (.p2pAnswered last true 200) (obligingReply (some d)) =
      ((Mailroom.write ⟨rows, rows, []⟩ (.answered [last] 200)).del true [last], [.start]) := by
    simp [storedNext, obligingReply, handleP2p, hstatus]
  have hrestart := reaches_next hanswered hdelete
  have hbox : ∃ box, ((Mailroom.write ⟨rows, rows, []⟩ (.answered [last] 200)).del true
      [last]).mailbox = first :: box := by
    have hne : first.id ≠ last.id := by
      rw [hrows] at hids
      simp only [List.map_cons, List.map_append, List.nodup_cons, List.mem_append,
        List.mem_cons] at hids
      exact fun heq => hids.1 (Or.inr (Or.inl heq))
    refine ⟨(mid ++ last :: behind).filter (fun m => decide (m.id ∉ [last.id])), ?_⟩
    simp only [Mailroom.del, Mailroom.write, if_true, List.map_singleton]
    rw [hrows, List.filter_cons_of_pos (by simp [hne])]
  rcases hbox with ⟨box, hbox⟩
  rcases reaches_page hlegacy hbox hfirst hrestart with ⟨r', hagain⟩
  -- both fibers of the first message go on
  have honce := reaches_answered henc hagain
  have hperm : ∀ (a b c : StoredTask), (a :: b :: (c :: (L ++ [.p2pPrepare first r]))).Perm
      (.p2pPrepare first r :: a :: b :: c :: L) := by
    intro a b c
    exact List.perm_append_singleton (.p2pPrepare first r) (a :: b :: c :: L)
  have htwice := reaches_answered henc ((storedSystem cfg).leads_perm honce (hperm _ _ _))
  rcases htwice with ⟨ls, p, hrun, hok, hshared, -⟩
  have hcount2 : 2 ≤ (deliveries p.shared.log).count first := by
    rw [hshared, deliveries_answered hstatus, deliveries_answered hstatus, List.count_append,
      List.count_append, List.count_singleton_self]
    omega
  -- but then it is not delivered exactly once
  rcases hdrains.finishes hrun hok with ⟨bs, q, hbs, -, -, -, honly⟩
  have hone := honly first (by rw [hrows]; exact List.mem_cons_self) hfirst
  have htwo := count_deliveries_run hbs hcount2
  omega

/-! ## Both forms -/

/-- Without an authorised device a chain stops before it reads anything. -/
def NobodyInv (rows : List StoredMessage) (p : Pool Mailroom StoredTask) : Prop :=
  p.shared.mailbox = rows ∧ ∀ k ∈ p.calls, k = .start ∨ k = .legacyPrepare

theorem nobodyInv_step {p q : Pool Mailroom StoredTask} {k : StoredTask} {rest : List StoredTask}
    {e : Reply} (he : Obliges none e) (hinv : NobodyInv rows p) (hp : p.calls.Perm (k :: rest))
    (hs : q.shared = (storedNext cfg p.shared k e).1)
    (hq : q.calls.Perm ((storedNext cfg p.shared k e).2 ++ rest)) :
    NobodyInv rows q ∧ drainRank q < drainRank p := by
  have hnext : storedNext cfg p.shared k e = (p.shared, [.legacyPrepare]) ∨
      storedNext cfg p.shared k e = (p.shared, []) := by
    rcases hinv.2 k (hp.mem_iff.mpr List.mem_cons_self) with rfl | rfl
    · left
      simp [storedNext, he.session, isSupportDispatchBatch]
    · right
      simp only [storedNext, he.session]
  have hrank : drainRank q < drainRank p := by
    refine drainRank_next hp hs hq fun hstart => ?_
    exfalso
    rcases hnext with hnext | hnext
    · rw [hnext] at hstart
      cases List.mem_singleton.mp hstart
    · rw [hnext] at hstart
      cases hstart
  refine ⟨⟨?_, fun k' hk' => ?_⟩, hrank⟩
  · rw [hs]
    rcases hnext with hnext | hnext <;> rw [hnext] <;> exact hinv.1
  · rcases List.mem_append.mp (hq.mem_iff.mp hk') with hk' | hk'
    · rcases hnext with hnext | hnext
      · rw [hnext] at hk'
        exact Or.inr (List.mem_singleton.mp hk')
      · rw [hnext] at hk'
        cases hk'
    · exact hinv.2 k' (hp.mem_iff.mpr (List.mem_cons_of_mem _ hk'))

theorem nobody_drains_iff : Drains cfg none rows ↔ rows = [] := by
  have hinit : NobodyInv rows (drainInit rows) :=
    ⟨rfl, fun k hk => Or.inl (List.mem_singleton.mp hk)⟩
  constructor
  · intro hdrains
    rcases hdrains.ends with ⟨ls, p, hrun, hok, -, hmail, -⟩
    have hinv : NobodyInv rows p := by
      refine drain_invariant (NobodyInv rows) ?_ hinit hrun hok
      intro p q k rest e he hinv hp hs hq
      exact (nobodyInv_step he hinv hp hs hq).1
    rw [← hinv.1, hmail]
  · rintro rfl
    refine drains_of_invariant (NobodyInv []) ?_ hinit ?_
    · intro p q k rest e he hinv hp hs hq
      exact nobodyInv_step he hinv hp hs hq
    · intro p hinv _
      refine ⟨hinv.1, ?_⟩
      intro m hm
      cases hm

/-- A full page has a first and a last message. -/
theorem page_split (hfull : kMaxCountDispatchOnce ≤ rows.length) :
    ∃ first last mid behind, rows = first :: (mid ++ last :: behind) ∧ mid.length = 48 ∧
      rows.take kMaxCountDispatchOnce = first :: (mid ++ [last]) := by
  simp only [kMaxCountDispatchOnce] at hfull ⊢
  cases rows with
  | nil => simp at hfull
  | cons first tail =>
      rw [List.length_cons] at hfull
      have hlen : 48 < tail.length := by omega
      refine ⟨first, tail.get ⟨48, hlen⟩, tail.take 48, tail.drop 49, ?_, ?_, ?_⟩
      · rw [List.get_eq_getElem, List.getElem_cons_drop, List.take_append_drop]
      · rw [List.length_take]
        omega
      · rw [List.get_eq_getElem, List.take_append_getElem]
        rfl

/-- The legacy chain of a device that has a key, or has nothing fresh. -/
theorem legacy_drains_iff (hlegacy : isSupportDispatchBatch (some d) = false)
    (hids : (rows.map StoredMessage.id).Nodup)
    (hkey : d.encrypts = true ∨ ∀ m ∈ rows, stale cfg d m = true) :
    Drains cfg (some d) rows ↔
      rows.length < kMaxCountDispatchOnce ∨
      (rows.length = kMaxCountDispatchOnce ∧ ∃ m ∈ rows, stale cfg d m = true) := by
  by_cases honce : ReadsOnce cfg d rows
  · rw [ledger_drains_iff hlegacy hids hkey honce]
    constructor
    · intro hlen
      rcases Nat.lt_or_eq_of_le hlen with hlt | heq
      · exact Or.inl hlt
      · rcases honce with hshort | ⟨m, hm, hst⟩
        · exact Or.inl hshort
        · exact Or.inr ⟨heq, m, List.mem_of_mem_take hm, hst⟩
    · rintro (hlt | ⟨heq, -⟩)
      · exact Nat.le_of_lt hlt
      · exact Nat.le_of_eq heq
  · -- a full page, and nothing stale in it
    rw [ReadsOnce, not_or] at honce
    have hfull : kMaxCountDispatchOnce ≤ rows.length := Nat.le_of_not_lt honce.1
    have hfresh : ∀ m ∈ rows.take kMaxCountDispatchOnce, stale cfg d m = false :=
      fun m hm => Bool.eq_false_iff.mpr fun hst => honce.2 ⟨m, hm, hst⟩
    rcases page_split hfull with ⟨first, last, mid, behind, hrows, hmid, htake⟩
    rw [htake] at hfresh
    have henc : d.encrypts = true := by
      rcases hkey with henc | hall
      · exact henc
      · have hst := hall first (by rw [hrows]; exact List.mem_cons_self)
        rw [hfresh first List.mem_cons_self] at hst
        cases hst
    constructor
    · intro hdrains
      exact absurd hdrains (not_drains_fresh_page hlegacy hids henc hrows hmid hfresh)
    · rintro (hlt | ⟨heq, m, hm, hst⟩)
      · exact absurd hlt honce.1
      · rw [List.take_of_length_le (Nat.le_of_eq heq)] at htake
        rw [htake] at hm
        rw [hfresh m hm] at hst
        cases hst

/-- **When stored messages drain.** For an obliging environment the chain of a
device drains its mailbox iff `DrainsWhen` holds of the device and the
mailbox. -/
theorem drains_iff (cfg : EncryptSenderConfig) (auth : Option Device) (rows : List StoredMessage)
    (hids : (rows.map StoredMessage.id).Nodup) :
    Drains cfg auth rows ↔ DrainsWhen cfg auth rows := by
  cases auth with
  | none => exact nobody_drains_iff
  | some d =>
      show Drains cfg (some d) rows ↔ (d.encrypts = true ∨ ∀ m ∈ rows, stale cfg d m = true) ∧ _
      by_cases hkey : d.encrypts = true ∨ ∀ m ∈ rows, stale cfg d m = true
      · rw [and_iff_right hkey]
        cases hform : isSupportDispatchBatch (some d) with
        | true => exact batch_drains_iff hform hids hkey
        | false => exact legacy_drains_iff hform hids hkey
      · rw [not_or] at hkey
        rcases hkey with ⟨hnokey, hnotall⟩
        simp only [not_forall] at hnotall
        rcases hnotall with ⟨m, hm, hfresh⟩
        constructor
        · intro hdrains
          exact absurd hdrains (not_drains_keyless hids (Bool.eq_false_iff.mpr hnokey) hm
            (Bool.eq_false_iff.mpr hfresh))
        · rintro ⟨henc | hall, -⟩
          · exact absurd henc hnokey
          · exact absurd (hall m hm) hfresh

/-- A fresh and a stale message drain. -/
theorem drains_iff_mixed : Drains oldConfig (some oldPhone) [letter 1 7, letter 2 9] := by
  refine (drains_iff oldConfig (some oldPhone) [letter 1 7, letter 2 9] (by decide)).mpr ?_
  refine ⟨Or.inl (by decide), ?_⟩
  rw [if_pos (by decide)]
  intro j _
  rw [List.drop_eq_nil_iff]
  simp only [List.length_cons, List.length_nil, kMaxCountDispatchOnce]
  omega

/-- Fifty stale messages, and a fresh one behind them. -/
def stalePage : List StoredMessage :=
  (List.range 51).map fun i => letter (UInt64.ofNat (i + 1)) (if i < 50 then 9 else 7)

/-- A device that is authorised and has a key does not always get its fresh
messages. -/
theorem stale_page_strands :
    ¬ ∀ (cfg : EncryptSenderConfig) (d : Device) (rows : List StoredMessage),
      (rows.map StoredMessage.id).Nodup → d.encrypts = true → Drains cfg (some d) rows := by
  intro hclaim
  have hids : (stalePage.map StoredMessage.id).Nodup := by decide +kernel
  have hpage : ∀ m ∈ page stalePage 0, stale oldConfig oldPhone m = true := by decide +kernel
  have hrest : (stalePage.drop (kMaxCountDispatchOnce * 1)).length = 1 := by decide +kernel
  have hdrains := hclaim oldConfig oldPhone stalePage hids (by decide)
  have hnil := (batch_drains_iff (by decide) hids (Or.inl (by decide))).mp hdrains 0 hpage
  rw [hnil] at hrest
  cases hrest

end BcmServer.Dispatcher
