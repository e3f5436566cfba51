import BcmServer.Dispatcher.Drain

/-!
# BcmServer.Dispatcher.DrainBatch — draining in batches

A batch chain has one fiber at a time, and `BatchAt` says where on its way
through the mailbox it is: on which page, what is left and what was delivered.
It ends behind the first page with no fresh message, or behind the last page
(`batchAt_ended`), which gives `batch_drains_iff`: the mailbox drains iff there
is nothing behind a page of stale messages only.
-/

namespace BcmServer.Dispatcher

open BcmServer.Util BcmServer.Lts

variable {cfg : EncryptSenderConfig} {d : Device} {rows : List StoredMessage}

/-- `hasMore` of page `j`. -/
def fullPage (rows : List StoredMessage) (j : ℕ) : Bool :=
  (page rows j).length ≥ kMaxCountDispatchOnce

/-- Where a batch chain is on page `j`: the mailbox, the deliveries so far and
the one fiber. -/
inductive BatchAt (cfg : EncryptSenderConfig) (d : Device) (rows : List StoredMessage) (j : ℕ) :
    List StoredMessage → List StoredMessage → List StoredTask → Prop where
  | ready (k : StoredTask) (hk : k = .start ∨ k = .batchPrepare) :
      BatchAt cfg d rows j (rows.drop (kMaxCountDispatchOnce * j))
        ((rows.take (kMaxCountDispatchOnce * j)).filter (fresh cfg d)) [k]
  | scanning (seen todo : List StoredMessage) (hpage : page rows j = seen ++ todo) :
      BatchAt cfg d rows j (rows.drop (kMaxCountDispatchOnce * j))
        ((rows.take (kMaxCountDispatchOnce * j)).filter (fresh cfg d))
        [.batchScan d (fullPage rows j) todo (seen.filter (stale cfg d)) (seen.filter (fresh cfg d))]
  | scanned :
      BatchAt cfg d rows j (rows.drop (kMaxCountDispatchOnce * j))
        ((rows.take (kMaxCountDispatchOnce * j)).filter (fresh cfg d))
        [.batchDelete d (fullPage rows j) ((page rows j).filter (stale cfg d))
          ((page rows j).filter (fresh cfg d))]
  | sent (hfresh : (page rows j).filter (fresh cfg d) ≠ []) :
      BatchAt cfg d rows j
        ((page rows j).filter (fresh cfg d) ++ rows.drop (kMaxCountDispatchOnce * (j + 1)))
        ((rows.take (kMaxCountDispatchOnce * j)).filter (fresh cfg d))
        [.batchAwait (fullPage rows j) ((page rows j).filter (fresh cfg d))]
  | answered (status : UInt32) (hok : successful status = true)
      (hfresh : (page rows j).filter (fresh cfg d) ≠ []) :
      BatchAt cfg d rows j
        ((page rows j).filter (fresh cfg d) ++ rows.drop (kMaxCountDispatchOnce * (j + 1)))
        ((rows.take (kMaxCountDispatchOnce * (j + 1))).filter (fresh cfg d))
        [.batchAnswered (fullPage rows j) ((page rows j).filter (fresh cfg d)) status]
  | ended (hlast : rows.drop (kMaxCountDispatchOnce * (j + 1)) = [] ∨
        (page rows j).filter (fresh cfg d) = []) :
      BatchAt cfg d rows j (rows.drop (kMaxCountDispatchOnce * (j + 1)))
        ((rows.take (kMaxCountDispatchOnce * (j + 1))).filter (fresh cfg d)) []

/-- A batch chain is on page `j`, and every page before had a fresh message. -/
def BatchInv (cfg : EncryptSenderConfig) (d : Device) (rows : List StoredMessage)
    (p : Pool Mailroom StoredTask) : Prop :=
  ∃ j, (∀ i < j, (page rows i).filter (fresh cfg d) ≠ []) ∧
    BatchAt cfg d rows j p.shared.mailbox (deliveries p.shared.log) p.calls

theorem filter_fresh_take_succ (j : ℕ) :
    (rows.take (kMaxCountDispatchOnce * (j + 1))).filter (fresh cfg d) =
      (rows.take (kMaxCountDispatchOnce * j)).filter (fresh cfg d) ++
        (page rows j).filter (fresh cfg d) := by
  rw [take_succ_page, List.filter_append]

/-- What a step of the batch chain leads to: on page `j`, or from it to the next
one, and then with fewer messages. -/
structure BatchMove (cfg : EncryptSenderConfig) (d : Device) (rows : List StoredMessage) (j : ℕ)
    (s : Mailroom) (r : Mailroom × List StoredTask) : Prop where
  position : BatchAt cfg d rows j r.1.mailbox (deliveries r.1.log) r.2 ∨
    (page rows j).filter (fresh cfg d) ≠ [] ∧
      BatchAt cfg d rows (j + 1) r.1.mailbox (deliveries r.1.log) r.2
  shrinks : StoredTask.start ∈ r.2 → r.1.mailbox.length < s.mailbox.length

section Moves

variable {j : ℕ} {s : Mailroom} {e : Reply} (he : Obliges (some d) e)

include he

theorem batchMove_ready {k : StoredTask} (hk : k = .start ∨ k = .batchPrepare)
    (hbatch : isSupportDispatchBatch (some d) = true)
    (hbox : s.mailbox = rows.drop (kMaxCountDispatchOnce * j))
    (hdel : deliveries s.log = (rows.take (kMaxCountDispatchOnce * j)).filter (fresh cfg d)) :
    BatchMove cfg d rows j s (storedNext cfg s k e) := by
  rcases hk with rfl | rfl
  · refine ⟨Or.inl ?_, ?_⟩
    · simp only [storedNext, he.session, hbatch, if_true, hbox, hdel]
      exact .ready _ (Or.inr rfl)
    · simp [storedNext, he.session, hbatch]
  · have hget : s.get = (page rows j, fullPage rows j) := by
      simp only [Mailroom.get, hbox, page, fullPage]
      rfl
    refine ⟨Or.inl ?_, ?_⟩
    · by_cases hpage : page rows j = []
      · -- the mailbox is empty: the chain ends here
        have hnil : rows.drop (kMaxCountDispatchOnce * (j + 1)) = [] := by
          apply drop_eq_nil_of_short
          rw [hpage]
          decide
        have hend : BatchAt cfg d rows j _ _ [] := .ended (Or.inl hnil)
        rw [filter_fresh_take_succ, hpage, List.filter_nil, List.append_nil] at hend
        simp only [storedNext, he.session, hget, hpage, hbox, hdel, ne_eq, not_true_eq_false,
          decide_false, Bool.and_false, Bool.false_eq_true, if_false]
        rw [drop_eq_page_append, hpage, List.nil_append]
        exact hend
      · simp only [storedNext, he.session, hget, he.dao, hbox, hdel, ne_eq, hpage,
          not_false_eq_true, decide_true, Bool.and_true, if_true]
        exact .scanning [] (page rows j) rfl
    · simp only [storedNext, he.session]
      split <;> simp

theorem batchMove_scanning {seen todo : List StoredMessage} (hpage : page rows j = seen ++ todo)
    (hbox : s.mailbox = rows.drop (kMaxCountDispatchOnce * j))
    (hdel : deliveries s.log = (rows.take (kMaxCountDispatchOnce * j)).filter (fresh cfg d)) :
    BatchMove cfg d rows j s (storedNext cfg s (.batchScan d (fullPage rows j) todo
      (seen.filter (stale cfg d)) (seen.filter (fresh cfg d))) e) := by
  cases todo with
  | nil =>
      rw [List.append_nil] at hpage
      refine ⟨Or.inl ?_, by simp [storedNext]⟩
      simp only [storedNext, hbox, hdel, ← hpage]
      exact .scanned
  | cons m todo =>
      have hpage' : page rows j = (seen ++ [m]) ++ todo := by simpa using hpage
      have hnext : BatchAt cfg d rows j _ _ _ := .scanning (seen ++ [m]) todo hpage'
      rw [List.filter_append, List.filter_append] at hnext
      by_cases hm : stale cfg d m = true
      · have hr : sendReceipt (convert m).type e ≠ .failed := sendReceipt_obliging he _
        have hm' : isMessageStaleAndClientObsolete (some d) cfg m = true := hm
        refine ⟨Or.inl ?_, by simp [storedNext, he.session, hm']⟩
        simp only [storedNext, he.session, hm', if_true, hr, if_false, deliveries_stale]
        rw [show (s.write _).mailbox = s.mailbox from rfl, hbox, hdel]
        simpa [hm, fresh] using hnext
      · have hm' : isMessageStaleAndClientObsolete (some d) cfg m = false :=
          Bool.eq_false_iff.mpr hm
        refine ⟨Or.inl ?_, by simp [storedNext, he.session, hm']⟩
        simp only [storedNext, he.session, hm', Bool.false_eq_true, if_false, hbox, hdel]
        simpa [hm, fresh] using hnext

theorem batchMove_scanned (hids : (s.mailbox.map StoredMessage.id).Nodup)
    (hkey : d.encrypts = true ∨ ∀ m ∈ rows, stale cfg d m = true)
    (hbox : s.mailbox = rows.drop (kMaxCountDispatchOnce * j))
    (hdel : deliveries s.log = (rows.take (kMaxCountDispatchOnce * j)).filter (fresh cfg d)) :
    BatchMove cfg d rows j s (storedNext cfg s (.batchDelete d (fullPage rows j)
      ((page rows j).filter (stale cfg d)) ((page rows j).filter (fresh cfg d))) e) := by
  rw [drop_eq_page_append] at hbox
  -- the stale messages are gone
  have hmail : (if (page rows j).filter (stale cfg d) = [] then s
      else s.del e.daoOk ((page rows j).filter (stale cfg d))).mailbox =
      (page rows j).filter (fresh cfg d) ++ rows.drop (kMaxCountDispatchOnce * (j + 1)) := by
    split
    · rename_i hnone
      rw [hbox, List.filter_eq_self.mpr]
      intro m hm
      have hnot : ¬ stale cfg d m = true := fun hst =>
        List.filter_eq_nil_iff.mp hnone m hm hst
      simpa [fresh] using hnot
    · exact mailbox_del_filter he.dao hbox hids
  have hlog : deliveries (if (page rows j).filter (stale cfg d) = [] then s
      else s.del e.daoOk ((page rows j).filter (stale cfg d))).log = deliveries s.log := by
    split
    · rfl
    · rw [deliveries_del]
  by_cases hfresh : (page rows j).filter (fresh cfg d) = []
  · -- no fresh message on the page: the chain ends here
    refine ⟨Or.inl ?_, by simp [storedNext, hfresh]⟩
    have hend : BatchAt cfg d rows j _ _ [] := .ended (Or.inr hfresh)
    rw [filter_fresh_take_succ, hfresh, List.append_nil] at hend
    rw [hfresh, List.nil_append] at hmail
    simp only [storedNext, hfresh, if_true, hmail, hlog, hdel]
    exact hend
  · have henc : d.encrypts = true := by
      rcases hkey with henc | hall
      · exact henc
      · exfalso
        apply hfresh
        rw [List.filter_eq_nil_iff]
        intro m hm
        simp [fresh, hall m (mem_of_mem_page hm)]
    refine ⟨Or.inl ?_, by simp [storedNext, hfresh, henc]⟩
    simp only [storedNext, hfresh, if_false, henc, if_true, hmail, hlog, hdel]
    exact .sent hfresh

theorem batchMove_sent (hfresh : (page rows j).filter (fresh cfg d) ≠ [])
    (hbox : s.mailbox =
      (page rows j).filter (fresh cfg d) ++ rows.drop (kMaxCountDispatchOnce * (j + 1)))
    (hdel : deliveries s.log = (rows.take (kMaxCountDispatchOnce * j)).filter (fresh cfg d)) :
    BatchMove cfg d rows j s (storedNext cfg s (.batchAwait (fullPage rows j)
      ((page rows j).filter (fresh cfg d))) e) := by
  refine ⟨Or.inl ?_, by simp [storedNext]⟩
  simp only [storedNext, deliveries_answered he.status, hdel, ← filter_fresh_take_succ]
  rw [show (s.write _).mailbox = s.mailbox from rfl, hbox]
  exact .answered e.status he.status hfresh

theorem batchMove_answered {status : UInt32} (hok : successful status = true)
    (hids : (s.mailbox.map StoredMessage.id).Nodup)
    (hfresh : (page rows j).filter (fresh cfg d) ≠ [])
    (hbox : s.mailbox =
      (page rows j).filter (fresh cfg d) ++ rows.drop (kMaxCountDispatchOnce * (j + 1)))
    (hdel : deliveries s.log =
      (rows.take (kMaxCountDispatchOnce * (j + 1))).filter (fresh cfg d)) :
    BatchMove cfg d rows j s (storedNext cfg s (.batchAnswered (fullPage rows j)
      ((page rows j).filter (fresh cfg d)) status) e) := by
  -- the answered messages are gone
  have hmail : (s.del e.daoOk ((page rows j).filter (fresh cfg d))).mailbox =
      rows.drop (kMaxCountDispatchOnce * (j + 1)) := by
    have h := mailbox_del_filter (P := fun _ => true) he.dao hbox hids
    simpa using h
  cases hmore : fullPage rows j with
  | true =>
      constructor
      · right
        refine ⟨hfresh, ?_⟩
        simp only [storedNext, he.session, hok, if_true, hmail, deliveries_del, hdel]
        exact .ready _ (Or.inl rfl)
      · intro _
        simp only [storedNext, he.session, hok, if_true, hmail]
        rw [hbox, List.length_append]
        have hpos := List.length_pos_iff.mpr hfresh
        omega
  | false =>
      have hshort : (page rows j).length < kMaxCountDispatchOnce := by
        simpa [fullPage] using hmore
      refine ⟨Or.inl ?_, by simp [storedNext, he.session, hok]⟩
      simp only [storedNext, he.session, hok, if_true, hmail, deliveries_del, hdel,
        Bool.false_eq_true, if_false]
      exact .ended (Or.inl (drop_eq_nil_of_short hshort))

/-- Every step of a batch chain. -/
theorem batchMove_next {k : StoredTask} (hbatch : isSupportDispatchBatch (some d) = true)
    (hids : (s.mailbox.map StoredMessage.id).Nodup)
    (hkey : d.encrypts = true ∨ ∀ m ∈ rows, stale cfg d m = true)
    (hat : BatchAt cfg d rows j s.mailbox (deliveries s.log) [k]) :
    BatchMove cfg d rows j s (storedNext cfg s k e) := by
  generalize hbox : s.mailbox = box at hat
  generalize hdel : deliveries s.log = del at hat
  cases hat with
  | ready k hk => exact batchMove_ready he hk hbatch hbox hdel
  | scanning seen todo hpage => exact batchMove_scanning he hpage hbox hdel
  | scanned => exact batchMove_scanned he hids hkey hbox hdel
  | sent hfresh => exact batchMove_sent he hfresh hbox hdel
  | answered status hok hfresh => exact batchMove_answered he hok hids hfresh hbox hdel

end Moves

/-- The mailbox of a batch chain is a part of what it began with. -/
theorem batchAt_sublist {j : ℕ} {box del : List StoredMessage} {calls : List StoredTask}
    (h : BatchAt cfg d rows j box del calls) : box.Sublist rows := by
  have hpage : (page rows j ++ rows.drop (kMaxCountDispatchOnce * (j + 1))).Sublist rows := by
    rw [← drop_eq_page_append]
    exact List.drop_sublist _ _
  cases h with
  | ready | scanning | scanned | ended => exact List.drop_sublist _ _
  | sent | answered => exact (List.filter_sublist.append_right _).trans hpage

/-- A batch chain has at most one fiber. -/
theorem batchAt_length {j : ℕ} {box del : List StoredMessage} {calls : List StoredTask}
    (h : BatchAt cfg d rows j box del calls) : calls.length ≤ 1 := by
  cases h <;> simp

/-- Where a batch chain has ended. -/
theorem batchAt_ended {j : ℕ} {box del : List StoredMessage} (h : BatchAt cfg d rows j box del []) :
    box = rows.drop (kMaxCountDispatchOnce * (j + 1)) ∧
    del = (rows.take (kMaxCountDispatchOnce * (j + 1))).filter (fresh cfg d) ∧
    (rows.drop (kMaxCountDispatchOnce * (j + 1)) = [] ∨
      (page rows j).filter (fresh cfg d) = []) := by
  cases h with
  | ended hlast => exact ⟨rfl, rfl, hlast⟩

theorem batchInv_step {p q : Pool Mailroom StoredTask} {k : StoredTask} {rest : List StoredTask}
    {e : Reply} (hbatch : isSupportDispatchBatch (some d) = true)
    (hids : (rows.map StoredMessage.id).Nodup)
    (hkey : d.encrypts = true ∨ ∀ m ∈ rows, stale cfg d m = true) (he : Obliges (some d) e)
    (hinv : BatchInv cfg d rows p) (hp : p.calls.Perm (k :: rest))
    (hs : q.shared = (storedNext cfg p.shared k e).1)
    (hq : q.calls.Perm ((storedNext cfg p.shared k e).2 ++ rest)) :
    BatchInv cfg d rows q ∧ drainRank q < drainRank p := by
  rcases hinv with ⟨j, hbefore, hat⟩
  -- the chain has one fiber, so that is the one that steps
  have hone : p.calls = [k] ∧ rest = [] := by
    have hlen : p.calls.length ≤ 1 := batchAt_length hat
    rw [hp.length_eq, List.length_cons] at hlen
    have hrest : rest = [] := List.eq_nil_of_length_eq_zero (by omega)
    rw [hrest] at hp
    exact ⟨List.perm_singleton.mp hp, hrest⟩
  rcases hone with ⟨hcalls, rfl⟩
  rw [hcalls] at hat
  have hboxids : (p.shared.mailbox.map StoredMessage.id).Nodup :=
    hids.sublist ((batchAt_sublist hat).map _)
  have hmove := batchMove_next he hbatch hboxids hkey hat
  rw [List.append_nil] at hq
  have hqcalls : q.calls = (storedNext cfg p.shared k e).2 := by
    have hle : (storedNext cfg p.shared k e).2.length ≤ 1 := by
      rcases hmove.position with h | ⟨-, h⟩ <;> exact batchAt_length h
    match hks : (storedNext cfg p.shared k e).2, hle with
    | [], _ =>
        rw [hks] at hq
        exact List.perm_nil.mp hq
    | [k'], _ =>
        rw [hks] at hq
        exact List.perm_singleton.mp hq
  constructor
  · rcases hmove.position with h | ⟨hfresh, h⟩
    · exact ⟨j, hbefore, by rw [hs, hqcalls]; exact h⟩
    · refine ⟨j + 1, fun i hi => ?_, by rw [hs, hqcalls]; exact h⟩
      rcases Nat.lt_succ_iff_lt_or_eq.mp hi with hi | rfl
      · exact hbefore i hi
      · exact hfresh
  · refine drainRank_next hp hs (by rwa [List.append_nil]) fun hstart => ?_
    rw [hs]
    exact hmove.shrinks hstart

theorem batchInv_init : BatchInv cfg d rows (drainInit rows) := by
  refine ⟨0, fun i hi => absurd hi (Nat.not_lt_zero i), ?_⟩
  exact .ready .start (Or.inl rfl)

theorem batch_drains_iff (hbatch : isSupportDispatchBatch (some d) = true)
    (hids : (rows.map StoredMessage.id).Nodup)
    (hkey : d.encrypts = true ∨ ∀ m ∈ rows, stale cfg d m = true) :
    Drains cfg (some d) rows ↔
      ∀ j, (∀ m ∈ page rows j, stale cfg d m = true) →
        rows.drop (kMaxCountDispatchOnce * (j + 1)) = [] := by
  have hnone : ∀ j, (∀ m ∈ page rows j, stale cfg d m = true) ↔
      (page rows j).filter (fresh cfg d) = [] := by
    intro j
    rw [List.filter_eq_nil_iff]
    simp [fresh]
  constructor
  · intro hdrains j hstale
    rcases hdrains.ends with ⟨bs, q, hrun, hok, hdone, hmail, -⟩
    have hinv : BatchInv cfg d rows q := by
      refine drain_invariant (BatchInv cfg d rows) ?_ batchInv_init hrun hok
      intro p q k rest e he hinv hp hs hq
      exact (batchInv_step hbatch hids hkey he hinv hp hs hq).1
    rcases hinv with ⟨i, hbefore, hat⟩
    rw [hdone, hmail] at hat
    have hnil : rows.length ≤ kMaxCountDispatchOnce * (i + 1) :=
      List.drop_eq_nil_iff.mp (batchAt_ended hat).1.symm
    -- the chain does not get past page `j`
    have hij : i ≤ j := by
      by_contra hlt
      exact hbefore j (by omega) ((hnone j).mp hstale)
    rw [List.drop_eq_nil_iff]
    exact hnil.trans (Nat.mul_le_mul_left _ (by omega))
  · intro hcond
    refine drains_of_invariant (BatchInv cfg d rows) ?_ batchInv_init ?_
    · intro p q k rest e he hinv hp hs hq
      exact batchInv_step hbatch hids hkey he hinv hp hs hq
    · rintro p ⟨j, -, hat⟩ hdone
      rw [hdone] at hat
      rcases batchAt_ended hat with ⟨hbox, hdel, hlast⟩
      have hnil : rows.drop (kMaxCountDispatchOnce * (j + 1)) = [] := by
        rcases hlast with hnil | hnofresh
        · exact hnil
        · exact hcond j ((hnone j).mpr hnofresh)
      refine ⟨hbox.trans hnil, ?_⟩
      intro m hm hfresh
      rw [hdel, List.take_of_length_le (List.drop_eq_nil_iff.mp hnil)]
      exact count_fresh hids hm hfresh

end BcmServer.Dispatcher
