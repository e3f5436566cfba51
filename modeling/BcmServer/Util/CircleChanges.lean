import BcmServer.Util.ConsistentHash
import Mathlib.Data.Set.Insert
import Mathlib.Data.List.Sort
import Mathlib.Data.List.TakeWhile

/-!
# BcmServer.Util.CircleChanges — what moves when a server comes or goes

Seen from the hash of a key, `GetServer` takes the point at the least clockwise
distance: the wrap-around of the circle is the wrap-around of the subtraction. The
point of a key then changes only if a nearer one is added or the point itself is
removed.

* `Holds c S`: the circle has the points of the servers in `S`. There is one such
  circle (`Holds.unique`), and `AddServer` and `RemoveServer`, which build their
  buffers differently, go from one to another.
* `servers_change`: what a server that comes or goes changes.
-/

namespace BcmServer.Util

namespace HashCircle

/-- `server_circle.erase(k)` -/
def erase (k : UInt32) (c : HashCircle) : HashCircle := c.filter fun e => e.1 ≠ k

/-- The bytes of `hashbuf` in `RemoveServer`: the name as it is, and the index after it. A name of
more than 46 bytes goes beyond the buffer. -/
def removeHashbuf (name : Bytes) (i : ℕ) : Bytes :=
  name ++ [UInt8.ofNat i, UInt8.ofNat (i / 2 ^ 8), UInt8.ofNat (i / 2 ^ 16),
    UInt8.ofNat (i / 2 ^ 24)] ++ List.replicate (46 - name.length) 0

/-- `UserConsistentFnvHash::RemoveServer` -/
def removeServer (c : HashCircle) (name : Bytes) : HashCircle :=
  (List.range numberOfReplicas).foldl (fun c i => c.erase (fnvHash (removeHashbuf name i))) c

/-- `AddServer` calls on a new circle -/
def ofServers (names : List Bytes) : HashCircle := names.foldl addServer []

/-- The places of a server -/
def points (name : Bytes) : List UInt32 :=
  (List.range numberOfReplicas).map fun i => fnvHash (hashbuf name i)

/-- A name that goes into the buffer as it is -/
def FitsBuffer (name : Bytes) : Prop := name.length ≤ 46 ∧ 0 ∉ name

instance (name : Bytes) : Decidable (FitsBuffer name) := inferInstanceAs (Decidable (_ ∧ _))

/-- The points of different servers do not collide. -/
def Separate (S : Set Bytes) : Prop :=
  ∀ n ∈ S, ∀ m ∈ S, n ≠ m → ∀ k ∈ points n, k ∉ points m

/-- The keys of a map -/
abbrev Sorted (c : HashCircle) : Prop := c.Pairwise fun e e' => e.1 < e'.1

variable {c c' : HashCircle} {k : UInt32} {name s : Bytes} {e : UInt32 × Bytes} {S : Set Bytes}

/-! ## The buffers -/

/-- Both functions hash the same bytes. -/
theorem removeHashbuf_eq (h : FitsBuffer name) (i : ℕ) : removeHashbuf name i = hashbuf name i := by
  obtain ⟨hlen, hnul⟩ := h
  have hcstr : (name.takeWhile (· ≠ 0)).take 49 = name := by
    rw [List.takeWhile_eq_self_iff.mpr, List.take_of_length_le (by omega)]
    intro b hb
    have hne : b ≠ 0 := fun hzero => hnul (hzero ▸ hb)
    simpa using hne
  have hrest : (List.replicate (50 - name.length) (0 : UInt8)).drop 4 =
      List.replicate (46 - name.length) 0 := by
    rw [List.drop_replicate, show 50 - name.length - 4 = 46 - name.length by omega]
  simp only [removeHashbuf, hashbuf, hcstr, Nat.min_eq_left hlen, List.take_left, hrest,
    List.drop_append, List.drop_of_length_le (Nat.le_add_right _ 4), Nat.add_sub_cancel_left,
    List.nil_append]

/-! ## Adding and removing points -/

theorem mem_insert_iff (h : Sorted c) {v : Bytes} :
    e ∈ c.insert k v ↔ e = (k, v) ∨ (e ∈ c ∧ e.1 ≠ k) := by
  induction c with
  | nil => simp [insert]
  | cons x c ih =>
      obtain ⟨hfirst, hrest⟩ := List.pairwise_cons.mp h
      simp only [insert]
      split
      · next hlt =>
        have hne : ∀ y ∈ x :: c, y.1 ≠ k := by
          intro y hy
          rcases List.mem_cons.mp hy with rfl | hy
          · exact (UInt32.ne_of_lt hlt).symm
          · exact (UInt32.ne_of_lt (UInt32.lt_trans hlt (hfirst y hy))).symm
        rw [List.mem_cons]
        exact or_congr_right ⟨fun he => ⟨he, hne e he⟩, And.left⟩
      · split
        · next heq =>
          have hne : ∀ y ∈ c, y.1 ≠ k := fun y hy => heq ▸ (UInt32.ne_of_lt (hfirst y hy)).symm
          rw [List.mem_cons, List.mem_cons]
          refine or_congr_right ⟨fun he => ⟨Or.inr he, hne e he⟩, ?_⟩
          rintro ⟨rfl | he, hk⟩
          · exact absurd heq.symm hk
          · exact he
        · next heq =>
          rw [List.mem_cons, List.mem_cons, ih hrest]
          constructor
          · rintro (rfl | rfl | ⟨he, hk⟩)
            · exact Or.inr ⟨Or.inl rfl, fun hk => heq hk.symm⟩
            · exact Or.inl rfl
            · exact Or.inr ⟨Or.inr he, hk⟩
          · rintro (rfl | ⟨rfl | he, hk⟩)
            · exact Or.inr (Or.inl rfl)
            · exact Or.inl rfl
            · exact Or.inr (Or.inr ⟨he, hk⟩)

theorem sorted_insert (h : Sorted c) (k : UInt32) (v : Bytes) : Sorted (c.insert k v) := by
  induction c with
  | nil => exact List.pairwise_singleton _ _
  | cons x c ih =>
      obtain ⟨hfirst, hrest⟩ := List.pairwise_cons.mp h
      simp only [insert]
      split
      · next hlt =>
        refine List.pairwise_cons.mpr ⟨fun y hy => ?_, h⟩
        rcases List.mem_cons.mp hy with rfl | hy
        · exact hlt
        · exact UInt32.lt_trans hlt (hfirst y hy)
      · split
        · next heq => exact List.pairwise_cons.mpr ⟨fun y hy => heq ▸ hfirst y hy, hrest⟩
        · next hnlt hne =>
          refine List.pairwise_cons.mpr ⟨fun y hy => ?_, ih hrest⟩
          rcases (mem_insert_iff hrest).mp hy with rfl | ⟨hy, -⟩
          · exact UInt32.lt_of_le_of_ne (UInt32.not_lt.mp hnlt) fun heq => hne heq.symm
          · exact hfirst y hy

theorem foldl_insert (h : Sorted c) (is : List ℕ) :
    let r := is.foldl (fun c i => c.insert (fnvHash (hashbuf name i)) name) c
    Sorted r ∧ ∀ e, e ∈ r ↔ (e.2 = name ∧ e.1 ∈ is.map fun i => fnvHash (hashbuf name i)) ∨
      (e ∈ c ∧ e.1 ∉ is.map fun i => fnvHash (hashbuf name i)) := by
  induction is generalizing c with
  | nil => exact ⟨h, fun e => by simp⟩
  | cons i is ih =>
      obtain ⟨hsorted, hmem⟩ := ih (sorted_insert h (fnvHash (hashbuf name i)) name)
      refine ⟨hsorted, fun e => ?_⟩
      rw [List.foldl_cons, hmem e, mem_insert_iff h, List.map_cons, List.mem_cons, Prod.ext_iff]
      dsimp only
      tauto

theorem sorted_addServer (h : Sorted c) (name : Bytes) : Sorted (c.addServer name) :=
  (foldl_insert h _).1

theorem mem_addServer_iff (h : Sorted c) : e ∈ c.addServer name ↔
    (e.2 = name ∧ e.1 ∈ points name) ∨ (e ∈ c ∧ e.1 ∉ points name) :=
  (foldl_insert h _).2 e

theorem removeServer_eq (h : FitsBuffer name) (c : HashCircle) :
    c.removeServer name = c.filter fun e => e.1 ∉ points name := by
  have hfold : ∀ (is : List ℕ) (c : HashCircle),
      is.foldl (fun c i => c.erase (fnvHash (removeHashbuf name i))) c =
        c.filter fun e => e.1 ∉ is.map fun i => fnvHash (hashbuf name i) := by
    intro is
    induction is with
    | nil => intro c; simp
    | cons i is ih =>
        intro c
        rw [List.foldl_cons, ih, erase, List.filter_filter, removeHashbuf_eq h]
        refine List.filter_congr fun e _ => ?_
        simp only [List.map_cons, List.mem_cons, not_or, Bool.decide_and, Bool.and_comm, ne_eq]
  exact hfold _ c

/-! ## The circle of a set of servers -/

/-- The circle has the points of the servers in `S`, and no others. -/
structure Holds (c : HashCircle) (S : Set Bytes) : Prop where
  sorted : Sorted c
  mem_iff : ∀ e, e ∈ c ↔ e.2 ∈ S ∧ e.1 ∈ points e.2

theorem Separate.mono {T : Set Bytes} (h : Separate T) (hST : S ⊆ T) : Separate S :=
  fun n hn m hm => h n (hST hn) m (hST hm)

theorem Holds.nil : Holds [] ∅ := ⟨List.Pairwise.nil, fun e => by simp⟩

theorem Holds.addServer (h : Holds c S) (hsep : Separate (Set.insert s S)) :
    Holds (c.addServer s) (Set.insert s S) := by
  refine ⟨sorted_addServer h.sorted s, fun e => ?_⟩
  rw [mem_addServer_iff h.sorted, h.mem_iff]
  constructor
  · rintro (⟨hs, hpoint⟩ | ⟨⟨hmem, hpoint⟩, -⟩)
    · exact ⟨Or.inl hs, hs.symm ▸ hpoint⟩
    · exact ⟨Or.inr hmem, hpoint⟩
  · rintro ⟨hmem, hpoint⟩
    by_cases hs : e.2 = s
    · exact Or.inl ⟨hs, hs ▸ hpoint⟩
    · -- a point of another server is not overwritten: it is none of `s`
      have hold : e.2 ∈ S := hmem.resolve_left hs
      exact Or.inr ⟨⟨hold, hpoint⟩, hsep e.2 hmem s (Or.inl rfl) hs e.1 hpoint⟩

theorem Holds.removeServer (h : Holds c S) (hs : FitsBuffer s)
    (hsep : Separate (Set.insert s S)) : Holds (c.removeServer s) (S \ {s}) := by
  rw [removeServer_eq hs]
  refine ⟨h.sorted.filter _, fun e => ?_⟩
  rw [List.mem_filter, h.mem_iff, decide_eq_true_iff]
  constructor
  · rintro ⟨⟨hmem, hpoint⟩, hnot⟩
    exact ⟨⟨hmem, fun heq => hnot (Set.mem_singleton_iff.mp heq ▸ hpoint)⟩, hpoint⟩
  · rintro ⟨⟨hmem, hne⟩, hpoint⟩
    exact ⟨⟨hmem, hpoint⟩, hsep e.2 (Or.inr hmem) s (Or.inl rfl) hne e.1 hpoint⟩

/-- The circle is determined by its servers. -/
theorem Holds.unique (h : Holds c S) (h' : Holds c' S) : c = c' := by
  have hnodup : ∀ {d : HashCircle}, Sorted d → d.Nodup := fun hd =>
    hd.imp fun hlt heq => UInt32.ne_of_lt hlt (congrArg Prod.fst heq)
  have hperm : c.Perm c' := (List.perm_ext_iff_of_nodup (hnodup h.sorted) (hnodup h'.sorted)).mpr
    fun e => (h.mem_iff e).trans (h'.mem_iff e).symm
  refine hperm.eq_of_pairwise (fun e e' _ _ hlt hgt => ?_) h.sorted h'.sorted
  exact absurd hgt (UInt32.not_lt.mpr (UInt32.le_of_lt hlt))

theorem ofServers_concat (names : List Bytes) (n : Bytes) :
    ofServers (names ++ [n]) = (ofServers names).addServer n := by
  simp only [ofServers, List.foldl_append, List.foldl_cons, List.foldl_nil]

/-- Also where points collide, every point belongs to a server that has it. -/
theorem mem_ofServers (names : List Bytes) : Sorted (ofServers names) ∧
    ∀ e ∈ ofServers names, e.2 ∈ names ∧ e.1 ∈ points e.2 := by
  induction names using List.reverseRecOn with
  | nil => exact ⟨List.Pairwise.nil, fun e he => absurd he List.not_mem_nil⟩
  | append_singleton names n ih =>
      rw [ofServers_concat]
      refine ⟨sorted_addServer ih.1 n, fun e he => ?_⟩
      rcases (mem_addServer_iff ih.1).mp he with ⟨hn, hpoint⟩ | ⟨he, -⟩
      · exact ⟨List.mem_append_right names (List.mem_singleton.mpr hn), hn.symm ▸ hpoint⟩
      · exact ⟨List.mem_append_left [n] (ih.2 e he).1, (ih.2 e he).2⟩

theorem holds_ofServers {names : List Bytes} (hsep : Separate {n | n ∈ names}) :
    Holds (ofServers names) {n | n ∈ names} := by
  have hfold : ∀ (l : List Bytes) (c : HashCircle) (S : Set Bytes), Holds c S →
      Separate ({n | n ∈ l} ∪ S) → Holds (l.foldl HashCircle.addServer c) ({n | n ∈ l} ∪ S) := by
    intro l
    induction l with
    | nil => intro c S hc _; simpa using hc
    | cons n l ih =>
        intro c S hc hl
        have hset : {m | m ∈ n :: l} ∪ S = {m | m ∈ l} ∪ Set.insert n S := by
          ext m
          change (m ∈ n :: l ∨ m ∈ S) ↔ m ∈ l ∨ m = n ∨ m ∈ S
          rw [List.mem_cons, or_comm (a := m = n), or_assoc]
        have hcn : Holds (c.addServer n) (Set.insert n S) :=
          hc.addServer ((hset ▸ hl).mono Set.subset_union_right)
        rw [List.foldl_cons, hset]
        exact ih (c.addServer n) (Set.insert n S) hcn (hset ▸ hl)
  have h := hfold names [] ∅ Holds.nil (by rwa [Set.union_empty])
  rwa [Set.union_empty] at h

/-! ## The nearest point -/

/-- How far it is from `h` to `k`, clockwise -/
def clockwise (h k : UInt32) : ℕ := (k - h).toNat

theorem clockwise_of_le {h k : UInt32} (hle : h ≤ k) : clockwise h k = k.toNat - h.toNat :=
  UInt32.toNat_sub_of_le k h hle

theorem clockwise_of_lt {h k : UInt32} (hlt : k < h) :
    clockwise h k = 2 ^ 32 - h.toNat + k.toNat := by
  have hk := UInt32.lt_iff_toNat_lt.mp hlt
  have hh := h.toNat_lt
  rw [clockwise, UInt32.toNat_sub]
  omega

theorem clockwise_injective (h : UInt32) : Function.Injective (clockwise h) := by
  intro k k' heq
  have hsub : k - h = k' - h := UInt32.toNat_inj.mp heq
  simpa using hsub

theorem clockwise_fnvHash (key bs : Bytes) : clockwise (fnvHash key) (fnvHash bs) =
    (2 ^ 32 - fnvNat key + fnvNat bs) % 2 ^ 32 := by
  rw [clockwise, UInt32.toNat_sub, toNat_fnvHash, toNat_fnvHash]

/-- `GetServer` finds the server of the nearest point. -/
theorem getServer_nearest (h : Sorted c) (hne : c ≠ []) (key : Bytes) :
    ∃ e ∈ c, c.getServer key = e.2 ∧
      ∀ e' ∈ c, clockwise (fnvHash key) e.1 ≤ clockwise (fnvHash key) e'.1 := by
  obtain ⟨first, rest, rfl⟩ := List.exists_cons_of_ne_nil hne
  have hfirst : ∀ e' ∈ first :: rest, first.1.toNat ≤ e'.1.toNat := by
    intro e' he'
    rcases List.mem_cons.mp he' with rfl | he'
    · exact Nat.le_refl _
    · exact Nat.le_of_lt ((List.pairwise_cons.mp h).1 e' he')
  simp only [getServer]
  cases hfind : (first :: rest).find? fun e => fnvHash key ≤ e.1 with
  | none =>
      -- all points are before the key: the first one is the nearest, after the wrap-around
      have hbefore : ∀ e' ∈ first :: rest, e'.1 < fnvHash key := by
        intro e' he'
        simpa using List.find?_eq_none.mp hfind e' he'
      refine ⟨first, List.mem_cons_self, rfl, fun e' he' => ?_⟩
      rw [clockwise_of_lt (hbefore first List.mem_cons_self), clockwise_of_lt (hbefore e' he')]
      exact Nat.add_le_add_left (hfirst e' he') _
  | some e =>
      have hle : fnvHash key ≤ e.1 := by simpa using List.find?_some hfind
      refine ⟨e, List.mem_of_find?_eq_some hfind, rfl, fun e' he' => ?_⟩
      rw [clockwise_of_le hle]
      by_cases hle' : fnvHash key ≤ e'.1
      · -- the points before `e` are before the key
        rw [clockwise_of_le hle']
        refine Nat.sub_le_sub_right ?_ _
        obtain ⟨-, as, bs, happ, has⟩ := List.find?_eq_some_iff_append.mp hfind
        rw [happ] at he' h
        rcases List.mem_append.mp he' with he' | he'
        · exact absurd hle' (by simpa using has e' he')
        · rcases List.mem_cons.mp he' with rfl | he'
          · exact Nat.le_refl _
          · exact Nat.le_of_lt ((List.pairwise_cons.mp (List.pairwise_append.mp h).2.1).1 e' he')
      · rw [clockwise_of_lt (UInt32.not_le.mp hle')]
        have he := e.1.toNat_lt
        have hk := (fnvHash key).toNat_lt
        omega

/-- There is one nearest point. -/
theorem getServer_of_nearest (h : Sorted c) {key : Bytes} (he : e ∈ c)
    (hnear : ∀ e' ∈ c, clockwise (fnvHash key) e.1 ≤ clockwise (fnvHash key) e'.1) :
    c.getServer key = e.2 := by
  obtain ⟨e', he', hserver, hnear'⟩ := getServer_nearest h (List.ne_nil_of_mem he) key
  have hkey : e.1 = e'.1 :=
    clockwise_injective _ (Nat.le_antisymm (hnear e' he') (hnear' e he))
  have hkeys : (c.map Prod.fst).Nodup :=
    List.pairwise_map.mpr (h.imp fun hlt => UInt32.ne_of_lt hlt)
  rw [hserver, List.inj_on_of_nodup_map hkeys he he' hkey]

/-! ## Servers that come and go -/

theorem getServer_nil (key : Bytes) : getServer [] key = [] := rfl

/-- A point that stays the nearest keeps the key. -/
theorem getServer_eq_of_subset (h : Sorted c) (h' : Sorted c') {key : Bytes} (he : e ∈ c)
    (hsub : ∀ e' ∈ c, e' ∈ c') (hserver : e ∈ c' ∧
      ∀ e' ∈ c', clockwise (fnvHash key) e.1 ≤ clockwise (fnvHash key) e'.1) :
    c'.getServer key = c.getServer key := by
  rw [getServer_of_nearest h' hserver.1 hserver.2,
    getServer_of_nearest h he fun e' he' => hserver.2 e' (hsub e' he')]

/-- A new server takes keys for itself only. -/
theorem Holds.getServer_addServer (h : Holds c S) (hsep : Separate (Set.insert s S))
    (key : Bytes) :
    (c.addServer s).getServer key = c.getServer key ∨ (c.addServer s).getServer key = s := by
  have hnew := h.addServer hsep
  obtain ⟨e, he, hserver, hnear⟩ := getServer_nearest hnew.sorted (addServer_ne_nil c s) key
  obtain ⟨hmem, hpoint⟩ := (hnew.mem_iff e).mp he
  rcases hmem with hs | hold
  · exact Or.inr (hserver.trans hs)
  · -- the nearest point was there before
    refine Or.inl (getServer_eq_of_subset h.sorted hnew.sorted ((h.mem_iff e).mpr ⟨hold, hpoint⟩)
      (fun e' he' => ?_) ⟨he, hnear⟩)
    obtain ⟨hmem', hpoint'⟩ := (h.mem_iff e').mp he'
    exact (hnew.mem_iff e').mpr ⟨Or.inr hmem', hpoint'⟩

/-- The keys of the others stay where they are when a server leaves. -/
theorem Holds.getServer_removeServer (h : Holds c S) (hs : FitsBuffer s)
    (hsep : Separate (Set.insert s S)) {key : Bytes} (hkey : c.getServer key ≠ s) :
    (c.removeServer s).getServer key = c.getServer key := by
  have hleft := h.removeServer hs hsep
  by_cases hnil : c = []
  · have hempty : c.removeServer s = [] := by rw [removeServer_eq hs, hnil, List.filter_nil]
    rw [hempty, hnil]
  · obtain ⟨e, he, hserver, hnear⟩ := getServer_nearest h.sorted hnil key
    obtain ⟨hmem, hpoint⟩ := (h.mem_iff e).mp he
    have hstays : e ∈ c.removeServer s :=
      (hleft.mem_iff e).mpr ⟨⟨hmem, fun heq => hkey (hserver.trans heq)⟩, hpoint⟩
    refine (getServer_eq_of_subset hleft.sorted h.sorted hstays (fun e' he' => ?_)
      ⟨he, hnear⟩).symm
    obtain ⟨⟨hmem', -⟩, hpoint'⟩ := (hleft.mem_iff e').mp he'
    exact (h.mem_iff e').mpr ⟨hmem', hpoint'⟩

theorem points_ne_nil (name : Bytes) : points name ≠ [] := by
  simp [points, numberOfReplicas]

theorem Holds.ne_nil (h : Holds c S) {n : Bytes} (hn : n ∈ S) : c ≠ [] := by
  obtain ⟨k, hk⟩ := List.exists_mem_of_ne_nil _ (points_ne_nil n)
  exact List.ne_nil_of_mem ((h.mem_iff (k, n)).mpr ⟨hn, hk⟩)

/-- A circle of servers whose points do not collide. A server that is added takes keys only for
itself; one that is removed has no key as long as a server is left (the empty circle answers with
the empty name), and the keys of the others stay; a new server that is removed again leaves the
circle as it was; and the order of the servers does not matter. A key is any text; a group's is the
eight bytes of its id. -/
theorem servers_change (names : List Bytes) (s : Bytes) (hs : FitsBuffer s)
    (hsep : Separate {n | n ∈ s :: names}) :
    let c := ofServers names
    (∀ key, (c.addServer s).getServer key = c.getServer key ∨
        (c.addServer s).getServer key = s) ∧
      ((∀ e ∈ c.removeServer s, e.2 ≠ s) ∧
        (s ≠ [] ∨ (∃ n ∈ names, n ≠ s) → ∀ key, (c.removeServer s).getServer key ≠ s) ∧
        ∀ key, c.getServer key ≠ s → (c.removeServer s).getServer key = c.getServer key) ∧
      (s ∉ names → (c.addServer s).removeServer s = c) ∧
      ∀ names' : List Bytes, names'.Perm names → ofServers names' = c := by
  intro c
  have hset : {n | n ∈ s :: names} = Set.insert s {n | n ∈ names} :=
    Set.ext fun n => List.mem_cons
  rw [hset] at hsep
  have hnames : Separate {n | n ∈ names} := hsep.mono fun n hn => Or.inr hn
  have hc : Holds c {n | n ∈ names} := holds_ofServers hnames
  have hleft := hc.removeServer hs hsep
  refine ⟨hc.getServer_addServer hsep, ⟨fun e he => ((hleft.mem_iff e).mp he).1.2, ?_,
    fun key => hc.getServer_removeServer hs hsep⟩, fun hnew => ?_, fun names' hperm => ?_⟩
  · intro hothers key heq
    -- an empty circle answers with the empty name
    by_cases hnil : c.removeServer s = []
    · rcases hothers with hs' | ⟨n, hn, hne⟩
      · rw [hnil, getServer_nil] at heq
        exact hs' heq.symm
      · exact hleft.ne_nil (n := n) ⟨hn, hne⟩ hnil
    · obtain ⟨e, he, hserver⟩ := getServer_mem hnil key
      exact ((hleft.mem_iff e).mp he).1.2 (hserver.trans heq)
  · have hback := (hc.addServer hsep).removeServer hs
      (hsep.mono (Set.insert_subset (Or.inl rfl) subset_rfl))
    have hsame : Set.insert s {n | n ∈ names} \ {s} = {n | n ∈ names} := by
      ext n
      constructor
      · rintro ⟨hn, hne⟩
        exact hn.resolve_left hne
      · intro hn
        exact ⟨Or.inr hn, fun heq => hnew (Set.mem_singleton_iff.mp heq ▸ hn)⟩
    rw [hsame] at hback
    exact hback.unique hc
  · have hsame : {n | n ∈ names'} = {n | n ∈ names} := Set.ext fun n => hperm.mem_iff
    have hc' : Holds (ofServers names') {n | n ∈ names'} := holds_ofServers (hsame ▸ hnames)
    rw [hsame] at hc'
    exact hc'.unique hc

/-- The server that was added last has the keys of which one of its points is the nearest. -/
theorem getServer_ofServers_concat {names : List Bytes} {n key : Bytes} {k : UInt32}
    (hk : k ∈ points n) (hnear : ∀ m ∈ names ++ [n], ∀ k' ∈ points m,
      clockwise (fnvHash key) k ≤ clockwise (fnvHash key) k') :
    (ofServers (names ++ [n])).getServer key = n := by
  have hlast : (k, n) ∈ ofServers (names ++ [n]) := by
    rw [ofServers_concat]
    exact (mem_addServer_iff (mem_ofServers names).1).mpr (Or.inl ⟨rfl, hk⟩)
  refine getServer_of_nearest (mem_ofServers _).1 hlast fun e he => ?_
  obtain ⟨hserver, hpoint⟩ := (mem_ofServers _).2 e he
  exact hnear e.2 hserver e.1 hpoint

/-- The points of a server mod 2^16, as the bits of a number -/
def pointBits (name : Bytes) : ℕ :=
  (List.range numberOfReplicas).foldl
    (fun bits i => bits ||| 1 <<< (fnvNat (hashbuf name i) % 2 ^ 16)) 0

theorem testBit_pointBits (h : k ∈ points name) :
    (pointBits name).testBit (k.toNat % 2 ^ 16) := by
  have hfold : ∀ (is : List ℕ) (bits j : ℕ),
      (bits.testBit j ∨ ∃ i ∈ is, fnvNat (hashbuf name i) % 2 ^ 16 = j) →
      (is.foldl (fun bits i => bits ||| 1 <<< (fnvNat (hashbuf name i) % 2 ^ 16))
        bits).testBit j := by
    intro is
    induction is with
    | nil =>
        intro bits j h
        simpa using h
    | cons i is ih =>
        intro bits j h
        refine ih _ j ?_
        rcases h with h | ⟨i', hi', hj⟩
        · exact Or.inl (by simp [h])
        · rcases List.mem_cons.mp hi' with rfl | hi'
          · exact Or.inl (by simp [← hj])
          · exact Or.inr ⟨i', hi', hj⟩
  obtain ⟨i, hi, rfl⟩ := List.mem_map.mp h
  rw [toNat_fnvHash]
  exact hfold _ 0 _ (Or.inr ⟨i, hi, rfl⟩)

/-- Servers without a common bit have no common point. -/
theorem points_disjoint {n m : Bytes} (h : pointBits n &&& pointBits m = 0) :
    ∀ k ∈ points n, k ∉ points m := by
  intro k hn hm
  have hboth : (pointBits n &&& pointBits m).testBit (k.toNat % 2 ^ 16) := by
    rw [Nat.testBit_and, testBit_pointBits hn, testBit_pointBits hm]
    rfl
  rw [h, Nat.zero_testBit] at hboth
  exact Bool.false_ne_true hboth

/-- Two servers whose points do not collide -/
theorem separate_pair {n m : Bytes} (h : ∀ k ∈ points n, k ∉ points m) :
    Separate {x | x ∈ [n, m]} := by
  intro x hx y hy hne k hk hk'
  have hx' : x = n ∨ x = m := by simpa using hx
  have hy' : y = n ∨ y = m := by simpa using hy
  rcases hx' with rfl | rfl <;> rcases hy' with rfl | rfl
  · exact hne rfl
  · exact h k hk hk'
  · exact h k hk' hk
  · exact hne rfl

theorem servers_change_two :
    let first := ascii ['1', '.', '1', '.', '1', '.', '1', ':', '8', '0']
    let second := ascii ['1', '.', '1', '.', '1', '.', '2', ':', '8', '0']
    ((ofServers [first]).addServer second).removeServer second = ofServers [first] :=
  (servers_change _ _ (by decide)
    (separate_pair (points_disjoint (by decide +kernel)))).2.2.1 (by decide)

end HashCircle

end BcmServer.Util
