import BcmServer.Util.Fitting
import BcmServer.Util.Table

/-!
# BcmServer.Store.FifoCache — the cache of what the store returns

`FIFOCache` keeps values up to a number of bytes. A map has the values, a list has
the keys in the order they came in, and a counter has the bytes. A new value drops
the oldest ones until there is room; a key that is there keeps its value. If the
three do not fit together all of them are cleared and an error is logged.

The list has pointers to the keys in the map; here it has the keys. A `size_t` is a
natural number: what is added up are the bytes of values that are in memory at once.

* `set_of_accepts`: what an insertion drops, and that the three fit together after it.
* `run_fifo`: after any calls nothing was cleared, and what is cached is the longest end
  of all that was inserted which the limit allows.
-/

namespace BcmServer.Store

open Util

variable {K V : Type} [DecidableEq K]

/-- `FIFOCache` -/
structure FIFOCache (K V : Type) where
  limit : ℕ
  size : ℕ := 0
  caches : Table K V := ∅
  sequence : List K := []
  /-- whether corrupted data were logged -/
  corrupted : Bool := false

namespace FIFOCache

variable (byteSizeLong : V → ℕ)

/-- `m_caches.clear(); m_sequence.clear(); m_size = 0;` -/
def cleared (c : FIFOCache K V) : FIFOCache K V :=
  { limit := c.limit, corrupted := true }

/-- The loop of `set` that makes room for `size` bytes; `sequence` is what is left of
`m_sequence`. -/
def dropOld (size : ℕ) (c : FIFOCache K V) : List K → FIFOCache K V
  | [] => { c with sequence := [] }
  | key :: sequence =>
      match c.caches.lookup key with
      | none => c.cleared
      | some value =>
          let s := byteSizeLong value
          let caches := c.caches.erase key
          if s > c.size then c.cleared
          else
            let c := { c with size := c.size - s, caches := caches }
            if size + c.size ≤ c.limit then { c with sequence := sequence }
            else dropOld size c sequence

/-- `FIFOCache::set` -/
def set (c : FIFOCache K V) (key : K) (value : V) : Bool × FIFOCache K V :=
  let size := byteSizeLong value
  if size > c.limit then (false, c)
  -- the value that is cached stays
  else if (c.caches.lookup key).isSome then (true, c)
  else
    let c := if size + c.size > c.limit then dropOld byteSizeLong size c c.sequence else c
    (true, { c with
      size := c.size + size
      caches := c.caches.insert key value
      sequence := c.sequence ++ [key] })

/-- `FIFOCache::get` -/
def get (c : FIFOCache K V) (key : K) : Option V := c.caches.lookup key

/-- The cached values in the order of their keys -/
def entries (c : FIFOCache K V) : List (K × V) :=
  c.sequence.filterMap fun key => (c.caches.lookup key).map fun value => (key, value)

/-- `ByteSizeLong` of a cached value -/
def entrySize (e : K × V) : ℕ := byteSizeLong e.2

/-- The map, the list and the counter fit together. -/
structure Consistent (c : FIFOCache K V) : Prop where
  nodup : c.sequence.Nodup
  mem_sequence : ∀ key, key ∈ c.sequence ↔ (c.caches.lookup key).isSome
  size_eq : c.size = total (entrySize byteSizeLong) c.entries
  size_le : c.size ≤ c.limit
  clean : c.corrupted = false

section Consistent

variable {byteSizeLong} {c : FIFOCache K V} {key : K} {value : V} {size : ℕ} {sequence : List K}

/-- The keys and the values are looked up in the map only. -/
theorem filterMap_erase (t : Table K V) (h : key ∉ sequence) :
    (sequence.filterMap fun k => ((t.erase key).lookup k).map fun v => (k, v)) =
      sequence.filterMap fun k => (t.lookup k).map fun v => (k, v) := by
  refine List.filterMap_congr fun k hk => ?_
  have hne : k ≠ key := fun heq => h (heq ▸ hk)
  rw [AList.lookup_erase_ne hne]

theorem filterMap_insert (t : Table K V) (h : key ∉ sequence) :
    (sequence.filterMap fun k => ((t.insert key value).lookup k).map fun v => (k, v)) =
      sequence.filterMap fun k => (t.lookup k).map fun v => (k, v) := by
  refine List.filterMap_congr fun k hk => ?_
  have hne : k ≠ key := fun heq => h (heq ▸ hk)
  rw [AList.lookup_insert_ne hne]

theorem consistent_empty (limit : ℕ) :
    Consistent byteSizeLong ({ limit := limit } : FIFOCache K V) where
  nodup := List.nodup_nil
  mem_sequence key := by simp [AList.lookup_empty]
  size_eq := rfl
  size_le := Nat.zero_le _
  clean := rfl

/-- The keys of the entries are those of the list. -/
theorem Consistent.keys_entries (h : c.Consistent byteSizeLong) :
    c.entries.map Prod.fst = c.sequence := by
  have hkeys : ∀ l : List K, (∀ k ∈ l, (c.caches.lookup k).isSome) →
      (l.filterMap fun k => (c.caches.lookup k).map fun v => (k, v)).map Prod.fst = l := by
    intro l hl
    induction l with
    | nil => rfl
    | cons k l ih =>
        obtain ⟨v, hv⟩ := Option.isSome_iff_exists.mp (hl k List.mem_cons_self)
        rw [List.filterMap_cons, hv]
        simpa using ih fun k hk => hl k (List.mem_cons_of_mem _ hk)
  exact hkeys c.sequence fun k hk => (h.mem_sequence k).mp hk

theorem Consistent.mem_entries (h : c.Consistent byteSizeLong) :
    (key, value) ∈ c.entries ↔ c.caches.lookup key = some value := by
  constructor
  · intro hmem
    obtain ⟨k, -, hk⟩ := List.mem_filterMap.mp hmem
    obtain ⟨v, hv, heq⟩ := Option.map_eq_some_iff.mp hk
    obtain ⟨rfl, rfl⟩ := Prod.mk.inj heq
    exact hv
  · intro hlookup
    refine List.mem_filterMap.mpr ⟨key, ?_, by rw [hlookup, Option.map_some]⟩
    rw [h.mem_sequence, hlookup, Option.isSome_some]

/-- The oldest entry is taken out. -/
theorem Consistent.pop (h : Consistent byteSizeLong { c with sequence := key :: sequence }) :
    ∃ value, c.caches.lookup key = some value ∧ byteSizeLong value ≤ c.size ∧
      entries { c with sequence := key :: sequence } =
        (key, value) :: entries { c with caches := c.caches.erase key, sequence := sequence } ∧
      Consistent byteSizeLong { c with
        size := c.size - byteSizeLong value
        caches := c.caches.erase key
        sequence := sequence } := by
  obtain ⟨hfirst, hnodup⟩ := List.nodup_cons.mp h.nodup
  have hcached : (c.caches.lookup key).isSome := (h.mem_sequence key).mp List.mem_cons_self
  obtain ⟨value, hvalue⟩ := Option.isSome_iff_exists.mp hcached
  have hentries : entries { c with sequence := key :: sequence } =
      (key, value) :: entries { c with caches := c.caches.erase key, sequence := sequence } := by
    simp only [entries, List.filterMap_cons, hvalue, Option.map_some, filterMap_erase _ hfirst]
  have hsize : c.size = byteSizeLong value + total (entrySize byteSizeLong)
      (entries { c with caches := c.caches.erase key, sequence := sequence }) := by
    have hsum := h.size_eq
    rwa [hentries, total_cons] at hsum
  refine ⟨value, hvalue, by omega, hentries, hnodup, fun k => ?_, ?_, ?_, h.clean⟩
  · by_cases hk : k = key
    · subst hk
      simp [hfirst]
    · have hmem := h.mem_sequence k
      simp only [List.mem_cons, hk, false_or] at hmem
      rw [AList.lookup_erase_ne hk]
      exact hmem
  · change c.size - byteSizeLong value = _
    rw [hsize, Nat.add_sub_cancel_left]
    rfl
  · exact Nat.le_trans (Nat.sub_le _ _) h.size_le

/-- A new entry is put at the end. -/
theorem Consistent.push (h : c.Consistent byteSizeLong) (hnew : c.caches.lookup key = none)
    (hroom : byteSizeLong value + c.size ≤ c.limit) :
    entries { c with
        size := c.size + byteSizeLong value
        caches := c.caches.insert key value
        sequence := c.sequence ++ [key] } = c.entries ++ [(key, value)] ∧
      Consistent byteSizeLong { c with
        size := c.size + byteSizeLong value
        caches := c.caches.insert key value
        sequence := c.sequence ++ [key] } := by
  have hkey : key ∉ c.sequence := by
    rw [h.mem_sequence, hnew]
    exact Bool.false_ne_true
  have hentries : entries { c with
      size := c.size + byteSizeLong value
      caches := c.caches.insert key value
      sequence := c.sequence ++ [key] } = c.entries ++ [(key, value)] := by
    simp [entries, List.filterMap_append, filterMap_insert _ hkey]
  refine ⟨hentries, ?_, fun k => ?_, ?_, ?_, h.clean⟩
  · exact List.nodup_append.mpr ⟨h.nodup, List.nodup_singleton key, fun a ha b hb hab => hkey (by
      rwa [← List.mem_singleton.mp hb, ← hab])⟩
  · by_cases hk : k = key
    · subst hk
      simp
    · rw [AList.lookup_insert_ne hk, ← h.mem_sequence k]
      simp [hk]
  · rw [hentries, total_append, ← h.size_eq]
    rfl
  · exact Nat.add_comm _ _ ▸ hroom

/-- The loop leaves the longest end with which the new value fits. -/
theorem dropOld_spec (h : Consistent byteSizeLong { c with sequence := sequence })
    (hfull : c.limit < size + c.size) (hsize : size ≤ c.limit) :
    Consistent byteSizeLong (dropOld byteSizeLong size c sequence) ∧
      (dropOld byteSizeLong size c sequence).limit = c.limit ∧
      (dropOld byteSizeLong size c sequence).entries =
        fitting (entrySize byteSizeLong) (c.limit - size)
          (entries { c with sequence := sequence }) := by
  induction sequence generalizing c with
  | nil => exact ⟨h, rfl, rfl⟩
  | cons key sequence ih =>
      obtain ⟨value, hvalue, hle, hentries, hrest⟩ := h.pop
      -- with the oldest entry the new value does not fit, so it goes on both sides
      have hover : c.limit - size < total (entrySize byteSizeLong)
          (entries { c with sequence := key :: sequence }) := by
        rw [← h.size_eq]
        change c.limit - size < c.size
        omega
      rw [hentries] at hover ⊢
      rw [fitting_cons_of_lt hover]
      simp only [dropOld, hvalue, if_neg (Nat.not_lt.mpr hle)]
      by_cases hroom : size + (c.size - byteSizeLong value) ≤ c.limit
      · rw [if_pos hroom]
        refine ⟨hrest, rfl, ?_⟩
        have hfits : total (entrySize byteSizeLong)
            (entries { c with caches := c.caches.erase key, sequence := sequence }) ≤
            c.limit - size := by
          have hsum : c.size - byteSizeLong value = _ := hrest.size_eq
          change c.size - byteSizeLong value = total (entrySize byteSizeLong)
            (entries { c with caches := c.caches.erase key, sequence := sequence }) at hsum
          omega
        rw [fitting_of_le hfits]
        rfl
      · rw [if_neg hroom]
        exact ih hrest (Nat.not_le.mp hroom) hsize

end Consistent

/-! ## One call -/

section Set

variable {byteSizeLong} {c : FIFOCache K V} {key : K} {value : V}

/-- The value is inserted: it is not too large and its key is not there. -/
def Accepts (byteSizeLong : V → ℕ) (c : FIFOCache K V) (key : K) (value : V) : Prop :=
  byteSizeLong value ≤ c.limit ∧ c.caches.lookup key = none

instance (c : FIFOCache K V) (key : K) (value : V) :
    Decidable (c.Accepts byteSizeLong key value) :=
  inferInstanceAs (Decidable (_ ∧ c.caches.lookup key = none))

theorem set_of_not_accepts (h : ¬ c.Accepts byteSizeLong key value) :
    (c.set byteSizeLong key value).2 = c := by
  by_cases hsize : byteSizeLong value > c.limit
  · simp only [set, if_pos hsize]
  · have hcached : (c.caches.lookup key).isSome := by
      rw [Option.isSome_iff_ne_none]
      exact fun hnone => h ⟨Nat.not_lt.mp hsize, hnone⟩
    simp only [set, if_neg hsize, if_pos hcached]

/-- What makes room for a value leaves a cache that fits together and does not have its key. -/
theorem room_spec (h : c.Consistent byteSizeLong) {size : ℕ} (hsize : size ≤ c.limit) :
    let r := if size + c.size > c.limit then dropOld byteSizeLong size c c.sequence else c
    r.Consistent byteSizeLong ∧ r.limit = c.limit ∧
      r.entries = fitting (entrySize byteSizeLong) (c.limit - size) c.entries := by
  by_cases hfull : size + c.size > c.limit
  · simp only [if_pos hfull]
    exact dropOld_spec h hfull hsize
  · simp only [if_neg hfull]
    refine ⟨h, trivial, (fitting_of_le ?_).symm⟩
    rw [← h.size_eq]
    omega

/-- An accepted value drops the oldest entries, as few as can be, and comes after the others. -/
theorem set_of_accepts (h : c.Consistent byteSizeLong) (hacc : c.Accepts byteSizeLong key value) :
    let r := (c.set byteSizeLong key value).2
    r.Consistent byteSizeLong ∧ r.limit = c.limit ∧
      r.entries = fitting (entrySize byteSizeLong) (c.limit - byteSizeLong value) c.entries ++
        [(key, value)] := by
  obtain ⟨hsize, hnew⟩ := hacc
  obtain ⟨hcons, hlimit, hentries⟩ := room_spec h hsize
  have hset : (c.set byteSizeLong key value).2 =
      let r := if byteSizeLong value + c.size > c.limit
        then dropOld byteSizeLong (byteSizeLong value) c c.sequence else c
      { r with
        size := r.size + byteSizeLong value
        caches := r.caches.insert key value
        sequence := r.sequence ++ [key] } := by
    simp only [set, if_neg (Nat.not_lt.mpr hsize), hnew, Option.isSome_none, Bool.false_eq_true,
      if_false]
  rw [hset]
  generalize (if byteSizeLong value + c.size > c.limit
    then dropOld byteSizeLong (byteSizeLong value) c c.sequence else c) = r at *
  -- making room does not bring the key back
  have hnone : r.caches.lookup key = none := by
    rw [← Option.not_isSome_iff_eq_none, ← hcons.mem_sequence, ← hcons.keys_entries, hentries]
    intro hmem
    have hold : key ∈ c.entries.map Prod.fst :=
      ((fitting_suffix _ _ _).map Prod.fst).subset hmem
    rw [h.keys_entries, h.mem_sequence, hnew] at hold
    exact Bool.false_ne_true hold
  have hroom : byteSizeLong value + r.size ≤ r.limit := by
    have htotal := total_fitting_le (entrySize byteSizeLong) (c.limit - byteSizeLong value)
      c.entries
    rw [← hentries, ← hcons.size_eq] at htotal
    omega
  obtain ⟨hpush, hcons'⟩ := hcons.push hnone hroom
  exact ⟨hcons', hlimit, hentries ▸ hpush⟩

end Set

/-! ## Runs -/

/-- A call of the cache -/
inductive Call (K V : Type) where
  | set (key : K) (value : V)
  | get (key : K)
deriving DecidableEq, Repr

/-- The cache with all insertions so far -/
structure History (K V : Type) where
  cache : FIFOCache K V
  inserted : List (K × V) := []

namespace History

/-- A call; a `set` that is refused or finds its key inserts nothing. -/
def step (h : History K V) : Call K V → History K V
  | .set key value =>
      { cache := (h.cache.set byteSizeLong key value).2
        inserted :=
          if h.cache.Accepts byteSizeLong key value then h.inserted ++ [(key, value)]
          else h.inserted }
  | .get _ => h

/-- The calls one after the other on a new cache -/
def run (limit : ℕ) (calls : List (Call K V)) : History K V :=
  calls.foldl (step byteSizeLong) { cache := { limit := limit } }

/-- What is cached is the longest end of the insertions that the limit allows. -/
structure Fifo (limit : ℕ) (h : History K V) : Prop where
  consistent : h.cache.Consistent byteSizeLong
  limit_eq : h.cache.limit = limit
  entries_eq : h.cache.entries = fitting (entrySize byteSizeLong) limit h.inserted

variable {byteSizeLong} {limit : ℕ} {h : History K V}

theorem Fifo.step (hfifo : h.Fifo byteSizeLong limit) (call : Call K V) :
    (h.step byteSizeLong call).Fifo byteSizeLong limit := by
  cases call with
  | get key => exact hfifo
  | set key value =>
      by_cases hacc : h.cache.Accepts byteSizeLong key value
      · obtain ⟨hcons, hlimit, hentries⟩ := set_of_accepts hfifo.consistent hacc
        refine ⟨hcons, hlimit.trans hfifo.limit_eq, ?_⟩
        simp only [History.step, if_pos hacc]
        have hsize : entrySize byteSizeLong (key, value) ≤ limit := hfifo.limit_eq ▸ hacc.1
        -- cutting what is cached is cutting all that was inserted
        rw [hentries, hfifo.limit_eq, hfifo.entries_eq, fitting_fitting (Nat.sub_le _ _),
          fitting_concat hsize]
        rfl
      · simp only [History.step, if_neg hacc, set_of_not_accepts hacc]
        exact ⟨hfifo.consistent, hfifo.limit_eq, hfifo.entries_eq⟩

/-- The cache is a FIFO after every sequence of calls. -/
theorem fifo_run (limit : ℕ) (calls : List (Call K V)) :
    (run byteSizeLong limit calls).Fifo byteSizeLong limit := by
  have hfold : ∀ h : History K V, h.Fifo byteSizeLong limit →
      (calls.foldl (History.step byteSizeLong) h).Fifo byteSizeLong limit := by
    induction calls with
    | nil => exact fun _ hfifo => hfifo
    | cons call calls ih => exact fun h hfifo => ih _ (hfifo.step call)
  exact hfold _ ⟨consistent_empty limit, rfl, rfl⟩

/-- A byte-bounded FIFO. After any calls the list has the keys of the map once each, in the order
of insertion; the counter is the sum of the sizes and within the limit; nothing was cleared. What
is cached is the longest end of the insertions that fits, and the next insertion drops the oldest
entries only, and none that could stay. -/
theorem run_fifo (byteSizeLong : V → ℕ) (limit : ℕ) (calls : List (Call K V)) :
    let h := run byteSizeLong limit calls
    let c := h.cache
    (c.sequence.Nodup ∧ c.sequence = c.entries.map Prod.fst ∧
        ∀ key value, (key, value) ∈ c.entries ↔ c.caches.lookup key = some value) ∧
      (c.size = total (entrySize byteSizeLong) c.entries ∧ c.size ≤ limit) ∧
      c.corrupted = false ∧
      (c.entries <:+ h.inserted ∧
        ∀ l, l <:+ h.inserted → total (entrySize byteSizeLong) l ≤ limit → l <:+ c.entries) ∧
      ∀ key value,
        (¬ c.Accepts byteSizeLong key value → (c.set byteSizeLong key value).2 = c) ∧
        (c.Accepts byteSizeLong key value →
          ∃ dropped kept, c.entries = dropped ++ kept ∧
            (c.set byteSizeLong key value).2.entries = kept ++ [(key, value)] ∧
            ∀ l, l <:+ c.entries →
              total (entrySize byteSizeLong) l + byteSizeLong value ≤ limit → l <:+ kept) := by
  intro h c
  have hfifo : h.Fifo byteSizeLong limit := fifo_run limit calls
  have hcons : c.Consistent byteSizeLong := hfifo.consistent
  refine ⟨⟨hcons.nodup, hcons.keys_entries.symm, fun key value => hcons.mem_entries⟩,
    ⟨hcons.size_eq, hfifo.limit_eq ▸ hcons.size_le⟩, hcons.clean, ⟨?_, ?_⟩, ?_⟩
  · rw [hfifo.entries_eq]
    exact fitting_suffix _ _ _
  · intro l hl hle
    rw [hfifo.entries_eq]
    exact suffix_fitting hl hle
  · intro key value
    refine ⟨set_of_not_accepts, fun hacc => ?_⟩
    obtain ⟨-, -, hentries⟩ := set_of_accepts hcons hacc
    rw [hfifo.limit_eq] at hentries
    obtain ⟨dropped, hdropped⟩ := fitting_suffix (entrySize byteSizeLong)
      (limit - byteSizeLong value) c.entries
    refine ⟨dropped, _, hdropped.symm, hentries, fun l hl hle => suffix_fitting hl ?_⟩
    omega

end History

end FIFOCache

end BcmServer.Store
