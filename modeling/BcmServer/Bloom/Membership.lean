import BcmServer.Bloom.BloomFilters
import BcmServer.Lts.Run

/-!
# BcmServer.Bloom.Membership — who is in a filter

The filters of an account decide who may write to it and add it to a group: a key is in
a filter if the bits at its hash positions are all set. Two flags take a short cut. Who
is asked of a full filter is in it, and no one is in an empty one. `insert` and
`fromFiltersContent` keep the flags right; `update` changes the bits and leaves the flags
(`flagsRight_update_iff` says which updates this does no harm to). A filter made with the
length zero has no bits, but is not flagged as full, and an insertion divides by its size.

Only algorithm 0 has hashes. With any other no key is ever in a filter that is not full.

* `contains_of_flagsRight`: what `contains` answers where the flags are right.
* `contains_run`: this holds after any calls that leave the flags right, none of them
  divides by zero, and a filter that is made of the content answers alike.
-/

namespace BcmServer.Bloom

open Util Lts

/-! ## Hashes -/

def readLE32 (block : Bytes) : UInt32 :=
  (block.getD 0 0).toUInt32 ||| (block.getD 1 0).toUInt32 <<< 8 |||
    (block.getD 2 0).toUInt32 <<< 16 ||| (block.getD 3 0).toUInt32 <<< 24

def rotl32 (x r : UInt32) : UInt32 := x <<< r ||| x >>> (32 - r)

/-- The mixing of one word of the data -/
def mixK1 (k1 : UInt32) : UInt32 := rotl32 (k1 * 0xcc9e2d51) 15 * 0x1b873593

/-- The loop over the blocks, and what is left behind them -/
def mixBlocks (h1 : UInt32) : Bytes → UInt32 × Bytes
  | b₀ :: b₁ :: b₂ :: b₃ :: rest =>
      mixBlocks (rotl32 (h1 ^^^ mixK1 (readLE32 [b₀, b₁, b₂, b₃])) 13 * 5 + 0xe6546b64) rest
  | tail => (h1, tail)

/-- The `switch` on the length of what is left -/
def mixTail (h1 : UInt32) (tail : Bytes) : UInt32 :=
  if tail.isEmpty then h1 else h1 ^^^ mixK1 (readLE32 tail)

/-- `MurmurHash3::murmurHash3`. The length goes in with its lower 32 bits. -/
def murmurHash3 (nHashSeed : UInt32) (vDataToHash : Bytes) : UInt32 :=
  let (h1, tail) := mixBlocks nHashSeed vDataToHash
  let h1 := mixTail h1 tail
  let h1 := h1 ^^^ UInt32.ofNat vDataToHash.length
  let h1 := h1 ^^^ h1 >>> 16
  let h1 := h1 * 0x85ebca6b
  let h1 := h1 ^^^ h1 >>> 13
  let h1 := h1 * 0xc2b2ae35
  h1 ^^^ h1 >>> 16

example : murmurHash3 0 [66, 99, 109] = 1378646842 := by decide

example : murmurHash3 0 [49, 50, 51, 52, 53, 54, 55, 56, 57] = 3036607362 := by decide

/-- `HashAlgo` and the class that is derived from it -/
inductive HashAlgo where
  | hashAlgo
  | murmurHash3Algo (hashNum rootSeed tweak : UInt32)
deriving DecidableEq, Repr

namespace HashAlgo

def getHashes (key : Bytes) : HashAlgo → List UInt32
  | hashAlgo => []
  | murmurHash3Algo hashNum rootSeed tweak =>
      (List.range hashNum.toNat).map fun i =>
        murmurHash3 (UInt32.ofNat i * rootSeed + tweak) key

/-- The number of hashes of a key -/
def size : HashAlgo → ℕ
  | hashAlgo => 0
  | murmurHash3Algo hashNum _ _ => hashNum.toNat

theorem length_getHashes (h : HashAlgo) (key : Bytes) : (h.getHashes key).length = h.size := by
  cases h with
  | hashAlgo => rfl
  | murmurHash3Algo hashNum rootSeed tweak => simp [getHashes, size]

end HashAlgo

/-- The hash function of a filter's algorithm -/
def hashFunc (algo : UInt32) : HashAlgo :=
  if algo = 0 then .murmurHash3Algo 5 0xFBA4C795 3 else .hashAlgo

/-! ## The filters -/

/-- `BloomFilters` with all its fields -/
structure HashedFilters extends BloomFilters where
  full : Bool
  empty : Bool
  hash : HashAlgo
deriving DecidableEq, Repr

/-- `n % size`, if it can be divided -/
def modSize (n : UInt32) (size : ℕ) : Option ℕ := if size = 0 then none else some (n.toNat % size)

/-- One round of the loop in `insert` -/
def insertOne (filters : Bytes) (i : UInt32) : Option Bytes := do
  let index ← modSize i (filters.length * 8)
  return filters.modify (index >>> 3) fun b => b ||| UInt8.ofNat (1 <<< (7 &&& index))

/-- The loop in `contains` -/
def containsAll (filters : Bytes) : List UInt32 → Option Bool
  | [] => some true
  | i :: hashes => do
      let index ← modSize i (filters.length * 8)
      if filters.getD (index >>> 3) 0 &&& UInt8.ofNat (1 <<< (7 &&& index)) = 0 then
        return false
      else
        containsAll filters hashes

namespace HashedFilters

/-- `BloomFilters(algo, length)` -/
def ofLength (algo length : UInt32) : HashedFilters where
  filters := List.replicate ((length + 7) / 8).toNat 0
  full := false
  empty := true
  hash := hashFunc algo

def updateEmptyFull (f : HashedFilters) : HashedFilters :=
  { f with
    full := f.filters.all fun i => i == 0xff
    empty := f.filters.all fun i => i == 0 }

/-- `BloomFilters(algo, content)` -/
def ofContent (algo : UInt32) (content : Bytes) : HashedFilters :=
  updateEmptyFull { ofLength algo (UInt32.ofNat (content.length * 8)) with filters := content }

def fromFiltersContent (f : HashedFilters) (content : Bytes) : Bool × HashedFilters :=
  if content.length ≠ f.filters.length then (false, f)
  else (true, updateEmptyFull { f with filters := content })

/-- `insert`; none if it divides by zero -/
def insert (f : HashedFilters) (key : Bytes) : Option HashedFilters :=
  if f.full then some f
  else
    let hashes := f.hash.getHashes key
    if hashes.isEmpty then some f
    else do
      let filters ← hashes.foldlM insertOne f.filters
      return { f with filters, empty := false }

/-- `contains`; none if it divides by zero -/
def contains (f : HashedFilters) (key : Bytes) : Option Bool :=
  if f.full then some true
  else if f.empty then some false
  else
    let hashes := f.hash.getHashes key
    if hashes.isEmpty then some false else containsAll f.filters hashes

/-- `update`: the flags stay. -/
def update (f : HashedFilters) (values : Table UInt32 Bool) : HashedFilters :=
  { f with toBloomFilters := f.toBloomFilters.update values }

end HashedFilters

/-- The calls that change a filter -/
inductive BloomCall where
  | insert (key : Bytes)
  | update (values : Table UInt32 Bool)
  | fromFiltersContent (content : Bytes)

/-- A filter under calls. There is no step where a call divides by zero. -/
def bloomMachine : Machine HashedFilters BloomCall where
  step
    | f, .insert key => f.insert key
    | f, .update values => some (f.update values)
    | f, .fromFiltersContent content => some (f.fromFiltersContent content).2

/-! ## Members -/

namespace HashedFilters

/-- The positions of a key -/
def positions (f : HashedFilters) (key : Bytes) : List ℕ :=
  (f.hash.getHashes key).map fun i => i.toNat % (f.filters.length * 8)

/-- All bits of the filter are set, or the key has positions and theirs are. -/
def Member (f : HashedFilters) (key : Bytes) : Prop :=
  AllSet f.filters ∨ f.positions key ≠ [] ∧ ∀ p ∈ f.positions key, bitAt f.filters p = true

/-- The flags agree with the bits, as far as `contains` goes by them. An insertion may fill a
filter that has hashes without a flag. -/
structure FlagsRight (f : HashedFilters) : Prop where
  full : f.full = true → AllSet f.filters
  empty : f.hash.size ≠ 0 → f.empty = true → AllClear f.filters
  unhashed : f.hash.size = 0 → AllSet f.filters → f.full = true
  bits : f.filters.length = 0 → f.full = true

/-- The value a map gives to a bit -/
def given (values : Table UInt32 Bool) (q : ℕ) : Option Bool :=
  if q < 2 ^ 32 then values.lookup (UInt32.ofNat q) else none

/-- An update clears no bit of a filter that is flagged as full, sets none of one that is
flagged as empty, and does not fill one that has no hashes. -/
structure UpdateSafe (f : HashedFilters) (values : Table UInt32 Bool) : Prop where
  full : f.full = true → ∀ q < 8 * f.filters.length, given values q ≠ some false
  empty : f.hash.size ≠ 0 → f.empty = true →
    ∀ q < 8 * f.filters.length, given values q ≠ some true
  unhashed : f.hash.size = 0 → f.full = false →
    ∃ q < 8 * f.filters.length, (given values q).getD (bitAt f.filters q) = false

end HashedFilters

namespace BloomCall

open HashedFilters

/-- The call does no harm to the flags. -/
def Safe (f : HashedFilters) : BloomCall → Prop
  | update values => UpdateSafe f values
  | _ => True

/-- The call clears no position of the key. -/
def Spares (key : Bytes) (f : HashedFilters) : BloomCall → Prop
  | insert _ => True
  | update values => ∀ p ∈ f.positions key, given values p ≠ some false
  | fromFiltersContent content => content.length = f.filters.length →
      ∀ p ∈ f.positions key, bitAt content p = true

end BloomCall

/-! ## The loops -/

section Loops

theorem modSize_eq {filters : Bytes} (h : filters.length ≠ 0) (i : UInt32) :
    modSize i (filters.length * 8) = some (i.toNat % (filters.length * 8)) :=
  if_neg (by omega)

/-- The index of a bit in its byte, and that of the byte -/
theorem and_seven (index : ℕ) : 7 &&& index = index % 8 := by
  rw [Nat.and_comm]
  exact Nat.and_two_pow_sub_one_eq_mod index 3

theorem shiftRight_three (index : ℕ) : index >>> 3 = index / 8 :=
  Nat.shiftRight_eq_div_pow index 3

theorem insertOne_eq {filters : Bytes} (h : filters.length ≠ 0) (i : UInt32) :
    insertOne filters i = some (setBit filters (i.toNat % (filters.length * 8)) true) := by
  rw [insertOne, modSize_eq h]
  simp only [Option.bind_eq_bind, Option.bind_some, and_seven, shiftRight_three]
  rfl

theorem foldlM_insertOne {filters : Bytes} (h : filters.length ≠ 0) (hashes : List UInt32) :
    hashes.foldlM insertOne filters = some (setBits filters
      ((hashes.map fun i => i.toNat % (filters.length * 8)).map (·, true))) := by
  induction hashes generalizing filters with
  | nil => rfl
  | cons i hashes ih =>
      have hlength := length_setBit filters (i.toNat % (filters.length * 8)) true
      rw [List.foldlM_cons, insertOne_eq h, Option.bind_eq_bind, Option.bind_some,
        ih (by rw [hlength]; exact h), hlength]
      rfl

theorem containsAll_eq {filters : Bytes} (h : filters.length ≠ 0) (hashes : List UInt32) :
    containsAll filters hashes = some (hashes.all fun i =>
      bitAt filters (i.toNat % (filters.length * 8))) := by
  induction hashes with
  | nil => rfl
  | cons i hashes ih =>
      have htest := and_bitMask_eq_zero (filters.getD (i.toNat % (filters.length * 8) / 8) 0)
        (i.toNat % (filters.length * 8))
      rw [containsAll, modSize_eq h, ih, List.all_cons]
      simp only [Option.bind_eq_bind, Option.bind_some, and_seven, shiftRight_three]
      by_cases hbit : bitAt filters (i.toNat % (filters.length * 8)) = true
      · rw [hbit, Bool.true_and]
        refine if_neg fun hzero => ?_
        exact absurd (hbit.symm.trans (htest.mp hzero)) Bool.noConfusion
      · rw [Bool.not_eq_true] at hbit
        rw [hbit, Bool.false_and]
        exact if_pos (htest.mpr hbit)

end Loops

namespace HashedFilters

variable {f g : HashedFilters} {key : Bytes}

theorem mem_positions_lt (h : f.filters.length ≠ 0) {p : ℕ} (hp : p ∈ f.positions key) :
    p < 8 * f.filters.length := by
  obtain ⟨i, -, rfl⟩ := List.mem_map.mp hp
  have hlt := Nat.mod_lt i.toNat (show f.filters.length * 8 > 0 by omega)
  omega

theorem positions_eq_nil_iff : f.positions key = [] ↔ f.hash.size = 0 := by
  rw [positions, List.map_eq_nil_iff, ← List.length_eq_zero_iff, HashAlgo.length_getHashes]

theorem getHashes_isEmpty_iff : (f.hash.getHashes key).isEmpty = true ↔ f.hash.size = 0 := by
  rw [List.isEmpty_iff, ← List.length_eq_zero_iff, HashAlgo.length_getHashes]

theorem positions_congr (hhash : g.hash = f.hash) (hlength : g.filters.length = f.filters.length) :
    g.positions key = f.positions key := by
  rw [positions, positions, hhash, hlength]

theorem mem_positions_of_congr {p : ℕ} (hp : p ∈ g.positions key) (hhash : g.hash = f.hash)
    (hlength : g.filters.length = f.filters.length) : p ∈ f.positions key :=
  positions_congr hhash hlength ▸ hp

/-- What a filter answers whose flags are right. -/
theorem contains_of_flagsRight (h : FlagsRight f) (key : Bytes) :
    ∃ b, f.contains key = some b ∧ (b = true ↔ f.Member key) := by
  unfold contains
  by_cases hfull : f.full = true
  · rw [if_pos hfull]
    exact ⟨true, rfl, iff_of_true rfl (Or.inl (h.full hfull))⟩
  have hlength : f.filters.length ≠ 0 := fun hlen => hfull (h.bits hlen)
  rw [if_neg hfull]
  by_cases hsize : f.hash.size = 0
  · -- without hashes only a full filter has members
    have hnone : ¬ f.Member key := by
      rintro (hset | ⟨hpositions, -⟩)
      · exact hfull (h.unhashed hsize hset)
      · exact hpositions (positions_eq_nil_iff.mpr hsize)
    refine ⟨false, ?_, iff_of_false Bool.false_ne_true hnone⟩
    rw [if_pos (getHashes_isEmpty_iff.mpr hsize), ite_self]
  have hpositions : f.positions key ≠ [] := fun hnil => hsize (positions_eq_nil_iff.mp hnil)
  obtain ⟨p, hp⟩ := List.exists_mem_of_ne_nil _ hpositions
  by_cases hempty : f.empty = true
  · have hclear : bitAt f.filters p = false := h.empty hsize hempty p (mem_positions_lt hlength hp)
    have hnone : ¬ f.Member key := by
      rintro (hset | ⟨-, hall⟩)
      · exact absurd (hclear.symm.trans (hset p (mem_positions_lt hlength hp))) Bool.noConfusion
      · exact absurd (hclear.symm.trans (hall p hp)) Bool.noConfusion
    rw [if_pos hempty]
    exact ⟨false, rfl, iff_of_false Bool.false_ne_true hnone⟩
  · rw [if_neg hempty, if_neg (fun hnil => hsize (getHashes_isEmpty_iff.mp hnil)),
      containsAll_eq hlength]
    refine ⟨_, rfl, ?_⟩
    have hall : (((f.hash.getHashes key).all fun i =>
        bitAt f.filters (i.toNat % (f.filters.length * 8))) = true) ↔
        ∀ p ∈ f.positions key, bitAt f.filters p = true := by
      rw [List.all_eq_true, positions, List.forall_mem_map]
    rw [hall]
    constructor
    · exact fun hset => Or.inr ⟨hpositions, hset⟩
    · rintro (hset | ⟨-, hset⟩)
      · exact fun p hp => hset p (mem_positions_lt hlength hp)
      · exact hset

/-! ## One call -/

/-- The flags that are made of the bits are right. -/
theorem flagsRight_updateEmptyFull (f : HashedFilters) : FlagsRight f.updateEmptyFull where
  full hfull := all_ff_iff.mp hfull
  empty _ hempty := all_zero_iff.mp hempty
  unhashed _ hset := all_ff_iff.mpr hset
  bits hlength := by
    have hnil : f.filters = [] := List.eq_nil_of_length_eq_zero hlength
    rw [updateEmptyFull, hnil]
    rfl

theorem flagsRight_ofContent (algo : UInt32) (content : Bytes) :
    FlagsRight (ofContent algo content) :=
  flagsRight_updateEmptyFull _

/-- A filter of some length is empty, and is right if it has bits. -/
theorem flagsRight_ofLength (algo : UInt32) {length : UInt32} (h : (length + 7) / 8 ≠ 0) :
    FlagsRight (ofLength algo length) := by
  have hbytes : 0 < ((length + 7) / 8).toNat := by
    refine Nat.pos_of_ne_zero fun hzero => h ?_
    exact UInt32.toNat_inj.mp hzero
  have hclear : AllClear (ofLength algo length).filters := by
    rw [← all_zero_iff, List.all_eq_true]
    exact fun i hi => beq_iff_eq.mpr (List.eq_of_mem_replicate hi)
  have hlength : (ofLength algo length).filters.length = ((length + 7) / 8).toNat :=
    List.length_replicate
  refine ⟨fun hfull => absurd hfull Bool.false_ne_true, fun _ _ => hclear, fun _ hset => ?_, ?_⟩
  · have hfirst : 0 < 8 * (ofLength algo length).filters.length := by omega
    exact absurd ((hclear 0 hfirst).symm.trans (hset 0 hfirst)) Bool.noConfusion
  · intro hzero
    omega

/-- The bits that an insertion sets -/
theorem lastValue_positions (ps : List ℕ) (q : ℕ) :
    lastValue (ps.map (·, true)) q = if q ∈ ps then some true else none := by
  by_cases hq : q ∈ ps
  · have hfind : ((ps.map (·, true)).reverse.find? fun e => e.1 = q).isSome := by
      rw [List.find?_isSome]
      exact ⟨(q, true), List.mem_reverse.mpr (List.mem_map.mpr ⟨q, hq, rfl⟩), by simp⟩
    obtain ⟨e, he⟩ := Option.isSome_iff_exists.mp hfind
    obtain ⟨p, -, rfl⟩ := List.mem_map.mp (List.mem_reverse.mp (List.mem_of_find?_eq_some he))
    rw [if_pos hq, lastValue, he, Option.map_some]
  · rw [if_neg hq, lastValue, Option.map_eq_none_iff, List.find?_eq_none]
    intro e he
    obtain ⟨p, hp, rfl⟩ := List.mem_map.mp (List.mem_reverse.mp he)
    rw [decide_eq_true_eq]
    exact fun hpq => hq (hpq ▸ hp)

/-- An insertion does not divide by zero. It leaves a filter that is full or has no hashes, and
sets the positions of the key in any other. -/
theorem insert_eq (h : FlagsRight f) (key : Bytes) :
    f.insert key = some f ∧ (f.full = true ∨ f.hash.size = 0) ∨
      f.full = false ∧ f.hash.size ≠ 0 ∧ f.insert key = some { f with
        filters := setBits f.filters ((f.positions key).map (·, true)), empty := false } := by
  unfold insert
  by_cases hfull : f.full = true
  · rw [if_pos hfull]
    exact Or.inl ⟨rfl, Or.inl hfull⟩
  rw [if_neg hfull]
  by_cases hsize : f.hash.size = 0
  · rw [if_pos (getHashes_isEmpty_iff.mpr hsize)]
    exact Or.inl ⟨rfl, Or.inr hsize⟩
  · rw [if_neg fun hnil => hsize (getHashes_isEmpty_iff.mp hnil),
      foldlM_insertOne fun hlen => hfull (h.bits hlen)]
    exact Or.inr ⟨Bool.eq_false_iff.mpr hfull, hsize, rfl⟩

/-- An update sets bits one after the other. -/
theorem filters_update (values : Table UInt32 Bool) : (f.update values).filters =
    setBits f.filters ((BloomFilters.ascending values).map BloomFilters.bit) :=
  BloomFilters.foldl_updateOne f.filters _

/-- The bits after an update -/
theorem bitAt_update (values : Table UInt32 Bool) {q : ℕ} (hq : q < 8 * f.filters.length) :
    bitAt (f.update values).filters q = (given values q).getD (bitAt f.filters q) := by
  have hlast : lastValue ((BloomFilters.ascending values).map BloomFilters.bit) q =
      given values q := by
    unfold given
    by_cases hlt : q < 2 ^ 32
    · have hp : (UInt32.ofNat q).toNat = q := UInt32.toNat_ofNat_of_lt' hlt
      rw [if_pos hlt, ← BloomFilters.lastValue_ascending, hp]
    · rw [if_neg hlt, BloomFilters.lastValue_eq_none (not_lt.mp hlt)]
  rw [filters_update, bitAt_setBits _ _ hq, hlast]

theorem length_update (values : Table UInt32 Bool) :
    (f.update values).filters.length = f.filters.length := by
  rw [filters_update, length_setBits]

/-- A bit that is not given the other value stays. -/
theorem getD_of_ne {given : Option Bool} {b : Bool} (h : given ≠ some (!b)) : given.getD b = b := by
  cases given with
  | none => rfl
  | some v =>
      by_contra hne
      exact h (congrArg some (Bool.eq_not_of_ne hne))

/-- Which updates leave the flags right -/
theorem flagsRight_update_iff (h : FlagsRight f) (values : Table UInt32 Bool) :
    FlagsRight (f.update values) ↔ UpdateSafe f values := by
  have hlength := @length_update f values
  constructor
  · intro hnext
    refine ⟨fun hfull q hq hgiven => ?_, fun hsize hempty q hq hgiven => ?_, fun hsize hfull => ?_⟩
    · have hbit := hnext.full hfull q (hlength ▸ hq)
      rw [bitAt_update values hq, hgiven] at hbit
      cases hbit
    · have hbit := hnext.empty hsize hempty q (hlength ▸ hq)
      rw [bitAt_update values hq, hgiven] at hbit
      cases hbit
    · by_contra hnone
      push Not at hnone
      have hset : AllSet (f.update values).filters := by
        intro q hq
        rw [hlength] at hq
        rw [bitAt_update values hq]
        exact Bool.eq_true_of_not_eq_false (hnone q hq)
      exact absurd (hfull.symm.trans (hnext.unhashed hsize hset)) Bool.noConfusion
  · intro hsafe
    refine ⟨fun hfull q hq => ?_, fun hsize hempty q hq => ?_, fun hsize hset => ?_, fun hlen => ?_⟩
    · rw [hlength] at hq
      rw [bitAt_update values hq, h.full hfull q hq]
      exact getD_of_ne (hsafe.full hfull q hq)
    · rw [hlength] at hq
      rw [bitAt_update values hq, h.empty hsize hempty q hq]
      exact getD_of_ne (hsafe.empty hsize hempty q hq)
    · by_contra hfull
      obtain ⟨q, hq, hclear⟩ := hsafe.unhashed hsize (Bool.eq_false_iff.mpr hfull)
      rw [← bitAt_update values hq] at hclear
      exact absurd (hclear.symm.trans (hset q (hlength.symm ▸ hq))) Bool.noConfusion
    · rw [hlength] at hlen
      exact h.bits hlen

/-- A call that does no harm does not divide by zero, leaves the flags right, and does not change
the length or the hashes. -/
theorem step_safe (h : FlagsRight f) {c : BloomCall} (hc : c.Safe f) :
    ∃ g, bloomMachine.step f c = some g ∧ FlagsRight g ∧ g.hash = f.hash ∧
      g.filters.length = f.filters.length := by
  cases c with
  | insert key =>
      rcases insert_eq h key with ⟨hsame, -⟩ | ⟨hfull, hsize, hnext⟩
      · exact ⟨f, hsame, h, rfl, rfl⟩
      · refine ⟨_, hnext, ?_, rfl, length_setBits ..⟩
        refine ⟨fun hset => absurd (hfull.symm.trans hset) Bool.noConfusion,
          fun _ hempty => absurd hempty Bool.false_ne_true, fun hzero => absurd hzero hsize, ?_⟩
        intro hlen
        rw [length_setBits] at hlen
        exact h.bits hlen
  | update values =>
      exact ⟨_, rfl, (flagsRight_update_iff h values).mpr hc, rfl, length_update values⟩
  | fromFiltersContent content =>
      refine ⟨_, rfl, ?_⟩
      unfold fromFiltersContent
      by_cases hlength : content.length ≠ f.filters.length
      · rw [if_pos hlength]
        exact ⟨h, rfl, rfl⟩
      · rw [if_neg hlength]
        exact ⟨flagsRight_updateEmptyFull _, rfl, not_not.mp hlength⟩

/-- The bits of a key that has been inserted are set; where there are no bits, this is vacuous. -/
def Kept (key : Bytes) (f : HashedFilters) : Prop :=
  f.filters.length = 0 ∨ ∀ p ∈ f.positions key, bitAt f.filters p = true

theorem kept_insert (h : FlagsRight f) (hsize : f.hash.size ≠ 0)
    (hg : bloomMachine.step f (.insert key) = some g) : g.Kept key := by
  rcases insert_eq h key with ⟨hsame, hfull | hzero⟩ | ⟨hfull, -, hnext⟩
  · cases Option.some.inj (hsame.symm.trans hg)
    by_cases hlen : f.filters.length = 0
    · exact Or.inl hlen
    · exact Or.inr fun p hp => h.full hfull p (mem_positions_lt hlen hp)
  · exact absurd hzero hsize
  · cases Option.some.inj (hnext.symm.trans hg)
    have hlen : f.filters.length ≠ 0 := fun hlen =>
      absurd (hfull.symm.trans (h.bits hlen)) Bool.noConfusion
    right
    intro p hp
    replace hp : p ∈ f.positions key := mem_positions_of_congr hp rfl (length_setBits ..)
    rw [bitAt_setBits _ _ (mem_positions_lt hlen hp), lastValue_positions, if_pos hp]
    rfl

theorem kept_spares (h : FlagsRight f) (hkept : f.Kept key) {c : BloomCall}
    (hc : c.Spares key f) (hg : bloomMachine.step f c = some g) : g.Kept key := by
  cases c with
  | insert other =>
      rcases insert_eq h other with ⟨hsame, -⟩ | ⟨-, -, hnext⟩
      · cases Option.some.inj (hsame.symm.trans hg)
        exact hkept
      · cases Option.some.inj (hnext.symm.trans hg)
        refine hkept.imp (fun hlen => (length_setBits ..).trans hlen) fun hset => ?_
        intro p hp
        replace hp : p ∈ f.positions key := mem_positions_of_congr hp rfl (length_setBits ..)
        rw [bitAt_setBits _ _ (lt_of_bitAt (hset p hp)), lastValue_positions, hset p hp]
        split <;> rfl
  | update values =>
      cases Option.some.inj hg
      refine hkept.imp (fun hlen => (length_update values).trans hlen) fun hset => ?_
      intro p hp
      replace hp : p ∈ f.positions key := mem_positions_of_congr hp rfl (length_update values)
      rw [bitAt_update values (lt_of_bitAt (hset p hp)), hset p hp]
      exact getD_of_ne (hc p hp)
  | fromFiltersContent content =>
      cases Option.some.inj hg
      unfold fromFiltersContent
      by_cases hlength : content.length ≠ f.filters.length
      · rw [if_pos hlength]
        exact hkept
      · rw [if_neg hlength]
        rw [not_not] at hlength
        refine hkept.imp (fun hlen => hlength.trans hlen) fun _ => ?_
        intro p hp
        exact hc hlength p (mem_positions_of_congr hp rfl hlength)

/-- A key that is kept is a member, if there are hashes. -/
theorem member_of_kept (hkept : f.Kept key) (hsize : f.hash.size ≠ 0) : f.Member key := by
  rcases hkept with hlen | hset
  · refine Or.inl fun q hq => ?_
    omega
  · exact Or.inr ⟨fun hnil => hsize (positions_eq_nil_iff.mp hnil), hset⟩

/-- In a filter with bits and hashes the members are the keys whose positions are set. -/
theorem member_iff_positions (hlen : f.filters.length ≠ 0) (hsize : f.hash.size ≠ 0) :
    f.Member key ↔ ∀ p ∈ f.positions key, bitAt f.filters p = true := by
  constructor
  · rintro (hset | ⟨-, hset⟩)
    · exact fun p hp => hset p (mem_positions_lt hlen hp)
    · exact hset
  · exact fun hset => member_of_kept (Or.inr hset) hsize

/-- What the server asks of the filters of an account, whichever content the client has stored -/
theorem contains_ofContent (algo : UInt32) (content key : Bytes) :
    ∃ b, (ofContent algo content).contains key = some b ∧
      (b = true ↔ (ofContent algo content).Member key) :=
  contains_of_flagsRight (flagsRight_ofContent algo content) key

/-! ## Runs -/

/-- A filter of a content, or one of a length that has bits -/
inductive Made (algo : UInt32) : HashedFilters → Prop where
  | ofContent (content : Bytes) : Made algo (ofContent algo content)
  | ofLength (length : UInt32) (h : (length + 7) / 8 ≠ 0) : Made algo (ofLength algo length)

/-- A run of calls that do no harm to the flags -/
theorem run_safe (h : FlagsRight f) {calls : List BloomCall}
    (hsafe : bloomMachine.Meets (fun f c => c.Safe f) f calls) :
    ∃ g, bloomMachine.run f calls = some g ∧ FlagsRight g ∧ g.hash = f.hash := by
  induction calls generalizing f with
  | nil => exact ⟨f, rfl, h, rfl⟩
  | cons c calls ih =>
      obtain ⟨u, hu, hright, hhash, -⟩ := step_safe h hsafe.1
      obtain ⟨g, hrun, hg, hsame⟩ := ih hright ((Machine.meets_cons _ hu).mp hsafe).2
      exact ⟨g, bloomMachine.run_cons_eq_some.mpr ⟨u, hu, hrun⟩, hg, hsame.trans hhash⟩

/-- A key stays a member while its bits are spared. -/
theorem run_kept (h : FlagsRight f) (hkept : f.Kept key) {calls : List BloomCall}
    (hsafe : bloomMachine.Meets (fun f c => c.Safe f) f calls)
    (hspares : bloomMachine.Meets (fun f c => c.Spares key f) f calls)
    (hrun : bloomMachine.run f calls = some g) : g.Kept key := by
  have hinv : FlagsRight g ∧ g.Kept key := by
    refine bloomMachine.run_invariant (fun f => FlagsRight f ∧ f.Kept key) ?_ ⟨h, hkept⟩
      (bloomMachine.meets_and hsafe hspares) hrun
    rintro s c t ⟨hright, hkept⟩ ⟨hsafe, hspares⟩ hstep
    obtain ⟨u, hu, hnext, -⟩ := step_safe hright hsafe
    cases Option.some.inj (hu.symm.trans hstep)
    exact ⟨hnext, kept_spares hright hkept hspares hstep⟩
  exact hinv.2

theorem Made.flagsRight {algo : UInt32} (h : Made algo f) :
    FlagsRight f ∧ f.hash = hashFunc algo := by
  cases h with
  | ofContent content => exact ⟨flagsRight_ofContent algo content, rfl⟩
  | ofLength length h => exact ⟨flagsRight_ofLength algo h, rfl⟩

end HashedFilters

open HashedFilters in
/-- After any calls that leave the flags right, `contains` says who is a member, the filter made
of the content says the same, and with algorithm 0 a key that was inserted is a member until its
bits are cleared. No call divides by zero. -/
theorem contains_run {algo : UInt32} {f : HashedFilters} (hf : Made algo f)
    (calls : List BloomCall) (hsafe : bloomMachine.Meets (fun f c => c.Safe f) f calls) :
    ∃ g, bloomMachine.run f calls = some g ∧ ∀ key, ∃ b, g.contains key = some b ∧
      (b = true ↔ g.Member key) ∧ (ofContent algo g.getFiltersContent).contains key = some b ∧
      (algo = 0 → ∀ before after, calls = before ++ .insert key :: after →
        ∀ t, bloomMachine.run f before = some t →
          bloomMachine.Meets (fun f c => c.Spares key f) t (.insert key :: after) → b = true) := by
  obtain ⟨hright, hhash⟩ := hf.flagsRight
  obtain ⟨g, hrun, hg, hsame⟩ := run_safe hright hsafe
  refine ⟨g, hrun, fun key => ?_⟩
  obtain ⟨b, hb, hmember⟩ := contains_of_flagsRight hg key
  refine ⟨b, hb, hmember, ?_, ?_⟩
  · obtain ⟨b', hb', hmember'⟩ := contains_ofContent algo g.getFiltersContent key
    have hpositions : (ofContent algo g.getFiltersContent).positions key = g.positions key :=
      positions_congr (hsame.trans hhash).symm rfl
    have hequal : (ofContent algo g.getFiltersContent).Member key ↔ g.Member key := by
      rw [Member, hpositions]
      rfl
    rw [hb', Bool.eq_iff_iff.mpr (hmember'.trans (hequal.trans hmember.symm))]
  · rintro rfl before after rfl t ht hspares
    obtain ⟨hbefore, hafter⟩ := (bloomMachine.meets_append ht).mp hsafe
    obtain ⟨u, hu, ht', htsame⟩ := run_safe hright hbefore
    cases Option.some.inj (hu.symm.trans ht)
    have hsize : ∀ {g : HashedFilters}, g.hash = f.hash → g.hash.size ≠ 0 := by
      intro g hg
      rw [hg, hhash]
      decide
    rw [bloomMachine.run_append ht, bloomMachine.run_cons_eq_some] at hrun
    obtain ⟨v, hv, hrun⟩ := hrun
    obtain ⟨w, hw, hwright, -⟩ := step_safe ht' hafter.1
    cases Option.some.inj (hw.symm.trans hv)
    have hkept := run_kept hwright (kept_insert ht' (hsize htsame) hv)
      ((bloomMachine.meets_cons hv).mp hafter).2 ((bloomMachine.meets_cons hv).mp hspares).2 hrun
    exact hmember.mpr (member_of_kept hkept (hsize hsame))

open HashedFilters in
/-- A bit is set in a filter and a key is inserted. -/
theorem contains_run_insert : ∃ g, bloomMachine.run (ofContent 0 [1])
      [.update ((∅ : Table UInt32 Bool).insert 1 true), .insert [97]] = some g ∧
    ∀ key, ∃ b, g.contains key = some b ∧ (b = true ↔ g.Member key) ∧
      (ofContent 0 g.getFiltersContent).contains key = some b ∧
      ((0 : UInt32) = 0 → ∀ before after,
        [.update ((∅ : Table UInt32 Bool).insert 1 true), .insert [97]] =
          before ++ .insert key :: after →
        ∀ t, bloomMachine.run (ofContent 0 [1]) before = some t →
          bloomMachine.Meets (fun f c => c.Spares key f) t (.insert key :: after) → b = true) := by
  refine contains_run (.ofContent [1]) _ ⟨⟨?_, ?_, ?_⟩, trivial, ?_⟩
  · exact fun hfull => absurd hfull (by decide)
  · exact fun _ hempty => absurd hempty (by decide)
  · exact fun hsize => absurd hsize (by decide)
  · split <;> trivial

open HashedFilters in
/-- With algorithm 1 a key has no positions, and is in no filter of zeros. The flag of a full
filter stays when its bits are cleared, and a filter without bits is not flagged as full. -/
theorem not_contains_all :
    ((ofLength 1 128).contains [97] = some false ∧
      ∀ p ∈ (ofLength 1 128).positions [97], bitAt (ofLength 1 128).filters p = true) ∧
    (∃ g, bloomMachine.run (ofContent 0 [0xff]) [.update ((∅ : Table UInt32 Bool).insert 4 false)] =
        some g ∧ g.contains [97] = some true ∧
      ¬ ∀ p ∈ g.positions [97], bitAt g.filters p = true) ∧
    bloomMachine.run (ofLength 0 0) [.insert [97]] = none := by
  refine ⟨⟨by decide, fun p hp => absurd hp List.not_mem_nil⟩, ⟨_, rfl, by decide, ?_⟩, rfl⟩
  decide +kernel

end BcmServer.Bloom
