import BcmServer.Auth.AuthorizationHeader
import BcmServer.Bloom.Membership
import BcmServer.Crypto.AnyBase
import BcmServer.Crypto.Base64
import BcmServer.Lts.Pool
import BcmServer.Store.AccountsDao

/-!
# BcmServer.Controllers.OpaqueData — contents that are found by an index

A client hands over a content and gets an index for it. The index is the hash of the content
with 32 bits in front of it, in the base 62; the bits are zero at first and are drawn again
as long as the index is taken, ten times at most. Who has the index gets the content.

* `opaque_kept`: in every order of requests, what was stored under an index that was handed out
  stays there, is what every reader gets, and no index is handed out twice.
* `index_shows_hash`: every index shows the hash of the content that is stored under it, has other
  bits in front of it only where the index of the hash itself is taken, and no request makes more
  than ten calls to the store.
-/

namespace BcmServer.Controllers

open Util Lts Store Crypto Bloom

/-- `dao::OpaqueData` over a store. `setOpaque` tells whether the key existed. -/
structure OpaqueData (σ : Type) where
  getOpaque : σ → Bytes → Option Bytes
  setOpaque : σ → Bytes → Bytes → Bool × σ

/-- What is relied on: a key that exists keeps its value, another one is stored, and nothing else
is touched. -/
structure OpaqueData.Lawful {σ : Type} (dao : OpaqueData σ) : Prop where
  existed : ∀ s key value, (dao.setOpaque s key value).1 = (dao.getOpaque s key).isSome
  get_set : ∀ s key value,
    dao.getOpaque (dao.setOpaque s key value).2 key = some ((dao.getOpaque s key).getD value)
  get_set_ne : ∀ s key value k, k ≠ key →
    dao.getOpaque (dao.setOpaque s key value).2 k = dao.getOpaque s k

/-- How a request was answered -/
inductive OpaqueAnswer where
  | badRequest (content : Bytes)
  | stored (content index : Bytes)
  | collisions (content : Bytes)
  | notStored (content : Bytes)
  | read (index content : Bytes)
  | notRead (index : Bytes)
deriving DecidableEq, Repr

/-- The index that was handed out -/
def OpaqueAnswer.handedOut : OpaqueAnswer → Option Bytes
  | .stored _ index => some index
  | _ => none

/-- The store, and how the requests were answered. `accepted` and `attempts` count the contents
that were accepted and the calls to store one. -/
structure OpaqueState (σ : Type) where
  stored : σ
  answers : List OpaqueAnswer := []
  accepted : ℕ := 0
  attempts : ℕ := 0

def OpaqueState.answer {σ : Type} (s : OpaqueState σ) (a : OpaqueAnswer) : OpaqueState σ :=
  { s with answers := a :: s.answers }

/-- A request that is going on, before its next call to the store -/
inductive OpaqueCall where
  | setOpaque (content : Bytes) (index : UInt64) (remainTimes : ℕ)
  | getOpaque (index : Bytes)
deriving DecidableEq, Repr

/-- How a call to the store ends, and what `SecureRandom` draws -/
structure OpaqueEffect where
  result : WriteResult := .done
  random : UInt32 := 0

/-- A request comes in. -/
inductive OpaqueEvent where
  | setOpaqueData (content : Bytes)
  | getOpaqueData (index : Bytes)

/-- The controller, over the Base64 of beast -/
structure OpaqueDataController (F : Type) where
  ext : Http.External F

namespace OpaqueDataController

def kHashSeed : UInt32 := 0xFBA4C795
def kIndexBase : Int32 := 62
def kMaxLength : ℕ := 16 * 1024

/-- `MurmurHash3::murmurHash3` of a content -/
def hash (content : Bytes) : UInt32 := murmurHash3 kHashSeed content

/-- The high bits in front of the hash -/
def withRandom (hash random : UInt32) : UInt64 := hash.toUInt64 ||| random.toUInt64 <<< 32

/-- `AnyBase::encode` of an index, which has 64 digits at most -/
def encodedIndex (index : UInt64) : Bytes :=
  match AnyBase.encode 64 index kIndexBase [] with
  | some (.ok (_, text)) => text
  | _ => []

variable {F σ : Type} (c : OpaqueDataController F) (dao : OpaqueData σ)

/-- `Base64::check` -/
def check (target : Bytes) : Bool :=
  target.isEmpty || !(Auth.Base64.decode c.ext target false).isEmpty

/-- What `setOpaqueData` refuses at once -/
def refuses (content : Bytes) : Bool := !c.check content || decide (kMaxLength < content.length)

/-- The next call of a request to the store -/
def next (s : OpaqueState σ) (e : OpaqueEffect) : OpaqueCall → OpaqueState σ × List OpaqueCall
  | .setOpaque content index remainTimes =>
      let key := encodedIndex index
      let ec := dao.setOpaque s.stored key content
      let s := { s with attempts := s.attempts + 1 }
      match e.result with
      | .failed => (s.answer (.notStored content), [])
      | .lost => ({ s with stored := ec.2 }.answer (.notStored content), [])
      | .done =>
          let s := { s with stored := ec.2 }
          if !ec.1 then (s.answer (.stored content key), [])
          -- the index is drawn before the tries are counted
          else if 0 < remainTimes - 1 then
            (s, [.setOpaque content (withRandom (hash content) e.random) (remainTimes - 1)])
          else (s.answer (.collisions content), [])
  | .getOpaque index =>
      match e.result, dao.getOpaque s.stored index with
      | .done, some content => (s.answer (.read index content), [])
      | _, _ => (s.answer (.notRead index), [])

/-- A request comes in. -/
def receive (s : OpaqueState σ) : OpaqueEvent → OpaqueState σ × List OpaqueCall
  | .setOpaqueData content =>
      if c.refuses content then (s.answer (.badRequest content), [])
      else ({ s with accepted := s.accepted + 1 },
        [.setOpaque content (hash content).toUInt64 10])
  | .getOpaqueData index => (s, [.getOpaque index])

/-- All requests, their calls in any order -/
def system : CallSystem (OpaqueState σ) OpaqueCall OpaqueEffect OpaqueEvent where
  next s call e := some (next dao s e call)
  env p event := some (c.receive p.shared event)

/-- No request has come in yet. -/
def start (stored : σ) : Pool (OpaqueState σ) OpaqueCall := ⟨{ stored := stored }, []⟩

/-! ## Indices -/

/-- The hash is the low half. -/
theorem toUInt32_withRandom (h r : UInt32) : (withRandom h r).toUInt32 = h := by
  have hlow : r.toNat * 2 ^ 32 % 2 ^ 64 % 2 ^ 32 = 0 := by omega
  rw [← UInt32.toNat_inj, UInt64.toNat_toUInt32, withRandom, UInt64.toNat_or, UInt64.toNat_shiftLeft,
    UInt32.toNat_toUInt64, UInt32.toNat_toUInt64, Nat.or_mod_two_pow, Nat.shiftLeft_eq]
  show h.toNat % 2 ^ 32 ||| r.toNat * 2 ^ 32 % 2 ^ 64 % 2 ^ 32 = h.toNat
  rw [hlow, Nat.or_zero, Nat.mod_eq_of_lt h.toNat_lt]

/-- The number of an index is read from it. -/
theorem decode_encodedIndex (index out : UInt64) :
    AnyBase.decode (encodedIndex index) kIndexBase out = (true, index) := by
  have hbase : (AnyBase.converted kIndexBase).toNat = 62 := by decide
  have hlt : index.toNat < 62 ^ (63 + 1) :=
    index.toNat_lt.trans_le (Nat.pow_le_pow_left (by decide : 2 ≤ 62) 64)
  have hdigits : ∀ d ∈ (AnyBase.digits 62 index.toNat).reverse, d < 62 := by
    intro d hd
    exact AnyBase.digits_lt (by decide) d (List.mem_reverse.mp hd)
  have hencoded : encodedIndex index =
      (AnyBase.digits 62 index.toNat).reverse.map AnyBase.symbol := by
    have hrounds : (AnyBase.digits (AnyBase.converted kIndexBase).toNat index.toNat).length ≤ 64 := by
      rw [hbase]
      exact AnyBase.length_digits_le (by decide) hlt
    have hloop := AnyBase.encodeLoop_eq (by rw [hbase]; decide) (by rw [hbase]) hrounds []
    rw [hbase] at hloop
    unfold encodedIndex AnyBase.encode
    rw [if_neg (by decide), hloop]
    simp [Except.map]
  rw [hencoded, AnyBase.decode, if_neg (by decide)]
  refine (AnyBase.decodeLoop_eq hdigits 0).trans ?_
  rw [hbase, AnyBase.foldl_reverse_digits, UInt64.ofNat_toNat]

/-- An index that is handed out for a content: it is a number whose low half is the hash. -/
def Shows (index content : Bytes) : Prop :=
  ∃ n : UInt64, AnyBase.decode index kIndexBase 0 = (true, n) ∧ n.toUInt32 = hash content

theorem shows_encodedIndex {index : UInt64} {content : Bytes}
    (h : index.toUInt32 = hash content) : Shows (encodedIndex index) content :=
  ⟨index, decode_encodedIndex index 0, h⟩

/-! ## What is kept -/

/-- What is stored, and what was answered, agree. -/
structure Sound (s : OpaqueState σ) : Prop where
  stored : ∀ content index, .stored content index ∈ s.answers →
    dao.getOpaque s.stored index = some content
  read : ∀ index content, .read index content ∈ s.answers →
    dao.getOpaque s.stored index = some content
  once : (s.answers.filterMap OpaqueAnswer.handedOut).Nodup

section Lawful

variable {dao} {s : OpaqueState σ}

/-- A content that is stored stays. -/
theorem getOpaque_setOpaque (hdao : dao.Lawful) (key value : Bytes) {k v : Bytes}
    (h : dao.getOpaque s.stored k = some v) :
    dao.getOpaque (dao.setOpaque s.stored key value).2 k = some v := by
  rcases eq_or_ne k key with rfl | hne
  · rw [hdao.get_set, h]
    rfl
  · rw [hdao.get_set_ne _ _ _ _ hne, h]

/-- A content is stored, or is not. -/
theorem Sound.setOpaque (hs : Sound dao s) (hdao : dao.Lawful) (key value : Bytes) :
    Sound dao { s with stored := (dao.setOpaque s.stored key value).2 } where
  stored content index h := getOpaque_setOpaque hdao key value (hs.stored content index h)
  read index content h := getOpaque_setOpaque hdao key value (hs.read index content h)
  once := hs.once

/-- An answer that says nothing of the store -/
theorem Sound.answer (hs : Sound dao s) {a : OpaqueAnswer} (hstored : ∀ c i, a ≠ .stored c i)
    (hread : ∀ i c, a ≠ .read i c) : Sound dao (s.answer a) where
  stored content index h := by
    rcases List.mem_cons.mp h with rfl | h
    · exact absurd rfl (hstored content index)
    · exact hs.stored content index h
  read index content h := by
    rcases List.mem_cons.mp h with rfl | h
    · exact absurd rfl (hread index content)
    · exact hs.read index content h
  once := by
    have hnone : a.handedOut = none := by
      cases a with
      | stored content index => exact absurd rfl (hstored content index)
      | _ => rfl
    show ((a :: s.answers).filterMap OpaqueAnswer.handedOut).Nodup
    rw [List.filterMap_cons_none hnone]
    exact hs.once

/-- An index that was free is handed out. -/
theorem Sound.answer_stored (hs : Sound dao s) (hdao : dao.Lawful) {key content : Bytes}
    (hfree : dao.getOpaque s.stored key = none) :
    Sound dao ({ s with stored := (dao.setOpaque s.stored key content).2 }.answer
      (.stored content key)) where
  stored content' index h := by
    rcases List.mem_cons.mp h with h | h
    · cases h
      show dao.getOpaque (dao.setOpaque s.stored key content).2 key = some content
      rw [hdao.get_set, hfree]
      rfl
    · exact getOpaque_setOpaque hdao key content (hs.stored content' index h)
  read index content' h := by
    rcases List.mem_cons.mp h with h | h
    · cases h
    · exact getOpaque_setOpaque hdao key content (hs.read index content' h)
  once := by
    show (key :: s.answers.filterMap OpaqueAnswer.handedOut).Nodup
    rw [List.nodup_cons]
    refine ⟨?_, hs.once⟩
    intro hmem
    rcases List.mem_filterMap.mp hmem with ⟨a, ha, hkey⟩
    cases a with
    | stored content' index =>
        cases hkey
        rw [hs.stored content' key ha] at hfree
        cases hfree
    | _ => cases hkey

/-- A content is read. -/
theorem Sound.answer_read (hs : Sound dao s) {index content : Bytes}
    (hget : dao.getOpaque s.stored index = some content) :
    Sound dao (s.answer (.read index content)) where
  stored content' index' h := by
    rcases List.mem_cons.mp h with h | h
    · cases h
    · exact hs.stored content' index' h
  read index' content' h := by
    rcases List.mem_cons.mp h with h | h
    · cases h
      exact hget
    · exact hs.read index' content' h
  once := hs.once

/-- The next call of a request -/
theorem sound_next (hs : Sound dao s) (hdao : dao.Lawful) (e : OpaqueEffect) (call : OpaqueCall) :
    Sound dao (next dao s e call).1 := by
  cases call with
  | setOpaque content index remainTimes =>
      -- the count of the calls is not looked at
      have hs : Sound dao { s with attempts := s.attempts + 1 } := ⟨hs.stored, hs.read, hs.once⟩
      simp only [next]
      cases e.result with
      | failed => exact hs.answer (by simp) (by simp)
      | lost => exact (hs.setOpaque hdao _ _).answer (by simp) (by simp)
      | done =>
          simp only
          split_ifs with hexisted htry
          · have hfree : dao.getOpaque s.stored (encodedIndex index) = none := by
              rw [hdao.existed] at hexisted
              simpa using hexisted
            exact hs.answer_stored hdao hfree
          · exact hs.setOpaque hdao _ _
          · exact (hs.setOpaque hdao _ _).answer (by simp) (by simp)
  | getOpaque index =>
      simp only [next]
      split
      · rename_i content _ hget
        exact hs.answer_read hget
      · exact hs.answer (by simp) (by simp)

/-- A request comes in. -/
theorem sound_receive (hs : Sound dao s) (event : OpaqueEvent) :
    Sound dao (c.receive s event).1 := by
  cases event with
  | setOpaqueData content =>
      simp only [receive]
      split_ifs
      · exact hs.answer (by simp) (by simp)
      · exact ⟨hs.stored, hs.read, hs.once⟩
  | getOpaqueData index => exact hs

end Lawful

/-- In every order of requests: what was stored under an index that was handed out stays there, and
every reader of the index has got it, before or later; no index is handed out twice. -/
theorem opaque_kept (c : OpaqueDataController F) (dao : OpaqueData σ) (hdao : dao.Lawful)
    {stored : σ} {schedule : List (Sched OpaqueEffect OpaqueEvent)}
    {p : Pool (OpaqueState σ) OpaqueCall}
    (hrun : (c.system dao).machine.run (start stored) schedule = some p) :
    (∀ content index, .stored content index ∈ p.shared.answers →
      dao.getOpaque p.shared.stored index = some content ∧
        ∀ content', .read index content' ∈ p.shared.answers → content' = content) ∧
      (p.shared.answers.filterMap OpaqueAnswer.handedOut).Nodup := by
  have hsound : Sound dao p.shared := by
    refine (c.system dao).reachable_invariant (fun p => Sound dao p.shared) ?_ ?_ ?_ hrun
    · intro p q call rest e s ks hp _ hnext hs _
      have hs' : (next dao p.shared e call).1 = s := congrArg Prod.fst (Option.some.inj hnext)
      rw [hs, ← hs']
      exact sound_next hp hdao e call
    · intro p event s ks hp hreceive
      have hs' : (c.receive p.shared event).1 = s := congrArg Prod.fst (Option.some.inj hreceive)
      show Sound dao s
      rw [← hs']
      exact sound_receive c hp event
    · constructor <;> simp [start]
  refine ⟨?_, hsound.once⟩
  intro content index hstored
  have hget := hsound.stored content index hstored
  refine ⟨hget, ?_⟩
  intro content' hread
  exact Option.some.inj ((hsound.read index content' hread).symm.trans hget)

/-- Rows, of which the first one with a key counts -/
def listedOpaque : OpaqueData (List (Bytes × Bytes)) where
  getOpaque s key := s.lookup key
  setOpaque s key value := if (s.lookup key).isSome then (true, s) else (false, (key, value) :: s)

theorem lawful_listedOpaque : listedOpaque.Lawful where
  existed s key value := by
    simp only [listedOpaque]
    split_ifs with hsome
    · exact hsome.symm
    · exact (Bool.eq_false_of_not_eq_true hsome).symm
  get_set s key value := by
    simp only [listedOpaque]
    split_ifs with hsome
    · rcases Option.isSome_iff_exists.mp hsome with ⟨v, hv⟩
      rw [hv]
      rfl
    · rw [Option.not_isSome_iff_eq_none.mp hsome, List.lookup_cons_self]
      rfl
  get_set_ne s key value k hne := by
    simp only [listedOpaque]
    split_ifs
    · rfl
    · rw [List.lookup_cons, beq_false_of_ne hne]

def plainOpaque : OpaqueDataController (List (Bytes × Bytes)) :=
  ⟨Http.External.ofList (fun s => s) Crypto.Base64.readDigits⟩

/-- The Base64 of three bytes -/
def smallContent : Bytes := Util.Base64.encode [66, 99, 109]

/-- A content is stored twice, and read. -/
def storesTwice : List (Sched OpaqueEffect OpaqueEvent) :=
  [.env (.setOpaqueData smallContent), .env (.setOpaqueData smallContent), .call 0 {},
    .call 0 { random := 7 }, .call 0 {},
    .env (.getOpaqueData (encodedIndex (hash smallContent).toUInt64)), .call 0 {}]

theorem opaque_kept_twice : ∃ p,
    (plainOpaque.system listedOpaque).machine.run (start []) storesTwice = some p ∧
      p.shared.answers =
        [.read (encodedIndex (hash smallContent).toUInt64) smallContent,
          .stored smallContent (encodedIndex (withRandom (hash smallContent) 7)),
          .stored smallContent (encodedIndex (hash smallContent).toUInt64)] ∧
      (p.shared.answers.filterMap OpaqueAnswer.handedOut).Nodup := by
  have hanswers : ((plainOpaque.system listedOpaque).machine.run (start []) storesTwice).map
      (fun p => p.shared.answers) = some
        [.read (encodedIndex (hash smallContent).toUInt64) smallContent,
          .stored smallContent (encodedIndex (withRandom (hash smallContent) 7)),
          .stored smallContent (encodedIndex (hash smallContent).toUInt64)] := by decide +kernel
  rcases Option.map_eq_some_iff.mp hanswers with ⟨p, hp, hanswers⟩
  exact ⟨p, hp, hanswers, (opaque_kept plainOpaque listedOpaque lawful_listedOpaque hp).2⟩

/-! ## Where it is kept -/

/-- The index of the hash itself -/
def ownIndex (content : Bytes) : Bytes := encodedIndex (hash content).toUInt64

/-- The index of the hash itself is taken. -/
def Taken (s : OpaqueState σ) (content : Bytes) : Prop :=
  ∃ other, dao.getOpaque s.stored (ownIndex content) = some other

/-- Every content was accepted, and its index shows its hash. -/
def Addressed (s : OpaqueState σ) : Prop :=
  ∀ index content, dao.getOpaque s.stored index = some content →
    c.refuses content = false ∧ Shows index content ∧
      (index = ownIndex content ∨ Taken dao s content)

/-- The same of a content that is about to be stored, which has a try left -/
def CallAddressed (s : OpaqueState σ) : OpaqueCall → Prop
  | .setOpaque content index remainTimes =>
      c.refuses content = false ∧ index.toUInt32 = hash content ∧
        (index = (hash content).toUInt64 ∨ Taken dao s content) ∧ 0 < remainTimes
  | .getOpaque _ => True

/-- The tries that a request has left -/
def remaining : OpaqueCall → ℕ
  | .setOpaque _ _ remainTimes => remainTimes
  | .getOpaque _ => 0

/-- The invariant: the tries that are left are of the ten for each content. -/
structure Inv (p : Pool (OpaqueState σ) OpaqueCall) : Prop where
  stored : Addressed c dao p.shared
  calls : ∀ call ∈ p.calls, CallAddressed c dao p.shared call
  tries : p.shared.attempts + (p.calls.map remaining).sum ≤ 10 * p.shared.accepted

/-- The store has grown. -/
def Grown (s s' : OpaqueState σ) : Prop :=
  ∀ index content, dao.getOpaque s.stored index = some content →
    dao.getOpaque s'.stored index = some content

/-- What a call to the store leaves: the request goes on with a try less, or is over. -/
structure Advanced (s : OpaqueState σ) (call : OpaqueCall) (r : OpaqueState σ × List OpaqueCall) :
    Prop where
  grown : Grown dao s r.1
  stored : Addressed c dao r.1
  calls : ∀ k ∈ r.2, CallAddressed c dao r.1 k
  tries : r.1.attempts + (r.2.map remaining).sum ≤ s.attempts + remaining call
  accepted : r.1.accepted = s.accepted

section Addressed

variable {c dao} {s : OpaqueState σ}

theorem CallAddressed.grown {s' : OpaqueState σ} {call : OpaqueCall}
    (h : CallAddressed c dao s call) (hgrown : Grown dao s s') : CallAddressed c dao s' call := by
  cases call with
  | setOpaque content index remainTimes =>
      rcases h with ⟨haccepted, hlow, hown, hpos⟩
      refine ⟨haccepted, hlow, hown.imp_right ?_, hpos⟩
      rintro ⟨other, hother⟩
      exact ⟨other, hgrown _ _ hother⟩
  | getOpaque index => trivial

/-- A content is stored under its index, if that is free. -/
theorem Addressed.setOpaque (hs : Addressed c dao s) (hdao : dao.Lawful) {content : Bytes}
    {index : UInt64} {remainTimes : ℕ}
    (hcall : CallAddressed c dao s (.setOpaque content index remainTimes)) (s' : OpaqueState σ)
    (hs' : s'.stored = (dao.setOpaque s.stored (encodedIndex index) content).2) :
    Grown dao s s' ∧ Addressed c dao s' := by
  rcases hcall with ⟨haccepted, hlow, hown, -⟩
  have hgrown : Grown dao s s' := by
    intro k v hget
    rw [hs']
    exact getOpaque_setOpaque hdao _ _ hget
  refine ⟨hgrown, ?_⟩
  -- what was there is as it was, and what was not is the content
  have hold : ∀ k v, dao.getOpaque s.stored k = some v → c.refuses v = false ∧ Shows k v ∧
      (k = ownIndex v ∨ Taken dao s' v) := by
    intro k v hget
    rcases hs k v hget with ⟨haccepted', hshows, hown'⟩
    refine ⟨haccepted', hshows, hown'.imp_right ?_⟩
    rintro ⟨other, hother⟩
    exact ⟨other, hgrown _ _ hother⟩
  intro k v hget
  rw [hs'] at hget
  rcases eq_or_ne k (encodedIndex index) with rfl | hne
  · rw [hdao.get_set] at hget
    cases hfree : dao.getOpaque s.stored (encodedIndex index) with
    | some v' =>
        rw [hfree] at hget
        exact hold _ v (hfree.trans hget)
    | none =>
        rw [hfree] at hget
        have hv : content = v := Option.some.inj hget
        rw [← hv]
        refine ⟨haccepted, shows_encodedIndex hlow, ?_⟩
        rcases hown with rfl | ⟨other, hother⟩
        · exact Or.inl rfl
        · exact Or.inr ⟨other, hgrown _ _ hother⟩
  · rw [hdao.get_set_ne _ _ _ _ hne] at hget
    exact hold k v hget

/-- Nothing follows. -/
theorem advanced_nil {call : OpaqueCall} {s' : OpaqueState σ} (hgrown : Grown dao s s')
    (hstored : Addressed c dao s') (htries : s'.attempts ≤ s.attempts + remaining call)
    (haccepted : s'.accepted = s.accepted) : Advanced c dao s call (s', []) where
  grown := hgrown
  stored := hstored
  calls := by simp
  tries := by simpa using htries
  accepted := haccepted

theorem advanced_next (hs : Addressed c dao s) (hdao : dao.Lawful) (e : OpaqueEffect)
    {call : OpaqueCall} (hcall : CallAddressed c dao s call) :
    Advanced c dao s call (next dao s e call) := by
  have hsame : Grown dao s s := fun _ _ hget => hget
  cases call with
  | setOpaque content index remainTimes =>
      have hset := hs.setOpaque hdao hcall
      rcases hcall with ⟨haccepted, hlow, hown, hpos⟩
      have htries : s.attempts + 1 ≤ s.attempts + remaining (.setOpaque content index remainTimes) :=
        Nat.add_le_add_left hpos s.attempts
      simp only [next]
      cases e.result with
      | failed => exact advanced_nil hsame hs htries rfl
      | lost => exact advanced_nil (hset _ rfl).1 (hset _ rfl).2 htries rfl
      | done =>
          simp only
          split_ifs with hexisted htry
          · exact advanced_nil (hset _ rfl).1 (hset _ rfl).2 htries rfl
          · refine ⟨(hset _ rfl).1, (hset _ rfl).2, ?_, ?_, rfl⟩
            · intro k hk
              rw [List.mem_singleton.mp hk]
              refine ⟨haccepted, toUInt32_withRandom _ _, Or.inr ?_, htry⟩
              rcases hown with rfl | ⟨other, hother⟩
              · rw [hdao.existed, Bool.not_eq_true, Bool.not_eq_false',
                  Option.isSome_iff_exists] at hexisted
                rcases hexisted with ⟨other, hother⟩
                exact ⟨other, (hset _ rfl).1 _ _ hother⟩
              · exact ⟨other, (hset _ rfl).1 _ _ hother⟩
            · simp only [List.map_cons, List.map_nil, List.sum_cons, List.sum_nil, remaining]
              omega
          · exact advanced_nil (hset _ rfl).1 (hset _ rfl).2 htries rfl
  | getOpaque index =>
      simp only [next]
      split
      · exact advanced_nil hsame hs (Nat.le_add_right _ _) rfl
      · exact advanced_nil hsame hs (Nat.le_add_right _ _) rfl

theorem inv_next (hdao : dao.Lawful) {p q : Pool (OpaqueState σ) OpaqueCall} (hp : Inv c dao p)
    {call : OpaqueCall} {rest ks : List OpaqueCall} (hperm : p.calls.Perm (call :: rest))
    {e : OpaqueEffect} (hnext : next dao p.shared e call = (s, ks)) (hs : q.shared = s)
    (hks : q.calls.Perm (ks ++ rest)) : Inv c dao q := by
  have hadvanced := advanced_next hp.stored hdao e
    (hp.calls call (hperm.mem_iff.mpr List.mem_cons_self))
  rw [hnext] at hadvanced
  have hsum : (p.calls.map remaining).sum = remaining call + (rest.map remaining).sum := by
    rw [(hperm.map remaining).sum_eq, List.map_cons, List.sum_cons]
  have hsum' : (q.calls.map remaining).sum = (ks.map remaining).sum + (rest.map remaining).sum := by
    rw [(hks.map remaining).sum_eq, List.map_append, List.sum_append]
  have htries := hp.tries
  have htries' := hadvanced.tries
  have haccepted := hadvanced.accepted
  simp only at htries' haccepted
  constructor
  · rw [hs]
    exact hadvanced.stored
  · intro k hk
    rw [hs]
    rcases List.mem_append.mp (hks.mem_iff.mp hk) with hk | hk
    · exact hadvanced.calls k hk
    · exact (hp.calls k (hperm.mem_iff.mpr (List.mem_cons_of_mem call hk))).grown hadvanced.grown
  · rw [hs, hsum', haccepted]
    omega

theorem inv_receive {p : Pool (OpaqueState σ) OpaqueCall} (hp : Inv c dao p) (event : OpaqueEvent) :
    Inv c dao ⟨(c.receive p.shared event).1, p.calls ++ (c.receive p.shared event).2⟩ := by
  have htries := hp.tries
  cases event with
  | setOpaqueData content =>
      simp only [receive]
      split_ifs with hrefused
      · refine ⟨hp.stored, ?_, ?_⟩
        · intro call hcall
          rw [List.append_nil] at hcall
          exact (hp.calls call hcall).grown fun _ _ hget => hget
        · rw [List.append_nil]
          exact htries
      · refine ⟨hp.stored, ?_, ?_⟩
        · intro call hcall
          rcases List.mem_append.mp hcall with hcall | hcall
          · exact hp.calls call hcall
          · rw [List.mem_singleton.mp hcall]
            exact ⟨Bool.eq_false_of_not_eq_true hrefused, UInt32.toUInt32_toUInt64 _, Or.inl rfl,
              by decide⟩
        · simp only [List.map_append, List.sum_append, List.map_cons, List.map_nil,
            List.sum_cons, List.sum_nil, remaining]
          omega
  | getOpaqueData index =>
      refine ⟨hp.stored, ?_, ?_⟩
      · intro call hcall
        rcases List.mem_append.mp hcall with hcall | hcall
        · exact hp.calls call hcall
        · rw [List.mem_singleton.mp hcall]
          trivial
      · simpa [receive, remaining] using htries

end Addressed

/-- In every order of requests, from a store that is as they leave it: every index shows the hash of
the content that is stored under it, and is that of the hash itself unless this one is taken; every
content was accepted; and the calls to store one are ten at most for each. -/
theorem index_shows_hash (c : OpaqueDataController F) (dao : OpaqueData σ) (hdao : dao.Lawful)
    {stored : σ} (hstored : Addressed c dao { stored := stored })
    {schedule : List (Sched OpaqueEffect OpaqueEvent)} {p : Pool (OpaqueState σ) OpaqueCall}
    (hrun : (c.system dao).machine.run (start stored) schedule = some p) :
    Addressed c dao p.shared ∧ p.shared.attempts ≤ 10 * p.shared.accepted := by
  have hinv : Inv c dao p := by
    refine (c.system dao).reachable_invariant (Inv c dao) ?_ ?_ ⟨hstored, ?_, ?_⟩ hrun
    · intro p q call rest e s ks hp hperm hnext hs hks
      exact inv_next hdao hp hperm (Option.some.inj hnext) hs hks
    · intro p event s ks hp hreceive
      have hr : c.receive p.shared event = (s, ks) := Option.some.inj hreceive
      have hinv := inv_receive hp event
      rw [hr] at hinv
      exact hinv
    · simp [start]
    · simp [start]
  exact ⟨hinv.stored, (Nat.le_add_right _ _).trans hinv.tries⟩

theorem index_shows_hash_twice : ∃ p,
    (plainOpaque.system listedOpaque).machine.run (start []) storesTwice = some p ∧
      p.shared.stored.length = 2 ∧ Addressed plainOpaque listedOpaque p.shared ∧
      p.shared.attempts ≤ 10 * p.shared.accepted := by
  have hlength : ((plainOpaque.system listedOpaque).machine.run (start []) storesTwice).map
      (fun p => p.shared.stored.length) = some 2 := by decide +kernel
  rcases Option.map_eq_some_iff.mp hlength with ⟨p, hp, hlength⟩
  have hempty : Addressed plainOpaque listedOpaque { stored := [] } := by
    intro index content hget
    cases hget
  exact ⟨p, hp, hlength, index_shows_hash plainOpaque listedOpaque lawful_listedOpaque hempty hp⟩

end OpaqueDataController

end BcmServer.Controllers
