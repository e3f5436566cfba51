import BcmServer.Crypto.Base64
import BcmServer.Redis.RedisClientSync

/-!
# BcmServer.Store.ContactTokenManager — contacts by their tokens

The uids of a token are a set in redis, whose key has the token that was decoded. Many
tokens are asked for together: their keys are a set, and each key that is found is put
under a token with that key, the last one of the list.

`getByTokens_agrees_iff`: many tokens are looked up as each of them alone if and only if
there are some, and either all are answered and none that is found stands in the list in two
encodings, or the lookup fails for all and none would be found alone.

The servers stay as they are and accept their passwords (`TokenStore`).
-/

namespace BcmServer.Store

open Util Lts Redis Http

variable {F : Type} (ext : External F)

/-- The servers of the tokens, which stay as they are and accept their passwords -/
structure TokenStore where
  cluster : Cluster Unit
  accepts : ∀ s ∈ cluster, s.Accepts

/-- `ContactMap` -/
abbrev ContactMap := Bytes → Option (List Bytes)

namespace ContactTokenManager

def kKeyPrefix : Bytes := ascii "contact".toList

def decodeToken (encoded : Bytes) : Bytes := Auth.Base64.decode ext encoded true

def getKeyByToken (token : Bytes) : Bytes := kKeyPrefix ++ token

section Lookup

variable {σ : Type}

/-- `getByToken`, with the `uids` that are passed in and out -/
def getByToken (fuel : ℕ) (encodedToken : Bytes) (uids : List Bytes) :
    Fueled ConnFault (Cluster σ) (Bool × List Bytes) :=
  RedisClientSync.smembers fuel (getKeyByToken (decodeToken ext encodedToken)) uids

/-- `decodedTokens`: the keys -/
def decodedTokens (encodedTokens : List Bytes) : Finset Bytes :=
  (encodedTokens.map fun encodedToken => getKeyByToken (decodeToken ext encodedToken)).toFinset

/-- `tokensMap`, as `operator[]` reads it -/
def tokensMap (encodedTokens : List Bytes) : Bytes → Bytes :=
  encodedTokens.foldl
    (fun m encodedToken =>
      Function.update m (getKeyByToken (decodeToken ext encodedToken)) encodedToken)
    fun _ => []

/-- The loop over `innerMap`. It goes through the keys in an order of its own, here in theirs. -/
def putTokens (tokensMap : Bytes → Bytes) (innerMap : ContactMap) (keys : List Bytes)
    (uidsMap : ContactMap) : ContactMap :=
  keys.foldl (fun m key =>
    match innerMap key with
    | none => m
    | some uids => Function.update m (tokensMap key) (some uids)) uidsMap

def getByTokens (fuel : ℕ) (encodedTokens : List Bytes) (uidsMap : ContactMap) :
    Fueled ConnFault (Cluster σ) (Bool × ContactMap) := do
  let keys := decodedTokens ext encodedTokens
  let result ← RedisClientSync.smembersBatch fuel keys fun _ => none
  if !result.1 then return (false, uidsMap)
  return (true, putTokens (tokensMap ext encodedTokens) result.2 (inOrder keys) uidsMap)

end Lookup

/-! ## Tokens of keys -/

/-- The key of a token -/
abbrev keyOf (encodedToken : Bytes) : Bytes := getKeyByToken (decodeToken ext encodedToken)

variable {ext} {tokens : List Bytes}

theorem keyOf_eq_iff {t t' : Bytes} :
    keyOf ext t = keyOf ext t' ↔ decodeToken ext t = decodeToken ext t' :=
  List.append_right_inj kKeyPrefix

theorem mem_decodedTokens {key : Bytes} :
    key ∈ decodedTokens ext tokens ↔ ∃ t ∈ tokens, keyOf ext t = key := by
  simp [decodedTokens]

/-- A key of the list has a token of the list. -/
theorem tokensMap_spec {key : Bytes} (h : key ∈ decodedTokens ext tokens) :
    tokensMap ext tokens key ∈ tokens ∧ keyOf ext (tokensMap ext tokens key) = key := by
  induction tokens using List.reverseRecOn with
  | nil => simp [decodedTokens] at h
  | append_singleton tokens t ih =>
      rw [tokensMap, List.foldl_append, List.foldl_cons, List.foldl_nil]
      by_cases hkey : key = keyOf ext t
      · subst hkey
        rw [Function.update_self]
        exact ⟨List.mem_append_right tokens List.mem_cons_self, rfl⟩
      · rw [Function.update_of_ne hkey]
        obtain ⟨t', ht', hkey'⟩ := mem_decodedTokens.mp h
        rcases List.mem_append.mp ht' with ht' | ht'
        · obtain ⟨hmem, hspec⟩ := ih (mem_decodedTokens.mpr ⟨t', ht', hkey'⟩)
          exact ⟨List.mem_append_left _ hmem, hspec⟩
        · rw [List.mem_singleton.mp ht'] at hkey'
          exact absurd hkey'.symm hkey

/-- A token gets what was found of its key, if it is the token of the key. -/
theorem putTokens_apply {innerMap uidsMap : ContactMap} {keys : List Bytes}
    (hkeys : ∀ key ∈ keys, key ∈ decodedTokens ext tokens) (t : Bytes) :
    putTokens (tokensMap ext tokens) innerMap keys uidsMap t =
      if keyOf ext t ∈ keys ∧ tokensMap ext tokens (keyOf ext t) = t then
        (innerMap (keyOf ext t)).or (uidsMap t)
      else uidsMap t := by
  induction keys using List.reverseRecOn with
  | nil => simp [putTokens]
  | append_singleton keys key ih =>
      have ih := ih fun key' hkey' => hkeys key' (List.mem_append_left _ hkey')
      obtain ⟨-, hspec⟩ := tokensMap_spec (hkeys key (List.mem_append_right _ List.mem_cons_self))
      rw [putTokens, List.foldl_append, List.foldl_cons, List.foldl_nil]
      show (match innerMap key with
        | none => putTokens (tokensMap ext tokens) innerMap keys uidsMap
        | some uids => Function.update (putTokens (tokensMap ext tokens) innerMap keys uidsMap)
            (tokensMap ext tokens key) (some uids)) t = _
      cases hinner : innerMap key with
      | none =>
          refine ih.trans ?_
          by_cases hkey : keyOf ext t = key
          · simp [hkey, hinner]
          · simp [hkey]
      | some uids =>
          by_cases ht : t = tokensMap ext tokens key
          · subst ht
            simp [hspec, hinner]
          · -- another token, whose key is another one or has this token
            have hother : ¬ (keyOf ext t = key ∧ tokensMap ext tokens (keyOf ext t) = t) := by
              rintro ⟨rfl, htoken⟩
              exact ht htoken.symm
            simp only [Function.update_of_ne ht, ih, List.mem_append, List.mem_singleton,
              or_and_right, hother, or_false]

/-! ## Looking tokens up -/

section Steady

variable (ext) (fuel : ℕ) (store : TokenStore)

/-- What `getByToken` returns for a token -/
def Looked (t : Bytes) (result : Bool × List Bytes) : Prop :=
  ∃ c, getByToken ext fuel t [] store.cluster = some (.ok result, c)

/-- The flag and the map of many tokens, next to what each token is looked up with: the flag is
whether all lookups succeed, and the map gets the tokens that are found. -/
structure Agrees (tokens : List Bytes) (uidsMap : ContactMap) (flag : Bool) (m : ContactMap) :
    Prop where
  flag : flag = true ↔ ∀ t ∈ tokens, ∃ uids, Looked ext fuel store t (true, uids)
  found : ∀ t ∈ tokens, ∀ uids ≠ [], Looked ext fuel store t (true, uids) → m t = some uids
  kept : ∀ t, (t ∈ tokens → ∀ uids, Looked ext fuel store t (true, uids) → uids = []) →
    m t = uidsMap t

/-- The members of a token's set, if it can be asked for -/
def uidsOf (t : Bytes) : Option (List Bytes) := RedisClientSync.members store.cluster (keyOf ext t)

/-- Nothing is asked for: there is no server, or one of the tokens has a connection that was
dropped. -/
def Refused (tokens : List Bytes) : Prop :=
  store.cluster = [] ∨ ∃ t ∈ tokens, RedisClientSync.Dropped store.cluster (keyOf ext t)

/-- No token that has members stands in the list in two encodings. -/
def EncodedOnce (tokens : List Bytes) : Prop :=
  ∀ t ∈ tokens, ∀ t' ∈ tokens, decodeToken ext t = decodeToken ext t' → t ≠ t' →
    ∀ uids, uidsOf ext store t = some uids → uids = []

variable {ext} {fuel} {store} {uidsMap : ContactMap}

theorem looked_iff {t : Bytes} {uids : List Bytes} :
    Looked ext (fuel + 1) store t (true, uids) ↔ uidsOf ext store t = some uids := by
  obtain ⟨c, hc⟩ := RedisClientSync.smembers_steady store.accepts fuel (keyOf ext t) []
  constructor
  · rintro ⟨c', hc'⟩
    have heq := congrArg Prod.fst (Option.some.inj (hc.symm.trans hc'))
    have hreturned := Except.ok.inj heq
    show RedisClientSync.members store.cluster (keyOf ext t) = some uids
    cases hmembers : RedisClientSync.members store.cluster (keyOf ext t) with
    | none =>
        rw [hmembers] at hreturned
        cases hreturned
    | some members =>
        rw [hmembers] at hreturned
        exact congrArg some (congrArg Prod.snd hreturned)
  · intro h
    refine ⟨c, hc.trans ?_⟩
    have hmembers : RedisClientSync.members store.cluster (keyOf ext t) = some uids := h
    rw [hmembers]
    rfl

/-- What a token of the list gets, if it is the last one of its key -/
theorem putTokens_found {t : Bytes} (ht : t ∈ tokens) :
    putTokens (tokensMap ext tokens)
        (RedisClientSync.found store.cluster (decodedTokens ext tokens))
        (inOrder (decodedTokens ext tokens)) uidsMap t =
      if tokensMap ext tokens (keyOf ext t) = t then
        ((uidsOf ext store t).filter (· ≠ [])).or (uidsMap t)
      else uidsMap t := by
  have hkey : keyOf ext t ∈ decodedTokens ext tokens := mem_decodedTokens.mpr ⟨t, ht, rfl⟩
  rw [putTokens_apply fun key hkey => mem_inOrder.mp hkey]
  simp only [mem_inOrder, hkey, true_and, RedisClientSync.found, if_true]
  rfl

theorem putTokens_of_notMem {t : Bytes} (ht : t ∉ tokens) (innerMap : ContactMap) :
    putTokens (tokensMap ext tokens) innerMap (inOrder (decodedTokens ext tokens)) uidsMap t =
      uidsMap t := by
  rw [putTokens_apply fun key hkey => mem_inOrder.mp hkey]
  refine if_neg fun ⟨hkey, htoken⟩ => ht ?_
  rw [← htoken]
  exact (tokensMap_spec (mem_inOrder.mp hkey)).1

/-- What `getByTokens` returns -/
theorem getByTokens_eq (ext : External F) (fuel : ℕ) (store : TokenStore) (tokens : List Bytes)
    (uidsMap : ContactMap) :
    ∃ flag c, getByTokens ext (fuel + 1) tokens uidsMap store.cluster = some (.ok (flag,
        if flag then putTokens (tokensMap ext tokens)
          (RedisClientSync.found store.cluster (decodedTokens ext tokens))
          (inOrder (decodedTokens ext tokens)) uidsMap
        else uidsMap), c) ∧
      (flag = true ↔ tokens ≠ [] ∧ ¬ Refused ext store tokens) := by
  obtain ⟨flag, c, hc, hflag⟩ :=
    RedisClientSync.smembersBatch_steady store.accepts fuel (decodedTokens ext tokens)
  refine ⟨flag, c, ?_, ?_⟩
  · rw [getByTokens, Fueled.bind_ok hc]
    cases flag <;> rfl
  · have hkeys : (decodedTokens ext tokens).Nonempty ↔ tokens ≠ [] := by
      simp [decodedTokens, List.toFinset_nonempty_iff]
    have hdropped : (∀ key ∈ decodedTokens ext tokens,
        ¬ RedisClientSync.Dropped store.cluster key) ↔
        ¬ ∃ t ∈ tokens, RedisClientSync.Dropped store.cluster (keyOf ext t) := by
      simp [decodedTokens]
    rw [hflag, hkeys, hdropped, Refused, not_or, and_left_comm]

/-- A lookup that is refused fails for one of the tokens alone. -/
theorem uidsOf_of_refused (htokens : tokens ≠ []) (h : Refused ext store tokens) :
    ∃ t ∈ tokens, uidsOf ext store t = none := by
  rcases h with hnil | ⟨t, ht, hdropped⟩
  · obtain ⟨t, ht⟩ := List.exists_mem_of_ne_nil tokens htokens
    refine ⟨t, ht, ?_⟩
    rw [uidsOf, hnil, RedisClientSync.members_nil]
  · exact ⟨t, ht, RedisClientSync.members_of_dropped hdropped⟩

/-- The tokens are found: each that has members is the token of its key. -/
theorem agrees_of_answered (hall : ∀ t ∈ tokens, uidsOf ext store t ≠ none)
    (honce : EncodedOnce ext store tokens) :
    Agrees ext (fuel + 1) store tokens uidsMap true (putTokens (tokensMap ext tokens)
      (RedisClientSync.found store.cluster (decodedTokens ext tokens))
      (inOrder (decodedTokens ext tokens)) uidsMap) where
  flag := by
    refine iff_of_true rfl fun t ht => ?_
    obtain ⟨uids, huids⟩ := Option.ne_none_iff_exists'.mp (hall t ht)
    exact ⟨uids, looked_iff.mpr huids⟩
  found t ht uids hne hlooked := by
    have huids := looked_iff.mp hlooked
    have hkey : keyOf ext t ∈ decodedTokens ext tokens := mem_decodedTokens.mpr ⟨t, ht, rfl⟩
    obtain ⟨hmem, hspec⟩ := tokensMap_spec hkey
    have htoken : tokensMap ext tokens (keyOf ext t) = t := by
      by_contra hother
      exact hne (honce t ht _ hmem (keyOf_eq_iff.mp hspec.symm) (Ne.symm hother) uids huids)
    rw [putTokens_found ht, if_pos htoken, huids]
    simp [Option.filter, hne]
  kept t hkept := by
    by_cases ht : t ∈ tokens
    · obtain ⟨uids, huids⟩ := Option.ne_none_iff_exists'.mp (hall t ht)
      have hnil := hkept ht uids (looked_iff.mpr huids)
      rw [putTokens_found ht, huids, hnil]
      simp [Option.filter]
    · exact putTokens_of_notMem ht _

/-- Nothing is found, and nothing is to be. -/
theorem agrees_of_refused (htokens : tokens ≠ []) (h : Refused ext store tokens)
    (hnone : ∀ t ∈ tokens, ∀ uids, uidsOf ext store t = some uids → uids = []) :
    Agrees ext (fuel + 1) store tokens uidsMap false uidsMap where
  flag := by
    refine iff_of_false Bool.false_ne_true fun hall => ?_
    obtain ⟨t, ht, hfailed⟩ := uidsOf_of_refused htokens h
    obtain ⟨uids, hlooked⟩ := hall t ht
    rw [looked_iff.mp hlooked] at hfailed
    cases hfailed
  found t ht uids hne hlooked := absurd (hnone t ht uids (looked_iff.mp hlooked)) hne
  kept _ _ := rfl

/-- The lookups of a list agree, whatever is in the map. -/
def AgreesAlways (ext : External F) (fuel : ℕ) (store : TokenStore) (tokens : List Bytes) : Prop :=
  ∀ uidsMap, ∃ flag m c, getByTokens ext fuel tokens uidsMap store.cluster =
    some (.ok (flag, m), c) ∧ Agrees ext fuel store tokens uidsMap flag m

theorem agreesAlways_of_eq {flag : Bool} {m : ContactMap} {c : Cluster Unit}
    (h : AgreesAlways ext fuel store tokens)
    (heq : getByTokens ext fuel tokens uidsMap store.cluster = some (.ok (flag, m), c)) :
    Agrees ext fuel store tokens uidsMap flag m := by
  obtain ⟨flag', m', c', heq', hagrees⟩ := h uidsMap
  have hresult := Except.ok.inj (congrArg Prod.fst (Option.some.inj (heq'.symm.trans heq)))
  obtain ⟨rfl, rfl⟩ := Prod.mk.inj hresult
  exact hagrees

theorem encodedOnce_of_agrees (h : Agrees ext (fuel + 1) store tokens (fun _ => none) true
      (putTokens (tokensMap ext tokens)
        (RedisClientSync.found store.cluster (decodedTokens ext tokens))
        (inOrder (decodedTokens ext tokens)) fun _ => none)) :
    EncodedOnce ext store tokens := by
  intro t ht t' ht' hdecode hne uids huids
  by_contra hnil
  have hkey : keyOf ext t = keyOf ext t' := keyOf_eq_iff.mpr hdecode
  have huids' : uidsOf ext store t' = some uids := by
    rw [uidsOf, ← hkey]
    exact huids
  -- both are found, but the key has one token
  have htoken : ∀ t ∈ tokens, uidsOf ext store t = some uids →
      tokensMap ext tokens (keyOf ext t) = t := by
    intro t ht huids
    have hfound := h.found t ht uids hnil (looked_iff.mpr huids)
    rw [putTokens_found ht] at hfound
    by_contra hother
    rw [if_neg hother] at hfound
    cases hfound
  have heq := htoken t ht huids
  rw [hkey, htoken t' ht' huids'] at heq
  exact hne heq.symm

/-- What has to be so where the lookups agree -/
theorem of_agreesAlways (h : AgreesAlways ext (fuel + 1) store tokens) :
    tokens ≠ [] ∧
      (((∀ t ∈ tokens, uidsOf ext store t ≠ none) ∧ EncodedOnce ext store tokens) ∨
        (Refused ext store tokens ∧
          ∀ t ∈ tokens, ∀ uids, uidsOf ext store t = some uids → uids = [])) := by
  obtain ⟨flag, c, heq, hflag⟩ :=
    getByTokens_eq ext fuel store tokens fun _ => none
  have hagrees := agreesAlways_of_eq h heq
  have htokens : tokens ≠ [] := by
    rintro rfl
    have htrue := hagrees.flag.mpr fun t ht => absurd ht List.not_mem_nil
    exact (hflag.mp htrue).1 rfl
  refine ⟨htokens, ?_⟩
  cases flag with
  | true =>
      refine .inl ⟨fun t ht hnone => ?_, encodedOnce_of_agrees hagrees⟩
      obtain ⟨uids, hlooked⟩ := hagrees.flag.mp rfl t ht
      rw [looked_iff.mp hlooked] at hnone
      cases hnone
  | false =>
      refine .inr ⟨?_, fun t ht uids huids => ?_⟩
      · by_contra hrefused
        exact Bool.false_ne_true (hflag.mpr ⟨htokens, hrefused⟩)
      · by_contra hnil
        have hfound := hagrees.found t ht uids hnil (looked_iff.mpr huids)
        cases hfound

/-- A list of tokens is looked up as each of them is alone if and only if it is not empty, and
either each is answered and none that is found stands there in two encodings, or nothing is asked
for and none would be found. -/
theorem getByTokens_agrees_iff (ext : External F) (fuel : ℕ) (store : TokenStore)
    (tokens : List Bytes) :
    (∀ uidsMap, ∃ flag m c, getByTokens ext (fuel + 1) tokens uidsMap store.cluster =
        some (.ok (flag, m), c) ∧ Agrees ext (fuel + 1) store tokens uidsMap flag m) ↔
      tokens ≠ [] ∧
        (((∀ t ∈ tokens, uidsOf ext store t ≠ none) ∧ EncodedOnce ext store tokens) ∨
          (Refused ext store tokens ∧
            ∀ t ∈ tokens, ∀ uids, uidsOf ext store t = some uids → uids = [])) := by
  refine ⟨of_agreesAlways, ?_⟩
  rintro ⟨htokens, hcases⟩ uidsMap
  obtain ⟨flag, c, heq, hflag⟩ :=
    getByTokens_eq ext fuel store tokens uidsMap
  refine ⟨flag, _, c, heq, ?_⟩
  rcases hcases with ⟨hall, honce⟩ | ⟨hrefused, hnone⟩
  · have hanswered : ¬ Refused ext store tokens := fun hrefused => by
      obtain ⟨t, ht, hfailed⟩ := uidsOf_of_refused htokens hrefused
      exact hall t ht hfailed
    obtain rfl : flag = true := hflag.mpr ⟨htokens, hanswered⟩
    exact agrees_of_answered hall honce
  · obtain rfl : flag = false := Bool.eq_false_iff.mpr fun htrue => (hflag.mp htrue).2 hrefused
    exact agrees_of_refused htokens hrefused hnone

end Steady

/-- One server, on which every set has the one member `u` -/
def oneMember : TokenStore where
  cluster := [{
    hiredis := ⟨fun _ => (.connected, ()), fun _ _ => (⟨some (.array [.string [117]]), false⟩, ())⟩
    state := ()
    redisPassword := []
    redisConnList := [] }]
  accepts s hs := .inl (by rw [List.mem_singleton.mp hs])

/-- `+w==` and `-w==` are one token: only the second one is found. -/
theorem not_getByTokens_agrees : ¬ ∀ (fuel : ℕ) (store : TokenStore) (tokens : List Bytes)
    (uidsMap : ContactMap), ∃ flag m c,
      getByTokens Crypto.Base64.beast (fuel + 1) tokens uidsMap store.cluster =
        some (.ok (flag, m), c) ∧
      Agrees Crypto.Base64.beast (fuel + 1) store tokens uidsMap flag m := by
  intro h
  obtain ⟨-, ⟨-, honce⟩ | ⟨hrefused, -⟩⟩ :=
    of_agreesAlways (h 0 oneMember [[43, 119, 61, 61], [45, 119, 61, 61]])
  · have hnil := honce [43, 119, 61, 61] (by decide) [45, 119, 61, 61] (by decide) (by decide)
      (by decide) [[117]] rfl
    cases hnil
  · rcases hrefused with hnil | ⟨t, -, s, hs, hdropped⟩
    · cases hnil
    · obtain ⟨i, -, hi⟩ := Option.bind_eq_some_iff.mp hs
      rw [List.mem_singleton.mp (List.mem_of_getElem? hi)] at hdropped
      cases hdropped

end ContactTokenManager

end BcmServer.Store
