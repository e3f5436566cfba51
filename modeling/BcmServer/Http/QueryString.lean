import BcmServer.Http.Router

/-!
# BcmServer.Http.QueryString — what is read of a query

The scan of a query keeps a key and what has been read since. It takes the key at every
`=`, and stores a value at the next `&` if neither is empty. A query of encoded values
comes back, but for the empty ones. A second `=` before the next `&` makes what stands
between the two the key.

* `pairsOf_eq`: the scan of a query is that of its parts.
* `query_recovered`: a query of pairs is read back, and where no part has a second `=` a
  value is stored under what is before it.
-/

namespace BcmServer.Http.HttpRouter

open Util Crypto

/-! ## The parts of a query -/

/-- The scan of a part, with the key read last and the text since the last separator -/
def scanPart : Bytes → Bytes → Bytes → Bytes × Bytes
  | [], key, text => (key, text)
  | c :: rest, key, text =>
      if c = '='.toUInt8 then scanPart rest text [] else scanPart rest key (text ++ [c])

/-- A key and a value, if neither is empty -/
def pairOf (key value : Bytes) : Option (Bytes × Bytes) :=
  if !key.isEmpty && !value.isEmpty then some (key, value) else none

/-- What is stored of a part -/
def partPair (part : Bytes) : Option (Bytes × Bytes) :=
  let (key, text) := scanPart part [] []
  pairOf key text

/-- What stands before the first `=` of a part, and what stands behind it -/
def firstPair (part : Bytes) : Option (Bytes × Bytes) :=
  pairOf (part.takeWhile fun c => c ≠ '='.toUInt8) (part.dropWhile fun c => c ≠ '='.toUInt8).tail

/-- The query of a target -/
def queryOf (uri : Bytes) : Bytes := (uri.dropWhile fun c => c ≠ '?'.toUInt8).tail

/-- A query of pairs -/
def renderQuery (pairs : List (Bytes × Bytes)) : Bytes :=
  ['&'.toUInt8].intercalate (pairs.map fun p => p.1 ++ '='.toUInt8 :: UrlEncoder.encode p.2)

/-- The last value of a key that is not empty -/
def lastValue (pairs : List (Bytes × Bytes)) : Params :=
  fun key => (pairs.filter fun p => !p.2.isEmpty).reverse.lookup key

theorem scanPart_of_notMem {part : Bytes} (h : '='.toUInt8 ∉ part) (key text : Bytes) :
    scanPart part key text = (key, text ++ part) := by
  induction part generalizing text with
  | nil => rw [scanPart, List.append_nil]
  | cons c part ih =>
      rw [List.mem_cons, not_or] at h
      rw [scanPart, if_neg (Ne.symm h.1), ih h.2, List.append_assoc, List.singleton_append]

theorem scanPart_append {part : Bytes} (h : '='.toUInt8 ∉ part) (rest key text : Bytes) :
    scanPart (part ++ '='.toUInt8 :: rest) key text = scanPart rest (text ++ part) [] := by
  induction part generalizing text with
  | nil => rw [List.nil_append, scanPart, if_pos rfl, List.append_nil]
  | cons c part ih =>
      rw [List.mem_cons, not_or] at h
      rw [List.cons_append, scanPart, if_neg (Ne.symm h.1), ih h.2, List.append_assoc,
        List.singleton_append]

/-- A part that is a key and a value -/
theorem partPair_append {key value : Bytes} (hkey : '='.toUInt8 ∉ key)
    (hvalue : '='.toUInt8 ∉ value) :
    partPair (key ++ '='.toUInt8 :: value) = pairOf key value := by
  rw [partPair, scanPart_append hkey, scanPart_of_notMem hvalue, List.nil_append, List.nil_append]

theorem pairOf_nil_left (value : Bytes) : pairOf [] value = none := rfl

theorem pairOf_nil_right (key : Bytes) : pairOf key [] = none := by
  rw [pairOf, List.isEmpty_nil, Bool.not_true, Bool.and_false]
  exact if_neg Bool.false_ne_true

/-- A part in which there is no second `=` is cut at the first. -/
theorem partPair_eq_firstPair {part : Bytes} (h : part.count '='.toUInt8 ≤ 1) :
    partPair part = firstPair part := by
  by_cases hmem : '='.toUInt8 ∈ part
  · obtain ⟨key, value, rfl, hkey⟩ := List.eq_append_cons_of_mem hmem
    have hvalue : '='.toUInt8 ∉ value := by
      rw [List.count_append, List.count_cons_self] at h
      exact List.count_eq_zero.mp (by omega)
    rw [partPair_append hkey hvalue, firstPair, takeWhile_append_separator hkey,
      dropWhile_append_separator hkey, List.tail_cons]
  · rw [partPair, scanPart_of_notMem hmem, firstPair, dropWhile_of_notMem hmem, List.tail_nil,
      pairOf_nil_right]
    exact pairOf_nil_left _

/-! ## The scan of a query -/

/-- The scan comes to the end of a part. -/
theorem queryPairs_append {part : Bytes} (h : '&'.toUInt8 ∉ part) (rest key text : Bytes) :
    queryPairs (part ++ '&'.toUInt8 :: rest) key text =
      (pairOf (scanPart part key text).1 (scanPart part key text).2).toList ++
        queryPairs rest [] [] := by
  induction part generalizing key text with
  | nil =>
      rw [List.nil_append, queryPairs, if_neg (by decide), if_pos rfl, scanPart, pairOf]
      split <;> rfl
  | cons c part ih =>
      rw [List.mem_cons, not_or] at h
      rw [List.cons_append, queryPairs, scanPart]
      by_cases hc : c = '='.toUInt8
      · rw [if_pos hc, if_pos hc, ih h.2]
      · rw [if_neg hc, if_neg hc, if_neg (Ne.symm h.1), ih h.2]

theorem queryPairs_intercalate {parts : List Bytes} (hne : parts ≠ [])
    (h : ∀ part ∈ parts, '&'.toUInt8 ∉ part) :
    queryPairs (['&'.toUInt8].intercalate parts ++ ['&'.toUInt8]) [] [] =
      parts.filterMap partPair := by
  induction parts with
  | nil => exact absurd rfl hne
  | cons part parts ih =>
      have hpart := h part List.mem_cons_self
      have hcons : ∀ rest, (partPair part).toList ++ rest.filterMap partPair =
          (part :: rest).filterMap partPair := by
        intro rest
        cases hpair : partPair part with
        | none => rw [List.filterMap_cons_none hpair, Option.toList_none, List.nil_append]
        | some p => rw [List.filterMap_cons_some hpair, Option.toList_some, List.singleton_append]
      rw [← hcons]
      cases parts with
      | nil =>
          rw [List.intercalate_singleton, queryPairs_append hpart]
          rfl
      | cons next parts =>
          rw [List.intercalate_cons_cons, List.append_assoc, List.append_assoc,
            List.singleton_append, queryPairs_append hpart,
            ih (List.cons_ne_nil _ _) fun p hp => h p (List.mem_cons_of_mem part hp)]
          rfl

/-- The scan of a query stores what its parts stand for. -/
theorem pairsOf_eq (uri : Bytes) :
    pairsOf uri = ((queryOf uri).splitOn '&'.toUInt8).filterMap partPair := by
  unfold pairsOf queryOf
  cases uri.dropWhile fun c => c ≠ '?'.toUInt8 with
  | nil => rfl
  | cons c query =>
      have hscan := queryPairs_intercalate (List.splitOn_ne_nil '&'.toUInt8 query) ?_
      · rwa [List.intercalate_splitOn] at hscan
      · exact fun part => separator_notMem_splitOn

/-! ## Encoded values -/

theorem encode_isEmpty (s : Bytes) : (UrlEncoder.encode s).isEmpty = s.isEmpty := by
  have hdecode := UrlEncoder.decode_encode s
  cases s with
  | nil => rfl
  | cons c s =>
      rw [List.isEmpty_cons, List.isEmpty_eq_false_iff]
      intro hnil
      rw [hnil] at hdecode
      cases hdecode

/-- Encoded values are decoded, and a later value of a key replaces an earlier one. -/
theorem decodePairs_encode (pairs : List (Bytes × Bytes)) (params : Params) :
    decodePairs (pairs.map fun p => (p.1, UrlEncoder.encode p.2)) params =
      .ok fun key => (pairs.reverse.lookup key).or (params key) := by
  induction pairs generalizing params with
  | nil => rfl
  | cons p pairs ih =>
      rw [List.map_cons, decodePairs, UrlEncoder.decode_encode]
      show decodePairs _ _ = _
      rw [ih]
      refine congrArg Except.ok (funext fun key => ?_)
      rw [List.reverse_cons, List.lookup_append, Option.or_assoc, List.lookup_cons,
        Function.update_apply]
      cases hkey : key == p.1 with
      | true => rw [if_pos (beq_iff_eq.mp hkey), Option.some_or]
      | false => rw [if_neg (beq_eq_false_iff_ne.mp hkey), List.lookup_nil, Option.none_or]

/-- A part that is made of a pair -/
theorem partPair_render {key : Bytes} (hne : key ≠ []) (hkey : '='.toUInt8 ∉ key) (value : Bytes) :
    partPair (key ++ '='.toUInt8 :: UrlEncoder.encode value) =
      if value.isEmpty then none else some (key, UrlEncoder.encode value) := by
  have hvalue : '='.toUInt8 ∉ UrlEncoder.encode value :=
    (coding_round_trip value).2.2.1 _ (by decide)
  rw [partPair_append hkey hvalue, pairOf, encode_isEmpty, List.isEmpty_eq_false_iff.mpr hne]
  cases value.isEmpty <;> rfl

theorem filterMap_render {pairs : List (Bytes × Bytes)}
    (h : ∀ p ∈ pairs, p.1 ≠ [] ∧ ∀ c ∈ ascii ['=', '&', '?'], c ∉ p.1) :
    (pairs.map fun p => p.1 ++ '='.toUInt8 :: UrlEncoder.encode p.2).filterMap partPair =
      (pairs.filter fun p => !p.2.isEmpty).map fun p => (p.1, UrlEncoder.encode p.2) := by
  induction pairs with
  | nil => rfl
  | cons p pairs ih =>
      obtain ⟨hne, hsep⟩ := h p List.mem_cons_self
      have hpart := partPair_render hne (hsep _ (by decide)) p.2
      have htail := ih fun q hq => h q (List.mem_cons_of_mem p hq)
      rw [List.map_cons, List.filter_cons]
      cases hempty : p.2.isEmpty with
      | true =>
          rw [hempty, if_pos rfl] at hpart
          rw [List.filterMap_cons_none hpart, htail]
          rfl
      | false =>
          rw [hempty, if_neg Bool.false_ne_true] at hpart
          rw [List.filterMap_cons_some hpart, htail]
          rfl

/-- What a query of pairs stands for -/
theorem pairsOf_render {path : Bytes} (hpath : '?'.toUInt8 ∉ path) {pairs : List (Bytes × Bytes)}
    (h : ∀ p ∈ pairs, p.1 ≠ [] ∧ ∀ c ∈ ascii ['=', '&', '?'], c ∉ p.1) :
    pairsOf (path ++ '?'.toUInt8 :: renderQuery pairs) =
      (pairs.filter fun p => !p.2.isEmpty).map fun p => (p.1, UrlEncoder.encode p.2) := by
  rw [pairsOf_eq, queryOf, dropWhile_append_separator hpath, List.tail_cons, renderQuery,
    ← filterMap_render h]
  by_cases hnil : pairs = []
  · subst hnil
    rfl
  rw [List.splitOn_intercalate _ _ (by simpa using hnil)]
  intro part hpart
  obtain ⟨p, hp, rfl⟩ := List.mem_map.mp hpart
  rw [List.mem_append, List.mem_cons, not_or, not_or]
  exact ⟨(h p hp).2 _ (by decide), by decide, (coding_round_trip p.2).2.2.1 _ (by decide)⟩

/-- A query of pairs is read back, with the last value of each key that is not empty. In any target
in which no part of the query has a second `=`, the values are stored under what is before it. -/
theorem query_recovered :
    (∀ (path : Bytes) (pairs : List (Bytes × Bytes)), '?'.toUInt8 ∉ path →
      (∀ p ∈ pairs, p.1 ≠ [] ∧ ∀ c ∈ ascii ['=', '&', '?'], c ∉ p.1) →
      parseUri (path ++ '?'.toUInt8 :: renderQuery pairs) = .ok (path, lastValue pairs)) ∧
    ∀ uri : Bytes, (∀ part ∈ (queryOf uri).splitOn '&'.toUInt8, part.count '='.toUInt8 ≤ 1) →
      parseUri uri = (decodePairs (((queryOf uri).splitOn '&'.toUInt8).filterMap firstPair)
        fun _ => none).map fun queryParams => (targetPath uri, queryParams) := by
  constructor
  · intro path pairs hpath h
    rw [parseUri, pairsOf_render hpath h, decodePairs_encode, targetPath,
      takeWhile_append_separator hpath]
    refine congrArg (fun params : Params => Except.ok (path, params)) (funext fun key => ?_)
    exact Option.or_none
  · intro uri h
    have hparts : ((queryOf uri).splitOn '&'.toUInt8).filterMap partPair =
        ((queryOf uri).splitOn '&'.toUInt8).filterMap firstPair :=
      List.filterMap_congr fun part hpart => partPair_eq_firstPair (h part hpart)
    rw [parseUri, pairsOf_eq, hparts]
    rfl

/-- A key with two values, and another with a blank and a `%` in its value -/
theorem query_recovered_pairs :
    parseUri (ascii ['p', '?'] ++ renderQuery [([97], [1]), ([98], [32, 37]), ([97], [61])]) =
      .ok ([112], lastValue [([97], [1]), ([98], [32, 37]), ([97], [61])]) :=
  query_recovered.1 [112] [([97], [1]), ([98], [32, 37]), ([97], [61])] (by decide)
    (by decide +kernel)

/-- The value of `a=` is not stored, and that of `a=b=c` is stored under `b`. -/
theorem not_query_recovered :
    (∃ queryParams, parseUri (ascii ['p', '?'] ++ renderQuery [([97], [])]) =
      .ok ([112], queryParams) ∧ queryParams [97] = none) ∧
    ∃ queryParams, parseUri (ascii ['p', '?', 'a', '=', 'b', '=', 'c']) =
      .ok ([112], queryParams) ∧ queryParams [97] = none ∧ queryParams [98] = some [99] :=
  ⟨⟨_, rfl, rfl⟩, _, rfl, by decide, by decide⟩

end BcmServer.Http.HttpRouter
