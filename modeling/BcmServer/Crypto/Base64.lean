import BcmServer.Auth.AuthorizationHeader
import BcmServer.Util.Base64

/-!
# BcmServer.Crypto.Base64 — Base64 texts for URLs

`Base64::encode` takes the text that beast makes, and for a URL replaces two characters
and cuts the filling off. `Base64::decode` puts it back, but as many characters as the
length is past a multiple of four, and not as many as it is short of one. A text that is
short of one character gets three of them and is refused.

`decode_encode_iff`: the usual texts are read back, and those for URLs too, unless one
character of filling was cut off.
-/

namespace BcmServer.Crypto.Base64

open Util Http
open Auth.Base64 (decode ofUrlSafe eraseLineBreaks)

/-- The alphabet of URLs -/
def toUrlSafe (c : UInt8) : UInt8 := if c = 43 then 45 else if c = 47 then 95 else c

/-- `trim_if` of the filling -/
def trimFilling (s : Bytes) : Bytes :=
  ((s.dropWhile (· == 61)).reverse.dropWhile (· == 61)).reverse

/-- `Base64::encode` -/
def encode (base64Encode : Bytes → Bytes) (target : Bytes) (urlSafe : Bool) : Bytes :=
  if target.isEmpty then []
  else
    let result := base64Encode target
    if urlSafe then trimFilling (result.map toUrlSafe) else result

/-- What is relied on: beast makes Base64 texts, reads them up to the filling, and counts three
bytes for four characters. -/
structure Lawful {F : Type} (ext : External F) (base64Encode : Bytes → Bytes) : Prop where
  encode : ∀ s, base64Encode s = Util.Base64.encode s
  decode : ∀ s n,
    ext.base64Decode (Util.Base64.digits s ++ List.replicate n Util.Base64.pad) = s
  decodedSize : ∀ n, ext.decodedSize n = n / 4 * 3

/-! ## Digits -/

theorem ofUrlSafe_toUrlSafe {n : ℕ} (h : n < 64) :
    ofUrlSafe (toUrlSafe (Util.Base64.digit n)) = Util.Base64.digit n := by
  have hall : ∀ n < 64, ofUrlSafe (toUrlSafe (Util.Base64.digit n)) = Util.Base64.digit n := by
    decide
  exact hall n h

theorem toUrlSafe_ne {n : ℕ} (h : n < 64) :
    toUrlSafe (Util.Base64.digit n) ≠ 61 ∧ toUrlSafe (Util.Base64.digit n) ≠ 13 := by
  have hall : ∀ n < 64, toUrlSafe (Util.Base64.digit n) ≠ 61 ∧
      toUrlSafe (Util.Base64.digit n) ≠ 13 := by decide
  exact hall n h

theorem map_ofUrlSafe_map_toUrlSafe (s : Bytes) :
    ((Util.Base64.digits s).map toUrlSafe).map ofUrlSafe = Util.Base64.digits s := by
  rw [List.map_map]
  conv_rhs => rw [← List.map_id (Util.Base64.digits s)]
  refine List.map_congr_left fun x hx => ?_
  obtain ⟨n, hn, rfl⟩ := Util.Base64.mem_digits hx
  exact ofUrlSafe_toUrlSafe hn

/-- Neither filling nor the end of a line is in the text for a URL. -/
theorem ne_of_mem_urlSafe {s : Bytes} {x : UInt8} (hx : x ∈ (Util.Base64.digits s).map toUrlSafe) :
    x ≠ 61 ∧ x ≠ 13 := by
  obtain ⟨y, hy, rfl⟩ := List.mem_map.mp hx
  obtain ⟨n, hn, rfl⟩ := Util.Base64.mem_digits hy
  exact toUrlSafe_ne hn

/-- The filling is cut off, and nothing else. -/
theorem trimFilling_append {body : Bytes} (h : ∀ x ∈ body, x ≠ 61) (n : ℕ) (hne : body ≠ []) :
    trimFilling (body ++ List.replicate n 61) = body := by
  have hfront : (body ++ List.replicate n 61).dropWhile (· == 61) =
      body ++ List.replicate n 61 := by
    obtain ⟨x, rest, rfl⟩ := List.exists_cons_of_ne_nil hne
    have hx := h x List.mem_cons_self
    rw [List.cons_append, List.dropWhile_cons_of_neg (by simpa using hx)]
  have hback : body.reverse.dropWhile (· == 61) = body.reverse := by
    obtain ⟨x, rest, hrest⟩ := List.exists_cons_of_ne_nil (List.reverse_ne_nil_iff.mpr hne)
    have hx := h x (List.mem_reverse.mp (hrest ▸ List.mem_cons_self))
    rw [hrest, List.dropWhile_cons_of_neg (by simpa using hx)]
  rw [trimFilling, hfront, List.reverse_append, List.reverse_replicate,
    List.dropWhile_append_of_pos (by simp), hback, List.reverse_reverse]

/-! ## Round trips -/

section Lawful

variable {F : Type} {ext : External F} {base64Encode : Bytes → Bytes}

theorem decode_encode_usual (h : Lawful ext base64Encode) (s : Bytes) :
    decode ext (encode base64Encode s false) false = s := by
  by_cases hs : s = []
  · subst hs
    rfl
  have hne : (Util.Base64.encode s).isEmpty = false := by
    simpa using Util.Base64.encode_ne_nil hs
  have hlines : eraseLineBreaks (Util.Base64.encode s) = Util.Base64.encode s :=
    Auth.Base64.eraseLineBreaks_of_notMem (Util.Base64.return_notMem_encode s)
  have hdecode : ext.base64Decode (Util.Base64.encode s) = s := by
    rw [Util.Base64.encode_eq_digits]
    exact h.decode s _
  have hencode : encode base64Encode s false = Util.Base64.encode s := by
    rw [encode, if_neg (by simpa using hs), h.encode]
    exact if_neg Bool.false_ne_true
  have hsize := Util.Base64.length_encode s
  rw [hencode, decode, hlines, hne, if_neg Bool.false_ne_true]
  simp only [Bool.false_eq_true, if_false, if_true, List.replicate_zero, List.append_nil, hdecode]
  rw [h.decodedSize, hsize]
  exact if_pos rfl

/-- The text for a URL -/
theorem encode_urlSafe (h : Lawful ext base64Encode) {s : Bytes} (hs : s ≠ []) :
    encode base64Encode s true = (Util.Base64.digits s).map toUrlSafe := by
  have hne : (Util.Base64.digits s).map toUrlSafe ≠ [] := by
    rw [ne_eq, List.map_eq_nil_iff, ← List.length_eq_zero_iff, Util.Base64.length_digits]
    have hpos := List.length_pos_iff.mpr hs
    omega
  rw [encode, if_neg (by simpa using hs), h.encode, Util.Base64.encode_eq_digits]
  show trimFilling _ = _
  rw [List.map_append, List.map_replicate]
  exact trimFilling_append (fun x hx => (ne_of_mem_urlSafe hx).1) _ hne

/-- What is read of a text for a URL: the characters that are put behind it count as filling. -/
theorem decode_urlSafe (h : Lawful ext base64Encode) {s : Bytes} (hs : s ≠ []) :
    decode ext ((Util.Base64.digits s).map toUrlSafe) true =
      if s.length % 3 = 2 then [] else s := by
  have hlength := Util.Base64.length_digits s
  have hpos := List.length_pos_iff.mpr hs
  have hlines : eraseLineBreaks ((Util.Base64.digits s).map toUrlSafe) =
      (Util.Base64.digits s).map toUrlSafe :=
    Auth.Base64.eraseLineBreaks_of_notMem fun hmem => (ne_of_mem_urlSafe hmem).2 rfl
  have hne : ((Util.Base64.digits s).map toUrlSafe).isEmpty = false := by
    rw [List.isEmpty_eq_false_iff, ne_eq, List.map_eq_nil_iff, ← List.length_eq_zero_iff, hlength]
    omega
  have hfilling := Util.Base64.takeWhile_pad_digits s
  rw [decode, hlines, hne, if_neg Bool.false_ne_true]
  simp only [if_true, List.length_map, map_ofUrlSafe_map_toUrlSafe, hlength]
  have hdecode := h.decode s ((4 * s.length + 2) / 3 % 4)
  rw [Util.Base64.pad] at hdecode
  rw [hdecode, h.decodedSize, List.length_append, List.length_replicate, hlength]
  generalize hmissing : (4 * s.length + 2) / 3 % 4 = missing
  have hcount : (if missing = 0 then ((Util.Base64.digits s ++
      List.replicate missing 61).reverse.takeWhile (· == 61)).length else missing) = missing := by
    by_cases hzero : missing = 0
    · subst hzero
      rw [if_pos rfl, List.replicate_zero, List.append_nil]
      exact congrArg List.length hfilling
    · exact if_neg hzero
  rw [hcount]
  have hrest : s.length % 3 = 0 ∨ s.length % 3 = 1 ∨ s.length % 3 = 2 := by omega
  rcases hrest with hrest | hrest | hrest
  · rw [if_neg (by omega : ¬ s.length % 3 = 2)]
    exact if_pos (by omega)
  · rw [if_neg (by omega : ¬ s.length % 3 = 2)]
    exact if_pos (by omega)
  · rw [if_pos hrest]
    exact if_neg (by omega)

end Lawful

/-- The usual text of any bytes is read back, and the text for a URL is unless the length is two
past a multiple of three. -/
theorem decode_encode_iff {F : Type} {ext : External F} {base64Encode : Bytes → Bytes}
    (h : Lawful ext base64Encode) (s : Bytes) :
    decode ext (encode base64Encode s false) false = s ∧
      (decode ext (encode base64Encode s true) true = s ↔ s.length % 3 ≠ 2) := by
  refine ⟨decode_encode_usual h s, ?_⟩
  by_cases hs : s = []
  · subst hs
    exact iff_of_true rfl (by decide)
  rw [encode_urlSafe h hs, decode_urlSafe h hs]
  by_cases hmod : s.length % 3 = 2
  · rw [if_pos hmod]
    exact iff_of_false (fun hnil => hs hnil.symm) (not_not_intro hmod)
  · rw [if_neg hmod]
    exact iff_of_true rfl hmod

/-- Base64 texts are read up to the filling. -/
def readDigits (text : Bytes) : Bytes :=
  let body := text.takeWhile (· ≠ Util.Base64.pad)
  Util.Base64.decode (body ++ List.replicate ((4 - body.length % 4) % 4) Util.Base64.pad)

/-- Beast with Base64 texts, and digests that are not asked for -/
def beast : External (List (Bytes × Bytes)) := External.ofList (fun _ => []) readDigits

theorem lawful_beast : Lawful beast Util.Base64.encode where
  encode _ := rfl
  decode s n := by
    have hbody : (Util.Base64.digits s ++ List.replicate n Util.Base64.pad).takeWhile
        (· ≠ Util.Base64.pad) = Util.Base64.digits s := by
      rw [List.takeWhile_append_of_pos]
      · cases n <;> simp [List.replicate_succ]
      · intro x hx
        obtain ⟨m, hm, rfl⟩ := Util.Base64.mem_digits hx
        exact decide_eq_true (Util.Base64.digit_ne_pad hm)
    have hfilling : (4 - (Util.Base64.digits s).length % 4) % 4 = (3 - s.length % 3) % 3 := by
      rw [Util.Base64.length_digits]
      have hrest : s.length % 3 = 0 ∨ s.length % 3 = 1 ∨ s.length % 3 = 2 := by omega
      rcases hrest with hrest | hrest | hrest <;> omega
    show readDigits _ = _
    rw [readDigits, hbody, hfilling, ← Util.Base64.encode_eq_digits, Util.Base64.decode_encode]
  decodedSize _ := rfl

/-- One byte is read back in both alphabets. -/
theorem decode_encode_single :
    decode beast (encode Util.Base64.encode [255] false) false = [255] ∧
      (decode beast (encode Util.Base64.encode [255] true) true = [255] ↔ 1 % 3 ≠ 2) :=
  decode_encode_iff lawful_beast [255]

/-- The text `AAA` of two zero bytes is not read back. -/
theorem not_decode_encode_pair : Lawful beast Util.Base64.encode ∧
    encode Util.Base64.encode [0, 0] true = [65, 65, 65] ∧
    decode beast (encode Util.Base64.encode [0, 0] true) true ≠ [0, 0] :=
  ⟨lawful_beast, by decide⟩

end BcmServer.Crypto.Base64
