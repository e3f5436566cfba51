import BcmServer.Util.Thrown

/-!
# BcmServer.Crypto.UrlEncoder — hexadecimal and URL encoding

`UrlEncoder::decode` replaces `%` and two hexadecimal digits by a byte. A `%`
with fewer than two bytes behind it is copied. For one with two bytes that are
not digits `HexEncoder::decode` throws a `std::string`, which the catch clause
for `std::exception` lets through: the text does not decode
(`UrlEncoder.decode_returns`). What `UrlEncoder::encode` makes of any bytes decodes,
and to these bytes (`coding_round_trip`).
-/

namespace BcmServer.Crypto

open Util

namespace HexEncoder

/-- The value of a hexadecimal digit -/
def part (c : UInt8) : Option UInt8 :=
  if 48 ≤ c && c ≤ 57 then some (c - 48)
  else if 97 ≤ c && c ≤ 102 then some (c - 97 + 10)
  else if 65 ≤ c && c ≤ 70 then some (c - 65 + 10)
  else none

/-- The bytes of pairs of digits. The last digit of an odd number is checked only. -/
def decodeParts : Bytes → Option Bytes
  | [] => some []
  | [c] => (part c).map fun _ => []
  | a :: b :: rest =>
      match part a, part b, decodeParts rest with
      | some x, some y, some raw => some ((x <<< 4 ||| y) :: raw)
      | _, _, _ => none

/-- `HexEncoder::decode` -/
def decode (hexstr : Bytes) (bException : Bool) : Except Thrown Bytes :=
  match decodeParts hexstr with
  | some raw => .ok raw
  | none =>
      if bException then .error (.other (hexstr ++ ascii " is not a hex string".toList))
      else .ok []

/-- A byte of `hexmapLower` -/
def hexmapLower (n : UInt8) : UInt8 := if n < 10 then 48 + n else 87 + n

/-- A byte of `hexmapUpper` -/
def hexmapUpper (n : UInt8) : UInt8 := if n < 10 then 48 + n else 55 + n

/-- `HexEncoder::encode` -/
def encode (raw : Bytes) (bLowerCase : Bool) ( pre : Bytes) : Bytes :=
  let hexmap := if bLowerCase then hexmapLower else hexmapUpper
  pre ++ raw.flatMap fun (c : UInt8) => [hexmap (c >>> 4), hexmap (c &&& 15)]

/-! ## Bytes as digits -/

/-- What is true of the 256 numbers is true of every byte. -/
theorem forall_byte {P : UInt8 → Prop} (h : ∀ n : Fin 256, P (UInt8.ofNat n)) (c : UInt8) :
    P c := by
  have hc := h ⟨c.toNat, c.toNat_lt⟩
  rwa [UInt8.ofNat_toNat] at hc

theorem part_hexmapLower (c : UInt8) : part (hexmapLower (c >>> 4)) = some (c >>> 4) ∧
    part (hexmapLower (c &&& 15)) = some (c &&& 15) := by
  refine forall_byte (P := fun c => part (hexmapLower (c >>> 4)) = some (c >>> 4) ∧
    part (hexmapLower (c &&& 15)) = some (c &&& 15)) ?_ c
  decide +kernel

theorem part_hexmapUpper (c : UInt8) : part (hexmapUpper (c >>> 4)) = some (c >>> 4) ∧
    part (hexmapUpper (c &&& 15)) = some (c &&& 15) := by
  refine forall_byte (P := fun c => part (hexmapUpper (c >>> 4)) = some (c >>> 4) ∧
    part (hexmapUpper (c &&& 15)) = some (c &&& 15)) ?_ c
  decide +kernel

/-- A byte is made of its halves. -/
theorem halves (c : UInt8) : (c >>> 4) <<< 4 ||| c &&& 15 = c := by
  refine forall_byte (P := fun c => (c >>> 4) <<< 4 ||| c &&& 15 = c) ?_ c
  decide +kernel

/-- The digits of a byte, in either case -/
theorem encode_cons (c : UInt8) (raw : Bytes) (bLowerCase : Bool) :
    ∃ a b, encode (c :: raw) bLowerCase [] = a :: b :: encode raw bLowerCase [] ∧
      part a = some (c >>> 4) ∧ part b = some (c &&& 15) := by
  cases bLowerCase with
  | false => exact ⟨_, _, rfl, part_hexmapUpper c⟩
  | true => exact ⟨_, _, rfl, part_hexmapLower c⟩

theorem decodeParts_encode (raw : Bytes) (bLowerCase : Bool) :
    decodeParts (encode raw bLowerCase []) = some raw := by
  induction raw with
  | nil => rfl
  | cons c raw ih =>
      obtain ⟨a, b, hencode, ha, hb⟩ := encode_cons c raw bLowerCase
      rw [hencode, decodeParts, ha, hb, ih]
      dsimp only
      rw [halves]

theorem decode_encode (raw : Bytes) (bLowerCase bException : Bool) :
    decode (encode raw bLowerCase []) bException = .ok raw := by
  rw [decode, decodeParts_encode]

theorem encode_inj {raw raw' : Bytes} {bLowerCase : Bool}
    (h : encode raw bLowerCase [] = encode raw' bLowerCase []) : raw = raw' := by
  have hdecoded := decodeParts_encode raw bLowerCase
  rw [h, decodeParts_encode] at hdecoded
  exact (Option.some.inj hdecoded).symm

end HexEncoder

namespace UrlEncoder

def percent : UInt8 := '%'.toUInt8

/-- A character that `encode` copies: letters, digits and four others. A signed `char` above 127
is negative, so it is none of them. -/
def isUnreserved (c : UInt8) : Bool :=
  ('a'.toUInt8 ≤ c && c ≤ 'z'.toUInt8) || ('A'.toUInt8 ≤ c && c ≤ 'Z'.toUInt8) ||
    ('0'.toUInt8 ≤ c && c ≤ '9'.toUInt8) || c == '-'.toUInt8 || c == '_'.toUInt8 ||
    c == '.'.toUInt8 || c == '~'.toUInt8

/-- `UrlEncoder::encode` -/
def encode (url : Bytes) : Bytes :=
  url.flatMap fun c => if isUnreserved c then [c] else HexEncoder.encode [c] false [percent]

/-- `UrlEncoder::decode` -/
def decode : Bytes → Except Thrown Bytes
  | c :: a :: b :: rest =>
      if c = percent then do
        let raw ← Thrown.catchStd (HexEncoder.decode [a, b] true) fun _ => .ok [percent, a, b]
        let out ← decode rest
        return raw ++ out
      else do
        let out ← decode (a :: b :: rest)
        return c :: out
  | s => .ok s

/-- Two digits follow every `%` that has two bytes behind it. -/
def Decodable (s : Bytes) : Prop :=
  ∀ l a b r, s = l ++ percent :: a :: b :: r →
    (HexEncoder.part a).isSome ∧ (HexEncoder.part b).isSome

/-! ## Which texts decode -/

/-- A digit is not a `%`. -/
theorem ne_percent_of_part {c : UInt8} (h : (HexEncoder.part c).isSome) : c ≠ percent := by
  rintro rfl
  exact absurd h (by decide)

theorem decodable_of_length {s : Bytes} (h : s.length < 3) : Decodable s := by
  intro l a b r hs
  rw [hs, List.length_append, List.length_cons, List.length_cons, List.length_cons] at h
  omega

/-- A byte that is not a `%` says nothing about what follows. -/
theorem decodable_cons {c : UInt8} (hc : c ≠ percent) (s : Bytes) :
    Decodable (c :: s) ↔ Decodable s := by
  constructor
  · intro h l a b r hs
    exact h (c :: l) a b r (by rw [hs, List.cons_append])
  · intro h l a b r hs
    cases l with
    | nil =>
        rw [List.nil_append, List.cons.injEq] at hs
        exact absurd hs.1 hc
    | cons d l =>
        rw [List.cons_append, List.cons.injEq] at hs
        exact h l a b r hs.2

theorem decodable_percent (a b : UInt8) (s : Bytes) :
    Decodable (percent :: a :: b :: s) ↔
      ((HexEncoder.part a).isSome ∧ (HexEncoder.part b).isSome) ∧ Decodable s := by
  constructor
  · intro h
    have hab := h [] a b s rfl
    refine ⟨hab, fun l x y r hs => h (percent :: a :: b :: l) x y r ?_⟩
    rw [hs, List.cons_append, List.cons_append, List.cons_append]
  · rintro ⟨hab, h⟩ l x y r hs
    cases l with
    | nil =>
        rw [List.nil_append, List.cons.injEq, List.cons.injEq, List.cons.injEq] at hs
        obtain ⟨-, rfl, rfl, -⟩ := hs
        exact hab
    | cons c l =>
        -- the digits are no `%`, so the rest of the text is the rest of `s`
        have hrest : Decodable (a :: b :: s) :=
          (decodable_cons (ne_percent_of_part hab.1) _).mpr
            ((decodable_cons (ne_percent_of_part hab.2) _).mpr h)
        rw [List.cons_append, List.cons.injEq] at hs
        exact hrest l x y r hs.2

/-- Two bytes decode if they are digits; what is thrown otherwise is not caught. -/
theorem returns_pair (a b : UInt8) (handler : Bytes → Except Thrown Bytes) :
    Thrown.Returns (Thrown.catchStd (HexEncoder.decode [a, b] true) handler) ↔
      (HexEncoder.part a).isSome ∧ (HexEncoder.part b).isSome := by
  cases ha : HexEncoder.part a <;> cases hb : HexEncoder.part b <;>
    simp [HexEncoder.decode, HexEncoder.decodeParts, ha, hb, Thrown.catchStd]

theorem decode_returns (s : Bytes) : Thrown.Returns (decode s) ↔ Decodable s := by
  fun_induction decode s with
  | case1 a b rest ih =>
      rw [decodable_percent, ← ih, ← returns_pair a b, Thrown.returns_bind]
      constructor
      · rintro ⟨raw, hraw, hrest⟩
        obtain ⟨out, hout, -⟩ := Thrown.returns_bind.mp hrest
        exact ⟨⟨raw, hraw⟩, out, hout⟩
      · rintro ⟨⟨raw, hraw⟩, out, hout⟩
        exact ⟨raw, hraw, Thrown.returns_bind.mpr ⟨out, hout, _, rfl⟩⟩
  | case2 c a b rest hc ih =>
      rw [decodable_cons hc, ← ih, Thrown.returns_bind]
      constructor
      · rintro ⟨out, hout, -⟩
        exact ⟨out, hout⟩
      · rintro ⟨out, hout⟩
        exact ⟨out, hout, _, rfl⟩
  | case3 s hshort =>
      have hlen : s.length < 3 := by
        match s, hshort with
        | [], _ => simp
        | [_], _ => simp
        | [_, _], _ => simp
        | c :: a :: b :: rest, h => exact absurd rfl (h c a b rest)
      exact iff_of_true ⟨s, rfl⟩ (decodable_of_length hlen)

/-! ## Texts that were encoded -/

/-- Unreserved characters, and escapes of two digits -/
inductive Escaped : Bytes → Prop where
  | nil : Escaped []
  | plain {c : UInt8} {s : Bytes} (hc : isUnreserved c) (hs : Escaped s) : Escaped (c :: s)
  | escape {a b : UInt8} {s : Bytes} (ha : (HexEncoder.part a).isSome)
      (hb : (HexEncoder.part b).isSome) (hs : Escaped s) : Escaped (percent :: a :: b :: s)

theorem ne_percent_of_unreserved {c : UInt8} (h : isUnreserved c) : c ≠ percent := by
  rintro rfl
  exact absurd h (by decide)

theorem encode_cons_of_unreserved {c : UInt8} (hc : isUnreserved c) (s : Bytes) :
    encode (c :: s) = c :: encode s := by
  rw [encode, List.flatMap_cons, if_pos hc]
  rfl

/-- Any other byte becomes an escape, of which the digits give the byte again. -/
theorem encode_cons_of_reserved {c : UInt8} (hc : ¬ isUnreserved c) (s : Bytes) :
    ∃ a b, encode (c :: s) = percent :: a :: b :: encode s ∧
      HexEncoder.part a = some (c >>> 4) ∧ HexEncoder.part b = some (c &&& 15) := by
  have ⟨ha, hb⟩ := HexEncoder.part_hexmapUpper c
  refine ⟨_, _, ?_, ha, hb⟩
  rw [encode, List.flatMap_cons, if_neg hc]
  rfl

theorem encode_escaped (s : Bytes) : Escaped (encode s) := by
  induction s with
  | nil => exact .nil
  | cons c s ih =>
      by_cases hc : isUnreserved c
      · rw [encode_cons_of_unreserved hc]
        exact .plain hc ih
      · obtain ⟨a, b, hencode, ha, hb⟩ := encode_cons_of_reserved hc s
        rw [hencode]
        exact .escape (by simp [ha]) (by simp [hb]) ih

theorem decode_cons {c : UInt8} (hc : c ≠ percent) (s : Bytes) :
    decode (c :: s) = (decode s).map (c :: ·) := by
  match s with
  | [] => rfl
  | [_] => rfl
  | a :: b :: rest =>
      rw [decode, if_neg hc]
      rfl

theorem decode_encode (s : Bytes) : decode (encode s) = .ok s := by
  induction s with
  | nil => rfl
  | cons c s ih =>
      by_cases hc : isUnreserved c
      · rw [encode_cons_of_unreserved hc, decode_cons (ne_percent_of_unreserved hc), ih]
        rfl
      · obtain ⟨a, b, hencode, ha, hb⟩ := encode_cons_of_reserved hc s
        have hpair : HexEncoder.decode [a, b] true = .ok [c] := by
          simp only [HexEncoder.decode, HexEncoder.decodeParts, ha, hb, HexEncoder.halves]
        rw [hencode, decode, if_pos rfl, hpair, ih]
        rfl

/-- A digit or an unreserved character is none of the characters that separate parts of a URL. -/
theorem Escaped.notMem {s : Bytes} (h : Escaped s) {c : UInt8} (hc : c ≠ percent)
    (hplain : ¬ isUnreserved c) (hpart : HexEncoder.part c = none) : c ∉ s := by
  induction h with
  | nil => exact List.not_mem_nil
  | plain hd _ ih =>
      rintro (_ | ⟨_, hmem⟩)
      · exact hplain hd
      · exact ih hmem
  | escape ha hb _ ih =>
      rintro (_ | ⟨_, _ | ⟨_, _ | ⟨_, hmem⟩⟩⟩)
      · exact hc rfl
      · simp [hpart] at ha
      · simp [hpart] at hb
      · exact ih hmem

end UrlEncoder

/-- Any bytes are encoded as unreserved characters and escapes, without the characters that
separate parts of a URL, and decode to themselves; hexadecimal digits do in both cases. -/
theorem coding_round_trip (s : Bytes) :
    UrlEncoder.decode (UrlEncoder.encode s) = .ok s ∧
      UrlEncoder.Escaped (UrlEncoder.encode s) ∧
      (∀ c ∈ ascii ['/', '?', '&', '='], c ∉ UrlEncoder.encode s) ∧
      ∀ bLowerCase bException,
        HexEncoder.decode (HexEncoder.encode s bLowerCase []) bException = .ok s := by
  have hescaped := UrlEncoder.encode_escaped s
  refine ⟨UrlEncoder.decode_encode s, hescaped, fun c hc => ?_, HexEncoder.decode_encode s⟩
  have hsep : ∀ c ∈ ascii ['/', '?', '&', '='], c ≠ UrlEncoder.percent ∧
      ¬ UrlEncoder.isUnreserved c ∧ HexEncoder.part c = none := by decide +kernel
  exact hescaped.notMem (hsep c hc).1 (hsep c hc).2.1 (hsep c hc).2.2

end BcmServer.Crypto
