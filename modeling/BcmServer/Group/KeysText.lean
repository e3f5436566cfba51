import BcmServer.Group.KeysCache

/-!
# BcmServer.Group.KeysText — the cached keys as bytes in memory

`KeysCache::deserialize` goes through the text by position. It takes four bytes as a
length and gives as many bytes to protobuf, without a look at what is left of the text.
The text stands in memory in front of other bytes here, so that it can be said what the
loop reads.

* `deserialize_serialized`: the keys that were put into a text are read from it.
* `readsSafely_iff`: which texts are read safely, and never taken for keys that they are
  not.
-/

namespace BcmServer.Group

open Util

/-- Protobuf, with how many bytes of a stream `ParseFromCodedStream` reads. `ByteSize` is an
`int`. -/
structure KeysStream (K : Type) extends KeysFormat K where
  reads : Bytes → ℕ
  reads_le : ∀ content, reads content ≤ content.length
  byteSize_lt_int : ∀ k, (serializeToCodedStream k).length < 2 ^ 31

/-- A text in memory, and the bytes that follow it -/
structure Text where
  value : Bytes
  beyond : ℕ → UInt8

namespace Text

/-- A byte of the memory -/
def get (t : Text) (i : ℕ) : UInt8 :=
  if h : i < t.value.length then t.value[i] else t.beyond (i - t.value.length)

/-- Bytes from a position on -/
def bytes (t : Text) (pos n : ℕ) : Bytes := (List.range n).map fun i => t.get (pos + i)

/-- What is left of the text comes first. -/
theorem bytes_eq {t : Text} {pos : ℕ} {rest : Bytes} (h : t.value.drop pos = rest) (n : ℕ)
    (hpos : pos ≤ t.value.length) : t.bytes pos n =
      rest.take n ++ (List.range (n - rest.length)).map t.beyond := by
  subst h
  apply List.ext_getElem
  · simp only [bytes, List.length_map, List.length_range, List.length_append, List.length_take]
    omega
  · intro i hi _
    simp only [bytes, List.getElem_map, List.getElem_range, List.getElem_append, List.length_take,
      List.length_drop, get]
    simp only [bytes, List.length_map, List.length_range] at hi
    by_cases hin : pos + i < t.value.length
    · rw [dif_pos hin, dif_pos (by omega)]
      simp
    · rw [dif_neg hin, dif_neg (by omega)]
      congr 1
      omega

theorem bytes_of_le {t : Text} {pos : ℕ} {rest : Bytes} (h : t.value.drop pos = rest) {n : ℕ}
    (hpos : pos ≤ t.value.length) (hn : n ≤ rest.length) : t.bytes pos n = rest.take n := by
  rw [bytes_eq h n hpos, Nat.sub_eq_zero_of_le hn]
  simp

end Text

namespace KeysCache

variable {K : Type}

/-! ## The functions -/

/-- `KeysCache::serialize`. The size of the stream is an `int`: a longer text has no room in it. -/
def serializeText (F : KeysStream K) (keys : List K) : Option Bytes :=
  if keys.isEmpty then none
  else if (keys.flatMap (framed F.toKeysFormat)).length < 2 ^ 31 then
    some (keys.flatMap (framed F.toKeysFormat))
  else none

/-- What `deserialize` ends with: true or false, with the keys that are in the list then. -/
inductive Deserialized (K : Type) where
  | accepted (keys : List K)
  | refused (keys : List K)
  /-- a byte at or beyond the end of the text is read -/
  | outOfBounds
deriving DecidableEq, Repr

/-- `keys.emplace_back` before the rest of the loop -/
def Deserialized.cons (key : K) : Deserialized K → Deserialized K
  | accepted keys => accepted (key :: keys)
  | refused keys => refused (key :: keys)
  | outOfBounds => outOfBounds

/-- A length as the `int` of an `ArrayInputStream`; a stream of negative size has no bytes. -/
def arraySize (len : ℕ) : ℕ := if len < 2 ^ 31 then len else 0

/-- `ReadLittleEndian32FromArray` -/
def littleEndian32 : Bytes → ℕ
  | a :: b :: c :: d :: _ => a.toNat + 2 ^ 8 * b.toNat + 2 ^ 16 * c.toNat + 2 ^ 24 * d.toNat
  | _ => 0

/-- The loop of `KeysCache::deserialize`. A `size_t` has room for the position: the text is far
shorter than its range. -/
def deserializeText (F : KeysStream K) (t : Text) (pos : ℕ) : Deserialized K :=
  if pos < t.value.length then
    if t.value.length < pos + 4 then .outOfBounds
    else
      let len := littleEndian32 (t.bytes pos 4)
      let content := t.bytes (pos + 4) (arraySize len)
      if t.value.length < pos + 4 + F.reads content then .outOfBounds
      else
        match F.parseFromCodedStream content with
        | none => .refused []
        | some key => (deserializeText F t (pos + 4 + len)).cons key
  else .accepted []
termination_by t.value.length - pos

/-- `KeysCache::get` after `m_cache->get`: no text, or one with what is behind it -/
def getText (F : KeysStream K) : Option Text → Deserialized K
  | none => .refused []
  | some t => if t.value.isEmpty then .refused [] else deserializeText F t 0

/-- What `onPrepareKeyUpdateV3` does about the keys in the mode `ONE_FOR_EACH`: the keys of the
response, or none for an internal error. `getKeysByGid` replaces the list if it succeeds. -/
def preparedKeys (cached : Deserialized K) (fromAccounts : Except DaoError (List K)) :
    Option (List K) :=
  match cached with
  | .accepted keys => some keys
  | .refused keys =>
      match fromAccounts with
      | .ok read => some read
      | .error .noSuchData => some keys
      | .error _ => none
  | .outOfBounds => none

/-! ## Frames -/

/-- A length and so many bytes -/
def frame (content : Bytes) : Bytes := writeLittleEndian32 content.length ++ content

/-- A text that has frames only, all complete -/
def Complete (value : Bytes) : Prop :=
  ∃ contents : List Bytes, (∀ c ∈ contents, c.length < 2 ^ 32) ∧ value = contents.flatMap frame

/-- Protobuf refuses the frame in front before it has read to the end of the text, whatever is
behind it. -/
def RefusedFrame (F : KeysStream K) (value : Bytes) : Prop :=
  ∃ len rest, len < 2 ^ 32 ∧ value = writeLittleEndian32 len ++ rest ∧
    ∀ content : Bytes, content.length = arraySize len → rest.take (arraySize len) <+: content →
      F.parseFromCodedStream content = none ∧ F.reads content ≤ rest.length

/-- The text ends in the frame in front, which protobuf does not refuse before. -/
def CutFrame (F : KeysStream K) (value : Bytes) : Prop :=
  (value ≠ [] ∧ value.length < 4) ∨ ∃ len rest, len < 2 ^ 32 ∧
    value = writeLittleEndian32 len ++ rest ∧ rest.length < len ∧ ¬ RefusedFrame F value

/-- Complete frames with keys in front of a text of some kind -/
inductive FramesThen (F : KeysStream K) (kind : Bytes → Prop) : List K → Bytes → Prop where
  | rest {value : Bytes} (h : kind value) : FramesThen F kind [] value
  | cons {content value : Bytes} {key : K} {keys : List K} (hlen : content.length < 2 ^ 32)
      (hparse : F.parseFromCodedStream (content.take (arraySize content.length)) = some key)
      (h : FramesThen F kind keys value) : FramesThen F kind (key :: keys) (frame content ++ value)

variable {F : KeysStream K} {kind : Bytes → Prop} {value rest : Bytes} {keys : List K} {len : ℕ}

/-- Keys in front of those that are read -/
def Deserialized.prepend (keys : List K) (r : Deserialized K) : Deserialized K :=
  keys.foldr Deserialized.cons r

@[simp] theorem prepend_accepted (keys keys' : List K) :
    (Deserialized.accepted keys').prepend keys = .accepted (keys ++ keys') := by
  induction keys with
  | nil => rfl
  | cons k keys ih => exact congrArg (Deserialized.cons k) ih

@[simp] theorem prepend_refused (keys keys' : List K) :
    (Deserialized.refused keys').prepend keys = .refused (keys ++ keys') := by
  induction keys with
  | nil => rfl
  | cons k keys ih => exact congrArg (Deserialized.cons k) ih

@[simp] theorem prepend_outOfBounds (keys : List K) :
    (Deserialized.outOfBounds).prepend keys = .outOfBounds := by
  induction keys with
  | nil => rfl
  | cons k keys ih => exact congrArg (Deserialized.cons k) ih

@[simp] theorem length_writeLittleEndian32 (n : ℕ) : (writeLittleEndian32 n).length = 4 := rfl

theorem littleEndian32_write (h : len < 2 ^ 32) (rest : Bytes) :
    littleEndian32 (writeLittleEndian32 len ++ rest) = len := by
  have hread := read_writeLittleEndian32 h rest
  simp only [writeLittleEndian32, List.cons_append, List.nil_append, readLittleEndian32,
    Option.some.injEq, Prod.mk.injEq, and_true] at hread
  exact hread

/-- Four bytes are a length. -/
theorem exists_length (h : 4 ≤ value.length) :
    ∃ len rest, len < 2 ^ 32 ∧ value = writeLittleEndian32 len ++ rest := by
  match value, h with
  | a :: b :: c :: d :: rest, _ =>
      have ha := a.toNat_lt
      have hb := b.toNat_lt
      have hc := c.toNat_lt
      have hd := d.toNat_lt
      refine ⟨a.toNat + 2 ^ 8 * b.toNat + 2 ^ 16 * c.toNat + 2 ^ 24 * d.toNat, rest, by omega, ?_⟩
      have hbyte : ∀ {n : ℕ} {x : UInt8}, n % 2 ^ 8 = x.toNat → UInt8.ofNat n = x := by
        intro n x hn
        rw [← UInt8.toNat_inj, UInt8.toNat_ofNat', hn]
      simp only [writeLittleEndian32, List.cons_append, List.nil_append]
      rw [hbyte (x := a) (by omega), hbyte (x := b) (by omega), hbyte (x := c) (by omega),
        hbyte (x := d) (by omega)]

theorem write_append_inj {len' : ℕ} {rest' : Bytes} (hlen : len < 2 ^ 32) (hlen' : len' < 2 ^ 32)
    (h : writeLittleEndian32 len ++ rest = writeLittleEndian32 len' ++ rest') :
    len = len' ∧ rest = rest' := by
  have hread := congrArg readLittleEndian32 h
  rw [read_writeLittleEndian32 hlen, read_writeLittleEndian32 hlen'] at hread
  simpa using hread

theorem write_append_ne_nil (n : ℕ) (rest : Bytes) : writeLittleEndian32 n ++ rest ≠ [] :=
  List.cons_ne_nil _ _

theorem length_frame (content : Bytes) : (frame content).length = 4 + content.length := by
  rw [frame, List.length_append, length_writeLittleEndian32]

theorem arraySize_le (len : ℕ) : arraySize len ≤ len := by
  unfold arraySize
  split <;> omega

/-! ## Which frames there are -/

/-- A frame that is complete and not refused has a key. -/
theorem key_of_not_refused (hlen : len < 2 ^ 32) (hle : len ≤ rest.length)
    (h : ¬ RefusedFrame F (writeLittleEndian32 len ++ rest)) :
    ∃ key, F.parseFromCodedStream (rest.take (arraySize len)) = some key := by
  have hsize : arraySize len ≤ rest.length := (arraySize_le len).trans hle
  by_contra hnone
  refine h ⟨len, rest, hlen, rfl, fun content hcontent hprefix => ?_⟩
  have heq : content = rest.take (arraySize len) :=
    (List.IsPrefix.eq_of_length hprefix
      (by rw [List.length_take, hcontent, Nat.min_eq_left hsize])).symm
  rw [heq]
  refine ⟨Option.eq_none_iff_forall_ne_some.mpr fun key hkey => hnone ⟨key, hkey⟩, ?_⟩
  have hreads := F.reads_le (rest.take (arraySize len))
  rw [List.length_take] at hreads
  omega

/-- A text has frames with keys up to its end, up to one that is refused, or up to one that is cut
off. -/
theorem frames_cases (F : KeysStream K) (value : Bytes) :
    (∃ keys, FramesThen F (· = []) keys value) ∨
      (∃ keys, FramesThen F (RefusedFrame F) keys value) ∨
      ∃ keys, FramesThen F (CutFrame F) keys value := by
  induction hn : value.length using Nat.strong_induction_on generalizing value with
  | _ n ih =>
    by_cases hnil : value = []
    · exact Or.inl ⟨[], .rest hnil⟩
    by_cases hshort : value.length < 4
    · exact Or.inr (Or.inr ⟨[], .rest (Or.inl ⟨hnil, hshort⟩)⟩)
    obtain ⟨len, rest, hlen, hvalue⟩ := exists_length (Nat.le_of_not_lt hshort)
    by_cases hrefused : RefusedFrame F value
    · exact Or.inr (Or.inl ⟨[], .rest hrefused⟩)
    by_cases hcut : rest.length < len
    · exact Or.inr (Or.inr ⟨[], .rest (Or.inr ⟨len, rest, hlen, hvalue, hcut, hrefused⟩)⟩)
    -- the frame is complete and has a key
    have hle := Nat.le_of_not_lt hcut
    obtain ⟨key, hkey⟩ := key_of_not_refused hlen hle (hvalue ▸ hrefused)
    have htake : (rest.take len).length = len := by rw [List.length_take, Nat.min_eq_left hle]
    have hframe : value = frame (rest.take len) ++ rest.drop len := by
      rw [frame, htake, List.append_assoc, List.take_append_drop, hvalue]
    have hparse : F.parseFromCodedStream
        ((rest.take len).take (arraySize (rest.take len).length)) = some key := by
      rw [htake, List.take_take, Nat.min_eq_left (arraySize_le len)]
      exact hkey
    have hcons : ∀ {kind : Bytes → Prop} {keys : List K}, FramesThen F kind keys (rest.drop len) →
        FramesThen F kind (key :: keys) value := by
      intro kind keys h
      rw [hframe]
      exact .cons (by rw [htake]; exact hlen) hparse h
    have hshorter : (rest.drop len).length < n := by
      rw [← hn, hvalue, List.length_append, length_writeLittleEndian32, List.length_drop]
      omega
    rcases ih _ hshorter (rest.drop len) rfl with ⟨keys, h⟩ | ⟨keys, h⟩ | ⟨keys, h⟩
    · exact Or.inl ⟨_, hcons h⟩
    · exact Or.inr (Or.inl ⟨_, hcons h⟩)
    · exact Or.inr (Or.inr ⟨_, hcons h⟩)

theorem FramesThen.complete (h : FramesThen F (· = []) keys value) : Complete value := by
  induction h with
  | rest hnil => exact ⟨[], fun _ hc => absurd hc List.not_mem_nil, hnil⟩
  | @cons content _ _ _ hlen _ _ ih =>
      obtain ⟨contents, hcontents, hvalue⟩ := ih
      refine ⟨content :: contents, ?_, by rw [List.flatMap_cons, hvalue]⟩
      rintro c (_ | ⟨_, hc⟩)
      · exact hlen
      · exact hcontents c hc

/-- A complete text begins with a complete frame. -/
theorem Complete.uncons (h : Complete (writeLittleEndian32 len ++ rest)) (hlen : len < 2 ^ 32) :
    len ≤ rest.length ∧ Complete (rest.drop len) := by
  obtain ⟨contents, hcontents, hvalue⟩ := h
  cases contents with
  | nil => exact absurd hvalue (write_append_ne_nil len rest)
  | cons c contents =>
      rw [List.flatMap_cons, frame, List.append_assoc] at hvalue
      obtain ⟨rfl, rfl⟩ := write_append_inj hlen (hcontents c List.mem_cons_self) hvalue
      rw [List.length_append, List.drop_left]
      exact ⟨Nat.le_add_right _ _, contents, fun c' hc' => hcontents c' (.tail _ hc'), rfl⟩

theorem FramesThen.not_complete (h : FramesThen F (CutFrame F) keys value) : ¬ Complete value := by
  induction h with
  | rest hcut =>
      rintro hcomplete
      rcases hcut with ⟨hne, hshort⟩ | ⟨len, rest, hlen, rfl, hcut, -⟩
      · obtain ⟨contents, hcontents, rfl⟩ := hcomplete
        cases contents with
        | nil => exact hne rfl
        | cons c contents =>
            rw [List.flatMap_cons, List.length_append, length_frame] at hshort
            omega
      · exact absurd (hcomplete.uncons hlen).1 (Nat.not_le_of_lt hcut)
  | cons hlen _ _ ih =>
      intro hcomplete
      rw [frame, List.append_assoc] at hcomplete
      have hrest := (hcomplete.uncons hlen).2
      rw [List.drop_left] at hrest
      exact ih hrest

/-! ## What the loop reads -/

/-- One round, at a length in the text -/
theorem deserializeText_length {t : Text} {pos : ℕ} (hlen : len < 2 ^ 32)
    (h : t.value.drop pos = writeLittleEndian32 len ++ rest) :
    t.value.drop (pos + 4) = rest ∧ pos + 4 + rest.length = t.value.length ∧
      deserializeText F t pos =
        if rest.length < F.reads (t.bytes (pos + 4) (arraySize len)) then .outOfBounds
        else
          match F.parseFromCodedStream (t.bytes (pos + 4) (arraySize len)) with
          | none => .refused []
          | some key => (deserializeText F t (pos + 4 + len)).cons key := by
  have hlength := congrArg List.length h
  rw [List.length_drop, List.length_append, length_writeLittleEndian32] at hlength
  have hdrop : t.value.drop (pos + 4) = rest := by
    rw [← List.drop_drop, h]
    rfl
  have hread : littleEndian32 (t.bytes pos 4) = len := by
    rw [Text.bytes_of_le h (by omega) (by rw [List.length_append]; simp)]
    exact littleEndian32_write hlen []
  refine ⟨hdrop, by omega, ?_⟩
  rw [deserializeText, if_pos (by omega), if_neg (by omega)]
  dsimp only
  rw [hread]
  refine if_congr ?_ rfl rfl
  omega

/-- Frames with keys are read, wherever they stand in the text. -/
theorem FramesThen.run (h : FramesThen F kind keys value) :
    ∃ n ≤ value.length, kind (value.drop n) ∧ ∀ (t : Text) (pos : ℕ), t.value.drop pos = value →
      pos ≤ t.value.length →
      deserializeText F t pos = (deserializeText F t (pos + n)).prepend keys := by
  induction h with
  | rest h => exact ⟨0, Nat.zero_le _, h, fun _ _ _ _ => rfl⟩
  | @cons content value key keys hlen hparse _ ih =>
      obtain ⟨n, hn, hkind, hrun⟩ := ih
      refine ⟨4 + content.length + n, ?_, ?_, ?_⟩
      · rw [List.length_append, length_frame]
        omega
      · rwa [← List.drop_drop, ← length_frame, List.drop_left]
      intro t pos hdrop hpos
      rw [frame, List.append_assoc] at hdrop
      obtain ⟨hrest, hlength, hround⟩ := deserializeText_length (F := F) hlen hdrop
      have hsize := arraySize_le content.length
      rw [List.length_append] at hlength
      have hbytes : t.bytes (pos + 4) (arraySize content.length) =
          content.take (arraySize content.length) := by
        rw [Text.bytes_of_le hrest (by omega) (by rw [List.length_append]; omega),
          List.take_append_of_le_length hsize]
      have hreads := F.reads_le (content.take (arraySize content.length))
      rw [List.length_take] at hreads
      rw [hround, hbytes, if_neg (by rw [List.length_append]; omega), hparse]
      dsimp only
      have hnext : t.value.drop (pos + 4 + content.length) = value := by
        rw [← List.drop_drop, hrest, List.drop_left]
      rw [hrun t _ hnext (by omega)]
      have hassoc : pos + 4 + content.length + n = pos + (4 + content.length + n) := by omega
      rw [hassoc]
      rfl

/-- At the end of the text the loop is left. -/
theorem deserializeText_end {t : Text} {pos : ℕ} (h : t.value.length ≤ pos) :
    deserializeText F t pos = .accepted [] := by
  rw [deserializeText, if_neg (by omega)]

theorem deserializeText_refused {t : Text} {pos : ℕ}
    (h : RefusedFrame F (t.value.drop pos)) : deserializeText F t pos = .refused [] := by
  obtain ⟨len, rest, hlen, hvalue, hrefused⟩ := h
  obtain ⟨hrest, hlength, hround⟩ := deserializeText_length (F := F) hlen hvalue
  have hbytes := Text.bytes_eq hrest (arraySize len) (by omega)
  obtain ⟨hparse, hreads⟩ := hrefused (t.bytes (pos + 4) (arraySize len)) (by simp [Text.bytes])
    (by rw [hbytes]; exact List.prefix_append _ _)
  rw [hround, if_neg (by omega), hparse]

/-- A frame that is cut off is read beyond the end of the text, or taken for a key. -/
theorem deserializeText_cut (h : CutFrame F value) : ∃ beyond : ℕ → UInt8, ∀ (t : Text) (pos : ℕ),
    t.value.drop pos = value → pos ≤ t.value.length → t.beyond = beyond →
      deserializeText F t pos = .outOfBounds ∨
        ∃ keys, deserializeText F t pos = .accepted keys := by
  rcases h with ⟨hne, hshort⟩ | ⟨len, rest, hlen, hvalue, hcut, hnot⟩
  · refine ⟨fun _ => 0, fun t pos hdrop _ _ => Or.inl ?_⟩
    have hlength := congrArg List.length hdrop
    have hpos := List.length_pos_of_ne_nil hne
    rw [List.length_drop] at hlength
    rw [deserializeText, if_pos (by omega), if_pos (by omega)]
  · -- some bytes behind the text are not refused in time
    have hcontent : ∃ content : Bytes, content.length = arraySize len ∧
        rest.take (arraySize len) <+: content ∧
        ¬ (F.parseFromCodedStream content = none ∧ F.reads content ≤ rest.length) := by
      by_contra hall
      refine hnot ⟨len, rest, hlen, hvalue, fun content hcontent hprefix => ?_⟩
      by_contra hread
      exact hall ⟨content, hcontent, hprefix, hread⟩
    obtain ⟨content, hsize, ⟨behind, rfl⟩, hread⟩ := hcontent
    refine ⟨fun i => behind.getD i 0, fun t pos hdrop _ hbeyond => ?_⟩
    rw [hvalue] at hdrop
    obtain ⟨hrest, hlength, hround⟩ := deserializeText_length (F := F) hlen hdrop
    have hbehind : (List.range (arraySize len - rest.length)).map t.beyond = behind := by
      rw [List.length_append, List.length_take] at hsize
      apply List.ext_getElem
      · rw [List.length_map, List.length_range]
        omega
      · intro i _ hi
        rw [List.getElem_map, List.getElem_range, hbeyond]
        simp [hi]
    have hbytes := Text.bytes_eq hrest (arraySize len) (by omega)
    rw [hbehind] at hbytes
    rw [hround, hbytes]
    split
    · exact Or.inl rfl
    · next hwithin =>
      cases hparse : F.parseFromCodedStream (rest.take (arraySize len) ++ behind) with
      | none => exact absurd ⟨hparse, Nat.le_of_not_lt hwithin⟩ hread
      | some key =>
          -- the position is beyond the end of the text, and the loop ends
          dsimp only
          rw [deserializeText_end (by omega)]
          exact Or.inr ⟨_, rfl⟩

/-! ## Texts with keys -/

theorem framesThen_serialized (F : KeysStream K) (keys : List K) :
    FramesThen F (· = []) keys (keys.flatMap (framed F.toKeysFormat)) := by
  induction keys with
  | nil => exact .rest rfl
  | cons key keys ih =>
      have hlen := F.byteSize_lt_int key
      rw [List.flatMap_cons]
      refine .cons (by omega) ?_ ih
      rw [arraySize, if_pos hlen, List.take_length, F.parse_serialize]

theorem deserializeText_framesThen {t : Text} (h : FramesThen F (· = []) keys t.value) :
    deserializeText F t 0 = .accepted keys := by
  obtain ⟨n, hn, hnil, hrun⟩ := h.run
  have hend : t.value.length ≤ n := List.drop_eq_nil_iff.mp hnil
  rw [hrun t 0 rfl (Nat.zero_le _), deserializeText_end (by omega), prepend_accepted,
    List.append_nil]

/-- Such a text is also one of the model in which the cache is a step of a run. -/
theorem serialize_of_serializeText (h : serializeText F keys = some value) :
    serialize F.toKeysFormat keys = some value := by
  unfold serializeText at h
  unfold serialize
  split at h
  · cases h
  · next hne =>
    rw [if_neg hne]
    split at h
    · exact h
    · cases h

/-- Keys that fill less than 2 GiB are serialized, and any text that keys are serialized to gives
these keys back, whatever is behind it in memory. -/
theorem deserialize_serialized (F : KeysStream K) (keys : List K) :
    (keys ≠ [] → (keys.flatMap (framed F.toKeysFormat)).length < 2 ^ 31 →
      (serializeText F keys).isSome) ∧
    ∀ value, serializeText F keys = some value →
      ∀ beyond, deserializeText F ⟨value, beyond⟩ 0 = .accepted keys := by
  constructor
  · intro hkeys hlen
    rw [serializeText, if_neg (by simpa using hkeys), if_pos hlen]
    rfl
  · intro value hvalue beyond
    have hserialize := serialize_of_serializeText hvalue
    unfold serialize at hserialize
    split at hserialize
    · cases hserialize
    · cases hserialize
      exact deserializeText_framesThen (framesThen_serialized F keys)

/-! ## Texts of any kind -/

/-- No byte at or beyond the end is read, and only complete frames are accepted. -/
def ReadsSafely (F : KeysStream K) (value : Bytes) : Prop :=
  ∀ beyond, getText F (some ⟨value, beyond⟩) ≠ .outOfBounds ∧
    ∀ keys, getText F (some ⟨value, beyond⟩) = .accepted keys → Complete value

/-- Keys of a text that is refused are not in the response: it is as without a text. -/
def HidesPartial (F : KeysStream K) (value : Bytes) (fromAccounts : Except DaoError (List K)) :
    Prop :=
  ∀ beyond keys, getText F (some ⟨value, beyond⟩) = .refused keys →
    preparedKeys (.refused keys) fromAccounts = preparedKeys (getText F none) fromAccounts

/-- The keys in front of a frame that is refused are hidden if the accounts answer, or if there are
none. -/
theorem preparedKeys_refused_iff {keys : List K} {fromAccounts : Except DaoError (List K)} :
    preparedKeys (.refused keys) fromAccounts = preparedKeys (getText F none) fromAccounts ↔
      (fromAccounts = .error .noSuchData → keys = []) := by
  cases fromAccounts with
  | ok read => simp [preparedKeys, getText]
  | error e => cases e <;> simp [preparedKeys, getText]

theorem getText_of_ne_nil (h : value ≠ []) (beyond : ℕ → UInt8) :
    getText F (some ⟨value, beyond⟩) = deserializeText F ⟨value, beyond⟩ 0 := by
  simp [getText, h]

theorem getText_refused (h : FramesThen F (RefusedFrame F) keys value) (beyond : ℕ → UInt8) :
    getText F (some ⟨value, beyond⟩) = .refused keys := by
  obtain ⟨n, hn, hrefused, hrun⟩ := h.run
  have hne : value ≠ [] := by
    rintro rfl
    obtain ⟨len, rest, -, hvalue, -⟩ := hrefused
    rw [List.drop_nil] at hvalue
    exact write_append_ne_nil len rest hvalue.symm
  rw [getText_of_ne_nil hne, hrun ⟨value, beyond⟩ 0 rfl (Nat.zero_le _), Nat.zero_add,
    deserializeText_refused hrefused, prepend_refused, List.append_nil]

/-- A text that is cut off inside a frame is not read safely. -/
theorem not_readsSafely (h : FramesThen F (CutFrame F) keys value) : ¬ ReadsSafely F value := by
  intro hsafe
  obtain ⟨n, hn, hcut, hrun⟩ := h.run
  have hne : value ≠ [] := by
    rintro rfl
    rw [List.drop_nil] at hcut
    rcases hcut with ⟨hne, -⟩ | ⟨len, rest, -, hvalue, -⟩
    · exact hne rfl
    · exact write_append_ne_nil len rest hvalue.symm
  obtain ⟨beyond, hbeyond⟩ := deserializeText_cut hcut
  obtain ⟨hbounds, haccepted⟩ := hsafe beyond
  have hget : getText F (some ⟨value, beyond⟩) =
      (deserializeText F ⟨value, beyond⟩ n).prepend keys := by
    rw [getText_of_ne_nil hne, hrun ⟨value, beyond⟩ 0 rfl (Nat.zero_le _), Nat.zero_add]
  rcases hbeyond ⟨value, beyond⟩ n rfl hn rfl with hout | ⟨keys', hkeys'⟩
  · rw [hout, prepend_outOfBounds] at hget
    exact hbounds hget
  · rw [hkeys', prepend_accepted] at hget
    exact h.not_complete (haccepted _ hget)

/-- A text is read safely, and never leaves keys in a response after it was refused, if and only if
it has complete frames up to its end, or up to a frame that protobuf refuses before the text ends;
and in that case no frame with a key comes before, should the accounts have no keys. -/
theorem readsSafely_iff (F : KeysStream K) (value : Bytes)
    (fromAccounts : Except DaoError (List K)) :
    ReadsSafely F value ∧ HidesPartial F value fromAccounts ↔
      (∃ keys, FramesThen F (· = []) keys value) ∨
        ∃ keys, FramesThen F (RefusedFrame F) keys value ∧
          (fromAccounts = .error .noSuchData → keys = []) := by
  constructor
  · rintro ⟨hsafe, hhides⟩
    rcases frames_cases F value with h | ⟨keys, h⟩ | ⟨keys, h⟩
    · exact Or.inl h
    · exact Or.inr ⟨keys, h, preparedKeys_refused_iff.mp
        (hhides (fun _ => 0) keys (getText_refused h _))⟩
    · exact absurd hsafe (not_readsSafely h)
  · rintro (⟨keys, h⟩ | ⟨keys, h, haccounts⟩)
    · have hget : ∀ beyond, getText F (some ⟨value, beyond⟩) = .accepted keys ∨
          getText F (some ⟨value, beyond⟩) = .refused [] := by
        intro beyond
        by_cases hnil : value = []
        · exact Or.inr (by rw [hnil]; rfl)
        · exact Or.inl ((getText_of_ne_nil hnil beyond).trans (deserializeText_framesThen h))
      refine ⟨fun beyond => ⟨?_, fun _ _ => h.complete⟩, fun beyond keys' hkeys' => ?_⟩
      · rcases hget beyond with heq | heq <;> rw [heq] <;> simp
      · rcases hget beyond with heq | heq
        · rw [heq] at hkeys'
          cases hkeys'
        · rw [heq] at hkeys'
          cases hkeys'
          rfl
    · refine ⟨fun beyond => ?_, fun beyond keys' hkeys' => ?_⟩
      · rw [getText_refused h]
        exact ⟨by simp, fun keys' hkeys' => by cases hkeys'⟩
      · rw [getText_refused h] at hkeys'
        cases hkeys'
        exact preparedKeys_refused_iff.mpr haccounts

/-! ## A text that is cut off -/

/-- Messages as the bytes they are serialized to, of which a parser reads all -/
def plainKeys : KeysStream {b : Bytes // b.length < 2 ^ 31} where
  serializeToCodedStream := Subtype.val
  parseFromCodedStream := fun b => if h : b.length < 2 ^ 31 then some ⟨b, h⟩ else none
  parse_serialize := fun k => dif_pos k.2
  byteSize_lt := fun k => Nat.lt_trans k.2 (by decide)
  reads := List.length
  reads_le := fun _ => Nat.le_refl _
  byteSize_lt_int := Subtype.property

/-- Of the first frame there is the length only. -/
theorem not_readsSafely_three : ¬ ∀ (K : Type) (F : KeysStream K) (value : Bytes)
    (fromAccounts : Except DaoError (List K)),
      ReadsSafely F value ∧ HidesPartial F value fromAccounts := by
  intro h
  have hbounds := ((h _ plainKeys [3, 0, 0, 0] (.ok [])).1 fun _ => 0).1
  apply hbounds
  rw [getText_of_ne_nil (List.cons_ne_nil _ _), deserializeText]
  rfl

end KeysCache

end BcmServer.Group
