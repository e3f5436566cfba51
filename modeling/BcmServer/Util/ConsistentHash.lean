import BcmServer.Util.Bytes

/-!
# BcmServer.Util.ConsistentHash — the server circle

`UserConsistentFnvHash` places every server at 200 points of a circle of 32-bit
hashes and gives a key to the first point at or after the key's own hash. The
circle is a `std::map`: its entries are kept in the order of their keys.
-/

namespace BcmServer.Util

/-- `FnvHashFunction::hash` -/
def fnvHash (bs : Bytes) : UInt32 :=
  let h : UInt32 := bs.foldl (fun h b => (h ^^^ b.toUInt32) * 16777619) 0x811C9DC5
  let h := h + (h <<< 13)
  let h := h ^^^ (h >>> 7)
  let h := h + (h <<< 3)
  let h := h ^^^ (h >>> 17)
  h + (h <<< 5)

/-- `fnvHash` on numbers, which the kernel computes with -/
def fnvNat (bs : Bytes) : ℕ :=
  let h := bs.foldl (fun h b => (h ^^^ b.toNat) * 16777619 % 2 ^ 32) 0x811C9DC5
  let h := (h + h <<< 13) % 2 ^ 32
  let h := h ^^^ (h >>> 7)
  let h := (h + h <<< 3) % 2 ^ 32
  let h := h ^^^ (h >>> 17)
  (h + h <<< 5) % 2 ^ 32

theorem toNat_fnvHash (bs : Bytes) : (fnvHash bs).toNat = fnvNat bs := by
  have hfold : ∀ (bs : Bytes) (h : UInt32),
      (bs.foldl (fun h b => (h ^^^ b.toUInt32) * 16777619) h).toNat =
        bs.foldl (fun h b => (h ^^^ b.toNat) * 16777619 % 2 ^ 32) h.toNat := by
    intro bs
    induction bs with
    | nil => intro h; rfl
    | cons b bs ih =>
        intro h
        rw [List.foldl_cons, List.foldl_cons, ih, UInt32.toNat_mul, UInt32.toNat_xor,
          UInt8.toNat_toUInt32, UInt32.toNat_ofNat]
  simp only [fnvHash, fnvNat]
  rw [UInt32.toNat_add]
  simp [hfold]

/-- `server_circle`, in the order of the keys. -/
abbrev HashCircle := List (UInt32 × Bytes)

namespace HashCircle

/-- `server_circle[k] = v` -/
def insert (k : UInt32) (v : Bytes) : HashCircle → HashCircle
  | [] => [(k, v)]
  | e :: rest =>
      if k < e.1 then (k, v) :: e :: rest
      else if k = e.1 then (k, v) :: rest
      else e :: insert k v rest

/-- `DEFAULTNUMBEROFREPLICAS` -/
def numberOfReplicas : ℕ := 200

/-- The bytes of `hashbuf` for the `i`-th replica: the name as a C string cut to
the buffer, with the index written over it after at most 46 bytes. -/
def hashbuf (name : Bytes) (i : ℕ) : Bytes :=
  let cstr := (name.takeWhile (· ≠ 0)).take 49
  let buf := cstr ++ List.replicate (50 - cstr.length) 0
  let strLen := min name.length 46
  let index := [UInt8.ofNat i, UInt8.ofNat (i / 2 ^ 8), UInt8.ofNat (i / 2 ^ 16),
    UInt8.ofNat (i / 2 ^ 24)]
  buf.take strLen ++ index ++ buf.drop (strLen + 4)

/-- `UserConsistentFnvHash::AddServer` -/
def addServer (c : HashCircle) (name : Bytes) : HashCircle :=
  (List.range numberOfReplicas).foldl (fun c i => c.insert (fnvHash (hashbuf name i)) name) c

/-- `UserConsistentFnvHash::GetServer` -/
def getServer (c : HashCircle) (key : Bytes) : Bytes :=
  match c with
  | [] => []
  | first :: _ =>
      match c.find? fun e => fnvHash key ≤ e.1 with
      | some e => e.2
      | none => first.2

theorem mem_insert {c : HashCircle} {k : UInt32} {v : Bytes} {e : UInt32 × Bytes}
    (h : e ∈ c.insert k v) : e ∈ c ∨ e = (k, v) := by
  induction c with
  | nil => exact Or.inr (List.mem_singleton.mp h)
  | cons x c ih =>
      simp only [insert] at h
      split at h
      · rcases List.mem_cons.mp h with h | h
        · exact Or.inr h
        · exact Or.inl h
      · split at h
        · rcases List.mem_cons.mp h with h | h
          · exact Or.inr h
          · exact Or.inl (List.mem_cons_of_mem x h)
        · rcases List.mem_cons.mp h with h | h
          · exact Or.inl (h ▸ List.mem_cons_self)
          · rcases ih h with h | h
            · exact Or.inl (List.mem_cons_of_mem x h)
            · exact Or.inr h

theorem insert_ne_nil (c : HashCircle) (k : UInt32) (v : Bytes) : c.insert k v ≠ [] := by
  cases c with
  | nil => exact List.cons_ne_nil _ _
  | cons x c =>
      simp only [insert]
      repeat' split
      all_goals exact List.cons_ne_nil _ _

theorem foldl_insert_mem {c : HashCircle} {name : Bytes} {is : List ℕ} {e : UInt32 × Bytes}
    (h : e ∈ is.foldl (fun c i => c.insert (fnvHash (hashbuf name i)) name) c) :
    e ∈ c ∨ e.2 = name := by
  induction is generalizing c with
  | nil => exact Or.inl h
  | cons i is ih =>
      rcases ih h with h | h
      · rcases mem_insert h with h | h
        · exact Or.inl h
        · exact Or.inr (by rw [h])
      · exact Or.inr h

theorem foldl_insert_ne_nil {c : HashCircle} {name : Bytes} {is : List ℕ} (h : c ≠ [] ∨ is ≠ []) :
    is.foldl (fun c i => c.insert (fnvHash (hashbuf name i)) name) c ≠ [] := by
  induction is generalizing c with
  | nil => exact h.resolve_right (fun hnil => hnil rfl)
  | cons i is ih => exact ih (Or.inl (insert_ne_nil _ _ _))

/-- Every point of the circle belongs to a server that was added. -/
theorem mem_addServer {c : HashCircle} {name : Bytes} {e : UInt32 × Bytes}
    (h : e ∈ c.addServer name) : e ∈ c ∨ e.2 = name :=
  foldl_insert_mem h

theorem addServer_ne_nil (c : HashCircle) (name : Bytes) : c.addServer name ≠ [] :=
  foldl_insert_ne_nil (Or.inr (by simp [numberOfReplicas]))

/-- A circle that is not empty gives every key to one of its servers. -/
theorem getServer_mem {c : HashCircle} (h : c ≠ []) (key : Bytes) :
    ∃ e ∈ c, e.2 = c.getServer key := by
  cases c with
  | nil => exact absurd rfl h
  | cons first rest =>
      simp only [getServer]
      split
      · rename_i e he
        exact ⟨e, List.mem_of_find?_eq_some he, rfl⟩
      · exact ⟨first, List.mem_cons_self, rfl⟩

end HashCircle

end BcmServer.Util
