import Mathlib.Algebra.GroupWithZero.Nat
import Mathlib.Data.List.Perm.Basic
import Mathlib.Tactic.Common

/-!
# BcmServer.Util.Keyed — records with keys and fields

A list of records in which the first one with a key is found, changed or erased, and
is set to a fresh value or appended (`find`, `update`, `erase`, `put`). Operations on
different keys commute.

A record is a family of values, one for each field. `copyNamed` copies the fields
with the given names from one record to another; setting a field and naming it is the
same as setting it on the other side (`copyNamed_concat`).
-/

namespace BcmServer.Util.Keyed

variable {α κ : Type*} [DecidableEq κ] (key : α → κ)

/-! ## Lists of records -/

/-- The first record with the key -/
def find (k : κ) (l : List α) : Option α := l.find? fun a => key a = k

/-- The first record with the key is changed. -/
def update (k : κ) (f : α → α) : List α → List α
  | [] => []
  | a :: l => if key a = k then f a :: l else a :: update k f l

/-- The first record with the key is erased. -/
def erase (k : κ) (l : List α) : List α := l.eraseP fun a => key a = k

/-- A record with the key becomes `a`. -/
def setTo (k : κ) (a b : α) : α := if key b = k then a else b

/-- The first record with the key is set, or one is appended. -/
def put (k : κ) (a : α) (l : List α) : List α :=
  if (find key k l).isSome then update key k (setTo key k a) l else l ++ [a]

variable {key} {k j : κ} {f g : α → α} {a : α}

theorem find_cons_self {l : List α} (h : key a = k) : find key k (a :: l) = some a := by
  simp [find, h]

theorem find_cons_ne {l : List α} (h : key a ≠ k) : find key k (a :: l) = find key k l := by
  simp [find, h]

theorem find_append (l m : List α) : find key k (l ++ m) = (find key k l).or (find key k m) :=
  List.find?_append

theorem find_key {l : List α} (h : find key k l = some a) : key a = k := by
  simpa using List.find?_some h

theorem find_eq_none_iff {l : List α} : find key k l = none ↔ k ∉ l.map key := by
  simp [find, List.find?_eq_none]

theorem update_cons_self {l : List α} (h : key a = k) : update key k f (a :: l) = f a :: l := by
  rw [update, if_pos h]

theorem update_cons_ne {l : List α} (h : key a ≠ k) :
    update key k f (a :: l) = a :: update key k f l := by
  rw [update, if_neg h]

theorem mem_update {l : List α} (h : a ∈ update key k f l) : a ∈ l ∨ ∃ b ∈ l, a = f b := by
  induction l with
  | nil => cases h
  | cons c l ih =>
      by_cases hc : key c = k
      · rw [update_cons_self hc] at h
        obtain rfl | h := List.mem_cons.mp h
        · exact Or.inr ⟨c, List.mem_cons_self, rfl⟩
        · exact Or.inl (List.mem_cons_of_mem c h)
      · rw [update_cons_ne hc] at h
        obtain rfl | h := List.mem_cons.mp h
        · exact Or.inl List.mem_cons_self
        · obtain h | ⟨b, hb, rfl⟩ := ih h
          · exact Or.inl (List.mem_cons_of_mem c h)
          · exact Or.inr ⟨b, List.mem_cons_of_mem c hb, rfl⟩

/-- Only a record with the key is changed. -/
theorem mem_update_key {l : List α} (h : a ∈ update key k f l) :
    a ∈ l ∨ ∃ b ∈ l, key b = k ∧ a = f b := by
  induction l with
  | nil => cases h
  | cons c l ih =>
      by_cases hc : key c = k
      · rw [update_cons_self hc] at h
        rcases List.mem_cons.mp h with rfl | h
        · exact Or.inr ⟨c, List.mem_cons_self, hc, rfl⟩
        · exact Or.inl (List.mem_cons_of_mem c h)
      · rw [update_cons_ne hc] at h
        rcases List.mem_cons.mp h with rfl | h
        · exact Or.inl List.mem_cons_self
        · rcases ih h with h | ⟨b, hb, hbk, rfl⟩
          · exact Or.inl (List.mem_cons_of_mem c h)
          · exact Or.inr ⟨b, List.mem_cons_of_mem c hb, hbk, rfl⟩

theorem find_update_self (hf : ∀ a, key (f a) = key a) (l : List α) :
    find key k (update key k f l) = (find key k l).map f := by
  induction l with
  | nil => rfl
  | cons b l ih =>
      by_cases hb : key b = k
      · rw [update_cons_self hb, find_cons_self hb, find_cons_self ((hf b).trans hb),
          Option.map_some]
      · rw [update_cons_ne hb, find_cons_ne hb, find_cons_ne hb, ih]

theorem find_update_ne (hf : ∀ a, key (f a) = key a) (hjk : j ≠ k) (l : List α) :
    find key j (update key k f l) = find key j l := by
  induction l with
  | nil => rfl
  | cons b l ih =>
      by_cases hb : key b = k
      · have hbj : key b ≠ j := fun h => hjk (h.symm.trans hb)
        rw [update_cons_self hb, find_cons_ne hbj, find_cons_ne fun h => hbj ((hf b).symm.trans h)]
      · rw [update_cons_ne hb]
        by_cases hbj : key b = j
        · rw [find_cons_self hbj, find_cons_self hbj]
        · rw [find_cons_ne hbj, find_cons_ne hbj, ih]

theorem find_erase_ne (hjk : j ≠ k) (l : List α) : find key j (erase key k l) = find key j l := by
  induction l with
  | nil => rfl
  | cons b l ih =>
      by_cases hb : key b = k
      · rw [erase, List.eraseP_cons_of_pos (by simpa using hb),
          find_cons_ne fun h => hjk (h.symm.trans hb)]
      · rw [erase, List.eraseP_cons_of_neg (by simpa using hb)]
        by_cases hbj : key b = j
        · rw [find_cons_self hbj, find_cons_self hbj]
        · rw [find_cons_ne hbj, find_cons_ne hbj]
          exact ih

theorem update_of_none {l : List α} (h : find key k l = none) : update key k f l = l := by
  induction l with
  | nil => rfl
  | cons b l ih =>
      have hb : key b ≠ k := fun hb => by
        rw [find_cons_self hb] at h
        cases h
      rw [find_cons_ne hb] at h
      rw [update_cons_ne hb, ih h]

theorem update_congr {l : List α} (h : ∀ a, find key k l = some a → f a = g a) :
    update key k f l = update key k g l := by
  induction l with
  | nil => rfl
  | cons b l ih =>
      by_cases hb : key b = k
      · rw [update_cons_self hb, update_cons_self hb, h b (find_cons_self hb)]
      · rw [update_cons_ne hb, update_cons_ne hb, ih fun a ha => h a ((find_cons_ne hb).trans ha)]

theorem update_id (l : List α) : update key k (fun a => a) l = l := by
  induction l with
  | nil => rfl
  | cons b l ih =>
      by_cases hb : key b = k
      · rw [update_cons_self hb]
      · rw [update_cons_ne hb, ih]

theorem update_update (hf : ∀ a, key (f a) = key a) (l : List α) :
    update key k g (update key k f l) = update key k (fun a => g (f a)) l := by
  induction l with
  | nil => rfl
  | cons b l ih =>
      by_cases hb : key b = k
      · rw [update_cons_self hb, update_cons_self hb, update_cons_self ((hf b).trans hb)]
      · rw [update_cons_ne hb, update_cons_ne hb, update_cons_ne hb, ih]

/-- Where the first record with the key stands -/
theorem find_split {l : List α} (h : find key k l = some a) : ∃ l₁ l₂, l = l₁ ++ a :: l₂ ∧
    k ∉ l₁.map key ∧ ∀ f : α → α, update key k f l = l₁ ++ f a :: l₂ := by
  induction l with
  | nil => cases h
  | cons b l ih =>
      by_cases hb : key b = k
      · rw [find_cons_self hb, Option.some.injEq] at h
        subst h
        exact ⟨[], l, rfl, by simp, fun f => update_cons_self hb⟩
      · rw [find_cons_ne hb] at h
        obtain ⟨l₁, l₂, rfl, hnot, hupdate⟩ := ih h
        refine ⟨b :: l₁, l₂, rfl, ?_, fun f => ?_⟩
        · rw [List.map_cons, List.mem_cons, not_or]
          exact ⟨fun h => hb h.symm, hnot⟩
        · rw [update_cons_ne hb, hupdate, List.cons_append]

/-! ## Different keys -/

theorem update_comm (hf : ∀ a, key (f a) = key a) (hg : ∀ a, key (g a) = key a) (hjk : j ≠ k)
    (l : List α) : update key j g (update key k f l) = update key k f (update key j g l) := by
  induction l with
  | nil => rfl
  | cons b l ih =>
      by_cases hb : key b = k
      · have hbj : key b ≠ j := fun h => hjk (h.symm.trans hb)
        rw [update_cons_self hb, update_cons_ne hbj,
          update_cons_ne fun h => hbj ((hf b).symm.trans h), update_cons_self hb]
      · by_cases hbj : key b = j
        · rw [update_cons_ne hb, update_cons_self hbj, update_cons_self hbj,
            update_cons_ne fun h => hb ((hg b).symm.trans h)]
        · rw [update_cons_ne hb, update_cons_ne hbj, update_cons_ne hbj, update_cons_ne hb, ih]

theorem erase_update (hf : ∀ a, key (f a) = key a) (hjk : j ≠ k) (l : List α) :
    erase key j (update key k f l) = update key k f (erase key j l) := by
  have hpos : ∀ {b : α} {l : List α}, key b = j → erase key j (b :: l) = l := fun hb => by
    rw [erase, List.eraseP_cons_of_pos (by simpa using hb)]
  have hneg : ∀ {b : α} {l : List α}, key b ≠ j →
      erase key j (b :: l) = b :: erase key j l := fun hb => by
    rw [erase, List.eraseP_cons_of_neg (by simpa using hb), erase]
  induction l with
  | nil => rfl
  | cons b l ih =>
      by_cases hb : key b = k
      · have hbj : key b ≠ j := fun h => hjk (h.symm.trans hb)
        rw [update_cons_self hb, hneg hbj, hneg fun h => hbj ((hf b).symm.trans h),
          update_cons_self hb]
      · by_cases hbj : key b = j
        · rw [update_cons_ne hb, hpos hbj, hpos hbj]
        · rw [update_cons_ne hb, hneg hbj, hneg hbj, update_cons_ne hb, ih]

/-- The record is behind records with other keys. -/
theorem update_append_of_none {l m : List α} (h : find key k l = none) :
    update key k f (l ++ m) = l ++ update key k f m := by
  induction l with
  | nil => rfl
  | cons b l ih =>
      have hb : key b ≠ k := fun hb => by
        rw [find_cons_self hb] at h
        cases h
      rw [find_cons_ne hb] at h
      rw [List.cons_append, update_cons_ne hb, ih h, List.cons_append]

theorem update_append_ne (hak : key a ≠ k) (l : List α) :
    update key k f (l ++ [a]) = update key k f l ++ [a] := by
  induction l with
  | nil => rw [List.nil_append, update_cons_ne hak, update, List.nil_append]
  | cons b l ih =>
      by_cases hb : key b = k
      · rw [List.cons_append, update_cons_self hb, update_cons_self hb, List.cons_append]
      · rw [List.cons_append, update_cons_ne hb, update_cons_ne hb, ih, List.cons_append]

/-- The records of each key, one key after the other -/
theorem perm_flatMap_filter (key : α → κ) {ks : List κ} (hnodup : ks.Nodup) {l : List α}
    (h : ∀ a ∈ l, key a ∈ ks) : (ks.flatMap fun k => l.filter fun a => key a = k).Perm l := by
  induction ks generalizing l with
  | nil =>
      rw [List.eq_nil_iff_forall_not_mem.mpr fun a ha => List.not_mem_nil (h a ha)]
      exact List.Perm.refl _
  | cons k ks ih =>
      rw [List.nodup_cons] at hnodup
      -- the records of the other keys are among those that do not have the first one
      have hrest : ∀ j ∈ ks, (l.filter fun a => key a = j) =
          (l.filter fun a => !decide (key a = k)).filter fun a => key a = j := by
        intro j hj
        have hne : j ≠ k := by
          rintro rfl
          exact hnodup.1 hj
        rw [List.filter_filter]
        refine List.filter_congr fun a _ => ?_
        rcases eq_or_ne (key a) j with rfl | haj
        · simp [hne]
        · simp [haj]
      have hothers := ih hnodup.2 (l := l.filter fun a => !decide (key a = k)) fun a ha => by
        rw [List.mem_filter, Bool.not_eq_true', decide_eq_false_iff_not] at ha
        rcases List.mem_cons.mp (h a ha.1) with heq | hmem
        · exact absurd heq ha.2
        · exact hmem
      rw [List.flatMap_cons, List.flatMap_congr hrest]
      exact (hothers.append_left _).trans (List.filter_append_perm _ l)

/-! ## Setting a record -/

theorem key_setTo (hak : key a = k) (b : α) : key (setTo key k a b) = key b := by
  unfold setTo
  split
  · rename_i hb
    rw [hak, hb]
  · rfl

theorem put_of_some {l : List α} (h : (find key k l).isSome) :
    put key k a l = update key k (setTo key k a) l := by
  rw [put, if_pos h]

theorem put_of_none {l : List α} (h : find key k l = none) : put key k a l = l ++ [a] := by
  rw [put, if_neg (by simp [h])]

theorem mem_put {l : List α} {b : α} (h : b ∈ put key k a l) : b ∈ l ∨ b = a := by
  unfold put at h
  split at h
  · rcases mem_update_key h with h | ⟨c, -, hc, rfl⟩
    · exact Or.inl h
    · exact Or.inr (if_pos hc)
  · rcases List.mem_append.mp h with h | h
    · exact Or.inl h
    · exact Or.inr (List.mem_singleton.mp h)

theorem mem_of_mem_erase {l : List α} (h : a ∈ erase key k l) : a ∈ l :=
  List.mem_of_mem_eraseP h

theorem map_key_update (hf : ∀ a, key (f a) = key a) (l : List α) :
    (update key k f l).map key = l.map key := by
  induction l with
  | nil => rfl
  | cons b l ih =>
      by_cases hb : key b = k
      · rw [update_cons_self hb, List.map_cons, List.map_cons, hf]
      · rw [update_cons_ne hb, List.map_cons, List.map_cons, ih]

/-- Records with different keys keep them when one is put. -/
theorem nodup_put (hak : key a = k) {l : List α} (h : (l.map key).Nodup) :
    ((put key k a l).map key).Nodup := by
  unfold put
  split
  · rw [map_key_update (key_setTo hak)]
    exact h
  · rename_i hnone
    have hmem : k ∉ l.map key := find_eq_none_iff.mp (by simpa using hnone)
    rw [List.map_append, List.map_singleton, hak]
    refine List.nodup_append.mpr ⟨h, by simp, ?_⟩
    intro b hb c hc hbc
    rw [List.mem_singleton.mp hc] at hbc
    exact hmem (hbc ▸ hb)

theorem find_put_ne (haj : key a = j) (hkj : k ≠ j) (l : List α) :
    find key k (put key j a l) = find key k l := by
  cases hj : find key j l with
  | none =>
      rw [put_of_none hj, find_append, find_cons_ne fun h => hkj (h.symm.trans haj)]
      cases find key k l <;> rfl
  | some b =>
      rw [put_of_some (by simp [hj])]
      exact find_update_ne (key_setTo haj) hkj l

theorem find_put_self (hak : key a = k) (l : List α) : find key k (put key k a l) = some a := by
  cases hk : find key k l with
  | none =>
      rw [put_of_none hk, find_append, hk, find_cons_self hak]
      rfl
  | some b =>
      rw [put_of_some (by simp [hk]), find_update_self (key_setTo hak), hk, Option.map_some,
        setTo, if_pos (find_key hk)]

theorem put_update (hf : ∀ a, key (f a) = key a) (haj : key a = j) (hjk : j ≠ k) (l : List α) :
    put key j a (update key k f l) = update key k f (put key j a l) := by
  have hfind : find key j (update key k f l) = find key j l := find_update_ne hf hjk l
  cases hj : find key j l with
  | none =>
      rw [put_of_none (hfind.trans hj), put_of_none hj,
        update_append_ne fun h => hjk (haj.symm.trans h)]
  | some b =>
      rw [put_of_some (by rw [hfind, hj]; rfl), put_of_some (by rw [hj]; rfl),
        update_comm hf (key_setTo haj) hjk]

/-- A record that is set is not what it was before. -/
theorem put_update_self (hf : ∀ a, key (f a) = key a) (l : List α) :
    put key k a (update key k f l) = put key k a l := by
  have hfind : find key k (update key k f l) = (find key k l).map f := find_update_self hf l
  cases hk : find key k l with
  | none => rw [update_of_none hk]
  | some b =>
      rw [put_of_some (by rw [hfind, hk]; rfl), put_of_some (by rw [hk]; rfl), update_update hf]
      refine update_congr fun c hc => ?_
      rw [setTo, setTo, if_pos (find_key hc), if_pos ((hf c).trans (find_key hc))]

theorem put_put {b : α} (hbk : key b = k) (l : List α) :
    put key k a (put key k b l) = put key k a l := by
  cases hk : find key k l with
  | none =>
      have hb : (find key k (l ++ [b])).isSome := by
        rw [find_append, hk, find_cons_self hbk]
        rfl
      rw [put_of_none hk, put_of_none hk, put_of_some hb]
      clear hb
      induction l with
      | nil => rw [List.nil_append, update_cons_self hbk, setTo, if_pos hbk, List.nil_append]
      | cons c l ih =>
          have hc : key c ≠ k := fun h => by
            rw [find_cons_self h] at hk
            cases hk
          rw [find_cons_ne hc] at hk
          rw [List.cons_append, update_cons_ne hc, ih hk, List.cons_append]
  | some c =>
      rw [put_of_some (l := l) (a := b) (by rw [hk]; rfl), put_update_self (key_setTo hbk)]

/-- A sum changes by what the record changes. -/
theorem sum_map_update {l : List α} (h : find key k l = some a) (f : α → α) (g : α → ℕ) :
    ((update key k f l).map g).sum + g a = (l.map g).sum + g (f a) := by
  induction l with
  | nil => cases h
  | cons b l ih =>
      by_cases hb : key b = k
      · rw [find_cons_self hb, Option.some.injEq] at h
        subst h
        rw [update_cons_self hb, List.map_cons, List.map_cons, List.sum_cons, List.sum_cons]
        omega
      · rw [find_cons_ne hb] at h
        have hrest := ih h
        rw [update_cons_ne hb, List.map_cons, List.map_cons, List.sum_cons, List.sum_cons]
        omega

/-! ## Fields -/

section Fields

variable {ι : Type*} {V : ι → Type*} (text : ι → String)

/-- The fields with the given names are copied. -/
def copyNamed (names : List String) (src dst : ∀ i, V i) : ∀ i, V i :=
  fun i => if text i ∈ names then src i else dst i

@[simp] theorem copyNamed_nil (src dst : ∀ i, V i) : copyNamed text [] src dst = dst := by
  funext i
  simp [copyNamed]

variable [DecidableEq ι] {text}

/-- A field that is set in the source and named is set in the copy. -/
theorem copyNamed_concat (htext : Function.Injective text) (names : List String)
    (src dst : ∀ i, V i) (i : ι) (v : V i) :
    copyNamed text (names ++ [text i]) (Function.update src i v) dst =
      Function.update (copyNamed text names src dst) i v := by
  funext j
  by_cases hj : j = i
  · subst hj
    simp [copyNamed]
  · have hname : text j ≠ text i := fun h => hj (htext h)
    simp [copyNamed, hj, hname]

end Fields

end BcmServer.Util.Keyed
