import EthoSlip.Model.Uart

/-!
# String functions

The functions of `string.h` that the wlan API uses, on objects of known size. Each of them is
undefined where it would leave an object.
-/

namespace EthoSlip

def Buf.memcpy (dst : Buf) (i : Nat) (src : Buf) (n : Nat) : Option Buf :=
  if i + n ≤ dst.length ∧ n ≤ src.length then
    some (dst.take i ++ src.take n ++ dst.drop (i + n))
  else none

def Buf.memset (p : Buf) (c : Byte) (n : Nat) : Option Buf :=
  if n ≤ p.length then some (List.replicate n c ++ p.drop n) else none

/-- `memcmp(p, q, n)`; its result is zero where the answer is `eq`. -/
def memcmp (p q : Buf) (n : Nat) : Option Ordering :=
  if n ≤ p.length ∧ n ≤ q.length then some (compare (p.take n) (q.take n)) else none

/-- `strlen(p)`, undefined where the object holds no NUL. -/
def strlen : Buf → Option Nat
  | [] => none
  | c :: p => if c = 0 then some 0 else (strlen p).map (· + 1)

/-- The string that starts at `p`. -/
def cString (p : Buf) : List Byte := p.takeWhile (· ≠ 0)

/-- `dst[i] = c` on an array. -/
def storeArray {n : Nat} (dst : Vector Byte n) (i : Nat) (c : Byte) : Option (Vector Byte n) :=
  if h : i < n then some (dst.set i c h) else none

/-- `memcpy(dst, src, k)` into an array. -/
def copyArray {n : Nat} (dst : Vector Byte n) (src : Buf) (k : Nat) : Option (Vector Byte n) :=
  if h : k ≤ n ∧ k ≤ src.length then
    some ⟨(Buf.overlay dst.toList (src.take k)).toArray, by
      rw [List.size_toArray, Buf.length_overlay, Vector.length_toList]
      rw [List.length_take, Vector.length_toList]
      omega⟩
  else none

lemma exists_load {p : Buf} {i : Nat} (h : i < p.length) : ∃ c, p.load i = some c :=
  ⟨p[i], List.getElem?_eq_getElem h⟩

/-- A field of `n` bytes that begins with `xs`. -/
def zeroPad (n : Nat) (xs : List Byte) : List Byte := xs ++ List.replicate (n - xs.length) 0

lemma length_zeroPad {n : Nat} {xs : List Byte} (h : xs.length ≤ n) : (zeroPad n xs).length = n := by
  rw [zeroPad, List.length_append, List.length_replicate]
  omega

lemma take_zeroPad (n : Nat) (xs rest : List Byte) :
    (zeroPad n xs ++ rest).take xs.length = xs := by
  rw [zeroPad, List.append_assoc, List.take_left]

lemma Buf.length_memcpy {dst dst' src : Buf} {i n : Nat} (h : dst.memcpy i src n = some dst') :
    dst'.length = dst.length := by
  unfold memcpy at h
  split_ifs at h with hroom
  rw [Option.some.injEq] at h
  rw [← h]
  simp only [List.length_append, List.length_take, List.length_drop]
  omega

/-- What is copied continues what was stored so far. -/
lemma Buf.memcpy_overlay (p : Buf) (f src : List Byte) {n : Nat} (hroom : f.length + n ≤ p.length)
    (hsrc : n ≤ src.length) :
    (p.overlay f).memcpy f.length src n = some (p.overlay (f ++ src.take n)) := by
  have hlen : (p.overlay f).length = p.length := p.length_overlay f (by omega)
  have htake : (src.take n).length = n := List.length_take_of_le hsrc
  rw [memcpy, if_pos ⟨by rw [hlen]; exact hroom, hsrc⟩, overlay, List.take_left, List.drop_append,
    List.drop_of_length_le (by omega), List.nil_append, Nat.add_sub_cancel_left, List.drop_drop,
    overlay, List.length_append, htake]

lemma Buf.memcpy_field {p : Buf} {i n : Nat} (xs zs src : List Byte) (k : Nat)
    (hp : p = xs ++ (List.replicate n 0 ++ zs)) (hi : i = xs.length) (hk : k ≤ n)
    (hsrc : k ≤ src.length) :
    p.memcpy i src k = some (xs ++ (zeroPad n (src.take k) ++ zs)) := by
  have hlen : (src.take k).length = k := by rw [List.length_take, min_eq_left hsrc]
  have hroom : i + k ≤ p.length ∧ k ≤ src.length := by
    rw [hp, hi, List.length_append, List.length_append, List.length_replicate]
    omega
  rw [memcpy, if_pos hroom, hp, hi, List.take_left, List.drop_append, List.drop_of_length_le (by simp),
    List.nil_append, Nat.add_sub_cancel_left, List.drop_append_of_le_length (by simpa using hk),
    List.drop_replicate, zeroPad, hlen, List.append_assoc, List.append_assoc]

lemma Buf.memcpy_front (p : Buf) (src : List Byte) (h : src.length ≤ p.length) :
    p.memcpy 0 src src.length = some (p.overlay src) := by
  rw [memcpy, if_pos ⟨by rw [Nat.zero_add]; exact h, le_rfl⟩, overlay, List.take_zero,
    List.nil_append, List.take_length, Nat.zero_add]

lemma Buf.store_field {p : Buf} {i : Nat} (xs zs : List Byte) (a c : Byte) (hp : p = xs ++ a :: zs)
    (hi : i = xs.length) : p.store i c = some (xs ++ c :: zs) := by
  rw [store, if_pos (by rw [hp, hi]; simp), hp, hi]
  simp

lemma memcmp_eq (p q : Buf) (n : Nat) (hp : n ≤ p.length) (hq : n ≤ q.length) :
    ∃ o, memcmp p q n = some o ∧ (o = .eq ↔ p.take n = q.take n) := by
  refine ⟨compare (p.take n) (q.take n), by rw [memcmp, if_pos ⟨hp, hq⟩], ?_⟩
  exact Std.LawfulEqCmp.compare_eq_iff_eq

lemma strlen_eq (p : Buf) (h : 0 ∈ p) : strlen p = some (cString p).length := by
  induction p with
  | nil => simp at h
  | cons c p ih =>
    by_cases hc : c = 0
    · simp [strlen, cString, hc]
    · have hp : 0 ∈ p := (List.mem_cons.mp h).resolve_left (Ne.symm hc)
      simp [strlen, cString, hc, ih hp]

lemma cString_append_zero (xs p : List Byte) : cString (xs ++ 0 :: p) = cString xs := by
  induction xs with
  | nil => rfl
  | cons c xs ih =>
    by_cases hc : c = 0
    · simp [cString, hc]
    · simpa [cString, hc] using ih

lemma cString_isPrefix (p : Buf) : cString p <+: p := List.takeWhile_prefix _

lemma zero_not_mem_cString (p : Buf) : 0 ∉ cString p := by
  intro h
  have hall := List.all_takeWhile (p := fun c : Byte => decide (c ≠ 0)) (l := p)
  simpa using List.all_eq_true.mp hall 0 h

lemma exists_copyArray {n : Nat} (dst : Vector Byte n) (src : Buf) (k : Nat) (hk : k ≤ n)
    (hsrc : k ≤ src.length) : ∃ copied, copyArray dst src k = some copied :=
  ⟨_, by rw [copyArray, dif_pos ⟨hk, hsrc⟩]⟩

lemma copyArray_terminated {n : Nat} (dst : Vector Byte n) (src : Buf) (k : Nat) (hk : k < n)
    (hsrc : k ≤ src.length) :
    ∃ copied terminated, copyArray dst src k = some copied ∧
      storeArray copied k 0 = some terminated ∧
      terminated.toList = src.take k ++ 0 :: dst.toList.drop (k + 1) := by
  have hlen : (src.take k).length = k := by rw [List.length_take, min_eq_left hsrc]
  have hdst : k < dst.toList.length := by rw [Vector.length_toList]; exact hk
  refine ⟨_, _, by rw [copyArray, dif_pos ⟨hk.le, hsrc⟩], by rw [storeArray, dif_pos hk], ?_⟩
  have hcopied (h) : (⟨(Buf.overlay dst.toList (src.take k)).toArray, h⟩ : Vector Byte n).toList =
      src.take k ++ dst.toList[k] :: dst.toList.drop (k + 1) := by
    rw [← List.drop_eq_getElem_cons hdst]
    change Buf.overlay dst.toList (src.take k) = _
    rw [Buf.overlay, hlen]
  rw [Vector.toList_set, hcopied, List.set_append_right _ _ hlen.le, hlen, Nat.sub_self,
    List.set_cons_zero]

end EthoSlip
