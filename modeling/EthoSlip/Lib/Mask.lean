import Mathlib.Data.LawfulXor.Basic
import Mathlib.Tactic
import Mathlib.Data.List.Basic

/-!
# Masking with a stream

The elements of a list are combined by exclusive or with a stream, from an index of the stream on.
A list that is given in pieces is masked piece by piece, and masking twice does nothing.
-/

namespace EthoSlip.Lib

variable {α : Type*} [XorOp α]

/-- Element `n` of the list meets element `i + n` of the stream. -/
def mask (k : ℕ → α) : ℕ → List α → List α
  | _, [] => []
  | i, x :: xs => (x ^^^ k i) :: mask k (i + 1) xs

/-- Only the first `n` elements are masked. -/
def maskFirst (k : ℕ → α) (i n : ℕ) (xs : List α) : List α := mask k i (xs.take n) ++ xs.drop n

variable (k : ℕ → α)

@[simp] lemma mask_nil (i : ℕ) : mask k i [] = [] := rfl

@[simp] lemma length_mask (i : ℕ) (xs : List α) : (mask k i xs).length = xs.length := by
  induction xs generalizing i with
  | nil => rfl
  | cons x xs ih => rw [mask, List.length_cons, ih, List.length_cons]

theorem mask_append (i : ℕ) (xs ys : List α) :
    mask k i (xs ++ ys) = mask k i xs ++ mask k (i + xs.length) ys := by
  induction xs generalizing i with
  | nil => rfl
  | cons x xs ih =>
    have hindex : i + 1 + xs.length = i + (x :: xs).length := by rw [List.length_cons]; omega
    rw [List.cons_append, mask, ih, hindex, mask, List.cons_append]

lemma getElem?_mask (i n : ℕ) (xs : List α) :
    (mask k i xs)[n]? = xs[n]?.map (fun x => x ^^^ k (i + n)) := by
  induction xs generalizing i n with
  | nil => rfl
  | cons x xs ih =>
    cases n with
    | zero => rfl
    | succ n =>
      have hindex : i + 1 + n = i + (n + 1) := by omega
      rw [mask, List.getElem?_cons_succ, ih, hindex, List.getElem?_cons_succ]

@[simp] lemma maskFirst_nil (i n : ℕ) : maskFirst k i n [] = [] := by
  rw [maskFirst, List.take_nil, List.drop_nil, mask_nil, List.append_nil]

lemma maskFirst_of_length_le {i n : ℕ} {xs : List α} (h : xs.length ≤ n) :
    maskFirst k i n xs = mask k i xs := by
  rw [maskFirst, List.take_of_length_le h, List.drop_of_length_le h, List.append_nil]

@[simp] lemma maskFirst_zero (i : ℕ) (xs : List α) : maskFirst k i 0 xs = xs := by
  rw [maskFirst, List.take_zero, mask_nil, List.drop_zero, List.nil_append]

lemma maskFirst_min_length (i n : ℕ) (xs : List α) :
    maskFirst k i (min n xs.length) xs = maskFirst k i n xs := by
  rcases Nat.le_total n xs.length with h | h
  · rw [min_eq_left h]
  · rw [min_eq_right h, maskFirst_of_length_le k le_rfl, maskFirst_of_length_le k h]

/-- The second piece is masked from where the first one has left the stream, with what it has left
of the limit. -/
theorem maskFirst_append (i n : ℕ) (xs ys : List α) :
    maskFirst k i n (xs ++ ys) =
      maskFirst k i n xs ++ maskFirst k (i + min n xs.length) (n - xs.length) ys := by
  rw [maskFirst, List.take_append, List.drop_append, mask_append, List.length_take]
  rcases Nat.le_total n xs.length with h | h
  · have hzero : n - xs.length = 0 := Nat.sub_eq_zero_of_le h
    rw [hzero, maskFirst_zero, List.take_zero, mask_nil, List.append_nil, List.drop_zero, maskFirst,
      List.append_assoc]
  · rw [List.drop_of_length_le h, List.nil_append, maskFirst_of_length_le k h,
      List.take_of_length_le h, maskFirst, List.append_assoc]

/-- Where the stream is never zero, exactly the elements within the limit are changed. -/
theorem getElem?_maskFirst_ne_iff [Zero α] [LawfulXor α] {i n m : ℕ} {xs : List α}
    (hk : ∀ m, m < n → k (i + m) ≠ 0) (hm : m < xs.length) :
    (maskFirst k i n xs)[m]? ≠ xs[m]? ↔ m < n := by
  have hx : xs[m]? = some xs[m] := List.getElem?_eq_getElem hm
  constructor
  · intro hne
    by_contra hlim
    apply hne
    have hlen : (mask k i (xs.take n)).length = n := by
      rw [length_mask, List.length_take]
      omega
    rw [maskFirst, List.getElem?_append_right (by omega), hlen, List.getElem?_drop]
    congr 1
    omega
  · intro hlim
    have htake : (xs.take n)[m]? = some xs[m] := by rw [List.getElem?_take_of_lt hlim, hx]
    have hlen : m < (mask k i (xs.take n)).length := by
      rw [length_mask, List.length_take]
      omega
    rw [maskFirst, List.getElem?_append_left hlen, getElem?_mask, htake, hx, Option.map_some]
    intro heq
    rw [Option.some.injEq, xor_left_eq_self_iff] at heq
    exact hk m hlim heq

theorem mask_mask [Zero α] [LawfulXor α] (i : ℕ) (xs : List α) : mask k i (mask k i xs) = xs := by
  induction xs generalizing i with
  | nil => rfl
  | cons x xs ih => rw [mask, mask, xor_cancel_right, ih]

end EthoSlip.Lib
