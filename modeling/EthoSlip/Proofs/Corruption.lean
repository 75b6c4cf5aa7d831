import EthoSlip.Proofs.Checksum
import Mathlib.Data.LawfulXor.Basic

/-!
# Corrupted frames

The trailer keeps the bits 0 to 6 and 8 to 14 of the sum of the payload. A change of one byte leaves
them as they are in one case only: the byte changes by its top bit, and the sum carries nothing out
of bit 7.
-/

namespace EthoSlip
open Lib

/-- The sum of the bytes. -/
def byteTotal (xs : List Byte) : Nat := (xs.map UInt8.toNat).sum

lemma byteTotal_split (u v : List Byte) (b : Byte) :
    byteTotal (u ++ b :: v) = byteTotal u + byteTotal v + b.toNat := by
  simp only [byteTotal, List.map_append, List.map_cons, List.sum_append, List.sum_cons]
  omega

lemma toNat_byteSum (xs : List Byte) (sum : UInt32) :
    (byteSum sum xs).toNat = (sum.toNat + byteTotal xs) % 2 ^ 32 := by
  induction xs generalizing sum with
  | nil =>
    have hlt := sum.toNat_lt
    simp only [byteSum, byteTotal, List.foldl_nil, List.map_nil, List.sum_nil]
    omega
  | cons c xs ih =>
    have hstep : byteSum sum (c :: xs) = byteSum (sum + c.toUInt32) xs := rfl
    have htotal : byteTotal (c :: xs) = c.toNat + byteTotal xs := rfl
    rw [hstep, ih, htotal, UInt32.toNat_add, UInt8.toNat_toUInt32, Nat.mod_add_mod, Nat.add_assoc]

lemma toNat_trailer_high (s : UInt32) :
    ((((s % 65536) ^^^ 0xffff) &&& 0x7f00) >>> 8).toUInt8.toNat = (s.toNat / 256 % 128) ^^^ 127 := by
  have hmask : (0x7f00 : Nat) >>> 8 = 2 ^ 7 - 1 := rfl
  have hones : (0xffff : Nat) >>> 8 % 2 ^ 7 = 127 := rfl
  have hbits : s.toNat % 65536 / 2 ^ 8 % 2 ^ 7 = s.toNat / 256 % 128 := by omega
  have hlt : (s.toNat / 256 % 128) ^^^ 127 < 2 ^ 8 := Nat.xor_lt_two_pow (by omega) (by decide)
  simp only [UInt32.toNat_toUInt8, UInt32.toNat_shiftRight, UInt32.toNat_and, UInt32.toNat_xor,
    UInt32.toNat_mod, UInt32.reduceToNat, Nat.reduceMod]
  rw [Nat.shiftRight_and_distrib, Nat.shiftRight_xor_distrib, hmask, Nat.and_two_pow_sub_one_eq_mod,
    Nat.xor_mod_two_pow, Nat.shiftRight_eq_div_pow, hones, hbits]
  exact Nat.mod_eq_of_lt hlt

lemma toNat_trailer_low (s : UInt32) :
    (((s % 65536) ^^^ 0xffff) &&& 0x7f).toUInt8.toNat = (s.toNat % 128) ^^^ 127 := by
  have hmask : (0x7f : Nat) = 2 ^ 7 - 1 := rfl
  have hones : (0xffff : Nat) % 2 ^ 7 = 127 := rfl
  have hbits : s.toNat % 65536 % 2 ^ 7 = s.toNat % 128 := by omega
  have hlt : (s.toNat % 128) ^^^ 127 < 2 ^ 8 := Nat.xor_lt_two_pow (by omega) (by decide)
  simp only [UInt32.toNat_toUInt8, UInt32.toNat_and, UInt32.toNat_xor, UInt32.toNat_mod,
    UInt32.reduceToNat]
  rw [hmask, Nat.and_two_pow_sub_one_eq_mod, Nat.xor_mod_two_pow, hones, hbits]
  exact Nat.mod_eq_of_lt hlt

/-- Two payloads have the same trailer when their sums agree on the bits that it keeps. -/
lemma trailer_eq_iff (xs ys : List Byte) :
    trailer xs = trailer ys ↔ byteTotal xs % 128 = byteTotal ys % 128 ∧
      byteTotal xs / 256 % 128 = byteTotal ys / 256 % 128 := by
  have hsum (zs : List Byte) : (byteSum 0 zs).toNat = byteTotal zs % 2 ^ 32 := by
    rw [toNat_byteSum, UInt32.toNat_zero, Nat.zero_add]
  have hhigh (zs : List Byte) : (byteSum 0 zs).toNat / 256 % 128 = byteTotal zs / 256 % 128 := by
    rw [hsum]
    omega
  have hlow (zs : List Byte) : (byteSum 0 zs).toNat % 128 = byteTotal zs % 128 := by
    rw [hsum]
    omega
  have hxor (a b : Nat) : a ^^^ 127 = b ^^^ 127 ↔ a = b :=
    (xor_left_involutive 127).injective.eq_iff
  simp only [trailer, List.cons.injEq, and_true, ← UInt8.toNat_inj, toNat_trailer_high,
    toNat_trailer_low, hhigh, hlow, hxor]
  exact And.comm

/-- The change that the trailer does not show: the byte at `i` changes by its top bit, to `c`, and
bit 7 of the sum is the top bit of the byte. -/
def Undetected (xs : List Byte) (i : Nat) (c : Byte) : Prop :=
  ∃ b, xs[i]? = some b ∧ c = b ^^^ 0x80 ∧ byteTotal xs / 128 % 2 = b.toNat / 128

lemma toNat_xor_top (b : Byte) : (b ^^^ 0x80).toNat = (b.toNat + 128) % 256 := by
  have h : ∀ n : Fin 256, n.val ^^^ 128 = (n.val + 128) % 256 := by decide +kernel
  exact h ⟨b.toNat, b.toNat_lt⟩

/-- When `c` in the place of `b` leaves the kept bits of the sum as they are; `r` is the sum of the
other bytes. -/
lemma keptBits_iff {r b c : Nat} (hb : b < 256) (hc : c < 256) (hne : b ≠ c) :
    ((r + b) % 128 = (r + c) % 128 ∧ (r + b) / 256 % 128 = (r + c) / 256 % 128) ↔
      c = (b + 128) % 256 ∧ (r + b) / 128 % 2 = b / 128 := by
  constructor
  · rintro ⟨hlow, hhigh⟩
    have htop : c = (b + 128) % 256 := by omega
    refine ⟨htop, ?_⟩
    clear hlow
    omega
  · rintro ⟨htop, hcarry⟩
    constructor
    · omega
    · omega

lemma trailer_set_iff {xs : List Byte} {i : Nat} {b c : Byte} (hb : xs[i]? = some b) (hne : b ≠ c) :
    trailer xs = trailer (xs.set i c) ↔ Undetected xs i c := by
  obtain ⟨hi, hget⟩ := List.getElem?_eq_some_iff.mp hb
  obtain ⟨u, v, hxs, hu⟩ : ∃ u v, xs = u ++ b :: v ∧ u.length = i := by
    refine ⟨xs.take i, xs.drop (i + 1), ?_, List.length_take_of_le hi.le⟩
    rw [← hget, ← List.drop_eq_getElem_cons hi, List.take_append_drop]
  have hset : xs.set i c = u ++ c :: v := by
    rw [hxs, ← hu, List.set_append_right _ _ le_rfl, Nat.sub_self, List.set_cons_zero]
  have hne' : b.toNat ≠ c.toNat := fun h => hne (UInt8.toNat_inj.mp h)
  have hunfold : Undetected xs i c ↔
      c.toNat = (b.toNat + 128) % 256 ∧ byteTotal xs / 128 % 2 = b.toNat / 128 := by
    rw [← toNat_xor_top, UInt8.toNat_inj]
    constructor
    · rintro ⟨b', hb', h⟩
      rw [hb, Option.some.injEq] at hb'
      rw [hb']
      exact h
    · exact fun h => ⟨b, hb, h⟩
  rw [trailer_eq_iff, hunfold, hset, hxs, byteTotal_split, byteTotal_split]
  exact keptBits_iff b.toNat_lt c.toNat_lt hne'

/-- Whether the check takes the frame for a sealed payload, by where it was changed. -/
lemma sealed_set_iff {xs : List Byte} {i : Nat} {c : Byte} (hi : i < xs.length + 2)
    (hne : (sealPayload xs)[i]? ≠ some c) :
    (sealPayload xs).set i c = sealPayload (((sealPayload xs).set i c).take xs.length) ↔
      Undetected xs i c := by
  by_cases hpayload : i < xs.length
  · have hset : (sealPayload xs).set i c = xs.set i c ++ trailer xs :=
      List.set_append_left _ _ hpayload
    have htake : (xs.set i c ++ trailer xs).take xs.length = xs.set i c := by
      rw [List.take_append_of_le_length (by simp), List.take_of_length_le (by simp)]
    have hb : xs[i]? = some xs[i] := List.getElem?_eq_getElem hpayload
    have hne' : xs[i] ≠ c := by
      rw [sealPayload, List.getElem?_append_left hpayload, hb] at hne
      exact fun h => hne (congrArg some h)
    rw [hset, htake, sealPayload, List.append_cancel_left_eq]
    exact trailer_set_iff hb hne'
  · have hset : (sealPayload xs).set i c = xs ++ (trailer xs).set (i - xs.length) c :=
      List.set_append_right _ _ (not_lt.mp hpayload)
    have htake : (xs ++ (trailer xs).set (i - xs.length) c).take xs.length = xs := List.take_left
    rw [hset, htake, sealPayload, List.append_cancel_left_eq]
    rw [sealPayload, List.getElem?_append_right (not_lt.mp hpayload)] at hne
    constructor
    · intro hsame
      have hget : ((trailer xs).set (i - xs.length) c)[i - xs.length]? = some c :=
        List.getElem?_set_self (by rw [length_trailer]; omega)
      rw [hsame] at hget
      exact absurd hget hne
    · rintro ⟨b, hb, -⟩
      obtain ⟨hi', -⟩ := List.getElem?_eq_some_iff.mp hb
      exact absurd hi' hpayload

/-- Let a payload of any length be sealed, and one byte of the frame be replaced by another one.
`if_api_check` returns -1 except where a byte of the payload has changed by its top bit alone and
bit 7 of the sum is that bit. A changed trailer is always found. -/
theorem corruption_detected_iff (p : Buf) (n : Nat) (hn : n + 2 ≤ p.length) :
    ∃ frame, ifApiCalculateChecksum p n = some (frame, n + 2) ∧
      ∀ i < n + 2, ∀ c, frame[i]? ≠ some c →
        ∃ p' r, ifApiCheck (frame.set i c) (n + 2) = some (p', r) ∧
          (r = -1 ↔ ¬Undetected (p.take n) i c) := by
  obtain ⟨xs, hxs⟩ : ∃ xs, xs = p.take n := ⟨_, rfl⟩
  have hlen : xs.length = n := by rw [hxs, List.length_take_of_le (by omega)]
  have hself : p = p.overlay xs := by rw [hxs, ← p.eq_overlay_take]
  have hroom : (sealPayload xs).length ≤ p.length := by rw [length_sealPayload, hlen]; exact hn
  have hcalc := ifApiCalculateChecksum_overlay p xs (by rw [hlen]; exact hn)
  rw [← hself, hlen] at hcalc
  rw [← hxs]
  refine ⟨p.overlay (sealPayload xs), hcalc, ?_⟩
  intro i hi c hne
  rw [← hlen] at hi ⊢
  have hi' : i < (sealPayload xs).length := by rw [length_sealPayload]; exact hi
  rw [Buf.overlay, List.getElem?_append_left hi'] at hne
  have hset : (p.overlay (sealPayload xs)).set i c = p.overlay ((sealPayload xs).set i c) := by
    rw [Buf.overlay, List.set_append_left _ _ hi', Buf.overlay, List.length_set]
  have hcheck := ifApiCheck_overlay p ((sealPayload xs).set i c) (by rw [List.length_set]; exact hroom)
  rw [List.length_set, length_sealPayload, if_neg (by omega), Nat.add_sub_cancel] at hcheck
  rw [hset]
  refine ⟨_, _, hcheck, ?_⟩
  rw [← sealed_set_iff hi hne]
  split_ifs with hsealed
  · simp [hsealed.symm]
  · simp [hsealed]

theorem corruption_detected_iff_witness :
    ∃ frame, ifApiCalculateChecksum [1, 2, 3, 0, 0] 3 = some (frame, 5) ∧
      ∀ i < 5, ∀ c, frame[i]? ≠ some c →
        ∃ p' r, ifApiCheck (frame.set i c) 5 = some (p', r) ∧ (r = -1 ↔ ¬Undetected [1, 2, 3] i c) :=
  corruption_detected_iff [1, 2, 3, 0, 0] 3 (by decide)

/-- The one-byte payload 0 passes for 0x80: both have the trailer 0x7f 0x7f. -/
theorem top_bit_not_detected :
    ¬∀ (p frame : Buf) (n i : Nat) (c : Byte), ifApiCalculateChecksum p n = some (frame, n + 2) →
      i < n + 2 → frame[i]? ≠ some c → ∃ p', ifApiCheck (frame.set i c) (n + 2) = some (p', -1) := by
  intro h
  obtain ⟨p', hcheck⟩ := h [0, 0, 0] [0, 0x7f, 0x7f] 1 0 0x80 (by decide) (by decide) (by decide)
  have haccepted : ifApiCheck (List.set [0, 0x7f, 0x7f] 0 0x80) (1 + 2) =
      some ([0x80, 0x7f, 0x7f], 1) := by
    decide
  rw [haccepted] at hcheck
  simp at hcheck

end EthoSlip
