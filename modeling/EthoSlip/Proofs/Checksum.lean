import EthoSlip.Model.Tunnel
import EthoSlip.Proofs.SlipCode

/-!
# The checksum trailer

`if_api_calculate_checksum` seals a payload with two bytes below 0x80, so that the trailer is never
escaped on the line, and `if_api_check` accepts exactly the sealed payloads.
-/

namespace EthoSlip
open Lib

/-- The 32-bit sum that is kept by the loop, from the sum so far. -/
def byteSum (sum : UInt32) (xs : List Byte) : UInt32 := xs.foldl (fun s c => s + c.toUInt32) sum

def trailer (xs : List Byte) : List Byte :=
  let sum := (byteSum 0 xs % 65536) ^^^ 0xffff
  [((sum &&& 0x7f00) >>> 8).toUInt8, (sum &&& 0x7f).toUInt8]

def sealPayload (xs : List Byte) : List Byte := xs ++ trailer xs

def payloadOf (f : List Byte) : Option (List Byte) :=
  if f = sealPayload (f.take (f.length - 2)) then some (f.take (f.length - 2)) else none

@[simp] lemma length_trailer (xs : List Byte) : (trailer xs).length = 2 := rfl

@[simp] lemma length_sealPayload (xs : List Byte) : (sealPayload xs).length = xs.length + 2 := by
  simp [sealPayload]

lemma sealPayload_ne_nil (xs : List Byte) : sealPayload xs ≠ [] :=
  List.ne_nil_of_length_pos (by simp)

lemma take_sealPayload (xs : List Byte) : (sealPayload xs).take xs.length = xs := by
  simp [sealPayload]

@[simp] lemma payloadOf_sealPayload (xs : List Byte) : payloadOf (sealPayload xs) = some xs := by
  rw [payloadOf, length_sealPayload, Nat.add_sub_cancel, take_sealPayload, if_pos rfl]

lemma payloadOf_eq_some (f xs : List Byte) : payloadOf f = some xs ↔ f = sealPayload xs := by
  constructor
  · intro h
    unfold payloadOf at h
    split_ifs at h with hf
    rw [Option.some.injEq] at h
    rw [← h]
    exact hf
  · rintro rfl
    exact payloadOf_sealPayload xs

lemma trailer_lt (xs : List Byte) : ∀ c ∈ trailer xs, c < 0x80 := by
  have hhigh (x : UInt32) : ((x &&& 0x7f00) >>> 8).toUInt8 < 0x80 := by
    have hle : x.toNat &&& 0x7f00 ≤ 0x7f00 := Nat.and_le_right
    rw [UInt8.lt_iff_toNat_lt]
    simp [Nat.shiftRight_eq_div_pow]
    omega
  have hlow (x : UInt32) : (x &&& 0x7f).toUInt8 < 0x80 := by
    have hle : x.toNat % 256 &&& 0x7f ≤ 0x7f := Nat.and_le_right
    rw [UInt8.lt_iff_toNat_lt]
    simp
    omega
  intro c hc
  simp only [trailer, List.mem_cons, List.not_mem_nil, or_false] at hc
  rcases hc with rfl | rfl
  · exact hhigh _
  · exact hlow _

lemma trailer_not_reserved (xs : List Byte) : ∀ c ∈ trailer xs, ¬slipCode.Reserved c := by
  intro c hc
  have hlt := trailer_lt xs c hc
  rw [slipCode_reserved]
  rintro (rfl | rfl)
  · exact absurd hlt (by decide)
  · exact absurd hlt (by decide)

lemma stuff_trailer (xs : List Byte) : slipCode.stuff (trailer xs) = trailer xs :=
  slipCode.stuff_of_not_reserved _ (trailer_not_reserved xs)

lemma checksumLoop_eq (xs p : List Byte) (sum : UInt32) :
    checksumLoop xs.length (xs ++ p) sum = some (byteSum sum xs) := by
  induction xs generalizing sum with
  | nil => rfl
  | cons c xs ih =>
    rw [List.length_cons, List.cons_append, checksumLoop, ih]
    rfl

lemma ifApiCalculateChecksum_overlay (p : Buf) (xs : List Byte) (h : xs.length + 2 ≤ p.length) :
    ifApiCalculateChecksum (p.overlay xs) xs.length =
      some (p.overlay (sealPayload xs), xs.length + 2) := by
  have hsum : checksumLoop xs.length (p.overlay xs) 0 = some (byteSum 0 xs) :=
    checksumLoop_eq xs (p.drop xs.length) 0
  have hhigh (c : Byte) := p.store_overlay xs c (by omega)
  have hlow (c c' : Byte) := p.store_overlay (xs ++ [c]) c' (by simp; omega)
  simp only [List.length_append, List.length_singleton] at hlow
  simp only [ifApiCalculateChecksum, hsum, Option.bind_eq_bind, Option.bind_some, hhigh, hlow,
    sealPayload, trailer, List.append_assoc, List.singleton_append, Option.pure_def]

lemma ifApiCalculateChecksum_take (p : Buf) (n : Nat) (h : n + 2 ≤ p.length) :
    ifApiCalculateChecksum p n = some (p.overlay (sealPayload (p.take n)), n + 2) := by
  have hlen : (p.take n).length = n := List.length_take_of_le (by omega)
  have hcalc := ifApiCalculateChecksum_overlay p (p.take n) (by rw [hlen]; exact h)
  rw [← p.eq_overlay_take n, hlen] at hcalc
  exact hcalc

/-- The trailer needs two bytes behind the payload. -/
lemma ifApiCalculateChecksum_bounds {p p' : Buf} {n len : Nat}
    (h : ifApiCalculateChecksum p n = some (p', len)) :
    n + 2 ≤ p.length ∧ p'.length = p.length ∧ len = n + 2 := by
  simp only [ifApiCalculateChecksum, Option.bind_eq_bind, Option.bind_eq_some_iff, Option.pure_def,
    Option.some.injEq, Prod.mk.injEq] at h
  obtain ⟨sum, -, high, hhigh, low, hlow, rfl, rfl⟩ := h
  have hlt := Buf.lt_of_store hlow
  rw [Buf.length_store hhigh] at hlt
  exact ⟨hlt, by rw [Buf.length_store hlow, Buf.length_store hhigh], rfl⟩

lemma exists_payload (f : List Byte) (h : 2 ≤ f.length) :
    ∃ xs a b, f = xs ++ [a, b] ∧ xs = f.take (f.length - 2) := by
  have hdrop : (f.drop (f.length - 2)).length = 2 := by
    rw [List.length_drop]
    omega
  obtain ⟨a, b, hab⟩ := List.length_eq_two.mp hdrop
  exact ⟨f.take (f.length - 2), a, b, by rw [← hab, List.take_append_drop], rfl⟩

section Trailer

variable (p : Buf) (xs : List Byte) (a b : Byte)

lemma load_trailer_high : (p.overlay (xs ++ [a, b])).load xs.length = some a := by
  rw [p.load_overlay _ _ (by simp)]
  simp

lemma load_trailer_low : (p.overlay (xs ++ [a, b])).load (xs.length + 1) = some b := by
  rw [p.load_overlay _ _ (by simp)]
  simp

lemma store_trailer_high (c : Byte) :
    (p.overlay (xs ++ [a, b])).store xs.length c = some (p.overlay (xs ++ [c, b])) := by
  rw [p.store_overlay_inside _ _ _ (by simp)]
  simp

lemma store_trailer_low (c : Byte) :
    (p.overlay (xs ++ [a, b])).store (xs.length + 1) c = some (p.overlay (xs ++ [a, c])) := by
  rw [p.store_overlay_inside _ _ _ (by simp)]
  simp

/-- The trailer is calculated again over the bytes in its place. -/
lemma ifApiCalculateChecksum_again (h : xs.length + 2 ≤ p.length) :
    ifApiCalculateChecksum (p.overlay (xs ++ [a, b])) xs.length =
      some (p.overlay (sealPayload xs), xs.length + 2) := by
  have hself := (p.overlay (xs ++ [a, b])).eq_overlay_take xs.length
  have htake : (p.overlay (xs ++ [a, b])).take xs.length = xs := by simp [Buf.overlay]
  have hroom : xs.length + 2 ≤ (p.overlay (xs ++ [a, b])).length := by
    rw [p.length_overlay _ (by simpa using h)]
    exact h
  rw [htake] at hself
  rw [hself, ifApiCalculateChecksum_overlay _ _ hroom, p.overlay_overlay _ _ (by simp)]

end Trailer

theorem ifApiCheck_overlay (p : Buf) (f : List Byte) (h : f.length ≤ p.length) :
    ifApiCheck (p.overlay f) f.length =
      if f.length < 2 then some (p.overlay f, -1)
      else some (p.overlay (sealPayload (f.take (f.length - 2))),
        if f = sealPayload (f.take (f.length - 2)) then (f.length : Int) - 2 else -1) := by
  unfold ifApiCheck
  by_cases hlen : f.length < 2
  · rw [if_pos hlen, if_pos hlen]
  · obtain ⟨xs, a, b, rfl, hxs⟩ := exists_payload f (by omega)
    rw [if_neg hlen, if_neg hlen, ← hxs]
    clear hxs
    have hlow : (xs ++ [a, b]).length - 1 = xs.length + 1 := by simp
    have hhigh : (xs ++ [a, b]).length - 2 = xs.length := by simp
    have hcalc := ifApiCalculateChecksum_again p xs 0 0 (by simpa using h)
    obtain ⟨c, d, hcd⟩ : ∃ c d, trailer xs = [c, d] := ⟨_, _, rfl⟩
    have hseal : sealPayload xs = xs ++ [c, d] := by rw [sealPayload, hcd]
    rw [hseal] at hcalc
    simp only [hlow, hhigh, load_trailer_low, load_trailer_high, store_trailer_low,
      store_trailer_high, hcalc, hseal, Option.bind_eq_bind, Option.bind_some, Option.pure_def,
      Option.some.injEq]
    by_cases hac : a = c
    · by_cases hbd : b = d
      · simp [hac, hbd]
      · simp [hbd]
    · simp [hac]

end EthoSlip
