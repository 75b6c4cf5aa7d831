import EthoSlip.Proofs.Sender

/-!
# What `if_api_check` accepts

`if_api_check` clears the two bytes that it received as a trailer, calculates them again and then
compares. It accepts the images of `if_api_calculate_checksum`, where this gives back the buffer that
was received, and changes nothing but the two bytes anywhere else. Below 2^31 the answer is that of
the `int` in the source.
-/

namespace EthoSlip
open Lib

/-- The first `len` bytes are what `if_api_calculate_checksum` leaves for the `len - 2` first. -/
def IsSealed (p : Buf) (len : Nat) : Prop :=
  2 ≤ len ∧ (ifApiCalculateChecksum p (len - 2)).map (fun q => (q.1.take len, q.2)) =
    some (p.take len, len)

instance (p : Buf) (len : Nat) : Decidable (IsSealed p len) := inferInstanceAs (Decidable (_ ∧ _))

/-- `p'` is left of `p`: at most the last two of the first `len` bytes are others. -/
structure RejectedBuffer (p : Buf) (len : Nat) (p' : Buf) : Prop where
  length : p'.length = p.length
  outside : ∀ i, i + 2 ≠ len → i + 1 ≠ len → p'[i]? = p[i]?
  short : len < 2 → p' = p

section Buffer

variable {p : Buf} {n : Nat}

lemma length_sealPayload_take (h : n + 2 ≤ p.length) : (sealPayload (p.take n)).length = n + 2 := by
  rw [length_sealPayload, List.length_take_of_le (by omega)]

lemma overlay_sealPayload_eq (h : n + 2 ≤ p.length) :
    p.overlay (sealPayload (p.take n)) = p.take n ++ (trailer (p.take n) ++ p.drop (n + 2)) := by
  rw [Buf.overlay, length_sealPayload_take h, sealPayload, List.append_assoc]

lemma getElem?_overlay_sealPayload (h : n + 2 ≤ p.length) {i : Nat} (hhigh : i ≠ n)
    (hlow : i ≠ n + 1) : (p.overlay (sealPayload (p.take n)))[i]? = p[i]? := by
  have hlen : (p.take n).length = n := List.length_take_of_le (by omega)
  rw [overlay_sealPayload_eq h]
  by_cases hi : i < n
  · rw [List.getElem?_append_left (by omega), List.getElem?_take_of_lt hi]
  · have hback : 2 ≤ i - n := by omega
    have hindex : n + 2 + (i - n - 2) = i := by omega
    rw [List.getElem?_append_right (by omega), hlen, List.getElem?_append_right (by simpa using hback),
      length_trailer, List.getElem?_drop, hindex]

lemma take_overlay_sealPayload (h : n + 2 ≤ p.length) :
    (p.overlay (sealPayload (p.take n))).take (n + 2) = sealPayload (p.take n) := by
  have hlen := length_sealPayload_take h
  have htake := p.take_overlay (sealPayload (p.take n))
  rw [hlen] at htake
  exact htake

lemma isSealed_iff (h : n + 2 ≤ p.length) :
    IsSealed p (n + 2) ↔ p.take (n + 2) = sealPayload (p.take n) := by
  rw [IsSealed, Nat.add_sub_cancel, ifApiCalculateChecksum_take p n h, Option.map_some,
    take_overlay_sealPayload h, Option.some.injEq, Prod.mk.injEq]
  constructor
  · rintro ⟨-, heq, -⟩
    exact heq.symm
  · intro heq
    exact ⟨Nat.le_add_left 2 n, heq.symm, rfl⟩

lemma length_sub_trailer (n : Nat) : ((n + 2 : Nat) : Int) - 2 = n := by
  rw [Nat.cast_add]
  exact Int.add_sub_cancel _ _

lemma ifApiCheck_short {len : Nat} (h : len < 2) : ifApiCheck p len = some (p, -1) := if_pos h

lemma ifApiCheck_take (h : n + 2 ≤ p.length) :
    ifApiCheck p (n + 2) = some (p.overlay (sealPayload (p.take n)),
      if IsSealed p (n + 2) then (n : Int) else -1) := by
  have hlen : (p.take (n + 2)).length = n + 2 := List.length_take_of_le h
  have hcheck := ifApiCheck_overlay p (p.take (n + 2)) (by omega)
  have htake : (p.take (n + 2)).take n = p.take n := by
    rw [List.take_take, min_eq_left (Nat.le_add_right n 2)]
  rw [← p.eq_overlay_take (n + 2), hlen, if_neg (by omega), Nat.add_sub_cancel, htake] at hcheck
  rw [hcheck]
  simp only [isSealed_iff h, length_sub_trailer]

lemma rejectedBuffer_sealPayload (h : n + 2 ≤ p.length) :
    RejectedBuffer p (n + 2) (p.overlay (sealPayload (p.take n))) where
  length := by
    apply p.length_overlay
    rw [length_sealPayload_take h]
    exact h
  outside := by
    intro i hhigh hlow
    apply getElem?_overlay_sealPayload h
    · exact fun hi => hhigh (by rw [hi])
    · exact fun hi => hlow (by rw [hi])
  short := by
    intro hshort
    omega

lemma overlay_of_isSealed (h : n + 2 ≤ p.length) (hsealed : IsSealed p (n + 2)) :
    p.overlay (sealPayload (p.take n)) = p := by
  rw [← (isSealed_iff h).mp hsealed]
  exact (p.eq_overlay_take (n + 2)).symm

lemma sendPacket_sealPayload (h : n + 2 ≤ p.length) :
    sendPacket directUart (p.overlay (sealPayload (p.take n))) (n + 2) [] =
      some (slipEnd :: (slipCode.stuff (p.take n) ++ trailer (p.take n) ++ [slipEnd])) := by
  have hlen := length_sealPayload_take h
  have hsend := sendPacket_overlay directUart p (sealPayload (p.take n)) []
  rw [hlen] at hsend
  rw [hsend, ← hlen, sendPacket_direct, List.nil_append, StuffingCode.frame, sealPayload,
    StuffingCode.stuff_append, stuff_trailer]
  rfl

end Buffer

/-- `if_api_check` answers the length of the payload on the images of `if_api_calculate_checksum`,
and leaves the buffer as it was; elsewhere it answers -1 and changes at most the trailer. For every
length except 1 the answer alone tells the two cases apart. `if_api_calculate_checksum` writes two
bytes behind the payload that are sent as they are. -/
theorem if_api_check_contract (p : Buf) (len : Nat) (hlen : len ≤ p.length) :
    (∃ p' r, ifApiCheck p len = some (p', r) ∧
      (IsSealed p len → r = (len : Int) - 2 ∧ p' = p) ∧
      (¬IsSealed p len → r = -1 ∧ RejectedBuffer p len p') ∧
      (len ≠ 1 → (r = (len : Int) - 2 ↔ IsSealed p len))) ∧
    ∀ n, n + 2 ≤ p.length → ∃ p' a b, ifApiCalculateChecksum p n = some (p', n + 2) ∧
      p' = p.take n ++ a :: b :: p.drop (n + 2) ∧ a < 0x80 ∧ b < 0x80 ∧
      sendPacket directUart p' (n + 2) [] =
        some (slipEnd :: (slipCode.stuff (p.take n) ++ [a, b, slipEnd])) := by
  constructor
  · by_cases hshort : len < 2
    · have hnot : ¬IsSealed p len := fun h => absurd h.1 (by omega)
      refine ⟨p, -1, ifApiCheck_short hshort, fun h => absurd h hnot, ?_, ?_⟩
      · intro _
        exact ⟨rfl, rfl, fun i _ _ => rfl, fun _ => rfl⟩
      · intro hne
        exact iff_of_false (by omega) hnot
    · obtain ⟨n, rfl⟩ := Nat.exists_eq_add_of_le' (Nat.not_lt.mp hshort)
      rw [ifApiCheck_take hlen, length_sub_trailer]
      refine ⟨_, _, rfl, ?_, ?_, ?_⟩
      · intro hsealed
        exact ⟨if_pos hsealed, overlay_of_isSealed hlen hsealed⟩
      · intro hnot
        exact ⟨if_neg hnot, rejectedBuffer_sealPayload hlen⟩
      · intro _
        by_cases hsealed : IsSealed p (n + 2)
        · exact iff_of_true (if_pos hsealed) hsealed
        · rw [if_neg hsealed]
          exact iff_of_false (by omega) hsealed
  · intro n hn
    obtain ⟨a, b, hab⟩ : ∃ a b, trailer (p.take n) = [a, b] := ⟨_, _, rfl⟩
    have hlt := trailer_lt (p.take n)
    have hsend := sendPacket_sealPayload hn
    rw [hab] at hlt hsend
    refine ⟨_, a, b, ifApiCalculateChecksum_take p n hn, ?_, hlt a (by simp), hlt b (by simp), ?_⟩
    · rw [overlay_sealPayload_eq hn, hab]
      rfl
    · rw [hsend, List.append_assoc]
      rfl

/-- A sealed payload, with a byte behind it. -/
theorem if_api_check_contract_witness :
    ∃ p' r, ifApiCheck [1, 0x7f, 0x7e, 9] 3 = some (p', r) ∧ r = 1 ∧ p' = [1, 0x7f, 0x7e, 9] := by
  obtain ⟨p', r, hcheck, hsealed, -⟩ := (if_api_check_contract [1, 0x7f, 0x7e, 9] 3 (by decide)).1
  exact ⟨p', r, hcheck, hsealed (by decide)⟩

/-- One byte is too short for a trailer, but -1 is also its length less two. -/
theorem one_byte_answer :
    ¬∀ (p : Buf) (len : Nat), len < 2 ^ 31 → len ≤ p.length →
      ∃ p' r, ifApiCheck p len = some (p', r) ∧ (r = (len : Int) - 2 ↔ IsSealed p len) := by
  intro h
  obtain ⟨p', r, hcheck, hiff⟩ := h [0] 1 (by decide) (by decide)
  have hr : r = -1 := by
    rw [ifApiCheck_short (by decide), Option.some.injEq, Prod.mk.injEq] at hcheck
    exact hcheck.2.symm
  have hsealed : IsSealed [0] 1 := hiff.mp hr
  exact absurd hsealed.1 (by decide)

end EthoSlip
