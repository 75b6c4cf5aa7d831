import EthoSlip.Lib.Stuffing
import EthoSlip.Model.Slip

/-!
# SLIP as a stuffing code

`send_packet` emits the frames of a stuffing code, and the first `len` bytes of each frame of its
receiver are what `recv_packet` stores.
-/

namespace EthoSlip
open Lib

/-- The symbol that `send_packet` puts after an ESC. -/
def stuffByte (c : Byte) : Byte := if c = slipEnd then slipEscEnd else slipEscEsc

/-- The escape pairs of SLIP: the byte behind the ESC, and what the pair stands for. -/
def slipEscapes : List (Byte × Byte) := [(0o334, 0o300), (0o335, 0o333)]

/-- A byte behind an ESC that is in no pair stands for itself. -/
def slipUnescape (c : Byte) : Byte := (slipEscapes.lookup c).getD c

/-- SLIP, with nothing taken from `recv_packet`. -/
def slipCode : StuffingCode Byte where
  delim := 0o300
  esc := 0o333
  code := stuffByte
  decode := slipUnescape
  delim_ne_esc := by decide
  decode_code_delim := by decide
  decode_code_esc := by decide

@[simp] lemma slipCode_delim : slipCode.delim = slipEnd := rfl

@[simp] lemma slipCode_esc : slipCode.esc = slipEsc := rfl

@[simp] lemma slipCode_code (c : Byte) : slipCode.code c = stuffByte c := rfl

/-- The inner `switch(c)` of `recv_packet` follows the table. -/
@[simp] lemma slipCode_decode (c : Byte) : slipCode.decode c = unstuffByte c := by
  change (slipEscapes.lookup c).getD c = unstuffByte c
  unfold unstuffByte slipEscapes slipEscEnd slipEscEsc slipEnd slipEsc
  by_cases hend : c = 0o334
  · subst hend
    rfl
  · by_cases hesc : c = 0o335
    · subst hesc
      rfl
    · have hnoEnd : (c == 0o334) = false := beq_eq_false_iff_ne.mpr hend
      have hnoEsc : (c == 0o335) = false := beq_eq_false_iff_ne.mpr hesc
      rw [if_neg hend, if_neg hesc, List.lookup_cons, hnoEnd, List.lookup_cons, hnoEsc]
      rfl

lemma slipCode_reserved (c : Byte) : slipCode.Reserved c ↔ c = slipEnd ∨ c = slipEsc := Iff.rfl

@[simp] lemma unstuffByte_end : unstuffByte slipEnd = slipEnd := by decide

lemma end_not_mem_stuff (p : List Byte) : slipEnd ∉ slipCode.stuff p := by
  induction p with
  | nil => simp
  | cons c p ih =>
    have hsymbol : slipEnd ∉ slipCode.stuffSymbol c := by
      unfold StuffingCode.stuffSymbol
      split_ifs with hc
      · rw [slipCode_reserved] at hc
        obtain rfl | rfl := hc
        · decide
        · decide
      · simp only [List.mem_singleton]
        exact fun h => hc ((slipCode_reserved c).mpr (.inl h.symm))
    rw [StuffingCode.stuff_cons, List.mem_append]
    exact not_or.mpr ⟨hsymbol, ih⟩

/-- The number of bytes that `send_packet` emits for some packet bytes. -/
def encodedLength (xs : List Byte) : Nat :=
  xs.length + xs.countP (fun c => c = slipEnd ∨ c = slipEsc)

lemma length_stuff (xs : List Byte) : (slipCode.stuff xs).length = encodedLength xs := by
  induction xs with
  | nil => rfl
  | cons c xs ih =>
    rw [StuffingCode.stuff_cons, List.length_append, ih, StuffingCode.stuffSymbol, encodedLength,
      encodedLength]
    by_cases hc : c = slipEnd ∨ c = slipEsc
    · simp [slipCode_reserved, hc]
      omega
    · simp [slipCode_reserved, hc]
      omega

lemma sendByte_direct (c : Byte) (t : List Byte) :
    sendByte directUart c t = t ++ slipCode.stuffSymbol c := by
  unfold sendByte StuffingCode.stuffSymbol
  by_cases hend : c = slipEnd
  · subst hend
    simp [directUart, slipCode_reserved, stuffByte]
  · by_cases hesc : c = slipEsc
    · subst hesc
      simp [directUart, slipCode_reserved, stuffByte, hend]
    · simp [directUart, slipCode_reserved, hend, hesc]

lemma sendLoop_direct (p t : List Byte) :
    sendLoop directUart p.length p t = some (t ++ slipCode.stuff p) := by
  induction p generalizing t with
  | nil => simp [sendLoop]
  | cons c p ih =>
    rw [List.length_cons, sendLoop, ih, sendByte_direct, StuffingCode.stuff_cons, List.append_assoc]

/-- Over a UART that passes every byte on, `send_packet` emits the frame of its packet. -/
theorem sendPacket_direct (p t : List Byte) :
    sendPacket directUart p p.length t = some (t ++ slipCode.frame p) := by
  have hstart : directUart.sendChar slipEnd t = t ++ [slipEnd] := rfl
  rw [sendPacket, hstart, sendLoop_direct]
  simp [directUart, StuffingCode.frame]

end EthoSlip
