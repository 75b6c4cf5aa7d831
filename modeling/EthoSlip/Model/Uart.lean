import Mathlib.Tactic
import Mathlib.Data.List.Basic

/-!
# Buffers and UARTs

The byte buffers of the two programs with checked accesses, and the `send_char`/`recv_char`
functions on which the SLIP code is built. Both the module and the PC programs link the same
`slip.c` against their own `uart2.c`, so a UART is a parameter of the SLIP functions.
-/

namespace EthoSlip

abbrev Byte := UInt8

/-- The bytes of a C object from the address in a pointer to the end of the object. -/
abbrev Buf := List Byte

/-- `p[i]`, when the object has that byte. -/
def Buf.load (p : Buf) (i : Nat) : Option Byte := p[i]?

/-- `p[i] = c`, when the object has that byte. -/
def Buf.store (p : Buf) (i : Nat) (c : Byte) : Option Buf :=
  if i < p.length then some (p.set i c) else none

/-- The buffer whose first bytes are those of `f`. -/
def Buf.overlay (p : Buf) (f : List Byte) : Buf := f ++ p.drop f.length

@[simp] lemma Buf.overlay_nil (p : Buf) : p.overlay [] = p := rfl

lemma Buf.length_overlay (p : Buf) (f : List Byte) (h : f.length ≤ p.length) :
    (p.overlay f).length = p.length := by
  simp only [overlay, List.length_append, List.length_drop]
  omega

@[simp] lemma Buf.take_overlay (p : Buf) (f : List Byte) : (p.overlay f).take f.length = f := by
  simp [overlay]

lemma Buf.length_store {p p' : Buf} {i : Nat} {c : Byte} (h : p.store i c = some p') :
    p'.length = p.length := by
  unfold store at h
  split_ifs at h
  rw [Option.some.injEq] at h
  rw [← h, List.length_set]

lemma Buf.lt_of_store {p p' : Buf} {i : Nat} {c : Byte} (h : p.store i c = some p') :
    i < p.length := by
  unfold store at h
  split_ifs at h with hi
  exact hi

lemma Buf.store_overlay (p : Buf) (f : List Byte) (c : Byte) (h : f.length < p.length) :
    (p.overlay f).store f.length c = some (p.overlay (f ++ [c])) := by
  have hlen : f.length < (p.overlay f).length := by rw [p.length_overlay f h.le]; exact h
  have hdrop : p.drop f.length = p[f.length] :: p.drop (f.length + 1) := List.drop_eq_getElem_cons h
  rw [store, if_pos hlen, overlay, List.set_append_right _ _ le_rfl, Nat.sub_self, hdrop,
    List.set_cons_zero, overlay]
  simp

lemma Buf.overlay_overlay (p : Buf) (f g : List Byte) (h : f.length ≤ g.length) :
    (p.overlay f).overlay g = p.overlay g := by
  rw [overlay, overlay, List.drop_append, List.drop_of_length_le h, List.nil_append,
    List.drop_drop, Nat.add_sub_cancel' h, overlay]

lemma Buf.load_overlay (p : Buf) (f : List Byte) (i : Nat) (h : i < f.length) :
    (p.overlay f).load i = some f[i] := by
  rw [load, overlay, List.getElem?_append_left h, List.getElem?_eq_getElem h]

lemma Buf.store_overlay_inside (p : Buf) (f : List Byte) (i : Nat) (c : Byte) (h : i < f.length) :
    (p.overlay f).store i c = some (p.overlay (f.set i c)) := by
  have hlen : i < (p.overlay f).length := by
    simp only [overlay, List.length_append]
    omega
  rw [store, if_pos hlen, overlay, List.set_append_left _ _ h, overlay, List.length_set]

lemma Buf.eq_overlay_take (p : Buf) (n : Nat) : p = p.overlay (p.take n) := by
  rcases Nat.le_total n p.length with h | h
  · rw [overlay, List.length_take, min_eq_left h, List.take_append_drop]
  · rw [List.take_of_length_le h, overlay, List.drop_length, List.append_nil]

/-- The two functions of `uart2.c` through which `send_packet` sends. -/
structure ByteSink (τ : Type) where
  sendChar : Byte → τ → τ
  sendCharDo : τ → τ

def queueMaxNum : Nat := 4000

/-- The transmit side of the PC's `uart2.c`. `written` lists what each `write()` was given. -/
structure TxBuffer where
  gsTxBuff : Vector Byte queueMaxNum
  gsTxPtr : Nat
  written : List (List Byte)

namespace TxBuffer

def sendChar (ch : Byte) (t : TxBuffer) : TxBuffer :=
  if h : t.gsTxPtr < queueMaxNum then
    { t with gsTxBuff := t.gsTxBuff.set t.gsTxPtr ch h, gsTxPtr := t.gsTxPtr + 1 }
  else t

def sendCharDo (t : TxBuffer) : TxBuffer :=
  { t with written := t.written ++ [t.gsTxBuff.toList.take t.gsTxPtr], gsTxPtr := 0 }

def init : TxBuffer := ⟨Vector.replicate queueMaxNum 0, 0, []⟩

end TxBuffer

/-- `send_char` and `send_char_do` as the PC programs are built. -/
def bufferedUart : ByteSink TxBuffer := ⟨TxBuffer.sendChar, TxBuffer.sendCharDo⟩

/-- The variant that hands each byte on at once: the module's `serial_putc`, and the PC's
one-byte `write()` under `#else`. -/
def directUart : ByteSink (List Byte) := ⟨fun ch t => t ++ [ch], fun t => t⟩

/-- A `recv_char`. It answers `none` as long as it waits for a byte, and every byte that it
returns is taken from a finite supply. -/
structure ByteSource (σ : Type) where
  recvChar : σ → Option (Byte × σ)
  avail : σ → Nat
  avail_recvChar : ∀ s c s', recvChar s = some (c, s') → avail s' < avail s

/-- The bytes that have arrived and are not yet read: the module's `charQueue`, and the PC's
one-byte `read()`. -/
def lineSource : ByteSource (List Byte) where
  recvChar
    | [] => none
    | c :: s => some (c, s)
  avail := List.length
  avail_recvChar := by
    rintro (_ | ⟨a, s⟩) c s' h
    · simp at h
    · simp only [Option.some.injEq, Prod.mk.injEq] at h
      simp [h.2]

@[simp] lemma lineSource_nil : lineSource.recvChar [] = none := rfl

@[simp] lemma lineSource_cons (c : Byte) (s : List Byte) :
    lineSource.recvChar (c :: s) = some (c, s) := rfl

end EthoSlip
