import EthoSlip.Lib.Mask
import EthoSlip.Model.Tun

/-!
# The key stream of the tunnel

`sbuf_key_xor` and `key_xor` mask a packet with the last bytes of the key, as many as the packet
has, however it is split into segments. Encryption is therefore undone at the other end of the
tunnel, where the same bytes come in other segments.
-/

namespace EthoSlip
open Lib

/-- What `key_init` leaves in the array. -/
def keyStream : Buf := (List.range tunBufSize).map keyByte

lemma run_store (p : Buf) (f : Nat → Byte) {n : Nat} (h : n ≤ p.length) :
    run (fun p i => Buf.store p i (f i)) p (List.range n) =
      some (p.overlay ((List.range n).map f)) := by
  induction n with
  | zero => rfl
  | succ n ih =>
    have hlen : ((List.range n).map f).length = n := by rw [List.length_map, List.length_range]
    have hstore := Buf.store_overlay p ((List.range n).map f) (f n) (by rw [hlen]; exact h)
    rw [hlen] at hstore
    rw [List.range_succ, run_append, ih (by omega), Option.bind_some, run_cons, hstore,
      Option.bind_some, run_nil, List.map_append, List.map_singleton]

theorem keyInit_eq {key : Buf} (h : key.length = tunBufSize) : keyInit key = some keyStream := by
  have hlen : keyStream.length = tunBufSize := by
    rw [keyStream, List.length_map, List.length_range]
  have hdrop : key.drop keyStream.length = [] := List.drop_of_length_le (by rw [h, hlen])
  rw [keyInit, run_store key keyByte (by rw [h]), ← keyStream, Buf.overlay, hdrop, List.append_nil]

lemma load_keyStream {i : Nat} (h : i < tunBufSize) : keyStream.load i = some (keyByte i) := by
  rw [Buf.load, keyStream, List.getElem?_map, List.getElem?_range h, Option.map_some]

/-- No square is 128 modulo 256. -/
lemma keyByte_ne_zero (i : Nat) : keyByte i ≠ 0 := by
  have hsquares : ∀ r : Fin 256, (r.val * r.val + 128) % 256 ≠ 0 := by decide +kernel
  intro h
  have hzero : (i * i + 128) % 256 = 0 := by
    have hval := congrArg UInt8.toNat h
    rw [keyByte, UInt8.toNat_ofNat'] at hval
    exact hval
  apply hsquares ⟨i % 256, Nat.mod_lt _ (by decide)⟩
  rw [Nat.add_mod, Nat.mul_mod] at hzero
  rw [Nat.add_mod, Nat.mul_mod, Nat.mod_mod]
  exact hzero

/-- The array holds the first bytes of a stream. -/
def HoldsStream (key : Buf) (k : ℕ → Byte) : Prop := ∀ i < tunBufSize, key.load i = some (k i)

lemma keyStream_holds : HoldsStream keyStream keyByte := fun _ h => load_keyStream h

variable {key : Buf} {k : ℕ → Byte}

section Xor

/-! `index n` is the loop's index for byte `n` of the key. -/

variable {ι : Type} (succ : ι → ι) {keyAt : ι → Option Byte} {index : ℕ → ι}

lemma xorLoop_mask (hsucc : ∀ n, succ (index n) = index (n + 1))
    (hkey : ∀ n < tunBufSize, keyAt (index n) = some (k n)) (xs ys zs : List Byte) (i : ℕ)
    (hi : i + ys.length ≤ tunBufSize) :
    xorLoop succ keyAt ys.length xs.length (index i) (xs ++ (ys ++ zs)) =
      some (xs ++ (mask k i ys ++ zs), index (i + ys.length)) := by
  induction ys generalizing xs i with
  | nil => rfl
  | cons y ys ih =>
    rw [List.length_cons] at hi
    have hload : Buf.load (xs ++ (y :: ys ++ zs)) xs.length = some y := by simp [Buf.load]
    have hstore : Buf.store (xs ++ (y :: ys ++ zs)) xs.length (y ^^^ k i) =
        some ((xs ++ [y ^^^ k i]) ++ (ys ++ zs)) := by
      rw [List.cons_append, Buf.store_field xs (ys ++ zs) y _ rfl rfl, List.append_assoc,
        List.singleton_append]
    have hnext := ih (xs ++ [y ^^^ k i]) (i + 1) (by omega)
    rw [List.length_append, List.length_singleton] at hnext
    simp only [List.length_cons, xorLoop, Option.bind_eq_bind, hload, Option.bind_some,
      hkey i (by omega), hstore, hsucc, hnext, mask]
    rw [List.append_assoc, List.singleton_append, List.cons_append]
    congr 3
    omega

end Xor

lemma keyXor_mask (hk : HoldsStream key k) {buff : Buf} (h : buff.length ≤ tunBufSize) :
    keyXor buff buff.length key = some (mask k (tunBufSize - buff.length) buff) := by
  have hstart : (tunBufSize : Int) - buff.length = ((tunBufSize - buff.length : ℕ) : Int) := by
    rw [Nat.cast_sub h]
  have hkey : ∀ n < tunBufSize, loadInt key (n : Int) = some (k n) := by
    intro n hn
    rw [loadInt, if_pos (Int.natCast_nonneg n), Int.toNat_natCast, hk n hn]
  have hsucc : ∀ n : ℕ, (n : Int) + 1 = ((n + 1 : ℕ) : Int) := fun n => rfl
  have hloop := xorLoop_mask (· + 1) hsucc hkey [] buff [] (tunBufSize - buff.length) (by omega)
  rw [List.nil_append, List.append_nil, List.append_nil, List.nil_append, List.length_nil] at hloop
  rw [keyXor, hstart, Int.toNat_natCast, hloop, Option.map_some]

lemma xorSegment_maskFirst (hk : HoldsStream key k) {p : Pbuf} {n : UInt16} {i : ℕ}
    (hn : n ≤ p.len) (hi : i + n.toNat ≤ tunBufSize) :
    ∃ q, xorSegment key n (UInt16.ofNat i) p = some (q, UInt16.ofNat (i + n.toNat)) ∧
      q.totLen = p.totLen ∧ q.len = p.len ∧ q.payload = maskFirst k i n.toNat p.payload := by
  have hkey : ∀ m < tunBufSize, loadU16 key (UInt16.ofNat m) = some (k m) := by
    intro m hm
    have hsize : m < UInt16.size := lt_trans hm (by decide)
    rw [loadU16, UInt16.toNat_ofNat_of_lt' hsize, hk m hm]
  have hsucc : ∀ m, UInt16.ofNat m + 1 = UInt16.ofNat (m + 1) := by
    intro m
    rw [UInt16.ofNat_add]
    rfl
  have hlen : (p.payload.take n.toNat).length = n.toNat := by
    rw [List.length_take, p.length_payload, min_eq_left (UInt16.le_iff_toNat_le.mp hn)]
  have hloop := xorLoop_mask (· + 1) hsucc hkey []
    (p.payload.take n.toNat) (p.payload.drop n.toNat) i (by rw [hlen]; exact hi)
  rw [List.nil_append, List.take_append_drop, hlen, List.length_nil, List.nil_append,
    ← maskFirst] at hloop
  exact xorSegment_eq_some hloop

/-- One turn of the loop, in which `n` bytes of the segment are combined with the key. -/
lemma sbufLoop_cons (p : Pbuf) (next : List Pbuf) {totalLen len j n : UInt16} (hlen : len ≠ 0)
    (hn : n = if len < p.len then len else p.len) :
    sbufLoop key (p :: next) totalLen len j =
      (xorSegment key n j p).bind (fun r =>
        (sbufLoop key next (totalLen + n) (len - n) r.2).map (fun s => (r.1 :: s.1, s.2))) := by
  rw [sbufLoop, if_neg hlen, hn]
  simp only [Option.bind_eq_bind, Option.pure_def, Option.map_eq_bind]
  rfl

/-- The loop comes to a segment with `len` bytes to go and the key index `2000 - len`. -/
lemma sbufLoop_maskFirst (hk : HoldsStream key k) (chain : List Pbuf) (totalLen len : UInt16)
    {i : ℕ} (hi : i + len.toNat = tunBufSize) :
    ∃ chain', sbufLoop key chain totalLen len (UInt16.ofNat i) =
        some (chain', totalLen + UInt16.ofNat (min len.toNat (chainBytes chain).length)) ∧
      chain'.map Pbuf.totLen = chain.map Pbuf.totLen ∧ chain'.map Pbuf.len = chain.map Pbuf.len ∧
      chainBytes chain' = maskFirst k i len.toNat (chainBytes chain) := by
  induction chain generalizing totalLen len i with
  | nil =>
    refine ⟨[], ?_, rfl, rfl, by rw [chainBytes_nil, maskFirst_nil]⟩
    rw [sbufLoop, chainBytes_nil, List.length_nil, Nat.min_zero]
    simp
  | cons p next ih =>
    by_cases hzero : len = 0
    · subst hzero
      refine ⟨p :: next, ?_, rfl, rfl, ?_⟩
      · simp [sbufLoop]
      · rw [UInt16.toNat_zero, maskFirst_zero]
    · set n : UInt16 := if len < p.len then len else p.len with hn
      obtain ⟨hcopy, hfits, hrest⟩ := p.bufCopyLen hn
      obtain ⟨q, hq, htot, hlen, hpayload⟩ := xorSegment_maskFirst hk (i := i) hfits (by omega)
      obtain ⟨next', hnext, htots, hlens, hbytes⟩ :=
        ih (totalLen + n) (len - n) (i := i + n.toNat) (by omega)
      refine ⟨q :: next', ?_, ?_, ?_, ?_⟩
      · have hmin : min len.toNat (chainBytes (p :: next)).length =
            n.toNat + min (len - n).toNat (chainBytes next).length := by
          rw [chainBytes_cons, List.length_append, hrest, hcopy]
          omega
        have hcount : totalLen + UInt16.ofNat (min len.toNat (chainBytes (p :: next)).length) =
            totalLen + n + UInt16.ofNat (min (len - n).toNat (chainBytes next).length) := by
          rw [hmin, UInt16.ofNat_add, UInt16.ofNat_toNat, UInt16.add_assoc]
        rw [sbufLoop_cons p next hzero hn, hq, Option.bind_some, hnext, Option.map_some, hcount]
      · rw [List.map_cons, htot, htots, List.map_cons]
      · rw [List.map_cons, hlen, hlens, List.map_cons]
      · rw [chainBytes_cons, hpayload, hbytes, chainBytes_cons, maskFirst_append, hrest, hcopy,
          maskFirst_min_length]

lemma sbufKeyXor_maskFirst (hk : HoldsStream key k) (p : Pbuf) (next : List Pbuf)
    (h : p.totLen.toNat ≤ tunBufSize) :
    ∃ chain count, sbufKeyXor (p :: next) key = some (chain, count) ∧
      count.toNat = min p.totLen.toNat (chainBytes (p :: next)).length ∧
      chain.map Pbuf.totLen = (p :: next).map Pbuf.totLen ∧
      chain.map Pbuf.len = (p :: next).map Pbuf.len ∧
      chainBytes chain = maskFirst k (tunBufSize - p.totLen.toNat) p.totLen.toNat
        (chainBytes (p :: next)) := by
  have hstart : UInt16.ofNat tunBufSize - p.totLen =
      UInt16.ofNat (tunBufSize - p.totLen.toNat) := by
    rw [UInt16.ofNat_sub h, UInt16.ofNat_toNat]
  obtain ⟨chain, hloop, htots, hlens, hbytes⟩ :=
    sbufLoop_maskFirst hk (p :: next) 0 p.totLen (Nat.sub_add_cancel h)
  refine ⟨chain, _, by rw [sbufKeyXor, hstart, hloop], ?_, htots, hlens, hbytes⟩
  have hsize : min p.totLen.toNat (chainBytes (p :: next)).length < UInt16.size :=
    lt_of_le_of_lt (min_le_left _ _) p.totLen.toNat_lt
  rw [UInt16.zero_add, UInt16.toNat_ofNat_of_lt' hsize]

/-- A packet whose length is the one that is written in its first segment. -/
def Complete (chain : List Pbuf) : Prop :=
  chain.head?.map (fun p => p.totLen.toNat) = some (chainBytes chain).length

/-- A whole packet is masked, whatever its segments are. -/
lemma sbufKeyXor_complete {chain : List Pbuf} (hc : Complete chain)
    (h : (chainBytes chain).length ≤ tunBufSize) :
    ∃ chain' count, sbufKeyXor chain keyStream = some (chain', count) ∧
      chainBytes chain' =
        mask keyByte (tunBufSize - (chainBytes chain).length) (chainBytes chain) := by
  cases chain with
  | nil => simp [Complete] at hc
  | cons p next =>
    have htot : p.totLen.toNat = (chainBytes (p :: next)).length := by
      rw [Complete, List.head?_cons, Option.map_some, Option.some.injEq] at hc
      exact hc
    obtain ⟨chain', count, hxor, -, -, -, hbytes⟩ :=
      sbufKeyXor_maskFirst keyStream_holds p next (by rw [htot]; exact h)
    refine ⟨chain', count, hxor, ?_⟩
    rw [hbytes, htot, maskFirst_of_length_le keyByte le_rfl]

/-- The chain at one end of the tunnel is encrypted as the flat buffer at the other end is, and a
chain that holds the encrypted bytes in any other segments is decrypted to the same packet. -/
theorem chained_key_stream (key : Vector Byte tunBufSize) (p : Pbuf) (next : List Pbuf)
    (h : p.totLen.toNat ≤ tunBufSize) :
    ∃ key', keyInit key.toList = some key' ∧
      ∃ chain count, sbufKeyXor (p :: next) key' = some (chain, count) ∧
        count.toNat = min p.totLen.toNat (chainBytes (p :: next)).length ∧
        chain.map Pbuf.len = (p :: next).map Pbuf.len ∧
        (∀ m < (chainBytes (p :: next)).length,
          (chainBytes chain)[m]? ≠ (chainBytes (p :: next))[m]? ↔ m < count.toNat) ∧
        (Complete (p :: next) →
          keyXor (chainBytes (p :: next)) p.totLen.toNat key' = some (chainBytes chain) ∧
          ∀ received, chainBytes received = chainBytes chain → Complete received →
            ∃ decrypted count, sbufKeyXor received key' = some (decrypted, count) ∧
              chainBytes decrypted = chainBytes (p :: next)) := by
  obtain ⟨chain, count, hxor, hcount, -, hlens, hbytes⟩ :=
    sbufKeyXor_maskFirst keyStream_holds p next h
  refine ⟨keyStream, keyInit_eq key.length_toList, chain, count, hxor, hcount, hlens, ?_, ?_⟩
  · intro m hm
    rw [hbytes, getElem?_maskFirst_ne_iff keyByte (fun m _ => keyByte_ne_zero _) hm, hcount,
      lt_min_iff]
    exact (and_iff_left hm).symm
  · intro hc
    have htot : p.totLen.toNat = (chainBytes (p :: next)).length := by
      rw [Complete, List.head?_cons, Option.map_some, Option.some.injEq] at hc
      exact hc
    have hroom : (chainBytes (p :: next)).length ≤ tunBufSize := by rw [← htot]; exact h
    have hmask : chainBytes chain = mask keyByte (tunBufSize - (chainBytes (p :: next)).length)
        (chainBytes (p :: next)) := by
      rw [hbytes, htot, maskFirst_of_length_le keyByte le_rfl]
    constructor
    · rw [htot, keyXor_mask keyStream_holds hroom, hmask]
    · intro received hsame hcr
      have hlen : (chainBytes received).length = (chainBytes (p :: next)).length := by
        rw [hsame, hmask, length_mask]
      obtain ⟨decrypted, count', hdec, hmask'⟩ :=
        sbufKeyXor_complete hcr (by rw [hlen]; exact hroom)
      refine ⟨decrypted, count', hdec, ?_⟩
      rw [hmask', hlen, hsame, hmask, mask_mask]

/-- Three bytes in three segments, of which the second is empty. -/
theorem chained_key_stream_witness :
    ∃ key' chain count, keyInit (Vector.replicate tunBufSize 0).toList = some key' ∧
      sbufKeyXor [⟨3, 2, [0x41, 0x42], rfl⟩, ⟨1, 0, [], rfl⟩, ⟨1, 1, [0x43], rfl⟩] key' =
        some (chain, count) ∧
      count.toNat = 3 ∧ keyXor [0x41, 0x42, 0x43] 3 key' = some (chainBytes chain) := by
  obtain ⟨key', hkey, chain, count, hxor, hcount, -, -, hflat⟩ :=
    chained_key_stream (Vector.replicate tunBufSize 0) ⟨3, 2, [0x41, 0x42], rfl⟩
      [⟨1, 0, [], rfl⟩, ⟨1, 1, [0x43], rfl⟩] (by decide)
  exact ⟨key', chain, count, hkey, hxor, hcount, (hflat rfl).1⟩

end EthoSlip
