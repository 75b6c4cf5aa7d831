import EthoSlip.Model.UdpTunnel
import EthoSlip.Proofs.Callbacks
import EthoSlip.Proofs.ReceiveInterrupt

/-!
# Through the UDP tunnel

The tunnel build does what the direct build does, with a datagram in place of each packet for the
driver. A datagram is its payload masked with the end of the key stream, so that the callback at the
other end, which masks it again, gives the payload back whatever segments it comes in.
-/

namespace EthoSlip
open Lib

/-- What goes through the tunnel for a payload. -/
def datagram (q : List Byte) : List Byte := mask keyByte (tunBufSize - q.length) q

@[simp] lemma length_datagram (q : List Byte) : (datagram q).length = q.length := length_mask _ _ _

@[simp] lemma datagram_datagram (q : List Byte) : datagram (datagram q) = q := by
  rw [datagram, length_datagram, datagram, mask_mask]

/-- `key_xor` on the first bytes of a buffer. -/
lemma keyXor_front {key : Buf} {k : ℕ → Byte} (hk : HoldsStream key k) (q z : List Byte)
    (h : q.length ≤ tunBufSize) :
    keyXor (q ++ z) q.length key = some (mask k (tunBufSize - q.length) q ++ z) := by
  have hstart : (tunBufSize : Int) - q.length = ((tunBufSize - q.length : ℕ) : Int) := by
    rw [Nat.cast_sub h]
  have hkey : ∀ n < tunBufSize, loadInt key (n : Int) = some (k n) := by
    intro n hn
    rw [loadInt, if_pos (Int.natCast_nonneg n), Int.toNat_natCast, hk n hn]
  have hsucc : ∀ n : ℕ, (n : Int) + 1 = ((n + 1 : ℕ) : Int) := fun n => rfl
  have hloop := xorLoop_mask (· + 1) hsucc hkey [] q z (tunBufSize - q.length) (by omega)
  rw [List.nil_append, List.nil_append, List.length_nil] at hloop
  rw [keyXor, hstart, Int.toNat_natCast, hloop, Option.map_some]

lemma keyXor_datagram (q z : List Byte) (h : q.length ≤ tunBufSize) :
    keyXor (q ++ z) q.length keyStream = some (datagram q ++ z) :=
  keyXor_front keyStream_holds q z h

/-- The direct build gives a packet to the driver where the tunnel build sends a datagram. -/
def tunnelled : RelayEffect → UdpRelayEffect
  | .lowLevelOutput q => .udpSend (datagram q)
  | e => .relay e

section Task

variable (pbufAlloc : Nat → (n : Nat) → Malloc n)

def udpRelayFrame (a : RelayState) (f : List Byte) : RelayState × UdpRelayEffect :=
  ((relayFrame pbufAlloc a f).1, tunnelled (relayFrame pbufAlloc a f).2)

lemma pbufTake_front {object : Buf} (q z : Buf) (h : object.length = q.length) :
    pbufTake object (q ++ z) q.length = some (q, errOk) := by
  have hroom : 0 + q.length ≤ object.length ∧ q.length ≤ (q ++ z).length := by
    rw [List.length_append]
    omega
  have hdrop : object.drop q.length = [] := List.drop_of_length_le h.le
  rw [pbufTake, if_neg (by omega), Buf.memcpy, if_pos hroom, List.take_left, Nat.zero_add, hdrop,
    List.take_zero, List.append_nil, List.nil_append, Option.map_some]

lemma udpRelayOutput_payload (a : RelayState) (q z : Buf) (h : q.length ≤ tunBufSize) :
    udpRelayOutput pbufAlloc keyStream a (q ++ z) q.length =
      some ({ a with pbufAllocs := a.pbufAllocs + 1 }, datagram q ++ z,
        match pbufAlloc a.pbufAllocs q.length with
        | none => .relay .cannotAllocate
        | some _ => .udpSend (datagram q)) := by
  unfold udpRelayOutput
  rw [keyXor_datagram q z h]
  simp only [Option.bind_eq_bind, Option.bind_some]
  cases pbufAlloc a.pbufAllocs q.length with
  | none => rfl
  | some object =>
    have htake := pbufTake_front (datagram q) z (object.length_toList.trans (length_datagram q).symm)
    rw [length_datagram] at htake
    simp only [htake, Option.bind_some, Option.pure_def, ne_eq, not_true_eq_false, if_false]

/-- A turn of the tunnel build only looks at its frame, as one of the direct build does. -/
lemma udpRelayTurn_looksAtFrame (a : RelayState) {f : List Byte} (hf : f.length ≤ moduleBufSize)
    (hproc : ∀ q, payloadOf f = some q → ∃ q' wlan len,
      wlanApiPackProc q q.length a.wlan = some (q', wlan, len) ∧
        Handled q q.length a.wlan q' wlan len) :
    LooksAtFrame moduleBufSize (udpRelayTurn pbufAlloc keyStream) (udpRelayFrame pbufAlloc) a f := by
  intro p hp
  cases hq : payloadOf f with
  | none =>
    obtain ⟨p', hcheck, hp'⟩ := ifApiCheck_rejects p (hf.trans hp) hq
    refine ⟨p', ?_, hp'⟩
    simp [udpRelayTurn, hcheck, udpRelayFrame, relayFrame, hq, tunnelled]
  | some q =>
    obtain ⟨q', wlan, len, hcall, hhandled⟩ := hproc q hq
    rw [payloadOf_eq_some] at hq
    subst hq
    have hcheck := ifApiCheck_accepts p q (hf.trans hp)
    obtain ⟨z, hoverlay, hz⟩ := overlay_sealPayload p q
    have hlength : (q ++ z).length = p.length := by
      rw [← hoverlay, p.length_overlay _ (hf.trans hp)]
    have hkey : q.length ≤ tunBufSize := by
      rw [length_sealPayload] at hf
      exact (Nat.le_add_right _ 2).trans hf
    have hpos : ¬(q.length : Int) < 0 := by omega
    rw [hoverlay] at hcheck ⊢
    unfold udpRelayTurn udpRelayFrame relayFrame
    simp only [hcheck, isWlanApi_payload, payloadOf_sealPayload, Option.bind_eq_bind,
      Option.bind_some, if_neg hpos, decide_eq_true_eq, Int.toNat_natCast]
    by_cases hapi : IsWlanApi q
    · obtain ⟨p', happly, hp'⟩ := relayApi_payload a hcall hhandled z hz
      refine ⟨p', ?_, hp'.trans hlength⟩
      rw [if_pos hapi, if_pos hapi, happly, hcall, Option.getD_some]
      rfl
    · refine ⟨datagram q ++ z, ?_, ?_⟩
      · rw [if_neg hapi, if_neg hapi, udpRelayOutput_payload pbufAlloc a q z hkey]
        cases pbufAlloc a.pbufAllocs q.length with
        | none => rfl
        | some object => rfl
      · rw [← hlength, List.length_append, List.length_append, length_datagram]

lemma udpRelay_looksAtFrames {a : RelayState} (ha : a.wlan.Sound) (w : List Byte) :
    LooksAtFrames moduleBufSize (udpRelayTurn pbufAlloc keyStream) (udpRelayFrame pbufAlloc) a
      (slipFrames moduleBufSize w) := by
  apply looksAtFrames_of_invariant moduleBufSize (I := fun a => a.wlan.Sound) _ a ha
  · intro f hf
    exact mem_slipFrames moduleBufSize (by decide) hf
  · intro a f ha _ hle
    constructor
    · apply udpRelayTurn_looksAtFrame pbufAlloc a hle
      intro q _
      exact wlanApiPackProc_handled ha (le_refl q.length)
    · exact relayFrame_sound pbufAlloc ha f

lemma handleFrames_tunnelled {σ : Type} (a : RelayState) (l : List (List Byte × σ)) :
    handleFrames (udpRelayFrame pbufAlloc) a l =
      (handleFrames (relayFrame pbufAlloc) a l).map (fun turn => (tunnelled turn.1, turn.2)) := by
  induction l generalizing a with
  | nil => rfl
  | cons f l ih =>
    rw [handleFrames, handleFrames, List.map_cons, udpRelayFrame, ih]

lemma udpRelay_turns {a : RelayState} (ha : a.wlan.Sound)
    (slipOutBuffer : Vector Byte moduleBufSize) (w : List Byte) :
    ∃ session, serve lineSource moduleBufSize (udpRelayTurn pbufAlloc keyStream) a
        slipOutBuffer.toList w = session ∧
      session.turns = (slip2ipTaskProc pbufAlloc a slipOutBuffer w).turns.map
        (fun turn => (tunnelled turn.1, turn.2)) ∧ session.stop ≠ .outOfBounds := by
  obtain ⟨q, -, hrun⟩ := serve_frames moduleBufSize (by decide) a slipOutBuffer.toList
    (by rw [Vector.length_toList]) w (udpRelay_looksAtFrames pbufAlloc ha w)
  obtain ⟨q', -, hrun'⟩ := serve_frames moduleBufSize (by decide) a slipOutBuffer.toList
    (by rw [Vector.length_toList]) w (relay_looksAtFrames pbufAlloc ha w)
  refine ⟨_, rfl, ?_, ?_⟩
  · rw [slip2ipTaskProc, hrun, hrun', handleFrames_tunnelled]
  · rw [hrun]
    simp

end Task

/-- With a connected socket, on any byte stream and from any sound credential state, the task does
turn by turn what the direct build does, each with the same bytes left unread, except that a packet
for the driver becomes a datagram; it never leaves a buffer or the key, whatever its buffers held
before. -/
theorem tunnel_build_follows_direct_build (pbufAlloc : Nat → (n : Nat) → Malloc n)
    (key : Vector Byte tunBufSize) (a : RelayState) (ha : a.wlan.Sound)
    (slipOutBuffer : Vector Byte moduleBufSize) (w : List Byte) :
    ∃ session, slip2ipTaskProcUdp true errOk pbufAlloc key a slipOutBuffer w =
        some (.serving session) ∧
      session.turns = (slip2ipTaskProc pbufAlloc a slipOutBuffer w).turns.map
        (fun turn => (tunnelled turn.1, turn.2)) ∧ session.stop ≠ .outOfBounds := by
  obtain ⟨session, hsession, hturns, hstop⟩ := udpRelay_turns pbufAlloc ha slipOutBuffer w
  refine ⟨session, ?_, hturns, hstop⟩
  simp [slip2ipTaskProcUdp, keyInit_eq key.length_toList, hsession]

theorem tunnel_build_follows_direct_build_witness :
    ∃ session, slip2ipTaskProcUdp true errOk anyPbuf (Vector.replicate _ 0) ⟨labModule, 0⟩
        (Vector.replicate _ 0xff) relayedLine = some (.serving session) ∧
      session.turns = (slip2ipTaskProc anyPbuf ⟨labModule, 0⟩ (Vector.replicate _ 0xff)
        relayedLine).turns.map (fun turn => (tunnelled turn.1, turn.2)) ∧
      session.stop ≠ .outOfBounds :=
  tunnel_build_follows_direct_build anyPbuf (Vector.replicate _ 0) ⟨labModule, 0⟩
    labModule_good.toSound (Vector.replicate _ 0xff) relayedLine

/-- A datagram is sent on as the frame of its payload. -/
lemma udpDataInputCb_datagram {q : List Byte} (hq : FitsModule q) {chain : List Pbuf}
    (hc : Complete chain) (hbytes : chainBytes chain = datagram q) {out : Buf}
    (hout : out.length = tunBufSize) :
    udpDataInputCb 0 out keyStream chain =
      some (out.overlay (sealPayload q), slipCode.frame (sealPayload q)) := by
  have hlen : q.length + 2 ≤ out.length := by
    rw [hout]
    unfold FitsModule at hq
    unfold tunBufSize
    omega
  obtain ⟨buf, next, r, rfl, htot, hcopy⟩ := pbufCopyPartial_complete hc (p := out)
    (by rw [hbytes, length_datagram]; omega)
  rw [hbytes, length_datagram] at htot
  rw [hbytes, Buf.overlay, length_datagram] at hcopy
  have hkey := keyXor_datagram (datagram q) (out.drop q.length)
    (by rw [length_datagram]; omega)
  rw [datagram_datagram, length_datagram] at hkey
  have hcalc := ifApiCalculateChecksum_overlay out q hlen
  rw [Buf.overlay] at hcalc
  have htotal : (UInt16.ofNat (q.length + 2)).toNat = q.length + 2 := by
    apply UInt16.toNat_ofNat_of_lt'
    rw [hout] at hlen
    exact lt_of_le_of_lt hlen (by decide)
  have hsend := sendPacket_overlay directUart out (sealPayload q) []
  rw [sendPacket_direct, length_sealPayload, List.nil_append] at hsend
  rw [udpDataInputCb, if_neg (by simp)]
  simp only [hcopy, htot, hkey, hcalc, htotal, hsend, Option.bind_eq_bind, Option.bind_some,
    Option.pure_def]

/-- What arrives while `slip_used` is set is dropped. -/
lemma udpDataInputCb_dropped {slipUsed : UInt32} (h : slipUsed ≠ 0) (out : Buf)
    (chain : List Pbuf) : udpDataInputCb slipUsed out keyStream chain = some (out, []) := by
  unfold udpDataInputCb
  rw [if_pos h]

/-- The datagrams that do not find `slip_used` set. -/
def admitted (ds : List (UInt32 × List Pbuf)) : List (List Pbuf) :=
  (ds.filter (fun d => d.1 = 0)).map Prod.snd

/-- The payload that the callback makes of a datagram. -/
def udpForwarded (d : UInt32 × List Pbuf) : Option (List Byte) :=
  if d.1 = 0 then some (datagram (chainBytes d.2)) else none

lemma filterMap_udpForwarded (ds : List (UInt32 × List Pbuf)) :
    ds.filterMap udpForwarded = ((admitted ds).map chainBytes).map datagram := by
  induction ds with
  | nil => rfl
  | cons d ds ih =>
    by_cases hused : d.1 = 0
    · have hadmitted : admitted (d :: ds) = d.2 :: admitted ds := by
        rw [admitted, List.filter_cons_of_pos (by simpa using hused), List.map_cons, admitted]
      have hforwarded : udpForwarded d = some (datagram (chainBytes d.2)) := if_pos hused
      rw [List.filterMap_cons_some hforwarded, hadmitted, ih, List.map_cons, List.map_cons]
    · have hadmitted : admitted (d :: ds) = admitted ds := by
        rw [admitted, List.filter_cons_of_neg (by simpa using hused), admitted]
      have hdropped : udpForwarded d = none := if_neg hused
      rw [List.filterMap_cons_none hdropped, hadmitted, ih]

lemma mem_admitted {ds : List (UInt32 × List Pbuf)} {d : UInt32 × List Pbuf} (hd : d ∈ ds)
    (hused : d.1 = 0) : d.2 ∈ admitted ds :=
  List.mem_map.mpr ⟨d, List.mem_filter.mpr ⟨hd, by simpa using hused⟩, rfl⟩

lemma udpDataInputCb_forwards {d : UInt32 × List Pbuf}
    (h : d.1 = 0 → Complete d.2 ∧ FitsModule (datagram (chainBytes d.2))) :
    Forwards (fun out d => udpDataInputCb d.1 out keyStream d.2) tunBufSize d (udpForwarded d) := by
  intro out hout
  unfold udpForwarded
  split_ifs with hused
  · obtain ⟨hc, hfits⟩ := h hused
    refine ⟨out.overlay (sealPayload (datagram (chainBytes d.2))), ?_, ?_⟩
    · unfold FitsModule at hfits
      rw [Buf.length_overlay _ _ (by rw [length_sealPayload, hout, tunBufSize]; omega), hout]
    · have hbytes : chainBytes d.2 = datagram (datagram (chainBytes d.2)) :=
        (datagram_datagram _).symm
      change udpDataInputCb d.1 out keyStream d.2 = _
      rw [hused]
      exact udpDataInputCb_datagram hfits hc hbytes hout
  · exact ⟨out, hout, udpDataInputCb_dropped hused out d.2⟩

/-- Payloads of at most 1998 bytes that are no wlan API frames, sent by the TAP loop of one PC,
leave its module as their datagrams, in order and once each, but for those for which `pbuf_alloc`
fails. The network may lose, double and reorder the datagrams and cut them into any segments: the PC
at the other end accepts exactly the payloads of those that its module finds `slip_used` clear for,
in the order in which they come. -/
theorem tunnel_end_to_end (pbufAlloc : Nat → (n : Nat) → Malloc n)
    (key key' udpOutBuffer : Vector Byte tunBufSize) (a : RelayState) (ha : a.wlan.Sound)
    (slipOutBuffer : Vector Byte moduleBufSize) (pcSlipOutBuffer : Vector Byte pcBufSize)
    (payloads : List (List Byte)) (hpayloads : ∀ q ∈ payloads, FitsModule q ∧ ¬IsWlanApi q) :
    (∃ session, slip2ipTaskProcUdp true errOk pbufAlloc key a slipOutBuffer (sentLine payloads) =
        some (.serving session) ∧
      session.turns.map Prod.fst = (relayed pbufAlloc a.pbufAllocs payloads).map tunnelled) ∧
    ∃ k, keyInit key'.toList = some k ∧
      ∀ (arrived : List (List Byte)) (ds : List (UInt32 × List Pbuf)),
        (∀ q ∈ arrived, q ∈ payloads) → (∀ chain ∈ admitted ds, Complete chain) →
        (admitted ds).map chainBytes = arrived.map datagram →
        ∃ out written, udpDeliveries k udpOutBuffer ds = some (out, written) ∧
          pcAccepted pcSlipOutBuffer written = arrived := by
  constructor
  · obtain ⟨session, hsession, hturns, -⟩ := udpRelay_turns pbufAlloc ha slipOutBuffer
      (sentLine payloads)
    refine ⟨session, ?_, ?_⟩
    · simp [slip2ipTaskProcUdp, keyInit_eq key.length_toList, hsession]
    · have heffects := (relay_effects pbufAlloc ha slipOutBuffer (sentLine payloads)).1
      rw [lineFrames_sentLine (fun q hq => (hpayloads q hq).1),
        frameEffects_relayed pbufAlloc a (fun q hq => (hpayloads q hq).2)] at heffects
      rw [hturns, ← heffects, List.map_map, List.map_map]
      rfl
  · refine ⟨keyStream, keyInit_eq key'.length_toList, ?_⟩
    intro arrived ds hmem hcomplete hbytes
    have hforwarded : ds.filterMap udpForwarded = arrived := by
      rw [filterMap_udpForwarded, hbytes, List.map_map]
      calc arrived.map (datagram ∘ datagram)
          = arrived.map id := List.map_congr_left (fun q _ => datagram_datagram q)
        _ = arrived := List.map_id _
    have hfits : ∀ d ∈ ds, ∀ q, udpForwarded d = some q → FitsModule q := by
      intro d hd q hq
      have hq' : q ∈ arrived := hforwarded ▸ List.mem_filterMap.mpr ⟨d, hd, hq⟩
      exact (hpayloads q (hmem q hq')).1
    obtain ⟨out, written, hrun, haccepted⟩ := pcAccepted_forwards ds
      (fun d hd => udpDataInputCb_forwards (fun hused =>
        ⟨hcomplete d.2 (mem_admitted hd hused), hfits d hd _ (if_pos hused)⟩))
      hfits udpOutBuffer.toList udpOutBuffer.length_toList pcSlipOutBuffer
    rw [hforwarded] at haccepted
    exact ⟨out, written, hrun, haccepted⟩

/-- Two packets, of which the second comes first, in two segments, while the first is dropped once
and then comes. -/
theorem tunnel_end_to_end_witness :
    ∃ session k out written,
      slip2ipTaskProcUdp true errOk anyPbuf (Vector.replicate _ 0) ⟨labModule, 0⟩
        (Vector.replicate _ 0) (sentLine [[0x41, 0x42], [slipEnd]]) = some (.serving session) ∧
      session.turns.map Prod.fst =
        [.udpSend (datagram [0x41, 0x42]), .udpSend (datagram [slipEnd])] ∧
      keyInit (Vector.replicate tunBufSize 0).toList = some k ∧
      udpDeliveries k (Vector.replicate _ 0) [(0, [⟨1, 1, datagram [slipEnd], rfl⟩]),
        (1, [⟨2, 2, datagram [0x41, 0x42], rfl⟩]),
        (0, [⟨2, 1, (datagram [0x41, 0x42]).take 1, rfl⟩,
          ⟨1, 1, (datagram [0x41, 0x42]).drop 1, rfl⟩])] = some (out, written) ∧
      pcAccepted (Vector.replicate _ 0) written = [[slipEnd], [0x41, 0x42]] := by
  obtain ⟨⟨session, hsession, hturns⟩, k, hk, hdeliveries⟩ := tunnel_end_to_end anyPbuf
    (Vector.replicate _ 0) (Vector.replicate _ 0) (Vector.replicate _ 0) ⟨labModule, 0⟩
    labModule_good.toSound (Vector.replicate _ 0) (Vector.replicate _ 0)
    [[0x41, 0x42], [slipEnd]] (by decide)
  obtain ⟨out, written, hrun, haccepted⟩ := hdeliveries [[slipEnd], [0x41, 0x42]]
    [(0, [⟨1, 1, datagram [slipEnd], rfl⟩]), (1, [⟨2, 2, datagram [0x41, 0x42], rfl⟩]),
      (0, [⟨2, 1, (datagram [0x41, 0x42]).take 1, rfl⟩,
        ⟨1, 1, (datagram [0x41, 0x42]).drop 1, rfl⟩])]
    (by decide) (by decide) (by decide)
  exact ⟨session, k, out, written, hsession, hturns, hk, hrun, haccepted⟩

/-! ### With `tun.c` at the other end -/

lemma length_keyXor {buff buff' key : Buf} {len : Int} (h : keyXor buff len key = some buff') :
    buff'.length = buff.length := by
  obtain ⟨r, hloop, rfl⟩ := Option.map_eq_some_iff.mp h
  exact length_xorLoop hloop

/-- A packet that leaves room for the trailer is sent, whatever the key is. -/
lemma udpDataInputCb_fits {key out : Buf} (hkey : key.length = tunBufSize)
    (hout : out.length = tunBufSize) (p : Pbuf) (next : List Pbuf)
    (h : p.totLen.toNat + 2 ≤ tunBufSize) :
    (udpDataInputCb 0 out key (p :: next)).isSome := by
  have hholds : HoldsStream key (fun i => key.getD i 0) := by
    intro i hi
    have hlt : i < key.length := by rw [hkey]; exact hi
    change key[i]? = some (List.getD key i 0)
    rw [List.getD_eq_getElem?_getD, List.getElem?_eq_getElem hlt, Option.getD_some]
  obtain ⟨r, hcopy⟩ := copyPartialLoop_overlay (p :: next) out [] p.totLen 0 0 rfl
    (by rw [List.length_nil]; omega) (by rw [List.length_nil, Nat.zero_add]; exact p.totLen.toNat_lt)
  rw [Buf.overlay_nil, List.nil_append] at hcopy
  set copied := out.overlay ((chainBytes (p :: next)).take p.totLen.toNat) with hcopied
  have hlen : copied.length = tunBufSize := by rw [length_copyPartialLoop hcopy, hout]
  have hfront : (copied.take p.totLen.toNat).length = p.totLen.toNat :=
    List.length_take_of_le (by omega)
  have hxor := keyXor_front hholds (copied.take p.totLen.toNat) (copied.drop p.totLen.toNat)
    (by omega)
  rw [List.take_append_drop, hfront] at hxor
  obtain ⟨masked, hmasked⟩ : ∃ masked, keyXor copied p.totLen.toNat key = some masked := ⟨_, hxor⟩
  have hroom : p.totLen.toNat + 2 ≤ masked.length := by
    rw [length_keyXor hmasked, hlen]
    exact h
  have hcalc := ifApiCalculateChecksum_take masked p.totLen.toNat hroom
  have htotal : (UInt16.ofNat (p.totLen.toNat + 2)).toNat = p.totLen.toNat + 2 := by
    apply UInt16.toNat_ofNat_of_lt'
    exact lt_of_le_of_lt h (by decide)
  have hpayload : (masked.take p.totLen.toNat).length = p.totLen.toNat :=
    List.length_take_of_le (by omega)
  have hsend := sendPacket_overlay directUart masked (sealPayload (masked.take p.totLen.toNat)) []
  rw [sendPacket_direct, length_sealPayload, hpayload, List.nil_append] at hsend
  rw [udpDataInputCb, if_neg (by simp)]
  simp only [pbufCopyPartial, hcopy, hmasked, hcalc, htotal, hsend, Option.bind_eq_bind,
    Option.bind_some, Option.pure_def, Option.isSome_some]

/-- The datagram callback stays inside `udp_out_buffer` and the key exactly for packets that leave
two bytes for the trailer, whatever the key and the buffer hold. -/
theorem udp_data_input_in_bounds_iff (slipUsed : UInt32) (key udpOutBuffer : Vector Byte tunBufSize)
    (p : Pbuf) (next : List Pbuf) :
    (udpDataInputCb slipUsed udpOutBuffer.toList key.toList (p :: next)).isSome ↔
      slipUsed ≠ 0 ∨ p.totLen.toNat ≤ 1998 := by
  have hout : udpOutBuffer.toList.length = tunBufSize := udpOutBuffer.length_toList
  have hkey : key.toList.length = tunBufSize := key.length_toList
  by_cases hused : slipUsed = 0
  · subst hused
    rw [udpDataInputCb, if_neg (by simp)]
    constructor
    · intro h
      obtain ⟨r, hr⟩ := Option.isSome_iff_exists.mp h
      simp only [Option.bind_eq_bind, Option.bind_eq_some_iff] at hr
      obtain ⟨⟨copied, count⟩, hcopy, masked, hxor, ⟨sealedBuf, len⟩, hcalc, -⟩ := hr
      have hbounds := (ifApiCalculateChecksum_bounds hcalc).1
      rw [length_keyXor hxor, length_copyPartialLoop hcopy, hout, tunBufSize] at hbounds
      right
      omega
    · rintro (h | h)
      · exact absurd rfl h
      · have hfits := udpDataInputCb_fits hkey hout p next (by rw [tunBufSize]; omega)
        rw [udpDataInputCb, if_neg (by simp)] at hfits
        exact hfits
  · unfold udpDataInputCb
    simp [hused]

end EthoSlip
