import EthoSlip.Model.ModuleUart
import EthoSlip.Proofs.Chunking
import EthoSlip.Proofs.Delivery
import EthoSlip.Proofs.HwaddrRoundTrip
import EthoSlip.Proofs.Resync

/-!
# Reception behind the interrupt handler

The slip task works on the bytes that it takes out of `charQueue`. However the interrupts fall
between its calls, these are the bytes of the line as long as the task is never 2000 of them behind.
Bytes that meet the full queue cost the frames that they belong to, and the frame after each.
-/

namespace EthoSlip
open Lib

section Queue

variable {ω : Type} (X : XQueue ω)

lemma contents_irq (event : SerialIrq) (ch : Byte) (q : ω) :
    X.contents (uart2IrqHandler X event ch q) =
      match event with
      | .rxIrq => (X.contents q).offer ch
      | .txIrq => X.contents q := by
  cases event with
  | rxIrq => exact X.contents_send q ch
  | txIrq => rfl

lemma poll_contents_none {q : ω} (h : X.xQueueReceive q = none) : (X.contents q).poll = none := by
  rw [← X.contents_receive, h, Option.map_none]

lemma poll_contents_some {q : ω} {r : Byte × ω} (h : X.xQueueReceive q = some r) :
    (X.contents q).poll = some (r.1, X.contents r.2) := by
  rw [← X.contents_receive, h, Option.map_some]

lemma charQueueTaken_eq (q : ω) (ticks : List UartTick) :
    charQueueTaken X q ticks = (X.contents q).taken (ticks.filterMap UartTick.queueTick) := by
  induction ticks generalizing q with
  | nil => rfl
  | cons e ticks ih =>
    cases e with
    | irq event ch =>
      rw [charQueueTaken, ih, contents_irq]
      cases event with
      | rxIrq => rfl
      | txIrq => rfl
    | recv =>
      have htick : (UartTick.recv :: ticks).filterMap UartTick.queueTick =
          .take :: ticks.filterMap UartTick.queueTick := rfl
      rw [charQueueTaken, htick, Fifo.taken]
      cases hreceive : X.xQueueReceive q with
      | none =>
        rw [poll_contents_none X hreceive]
        exact ih q
      | some r =>
        rw [poll_contents_some X hreceive]
        exact congrArg (List.cons r.1) (ih r.2)

lemma contents_charQueueLeft (q : ω) (ticks : List UartTick) :
    X.contents (charQueueLeft X q ticks) =
      (X.contents q).left (ticks.filterMap UartTick.queueTick) := by
  induction ticks generalizing q with
  | nil => rfl
  | cons e ticks ih =>
    cases e with
    | irq event ch =>
      rw [charQueueLeft, ih, contents_irq]
      cases event with
      | rxIrq => rfl
      | txIrq => rfl
    | recv =>
      have htick : (UartTick.recv :: ticks).filterMap UartTick.queueTick =
          .take :: ticks.filterMap UartTick.queueTick := rfl
      rw [charQueueLeft, htick, Fifo.left]
      cases hreceive : X.xQueueReceive q with
      | none =>
        rw [poll_contents_none X hreceive]
        exact ih q
      | some r =>
        rw [poll_contents_some X hreceive]
        exact ih r.2

lemma charQueueSource_shows :
    (charQueueSource X).Shows (fun s => charQueueTaken X s.1 s.2) lineSource where
  recvChar := fun s => charQueueTaken_recv X s.1 s.2
  avail := fun _ => rfl

end Queue

/-- At each receive interrupt fewer than 2000 of the bytes before it are still to be taken. -/
def KeepsUp {ω : Type} (X : XQueue ω) (ticks : List UartTick) : Prop :=
  ∀ before ch after, ticks = before ++ .irq .rxIrq ch :: after →
    (rxBytes before).length < (charQueueTaken X X.xQueueCreate before).length + charQueueMaxNum

lemma keepsUp_iff {ω : Type} (X : XQueue ω) (ticks : List UartTick) :
    KeepsUp X ticks ↔
      (Fifo.empty : Fifo charQueueMaxNum Byte).KeepsUp (ticks.filterMap UartTick.queueTick) := by
  have hempty : (Fifo.empty : Fifo charQueueMaxNum Byte).items.length = 0 := rfl
  constructor
  · intro h before ch after hticks
    obtain ⟨before, rest, rfl, rfl, hrest⟩ := List.filterMap_eq_append_iff.mp hticks
    obtain ⟨quiet, e, after, rfl, hquiet, he, rfl⟩ := List.filterMap_eq_cons_iff.mp hrest
    have htick : e = .irq .rxIrq ch := by
      cases e with
      | irq event ch' =>
        cases event with
        | rxIrq =>
          simp only [UartTick.queueTick, Option.some.injEq, Tick.arrive.injEq] at he
          rw [he]
        | txIrq => cases he
      | recv => cases he
    have hkeeps := h (before ++ quiet) ch after (by rw [htick, List.append_assoc])
    have hnone : quiet.filterMap UartTick.queueTick = [] := List.filterMap_eq_nil_iff.mpr hquiet
    rw [rxBytes, charQueueTaken_eq, X.contents_create, List.filterMap_append, hnone,
      List.append_nil] at hkeeps
    omega
  · rintro h before ch after rfl
    have hkeeps := h (before.filterMap UartTick.queueTick) ch (after.filterMap UartTick.queueTick)
      (by rw [List.filterMap_append]; rfl)
    rw [rxBytes, charQueueTaken_eq, X.contents_create]
    omega

lemma charQueue_kept {ω : Type} (X : XQueue ω) (ticks : List UartTick) :
    charQueueTaken X X.xQueueCreate ticks ++
        (X.contents (charQueueLeft X X.xQueueCreate ticks)).items =
      (Fifo.empty : Fifo charQueueMaxNum Byte).kept (ticks.filterMap UartTick.queueTick) := by
  rw [charQueueTaken_eq, contents_charQueueLeft, X.contents_create, Fifo.taken_append_left]
  rfl

/-- A line that arrives while the task looks at nothing, and 2000 turns of the task behind it. -/
def burst (w : List Byte) : List UartTick :=
  w.map (.irq .rxIrq) ++ List.replicate charQueueMaxNum .recv

lemma queueTicks_burst (w : List Byte) :
    (burst w).filterMap UartTick.queueTick =
      w.map .arrive ++ List.replicate charQueueMaxNum .take := by
  have harrive : (w.map (UartTick.irq .rxIrq)).filterMap UartTick.queueTick =
      w.map .arrive := by
    rw [List.filterMap_map, ← List.filterMap_eq_map]
    rfl
  have htake : (List.replicate charQueueMaxNum UartTick.recv).filterMap UartTick.queueTick =
      List.replicate charQueueMaxNum .take :=
    List.filterMap_replicate_of_some rfl
  rw [burst, List.filterMap_append, harrive, htake]

lemma rxBytes_burst (w : List Byte) : rxBytes (burst w) = w := by
  have harrived : Tick.arrived (w.map Tick.arrive) = w := by
    induction w with
    | nil => rfl
    | cons a w ih => exact congrArg (List.cons a) ih
  have hnone (n : Nat) : Tick.arrived (List.replicate n (Tick.take : Tick Byte)) = [] := by
    induction n with
    | zero => rfl
    | succ n ih => exact ih
  rw [rxBytes, queueTicks_burst, Tick.arrived_append, harrived, hnone, List.append_nil]

lemma kept_burst (f : Fifo charQueueMaxNum Byte) (w : List Byte) :
    f.kept ((burst w).filterMap UartTick.queueTick) =
      w.take (charQueueMaxNum - f.items.length) := by
  rw [queueTicks_burst, Fifo.kept_append, Fifo.kept_burst, Fifo.kept_drain, List.append_nil]

lemma left_burst (f : Fifo charQueueMaxNum Byte) (w : List Byte) :
    f.left ((burst w).filterMap UartTick.queueTick) = .empty := by
  rw [queueTicks_burst, Fifo.left_append]
  exact Fifo.left_drain _ (f.left _).bounded

/-- However the interrupts and the calls of `recv_char` follow each other, what the task takes and
what it leaves in the queue are bytes of the line in their order, none of them twice; and they are
the whole line exactly when the task keeps up. -/
theorem charQueue_keeps_line {ω : Type} (X : XQueue ω) (ticks : List UartTick) :
    (charQueueTaken X X.xQueueCreate ticks ++
        (X.contents (charQueueLeft X X.xQueueCreate ticks)).items).Sublist (rxBytes ticks) ∧
      (charQueueTaken X X.xQueueCreate ticks ++
        (X.contents (charQueueLeft X X.xQueueCreate ticks)).items = rxBytes ticks ↔
          KeepsUp X ticks) := by
  rw [charQueue_kept, keepsUp_iff]
  exact ⟨Fifo.kept_sublist _ _, Fifo.kept_eq_arrived_iff _ _⟩

/-- The task takes two bytes as they come, a line arrives in a burst, and one more byte behind it. -/
def burstBetween (w : List Byte) : List UartTick :=
  [.irq .rxIrq 1, .recv, .recv, .irq .rxIrq 2, .recv] ++ burst w ++ [.irq .rxIrq 9]

lemma rxBytes_burstBetween (w : List Byte) : rxBytes (burstBetween w) = [1, 2] ++ w ++ [9] := by
  have hburst := rxBytes_burst w
  rw [rxBytes] at hburst
  rw [rxBytes, burstBetween, List.filterMap_append, List.filterMap_append, Tick.arrived_append,
    Tick.arrived_append, hburst]
  rfl

lemma kept_burstBetween (w : List Byte) :
    charQueueTaken fifoQueue .empty (burstBetween w) ++
        (charQueueLeft fifoQueue .empty (burstBetween w)).items =
      [1, 2] ++ w.take charQueueMaxNum ++ [9] := by
  have hfirst : (Fifo.empty : Fifo charQueueMaxNum Byte).left
      ([UartTick.irq .rxIrq 1, .recv, .recv, .irq .rxIrq 2, .recv].filterMap UartTick.queueTick) =
        .empty := rfl
  apply (charQueue_kept fifoQueue (burstBetween w)).trans
  rw [burstBetween, List.filterMap_append, List.filterMap_append, Fifo.kept_append,
    Fifo.kept_append, Fifo.left_append, hfirst, kept_burst, left_burst]
  rfl

/-- Of the 2001 bytes of the burst the last one finds the queue full; the byte behind it is kept. -/
theorem charQueue_keeps_line_witness :
    ([1, 2] ++ (List.replicate 2001 (5 : Byte)).take charQueueMaxNum ++ [9]).Sublist
        (rxBytes (burstBetween (List.replicate 2001 (5 : Byte)))) ∧
      ¬KeepsUp fifoQueue (burstBetween (List.replicate 2001 (5 : Byte))) := by
  obtain ⟨w, hw⟩ : ∃ w, w = List.replicate 2001 (5 : Byte) := ⟨_, rfl⟩
  have hlong : w.length = 2001 := by rw [hw, List.length_replicate]
  rw [← hw]
  obtain ⟨hsublist, hwhole⟩ := charQueue_keeps_line fifoQueue (burstBetween w)
  have hkept := kept_burstBetween w
  refine ⟨?_, ?_⟩
  · rw [← hkept]
    exact hsublist
  · intro hkeeps
    have hsame := hkept.symm.trans (hwhole.mpr hkeeps)
    rw [rxBytes_burstBetween] at hsame
    have hlength := congrArg List.length hsame
    simp only [List.length_append, List.length_take, charQueueMaxNum, hlong] at hlength
    omega

/-- A task that keeps up takes a beginning of the line, and all of it once the queue is empty. -/
lemma KeepsUp.taken {ω : Type} {X : XQueue ω} {ticks : List UartTick} (h : KeepsUp X ticks) :
    charQueueTaken X X.xQueueCreate ticks <+: rxBytes ticks ∧
      (X.contents (charQueueLeft X X.xQueueCreate ticks) = .empty →
        charQueueTaken X X.xQueueCreate ticks = rxBytes ticks) := by
  have hline := charQueue_kept X ticks
  rw [(Fifo.kept_eq_arrived_iff _ _).mpr ((keepsUp_iff X ticks).mp h)] at hline
  refine ⟨⟨_, hline⟩, ?_⟩
  intro hempty
  rw [hempty] at hline
  exact (List.append_nil _).symm.trans hline

/-- A line that is not longer than the queue is kept whatever the task does. -/
lemma keepsUp_of_length_le {ω : Type} (X : XQueue ω) {ticks : List UartTick}
    (h : (rxBytes ticks).length ≤ charQueueMaxNum) : KeepsUp X ticks := by
  rintro before ch after rfl
  have hmore : (rxBytes before).length < (rxBytes (before ++ .irq .rxIrq ch :: after)).length := by
    have hlast : (UartTick.irq .rxIrq ch :: after).filterMap UartTick.queueTick =
        .arrive ch :: after.filterMap UartTick.queueTick := rfl
    rw [rxBytes, rxBytes, List.filterMap_append, Tick.arrived_append, hlast, Tick.arrived,
      List.length_append, List.length_cons]
    omega
  omega

/-- What a receiving task does with a list of frames. -/
def frameEffects {α β : Type} (h : α → List Byte → α × β) : α → List (List Byte) → List β
  | _, [] => []
  | a, f :: fs => (h a f).2 :: frameEffects h (h a f).1 fs

lemma map_fst_handleFrames {σ α β : Type} (h : α → List Byte → α × β) (a : α)
    (l : List (List Byte × σ)) :
    (handleFrames h a l).map Prod.fst = frameEffects h a (l.map Prod.fst) := by
  induction l generalizing a with
  | nil => rfl
  | cons f l ih =>
    rw [handleFrames, List.map_cons, ih]
    rfl

lemma frameEffects_prefix {α β : Type} (h : α → List Byte → α × β) (a : α)
    {fs fs' : List (List Byte)} (hbegun : fs <+: fs') :
    frameEffects h a fs <+: frameEffects h a fs' := by
  obtain ⟨more, rfl⟩ := hbegun
  induction fs generalizing a with
  | nil => exact List.nil_prefix
  | cons f fs ih =>
    rw [List.cons_append, frameEffects, frameEffects]
    exact (List.prefix_cons_inj _).mpr (ih _)

/-- The frames of a line as the task gets them. -/
def lineFrames (w : List Byte) : List (List Byte) :=
  (slipCode.frames .fresh w).map (List.take moduleBufSize)

lemma lineFrames_prefix {v w : List Byte} (h : v <+: w) : lineFrames v <+: lineFrames w := by
  obtain ⟨more, rfl⟩ := h
  rw [lineFrames, lineFrames, slipCode.frames_append, List.map_append]
  exact List.prefix_append _ _

lemma map_fst_slipFrames (w : List Byte) :
    (slipFrames moduleBufSize w).map Prod.fst = lineFrames w := by
  rw [slipFrames, List.map_map, lineFrames, StuffingCode.frames, List.map_map]
  rfl

section Relay

variable {ω : Type} (X : XQueue ω) (pbufAlloc : Nat → (n : Nat) → Malloc n) {a : RelayState}
  (ha : a.wlan.Sound) (slipOutBuffer : Vector Byte moduleBufSize) (ticks : List UartTick)

include ha

lemma relay_effects (w : List Byte) :
    (slip2ipTaskProc pbufAlloc a slipOutBuffer w).turns.map Prod.fst =
        frameEffects (relayFrame pbufAlloc) a (lineFrames w) ∧
      (slip2ipTaskProc pbufAlloc a slipOutBuffer w).stop ≠ .outOfBounds := by
  obtain ⟨q, -, hrun⟩ := serve_frames moduleBufSize (by decide) a slipOutBuffer.toList
    (by rw [Vector.length_toList]) w (relay_looksAtFrames pbufAlloc ha w)
  rw [slip2ipTaskProc, hrun]
  constructor
  · rw [map_fst_handleFrames, map_fst_slipFrames]
  · simp

omit ha in
/-- The task cannot tell the queue from a line of the bytes that it takes. -/
lemma slip2ipTaskOnQueue_shows :
    slip2ipTaskProc pbufAlloc a slipOutBuffer (charQueueTaken X X.xQueueCreate ticks) =
      (slip2ipTaskOnQueue X pbufAlloc a slipOutBuffer ticks).map
        (fun s => charQueueTaken X s.1 s.2) :=
  (charQueueSource_shows X).serve moduleBufSize _ a slipOutBuffer.toList (X.xQueueCreate, ticks)

lemma queue_effects :
    (slip2ipTaskOnQueue X pbufAlloc a slipOutBuffer ticks).turns.map Prod.fst =
        frameEffects (relayFrame pbufAlloc) a
          (lineFrames (charQueueTaken X X.xQueueCreate ticks)) ∧
      (slip2ipTaskOnQueue X pbufAlloc a slipOutBuffer ticks).stop ≠ .outOfBounds := by
  have hshows := slip2ipTaskOnQueue_shows X pbufAlloc (a := a) slipOutBuffer ticks
  obtain ⟨heffects, hstop⟩ := relay_effects pbufAlloc ha slipOutBuffer
    (charQueueTaken X X.xQueueCreate ticks)
  rw [hshows] at heffects hstop
  rw [Session.map, List.map_map] at heffects
  exact ⟨heffects, hstop⟩

end Relay

/-- From a sound credential state and for every interleaving of interrupts and calls in which the
task keeps up, the task does what it does on the line itself, as far as it has come: its effects are
the first ones of the undisturbed run, all of them once the queue is empty, and it never leaves a
buffer. -/
theorem relay_behind_interrupts {ω : Type} (X : XQueue ω) (pbufAlloc : Nat → (n : Nat) → Malloc n)
    (a : RelayState) (ha : a.wlan.Sound) (slipOutBuffer : Vector Byte moduleBufSize)
    (ticks : List UartTick) (hkeeps : KeepsUp X ticks) :
    (slip2ipTaskOnQueue X pbufAlloc a slipOutBuffer ticks).turns.map Prod.fst <+:
        (slip2ipTaskProc pbufAlloc a slipOutBuffer (rxBytes ticks)).turns.map Prod.fst ∧
      (X.contents (charQueueLeft X X.xQueueCreate ticks) = .empty →
        (slip2ipTaskOnQueue X pbufAlloc a slipOutBuffer ticks).turns.map Prod.fst =
          (slip2ipTaskProc pbufAlloc a slipOutBuffer (rxBytes ticks)).turns.map Prod.fst) ∧
      (slip2ipTaskOnQueue X pbufAlloc a slipOutBuffer ticks).stop ≠ .outOfBounds := by
  obtain ⟨hbegun, hall⟩ := hkeeps.taken
  obtain ⟨heffects, hstop⟩ := queue_effects X pbufAlloc ha slipOutBuffer ticks
  have hrelay := (relay_effects pbufAlloc ha slipOutBuffer (rxBytes ticks)).1
  rw [heffects, hrelay]
  refine ⟨?_, ?_, hstop⟩
  · apply frameEffects_prefix
    apply lineFrames_prefix
    exact hbegun
  · intro hempty
    rw [hall hempty]

/-- The bytes of a line arrive one by one, and the task looks twice for each of them. -/
def arrivals (w : List Byte) : List UartTick :=
  w.flatMap (fun ch => [.irq .rxIrq ch, .irq .txIrq 0, .recv, .recv])

lemma rxBytes_arrivals (w : List Byte) : rxBytes (arrivals w) = w := by
  induction w with
  | nil => rfl
  | cons ch w ih => exact congrArg (List.cons ch) ih

def relayedTicks : List UartTick := arrivals (slipCode.frame (sealPayload [slipEnd, 7]))

theorem relay_behind_interrupts_witness :
    (slip2ipTaskOnQueue fifoQueue anyPbuf ⟨labModule, 0⟩ (Vector.replicate _ 0xff)
        relayedTicks).turns.map Prod.fst =
      (slip2ipTaskProc anyPbuf ⟨labModule, 0⟩ (Vector.replicate _ 0xff)
        (rxBytes relayedTicks)).turns.map Prod.fst :=
  (relay_behind_interrupts fifoQueue anyPbuf ⟨labModule, 0⟩ labModule_good.toSound
    (Vector.replicate _ 0xff) relayedTicks (keepsUp_of_length_le fifoQueue (by decide))).2.1 rfl

/-- What becomes of payloads that are for the driver, from the `n`th call of `pbuf_alloc` on. -/
def relayed (pbufAlloc : Nat → (n : Nat) → Malloc n) : Nat → List (List Byte) → List RelayEffect
  | _, [] => []
  | n, q :: qs =>
    (match pbufAlloc n q.length with
      | none => .cannotAllocate
      | some _ => .lowLevelOutput q) :: relayed pbufAlloc (n + 1) qs

lemma frameEffects_relayed (pbufAlloc : Nat → (n : Nat) → Malloc n) (a : RelayState)
    {qs : List (List Byte)} (hqs : ∀ q ∈ qs, ¬IsWlanApi q) :
    frameEffects (relayFrame pbufAlloc) a (qs.map sealPayload) =
      relayed pbufAlloc a.pbufAllocs qs := by
  induction qs generalizing a with
  | nil => rfl
  | cons q qs ih =>
    have hq : ¬IsWlanApi q := hqs q (by simp)
    have hframe : relayFrame pbufAlloc a (sealPayload q) =
        ({ a with pbufAllocs := a.pbufAllocs + 1 },
          match pbufAlloc a.pbufAllocs q.length with
          | none => .cannotAllocate
          | some _ => .lowLevelOutput q) := by
      rw [relayFrame, payloadOf_sealPayload]
      exact if_neg hq
    rw [List.map_cons, frameEffects, hframe, relayed, ih _ (fun q' hq' => hqs q' (by simp [hq']))]

lemma lineFrames_sentLine {qs : List (List Byte)} (hqs : ∀ q ∈ qs, FitsModule q) :
    lineFrames (sentLine qs) = qs.map sealPayload := by
  rw [(sentLine_eq qs (fun q hq => (hqs q hq).fitsTap)).2, lineFrames, frames_lineOf_of_fits qs hqs,
    List.map_map]
  apply List.map_congr_left
  intro q hq
  exact take_sealPayload_of_fits (hqs q hq)

lemma relayed_through_queue {ω : Type} (X : XQueue ω) (pbufAlloc : Nat → (n : Nat) → Malloc n)
    {a : RelayState} (ha : a.wlan.Sound) (slipOutBuffer : Vector Byte moduleBufSize)
    {payloads : List (List Byte)} (hpayloads : ∀ q ∈ payloads, FitsModule q ∧ ¬IsWlanApi q)
    {ticks : List UartTick} (hline : rxBytes ticks = sentLine payloads) (hkeeps : KeepsUp X ticks) :
    (slip2ipTaskOnQueue X pbufAlloc a slipOutBuffer ticks).turns.map Prod.fst <+:
        relayed pbufAlloc a.pbufAllocs payloads ∧
      (X.contents (charQueueLeft X X.xQueueCreate ticks) = .empty →
        (slip2ipTaskOnQueue X pbufAlloc a slipOutBuffer ticks).turns.map Prod.fst =
          relayed pbufAlloc a.pbufAllocs payloads) := by
  obtain ⟨hbegun, hall⟩ := hkeeps.taken
  have hrelayed : frameEffects (relayFrame pbufAlloc) a (lineFrames (rxBytes ticks)) =
      relayed pbufAlloc a.pbufAllocs payloads := by
    rw [hline, lineFrames_sentLine (fun q hq => (hpayloads q hq).1),
      frameEffects_relayed pbufAlloc a (fun q hq => (hpayloads q hq).2)]
  rw [(queue_effects X pbufAlloc ha slipOutBuffer ticks).1, ← hrelayed]
  constructor
  · apply frameEffects_prefix
    apply lineFrames_prefix
    exact hbegun
  · intro hempty
    rw [hall hempty]

/-- Payloads of at most 1998 bytes that are no wlan API frames, sent by the TAP loop and received
through the interrupt handler by a task that keeps up, are given to `low_level_output` as they were
sent, in order and once each, but for those for which `pbuf_alloc` fails; when the queue is empty,
all of them have been. -/
theorem tap_to_driver {ω : Type} (X : XQueue ω) (pbufAlloc : Nat → (n : Nat) → Malloc n)
    (a : RelayState) (ha : a.wlan.Sound) (slipOutBuffer : Vector Byte moduleBufSize)
    (payloads : List (List Byte)) (hpayloads : ∀ q ∈ payloads, FitsModule q ∧ ¬IsWlanApi q)
    (ticks : List UartTick) (hline : rxBytes ticks = sentLine payloads) (hkeeps : KeepsUp X ticks) :
    (slip2ipTaskOnQueue X pbufAlloc a slipOutBuffer ticks).turns.map Prod.fst <+:
        relayed pbufAlloc a.pbufAllocs payloads ∧
      (X.contents (charQueueLeft X X.xQueueCreate ticks) = .empty →
        (slip2ipTaskOnQueue X pbufAlloc a slipOutBuffer ticks).turns.map Prod.fst =
          relayed pbufAlloc a.pbufAllocs payloads) :=
  relayed_through_queue X pbufAlloc ha slipOutBuffer hpayloads hline hkeeps

/-- Two payloads, the first with a byte that is escaped on the line. -/
theorem tap_to_driver_witness :
    (slip2ipTaskOnQueue fifoQueue anyPbuf ⟨labModule, 0⟩ (Vector.replicate _ 0xff)
      (arrivals (lineOf [[slipEnd, 7], [1, 2, 3]]))).turns.map Prod.fst =
        [.lowLevelOutput [slipEnd, 7], .lowLevelOutput [1, 2, 3]] := by
  have hline : rxBytes (arrivals (lineOf [[slipEnd, 7], [1, 2, 3]])) =
      sentLine [[slipEnd, 7], [1, 2, 3]] := by
    rw [rxBytes_arrivals, (sentLine_eq [[slipEnd, 7], [1, 2, 3]] (by decide)).2]
  exact (tap_to_driver fifoQueue anyPbuf ⟨labModule, 0⟩ labModule_good.toSound
    (Vector.replicate _ 0xff) [[slipEnd, 7], [1, 2, 3]] (by decide) _ hline
    (keepsUp_of_length_le fifoQueue (by rw [rxBytes_arrivals]; decide))).2 rfl

/-! ### When the queue overflows -/

/-- A packet with what happens while its frame arrives. -/
structure Transfer where
  packet : Packet moduleBufSize
  ticks : List UartTick
  arrives : rxBytes ticks = emitted packet.bytes

section Overflow

variable {ω : Type} (X : XQueue ω)

/-- What the queue has kept of each transfer: the whole frame, or a part of it. -/
def queueSegments : ω → List Transfer → List (Segment moduleBufSize)
  | _, [] => []
  | q, t :: ts =>
    let kept := (X.contents q).kept (t.ticks.filterMap UartTick.queueTick)
    (if kept = emitted t.packet.bytes then .intact t.packet else .noise kept) ::
      queueSegments (charQueueLeft X q t.ticks) ts

lemma wire_queueSegments (q : ω) (ts : List Transfer) :
    Segment.wire (queueSegments X q ts) =
      (X.contents q).kept ((ts.flatMap Transfer.ticks).filterMap UartTick.queueTick) := by
  induction ts generalizing q with
  | nil => rfl
  | cons t ts ih =>
    rw [queueSegments, Segment.wire_cons, ih, List.flatMap_cons, List.filterMap_append,
      Fifo.kept_append, contents_charQueueLeft]
    congr 1
    split_ifs with hwhole
    · exact hwhole.symm
    · rfl

end Overflow

namespace Segment

variable {cap : Nat}

def isNoise : Segment cap → Bool
  | noise _ => true
  | intact _ => false

/-- Each piece of noise costs itself and at most the segment after it. -/
lemma length_le_settled (segs : List (Segment cap)) (afterNoise : Bool) :
    segs.length ≤ (settled afterNoise segs).length + 2 * segs.countP isNoise +
      (if afterNoise then 1 else 0) := by
  induction segs generalizing afterNoise with
  | nil => simp
  | cons seg segs ih =>
    cases seg with
    | noise b =>
      have hnext := ih true
      rw [if_pos rfl] at hnext
      rw [settled, List.countP_cons_of_pos rfl, List.length_cons]
      omega
    | intact p =>
      have hnext := ih false
      rw [if_neg Bool.false_ne_true] at hnext
      rw [List.countP_cons_of_neg (Bool.false_ne_true), List.length_cons]
      cases afterNoise with
      | true =>
        rw [settled, if_pos rfl]
        omega
      | false =>
        rw [settled, if_neg Bool.false_ne_true, List.length_cons]
        omega

end Segment

open Segment in
/-- Packets arrive in their frames, and the task has taken all that the queue has kept of them. Then
every packet whose frame was kept whole is received whole if the frame before it was kept whole too,
or if it is the first one; the packets are received in their order. So for each frame that has lost
bytes, at most that one and the next one are missing. -/
theorem overflow_costs_two_frames {ω : Type} (X : XQueue ω) (ts : List Transfer)
    (slipOutBuffer : Vector Byte moduleBufSize)
    (hempty : X.contents (charQueueLeft X X.xQueueCreate (ts.flatMap Transfer.ticks)) = .empty) :
    (settled false (queueSegments X X.xQueueCreate ts)).Sublist
        ((recvPackets (charQueueSource X) moduleBufSize slipOutBuffer.toList
          (X.xQueueCreate, ts.flatMap Transfer.ticks)).turns.map Prod.fst) ∧
      ts.length ≤ (settled false (queueSegments X X.xQueueCreate ts)).length +
        2 * (queueSegments X X.xQueueCreate ts).countP Segment.isNoise := by
  have hlength (q : ω) (ts : List Transfer) : (queueSegments X q ts).length = ts.length := by
    induction ts generalizing q with
    | nil => rfl
    | cons t ts ih => rw [queueSegments, List.length_cons, List.length_cons, ih]
  constructor
  · have htaken : charQueueTaken X X.xQueueCreate (ts.flatMap Transfer.ticks) =
        wire (queueSegments X X.xQueueCreate ts) := by
      have hkept := (X.contents X.xQueueCreate).taken_append_left
        ((ts.flatMap Transfer.ticks).filterMap UartTick.queueTick)
      have hnil : (X.contents X.xQueueCreate).items = [] := by
        rw [X.contents_create]
        rfl
      rw [← charQueueTaken_eq, ← contents_charQueueLeft, hempty, hnil, List.nil_append,
        ← wire_queueSegments] at hkept
      exact (List.append_nil _).symm.trans hkept
    have hshows := (charQueueSource_shows X).serve moduleBufSize
      (fun (_ : Unit) p received => some ((), p, p.take received)) () slipOutBuffer.toList
      (X.xQueueCreate, ts.flatMap Transfer.ticks)
    have hdelivered := delivered_eq (by decide : 0 < moduleBufSize) slipOutBuffer.toList
      (by rw [Vector.length_toList]) (queueSegments X X.xQueueCreate ts)
    have hsettled := settled_sublist (queueSegments X X.xQueueCreate ts) false .fresh
      (fun _ => rfl)
    rw [← hdelivered, delivered, ← htaken, recvPackets, hshows, Session.map, List.map_map]
      at hsettled
    exact hsettled
  · have hcount := length_le_settled (queueSegments X X.xQueueCreate ts) false
    rw [hlength, if_neg Bool.false_ne_true, Nat.add_zero] at hcount
    exact hcount

def smallPacket (c : Byte) : Packet moduleBufSize :=
  ⟨[c, slipEsc], List.cons_ne_nil c _, by simp [moduleBufSize]⟩

def smallTransfer (c : Byte) : Transfer where
  packet := smallPacket c
  ticks := arrivals (emitted (smallPacket c).bytes)
  arrives := rxBytes_arrivals _

lemma stuff_zeros (n : Nat) : slipCode.stuff (List.replicate n 0) = List.replicate n 0 := by
  apply slipCode.stuff_of_not_reserved
  intro a ha
  rw [List.eq_of_mem_replicate ha]
  decide

lemma emitted_zeros_esc (n : Nat) :
    emitted (List.replicate n 0 ++ [slipEsc]) =
      slipEnd :: (List.replicate n 0 ++ [slipEsc]) ++ [slipEscEsc, slipEnd] := by
  have hesc : slipCode.stuff [slipEsc] = [slipEsc, slipEscEsc] := rfl
  rw [emitted_eq, StuffingCode.frame, StuffingCode.stuff_append, stuff_zeros, hesc]
  simp only [slipCode_delim, List.cons_append, List.append_assoc, List.nil_append]

def burstTransfer (p : Packet moduleBufSize) : Transfer where
  packet := p
  ticks := burst (emitted p.bytes)
  arrives := rxBytes_burst _

lemma queueSegments_burst (p : Packet moduleBufSize) (ts : List Transfer)
    (h : charQueueMaxNum < (emitted p.bytes).length) :
    queueSegments fifoQueue fifoQueue.xQueueCreate (burstTransfer p :: ts) =
      .noise ((emitted p.bytes).take charQueueMaxNum) ::
        queueSegments fifoQueue fifoQueue.xQueueCreate ts := by
  have hkept : (fifoQueue.contents fifoQueue.xQueueCreate).kept
      ((burstTransfer p).ticks.filterMap UartTick.queueTick) =
        (emitted p.bytes).take charQueueMaxNum := kept_burst .empty _
  have hleft : charQueueLeft fifoQueue fifoQueue.xQueueCreate (burstTransfer p).ticks =
      fifoQueue.xQueueCreate :=
    (contents_charQueueLeft fifoQueue _ (burstTransfer p).ticks).trans (left_burst .empty _)
  have hlost : (emitted p.bytes).take charQueueMaxNum ≠ emitted p.bytes := by
    intro hsame
    have hlength := congrArg List.length hsame
    rw [List.length_take] at hlength
    omega
  rw [queueSegments, hkept, hleft]
  exact congrArg (· :: _) (if_neg hlost)

lemma left_burstTransfer (p : Packet moduleBufSize) (ts : List Transfer) :
    fifoQueue.contents (charQueueLeft fifoQueue fifoQueue.xQueueCreate
        ((burstTransfer p :: ts).flatMap Transfer.ticks)) =
      fifoQueue.contents (charQueueLeft fifoQueue fifoQueue.xQueueCreate
        (ts.flatMap Transfer.ticks)) := by
  have hleft : (fifoQueue.contents fifoQueue.xQueueCreate).left
      ((burstTransfer p).ticks.filterMap UartTick.queueTick) =
        fifoQueue.contents fifoQueue.xQueueCreate := left_burst .empty _
  rw [contents_charQueueLeft, contents_charQueueLeft, List.flatMap_cons, List.filterMap_append,
    Fifo.left_append, hleft]

/-- Its frame has two bytes more than the queue has room for. -/
def longPacket : Packet moduleBufSize :=
  ⟨List.replicate 1998 0 ++ [slipEsc], List.append_ne_nil_of_right_ne_nil _ (by decide), by
    rw [List.length_append, List.length_replicate]
    decide⟩

lemma take_emitted_longPacket :
    (emitted longPacket.bytes).take charQueueMaxNum =
        slipEnd :: (List.replicate 1998 0 ++ [slipEsc]) ∧
      charQueueMaxNum < (emitted longPacket.bytes).length := by
  have hlong : (List.replicate 1998 (0 : Byte)).length = 1998 := List.length_replicate
  have hframe := emitted_zeros_esc 1998
  rw [longPacket, hframe]
  generalize List.replicate 1998 (0 : Byte) = w at hlong ⊢
  have hlength : (slipEnd :: (w ++ [slipEsc])).length = charQueueMaxNum := by
    rw [List.length_cons, List.length_append, hlong]
    rfl
  constructor
  · exact List.take_left' hlength
  · rw [List.length_append, hlength]
    decide

/-- The first frame arrives as a burst and loses its last two bytes: what is kept of it ends in a lone
ESC, which takes the second packet with it. The third one is received. -/
theorem overflow_costs_two_frames_witness :
    queueSegments fifoQueue fifoQueue.xQueueCreate
        [burstTransfer longPacket, smallTransfer 1, smallTransfer 2] =
        [.noise (slipEnd :: (List.replicate 1998 0 ++ [slipEsc])), .intact (smallPacket 1),
          .intact (smallPacket 2)] ∧
      [[2, slipEsc]].Sublist
        ((recvPackets (charQueueSource fifoQueue) moduleBufSize
          (Vector.replicate moduleBufSize 0).toList (fifoQueue.xQueueCreate,
            [burstTransfer longPacket, smallTransfer 1, smallTransfer 2].flatMap
              Transfer.ticks)).turns.map Prod.fst) := by
  obtain ⟨hkept, hlong⟩ := take_emitted_longPacket
  have hsegments := queueSegments_burst longPacket [smallTransfer 1, smallTransfer 2] hlong
  rw [hkept] at hsegments
  have hempty := left_burstTransfer longPacket [smallTransfer 1, smallTransfer 2]
  have hsmall : queueSegments fifoQueue fifoQueue.xQueueCreate [smallTransfer 1, smallTransfer 2] =
      [.intact (smallPacket 1), .intact (smallPacket 2)] := rfl
  rw [hsmall] at hsegments
  refine ⟨hsegments, ?_⟩
  have hreceived := (overflow_costs_two_frames fifoQueue
    [burstTransfer longPacket, smallTransfer 1, smallTransfer 2] (Vector.replicate moduleBufSize 0)
    (hempty.trans rfl)).1
  rw [hsegments] at hreceived
  exact hreceived

end EthoSlip
