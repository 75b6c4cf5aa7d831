import EthoSlip.Lib.Channel
import EthoSlip.Lib.Run
import EthoSlip.Model.ModuleTasks
import EthoSlip.Proofs.Checksum

/-!
# Frames on the module's UART

`slip_used` keeps `from_ap_input` out while a reply is sent, but it is set without a look at
`from_ap_input`. The frames stay whole in every run in which it is not set between the test of
`from_ap_input` and the last byte of its frame.
-/

namespace EthoSlip
open Lib

def SlipTask.rest : SlipTask → List Byte
  | .sending rest => rest
  | _ => []

def ApTask.rest : ApTask → List Byte
  | .sending rest => rest
  | _ => []

/-- `from_ap_input` is not between its test and the last byte of its frame. -/
def ApTask.Quiet : ApTask → Prop
  | .waiting => True
  | .entered _ => True
  | .admitted _ => False
  | .sending rest => rest = []

instance : DecidablePred ApTask.Quiet
  | .waiting => isTrue trivial
  | .entered _ => isTrue trivial
  | .admitted _ => isFalse id
  | .sending rest => inferInstanceAs (Decidable (rest = []))

/-- `slip_used` is set only while `from_ap_input` is quiet. -/
def SetsApart (s : UartState) (a : TaskStep) : Prop := a = .slipSetUsed → s.ap.Quiet

instance (s : UartState) (a : TaskStep) : Decidable (SetsApart s a) :=
  inferInstanceAs (Decidable (_ → _))

/-- At most one of the tasks is within its frame. -/
structure Apart (s : UartState) : Prop where
  used : ∀ rest, s.slip = .sending rest → s.slipUsed = true
  quiet : ∀ rest, s.slip = .sending rest → s.ap.Quiet
  pending : Pending sendChars s.written (s.slip.rest ++ s.ap.rest)

lemma ApTask.Quiet.rest {t : ApTask} (h : t.Quiet) : t.rest = [] := by
  cases t with
  | waiting => rfl
  | entered p => rfl
  | admitted p => rfl
  | sending rest => exact h

lemma apart_init : Apart .init := ⟨by simp [UartState.init], by simp [UartState.init], pending_nil⟩

lemma SlipTask.rest_eq_nil {t : SlipTask} (h : ∀ rest, t ≠ .sending rest) : t.rest = [] := by
  cases t with
  | receiving => rfl
  | replying p => rfl
  | sending rest => exact absurd rfl (h rest)

section Steps

variable {s s' : UartState} (hs : Apart s)

include hs

/-- While `from_ap_input` is within its frame the slip task is not sending. -/
lemma Apart.slip_not_sending (hap : ¬s.ap.Quiet) : ∀ rest, s.slip ≠ .sending rest :=
  fun rest hrest => hap (hs.quiet rest hrest)

/-- The slip task goes on without a frame when it has none, or has sent all of it. -/
lemma Apart.slipWithout {t : SlipTask} {used : Bool} (hrest : s.slip.rest = [])
    (ht : ∀ rest, t ≠ .sending rest) : Apart { s with slip := t, slipUsed := used } where
  used := fun rest hsending => absurd hsending (ht rest)
  quiet := fun rest hsending => absurd hsending (ht rest)
  pending := by
    have hpending := hs.pending
    rw [hrest] at hpending
    rw [SlipTask.rest_eq_nil ht]
    exact hpending

/-- So does `from_ap_input`, which is quiet where the slip task is sending. -/
lemma Apart.apWithout {t : ApTask} (hrest : s.ap.rest = []) (ht : t.rest = [])
    (hquiet : ∀ rest, s.slip = .sending rest → t.Quiet) : Apart { s with ap := t } where
  used := hs.used
  quiet := hquiet
  pending := by
    have hpending := hs.pending
    rw [hrest] at hpending
    rw [ht]
    exact hpending

lemma Apart.slipReply {p : List Byte} (h : taskStep s (.slipReply p) = some s') : Apart s' := by
  simp only [taskStep] at h
  split at h
  · rename_i hslip
    cases h
    apply hs.slipWithout
    · rw [hslip]
      rfl
    · exact fun _ => nofun
  · cases h

/-- Nothing is pending when the flag is set, as it is set apart. -/
lemma Apart.slipSetUsed (hap : s.ap.Quiet) (h : taskStep s .slipSetUsed = some s') : Apart s' := by
  simp only [taskStep] at h
  split at h
  · rename_i p hslip
    cases h
    have hpending := hs.pending
    rw [hslip, hap.rest] at hpending
    refine ⟨fun _ _ => rfl, fun _ _ => hap, ?_⟩
    change Pending sendChars s.written (sendChars p ++ s.ap.rest)
    rw [hap.rest, List.append_nil]
    exact Pending.start hpending p
  · cases h

lemma Apart.slipSendChar (h : taskStep s .slipSendChar = some s') : Apart s' := by
  simp only [taskStep] at h
  split at h
  · rename_i c rest hslip
    cases h
    have hpending := hs.pending
    rw [hslip] at hpending
    exact ⟨fun _ _ => hs.used _ hslip, fun _ _ => hs.quiet _ hslip, Pending.write hpending⟩
  · cases h

lemma Apart.slipClearUsed (h : taskStep s .slipClearUsed = some s') : Apart s' := by
  simp only [taskStep] at h
  split at h
  · rename_i hslip
    cases h
    apply hs.slipWithout
    · rw [hslip]
      rfl
    · exact fun _ => nofun
  · cases h

lemma Apart.apInput {p : List Byte} (h : taskStep s (.apInput p) = some s') : Apart s' := by
  simp only [taskStep] at h
  split at h
  · rename_i hap
    cases h
    apply hs.apWithout
    · rw [hap]
      rfl
    · rfl
    · exact fun _ _ => trivial
  · cases h

/-- `from_ap_input` gets past its test only when the slip task is not sending. -/
lemma Apart.apTestUsed (h : taskStep s .apTestUsed = some s') : Apart s' := by
  simp only [taskStep] at h
  split at h
  · rename_i p hap
    cases h
    apply hs.apWithout
    · rw [hap]
      rfl
    · split <;> rfl
    · intro rest hsending
      rw [if_pos (hs.used rest hsending)]
      trivial
  · cases h

lemma Apart.apDrop (h : taskStep s .apDrop = some s') : Apart s' := by
  simp only [taskStep] at h
  split at h
  · rename_i p hap
    cases h
    apply hs.apWithout
    · rw [hap]
      rfl
    · rfl
    · exact fun _ _ => trivial
  · cases h

lemma Apart.apCopy (h : taskStep s .apCopy = some s') : Apart s' := by
  simp only [taskStep] at h
  split at h
  · rename_i p hap
    cases h
    have hslip : ∀ rest, s.slip ≠ .sending rest := by
      apply hs.slip_not_sending
      rw [hap]
      exact id
    have hpending := hs.pending
    rw [hap, SlipTask.rest_eq_nil hslip] at hpending
    refine ⟨hs.used, fun rest hrest => absurd hrest (hslip rest), ?_⟩
    rw [SlipTask.rest_eq_nil hslip]
    exact Pending.start hpending p
  · cases h

lemma Apart.apSendChar (h : taskStep s .apSendChar = some s') : Apart s' := by
  simp only [taskStep] at h
  split at h
  · rename_i c rest hap
    cases h
    have hslip : ∀ rest, s.slip ≠ .sending rest := by
      apply hs.slip_not_sending
      rw [hap]
      exact List.cons_ne_nil c rest
    have hpending := hs.pending
    rw [hap, SlipTask.rest_eq_nil hslip] at hpending
    refine ⟨hs.used, fun rest hrest => absurd hrest (hslip rest), ?_⟩
    rw [SlipTask.rest_eq_nil hslip]
    exact Pending.write hpending
  · cases h

lemma Apart.apReturn (h : taskStep s .apReturn = some s') : Apart s' := by
  simp only [taskStep] at h
  split at h
  · rename_i hap
    cases h
    apply hs.apWithout
    · rw [hap]
      rfl
    · rfl
    · exact fun _ _ => trivial
  · cases h

end Steps

lemma apart_step {s s' : UartState} {a : TaskStep} (hs : Apart s) (hG : SetsApart s a)
    (h : taskStep s a = some s') : Apart s' := by
  cases a with
  | slipReply p => exact hs.slipReply h
  | slipSetUsed => exact hs.slipSetUsed (hG rfl) h
  | slipSendChar => exact hs.slipSendChar h
  | slipClearUsed => exact hs.slipClearUsed h
  | apInput p => exact hs.apInput h
  | apTestUsed => exact hs.apTestUsed h
  | apDrop => exact hs.apDrop h
  | apCopy => exact hs.apCopy h
  | apSendChar => exact hs.apSendChar h
  | apReturn => exact hs.apReturn h

/-- Frames stay whole in every run in which `slip_used` is set only while `from_ap_input` is not
between its test and the last byte of its frame. -/
theorem frames_not_interleaved (steps : List TaskStep) (s : UartState)
    (hsteps : Guarded taskStep SetsApart .init steps) (hrun : run taskStep .init steps = some s) :
    Framed sendChars s.written := by
  have hs : Apart s := guarded_run_invariant (fun _ _ _ => apart_step) apart_init hsteps hrun
  exact hs.pending.framed

lemma sendChars_eq (p : List Byte) : sendChars p = slipCode.frame p := by
  rw [sendChars, sendPacket_direct]
  rfl

/-- Between frames only an END can follow; `inside` tells whether a frame is open. -/
def framesWhole : Bool → List Byte → Bool
  | _, [] => true
  | false, c :: ch => c = slipEnd && framesWhole true ch
  | true, c :: ch => framesWhole (c ≠ slipEnd) ch

lemma framesWhole_prefix {ch ch' : List Byte} (h : ch <+: ch') (inside : Bool)
    (hch' : framesWhole inside ch') : framesWhole inside ch := by
  obtain ⟨t, rfl⟩ := h
  induction ch generalizing inside with
  | nil => cases inside <;> rfl
  | cons c ch ih =>
    cases inside with
    | false =>
      simp only [List.cons_append, framesWhole, Bool.and_eq_true] at hch' ⊢
      exact ⟨hch'.1, ih true hch'.2⟩
    | true => exact ih _ hch'

lemma framesWhole_body {xs : List Byte} (h : slipEnd ∉ xs) (ch : List Byte) :
    framesWhole true (xs ++ ch) = framesWhole true ch := by
  induction xs with
  | nil => rfl
  | cons c xs ih =>
    have hc : c ≠ slipEnd := fun hc => h (by simp [hc])
    have hxs : slipEnd ∉ xs := fun hxs => h (by simp [hxs])
    rw [List.cons_append, framesWhole, decide_eq_true hc, ih hxs]

lemma framesWhole_sendChars (p ch : List Byte) :
    framesWhole false (sendChars p ++ ch) = framesWhole false ch := by
  have hframe : sendChars p ++ ch = slipEnd :: (slipCode.stuff p ++ slipEnd :: ch) := by
    rw [sendChars_eq]
    simp [StuffingCode.frame]
  rw [hframe, framesWhole, framesWhole_body (end_not_mem_stuff p)]
  rfl

lemma framesWhole_of_framed {ch : List Byte} (h : Framed sendChars ch) : framesWhole false ch := by
  obtain ⟨done, p, begun, rfl, hbegun⟩ := h
  induction done with
  | nil =>
    apply framesWhole_prefix hbegun
    rw [← List.append_nil (sendChars p), framesWhole_sendChars]
    rfl
  | cons q done ih =>
    rw [List.flatMap_cons, List.append_assoc, framesWhole_sendChars]
    exact ih

/-! A frame from the access point, and the reply with the address 00:e0:4c:87:00:00. -/

def apFrame : List Byte :=
  sealPayload [0x02, 0x00, 0x00, 0x00, 0x00, 0x01, 0x00, 0xe0, 0x4c, 0x87, 0x00, 0x00, 0x08, 0x00]

def hwaddrReply : List Byte :=
  sealPayload [0xff, 0xff, 0xff, 0xff, 0xff, 0xff, 0x00, 0xe0, 0x4c, 0x87, 0x00, 0x00, 0xff, 0xff,
    0x82, 0x01]

/-- The reply is under way when a frame arrives and is dropped. -/
def replyTurn : List TaskStep :=
  [.slipReply hwaddrReply, .slipSetUsed, .apInput apFrame, .slipSendChar, .apTestUsed]

/-- The next frame finds the flag clear, and a second request is answered while it is sent. -/
def apTurn : List TaskStep :=
  [.apInput apFrame, .slipSendChar, .slipSendChar, .slipClearUsed, .apTestUsed, .apCopy,
    .slipReply hwaddrReply, .apSendChar]

def takingTurns : List TaskStep :=
  replyTurn ++ List.replicate 17 TaskStep.slipSendChar ++ apTurn

theorem frames_not_interleaved_witness :
    ∃ s, run taskStep .init takingTurns = some s ∧ Framed sendChars s.written := by
  have hrun : (run taskStep .init takingTurns).isSome := by decide +kernel
  obtain ⟨s, hs⟩ := Option.isSome_iff_exists.mp hrun
  exact ⟨s, hs, frames_not_interleaved takingTurns s (by decide +kernel) hs⟩

/-- `from_ap_input` has sent two bytes when the slip task preempts it. -/
def preempted : List TaskStep :=
  [.slipReply hwaddrReply, .apInput apFrame, .apTestUsed, .apCopy, .apSendChar, .apSendChar,
    .slipSetUsed, .slipSendChar, .slipSendChar]

theorem frames_interleaved :
    ¬∀ (steps : List TaskStep) (s : UartState), run taskStep .init steps = some s →
      Framed sendChars s.written := by
  intro h
  have hrun : (run taskStep .init preempted).map UartState.written =
      some [slipEnd, 0x02, slipEnd, 0xff] := by decide +kernel
  obtain ⟨s, hs, hwritten⟩ := Option.map_eq_some_iff.mp hrun
  have hwhole := framesWhole_of_framed (h preempted s hs)
  rw [hwritten] at hwhole
  exact absurd hwhole (by decide)

end EthoSlip
