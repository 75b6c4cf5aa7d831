import EthoSlip.Model.ModuleUart
import EthoSlip.Proofs.Delivery
import EthoSlip.Proofs.UartSharing

/-!
# What the PC receives from the two senders

The bytes that both tasks of the module put on the UART, as the PC receives them: while
`slip_used` is set apart from the frames of `from_ap_input`, every frame that has been sent to its
end is received as the packet of its task, and nothing else is.
-/

namespace EthoSlip
open Lib

namespace UartLog

end UartLog

/-- What is written are the frames of the packets that the log calls sent, and of the packet that a
task is sending all but what the task has left. -/
structure Reported (w : UartLog) : Prop where
  apart : Apart w.state
  whole : w.state.slip.rest = [] → w.state.ap.rest = [] → w.state.written = w.sentBytes
  slip : w.state.slip.rest ≠ [] →
    Sending (fun m : UartTask × List Byte => sendChars m.2) w.state.written w.sent
      (.slip, w.slipPacket) w.state.slip.rest
  ap : w.state.ap.rest ≠ [] →
    Sending (fun m : UartTask × List Byte => sendChars m.2) w.state.written w.sent
      (.ap, w.apPacket) w.state.ap.rest

/-- A step that neither starts a frame nor writes keeps the report. -/
lemma Reported.keep {w w' : UartLog} (h : Reported w) (hapart : Apart w'.state)
    (hwritten : w'.state.written = w.state.written) (hsent : w'.sent = w.sent)
    (hslip : w'.state.slip.rest = w.state.slip.rest) (hap : w'.state.ap.rest = w.state.ap.rest)
    (hslipPacket : w'.slipPacket = w.slipPacket) (hapPacket : w'.apPacket = w.apPacket) :
    Reported w' where
  apart := hapart
  whole := by
    rw [hslip, hap, hwritten, UartLog.sentBytes, hsent]
    exact h.whole
  slip := by
    rw [hslip, hwritten, hsent, hslipPacket]
    exact h.slip
  ap := by
    rw [hap, hwritten, hsent, hapPacket]
    exact h.ap

/-- The steps that start a frame or write. -/
def TaskStep.Sends : TaskStep → Prop
  | .slipSetUsed | .slipSendChar | .apCopy | .apSendChar => True
  | _ => False

lemma taskStep_quiet {s s' : UartState} {a : TaskStep} (ha : ¬a.Sends)
    (h : taskStep s a = some s') :
    s'.written = s.written ∧ s'.slip.rest = s.slip.rest ∧ s'.ap.rest = s.ap.rest := by
  cases a with
  | slipReply p =>
    simp only [taskStep] at h
    split at h
    · rename_i hslip
      cases h
      exact ⟨rfl, by rw [hslip]; rfl, rfl⟩
    · cases h
  | slipSetUsed => exact absurd trivial ha
  | slipSendChar => exact absurd trivial ha
  | slipClearUsed =>
    simp only [taskStep] at h
    split at h
    · rename_i hslip
      cases h
      exact ⟨rfl, by rw [hslip]; rfl, rfl⟩
    · cases h
  | apInput p =>
    simp only [taskStep] at h
    split at h
    · rename_i hap
      cases h
      exact ⟨rfl, rfl, by rw [hap]; rfl⟩
    · cases h
  | apTestUsed =>
    simp only [taskStep] at h
    split at h
    · rename_i p hap
      cases h
      refine ⟨rfl, rfl, ?_⟩
      rw [hap]
      change (if s.slipUsed = true then ApTask.waiting else ApTask.admitted p).rest = []
      split_ifs
      · rfl
      · rfl
    · cases h
  | apDrop =>
    simp only [taskStep] at h
    split at h
    · rename_i hap
      cases h
      exact ⟨rfl, rfl, by rw [hap]; rfl⟩
    · cases h
  | apCopy => exact absurd trivial ha
  | apSendChar => exact absurd trivial ha
  | apReturn =>
    simp only [taskStep] at h
    split at h
    · rename_i hap
      cases h
      exact ⟨rfl, rfl, by rw [hap]; rfl⟩
    · cases h

lemma Reported.quiet {w w' : UartLog} {a : TaskStep} (h : Reported w) (ha : ¬a.Sends)
    (hapart : Apart w'.state) (hstep : w.step a = some w') : Reported w' := by
  obtain ⟨s, hs, rfl⟩ := Option.map_eq_some_iff.mp hstep
  obtain ⟨hwritten, hslip, hap⟩ := taskStep_quiet ha hs
  cases a with
  | slipSetUsed => exact absurd trivial ha
  | slipSendChar => exact absurd trivial ha
  | apCopy => exact absurd trivial ha
  | apSendChar => exact absurd trivial ha
  | _ => exact h.keep hapart hwritten (List.append_nil _) hslip hap rfl rfl

section Sends

variable {w w' : UartLog} (h : Reported w) (hapart : Apart w'.state)

include h hapart

/-- The slip task has no frame when it sets the flag, and `from_ap_input` none that is begun. -/
lemma Reported.slipSetUsed (hap : w.state.ap.Quiet) (hstep : w.step .slipSetUsed = some w') :
    Reported w' := by
  obtain ⟨s, hs, rfl⟩ := Option.map_eq_some_iff.mp hstep
  simp only [taskStep] at hs
  split at hs
  · rename_i p hslip
    cases hs
    have hwhole : w.state.written = w.sentBytes := by
      apply h.whole
      · rw [hslip]
        rfl
      · exact hap.rest
    have hpacket : w.startedSlip .slipSetUsed = p := by rw [UartLog.startedSlip, hslip]
    constructor
    · exact hapart
    · intro hrest
      exact absurd hrest (by rw [SlipTask.rest, sendChars_eq]; exact List.cons_ne_nil _ _)
    · intro _
      simp only [UartLog.completed, List.append_nil, hpacket, hwhole]
      exact sending_start w.sent (.slip, p)
    · intro hrest
      exact absurd hap.rest hrest
  · cases hs

lemma Reported.apCopy (hstep : w.step .apCopy = some w') : Reported w' := by
  obtain ⟨s, hs, rfl⟩ := Option.map_eq_some_iff.mp hstep
  simp only [taskStep] at hs
  split at hs
  · rename_i p hap
    cases hs
    have hslip : w.state.slip.rest = [] := by
      apply SlipTask.rest_eq_nil
      apply h.apart.slip_not_sending
      rw [hap]
      exact id
    have hwhole : w.state.written = w.sentBytes := by
      apply h.whole hslip
      rw [hap]
      rfl
    have hpacket : w.startedAp .apCopy = p := by rw [UartLog.startedAp, hap]
    constructor
    · exact hapart
    · intro _ hrest
      exact absurd hrest (by rw [ApTask.rest, sendChars_eq]; exact List.cons_ne_nil _ _)
    · intro hrest
      exact absurd hslip hrest
    · intro _
      simp only [UartLog.completed, List.append_nil, hpacket, hwhole]
      exact sending_start w.sent (.ap, p)
  · cases hs

lemma Reported.slipSendChar (hstep : w.step .slipSendChar = some w') : Reported w' := by
  obtain ⟨s, hs, rfl⟩ := Option.map_eq_some_iff.mp hstep
  simp only [taskStep] at hs
  split at hs
  · rename_i c rest hslip
    cases hs
    have hquiet : w.state.ap.rest = [] := (h.apart.quiet _ hslip).rest
    have hsending := h.slip (by rw [hslip]; exact List.cons_ne_nil c rest)
    rw [hslip] at hsending
    have hwritten := Sending.write hsending
    by_cases hrest : rest = []
    · subst hrest
      constructor
      · exact hapart
      · intro _ _
        simp only [UartLog.sentBytes, UartLog.completed, if_true]
        exact hwritten.finish
      · exact fun hne => absurd rfl hne
      · exact fun hne => absurd hquiet hne
    · have hcompleted : ¬SlipTask.sending rest = .sending [] := by simpa using hrest
      constructor
      · exact hapart
      · exact fun hnil => absurd hnil hrest
      · intro _
        simp only [UartLog.completed, hcompleted, if_false, List.append_nil]
        exact hwritten
      · exact fun hne => absurd hquiet hne
  · cases hs

lemma Reported.apSendChar (hstep : w.step .apSendChar = some w') : Reported w' := by
  obtain ⟨s, hs, rfl⟩ := Option.map_eq_some_iff.mp hstep
  simp only [taskStep] at hs
  split at hs
  · rename_i c rest hap
    cases hs
    have hslip : w.state.slip.rest = [] := by
      apply SlipTask.rest_eq_nil
      apply h.apart.slip_not_sending
      rw [hap]
      exact List.cons_ne_nil c rest
    have hsending := h.ap (by rw [hap]; exact List.cons_ne_nil c rest)
    rw [hap] at hsending
    have hwritten := Sending.write hsending
    by_cases hrest : rest = []
    · subst hrest
      constructor
      · exact hapart
      · intro _ _
        simp only [UartLog.sentBytes, UartLog.completed, if_true]
        exact hwritten.finish
      · exact fun hne => absurd hslip hne
      · exact fun hne => absurd rfl hne
    · have hcompleted : ¬ApTask.sending rest = .sending [] := by simpa using hrest
      constructor
      · exact hapart
      · exact fun _ hnil => absurd hnil hrest
      · exact fun hne => absurd hslip hne
      · intro _
        simp only [UartLog.completed, hcompleted, if_false, List.append_nil]
        exact hwritten
  · cases hs

end Sends

def TaskStep.reply? : TaskStep → Option (List Byte)
  | .slipReply p => some p
  | _ => none

def TaskStep.input? : TaskStep → Option (List Byte)
  | .apInput p => some p
  | _ => none

/-- Every reply is sent in its turn, and every packet of the access point is sent in its turn,
given up, or under way. -/
structure Accounted (w : UartLog) : Prop where
  replies : w.steps.filterMap TaskStep.reply? = UartLog.ofTask .slip w.sent ++ w.slipUnderWay
  inOrder : (UartLog.ofTask .ap w.sent ++ w.apUnderWay).Sublist (w.steps.filterMap TaskStep.input?)
  inputs : (UartLog.ofTask .ap w.sent ++ w.apUnderWay ++ w.refused).Perm
    (w.steps.filterMap TaskStep.input?)

namespace UartLog

end UartLog

section Flow

variable {w w' : UartLog} {a : TaskStep}

end Flow

lemma pcAccepted_eq (slipOutBuffer : Vector Byte pcBufSize) (w : List Byte) :
    pcAccepted slipOutBuffer w =
      (slipCode.frames .fresh w).filterMap (fun f => payloadOf (f.take pcBufSize)) := by
  obtain ⟨q, -, hrun⟩ := serve_line pcBufSize (by decide) (checkPacket_looksAt pcBufSize) ()
    slipOutBuffer.toList (by simp) w
  rw [pcAccepted, hrun, handleFrames_map, slipFrames, List.map_map, StuffingCode.frames,
    List.filterMap_map, List.filterMap_map]
  rfl

/-- The frames that can be made out in what is written are those that are written to their end. -/
lemma Reported.frames {w : UartLog} (h : Reported w) :
    slipCode.frames .fresh w.state.written = (w.sent.map Prod.snd).filter (fun p => p ≠ []) := by
  have hbytes : w.sentBytes = (w.sent.map Prod.snd).flatMap slipCode.frame := by
    rw [UartLog.sentBytes, List.flatMap_map]
    apply List.flatMap_congr
    intro m _
    exact sendChars_eq m.2
  have hwhole := slipCode.frames_flatMap_frame (w.sent.map Prod.snd)
  by_cases hslip : w.state.slip.rest = []
  · by_cases hap : w.state.ap.rest = []
    · have hnone := hwhole []
      rw [List.append_nil, ← hbytes, StuffingCode.frames_nil, List.append_nil] at hnone
      rw [h.whole hslip hap, hnone]
    · obtain ⟨begun, hwritten, hbegun⟩ := h.ap hap
      have hopen := slipCode.frames_begun (hbegun.trans (sendChars_eq _)) hap
      change w.state.written = w.sentBytes ++ begun at hwritten
      rw [hwritten, hbytes, hwhole, hopen, List.append_nil]
  · obtain ⟨begun, hwritten, hbegun⟩ := h.slip hslip
    have hopen := slipCode.frames_begun (hbegun.trans (sendChars_eq _)) hslip
    change w.state.written = w.sentBytes ++ begun at hwritten
    rw [hwritten, hbytes, hwhole, hopen, List.append_nil]

end EthoSlip
