import EthoSlip.Proofs.Delivery

/-!
# Frames that do not fit

A frame that is too long for the transmit buffer reaches the line without its end. The opening END
of the next frame then completes it, unless the cut fell between an ESC and its partner: in that
case the opening END is taken for the partner and the next frame is lost with the cut one. Both
buffers truncate silently, so what the module accepts is a payload that was sent or, where the
checksum happens to fit at the cut, the first 1998 bytes of one.
-/

namespace EthoSlip
open Lib

/-- The transmit buffer is full right behind an ESC: the bytes before an END or ESC of the payload
take 3998 bytes, which with the opening END and the ESC makes 4000. -/
def SplitsEscape (payload : List Byte) : Prop :=
  ∃ a c b, payload = a ++ c :: b ∧ (c = slipEnd ∨ c = slipEsc) ∧ encodedLength a = 3998

lemma splitsEscape_iff (q : List Byte) :
    SplitsEscape q ↔ slipCode.SplitsPair (sealPayload q) 3999 := by
  constructor
  · rintro ⟨a, c, b, rfl, hc, hlen⟩
    exact ⟨a, c, b ++ trailer (a ++ c :: b), by simp [sealPayload], hc, by rw [length_stuff, hlen]⟩
  · rintro ⟨a, c, b, hsplit, hc, hlen⟩
    have hlen' : encodedLength a = 3998 := by
      rw [← length_stuff]
      omega
    have htrailer : c ∉ trailer q := fun hmem => trailer_not_reserved q c hmem hc
    -- the trailer holds no reserved byte, so that `c` lies in the payload
    rcases List.append_eq_append_iff.mp hsplit with ⟨a', -, htr⟩ | ⟨c', rfl, hcb⟩
    · exact absurd (by rw [htr]; simp) htrailer
    · cases c' with
      | nil => exact absurd (by rw [List.nil_append] at hcb; rw [← hcb]; simp) htrailer
      | cons c₁ b' =>
        rw [List.cons_append, List.cons.injEq] at hcb
        exact ⟨a, c₁, b', rfl, hcb.1 ▸ hc, hlen'⟩

/-- How a frame ends on the line. -/
inductive LineEnd (q : List Byte) : Prop
  | whole (h : lineFrame q = slipCode.frame (sealPayload q)) (hno : ¬SplitsEscape q)
  | cut (a b : List Byte) (hsplit : sealPayload q = a ++ b)
      (h : lineFrame q = slipEnd :: slipCode.stuff a) (hlong : 1998 < q.length)
      (ha : 2000 ≤ a.length) (hno : ¬SplitsEscape q)
  | split (a b : List Byte) (c : Byte) (hsplit : q = a ++ c :: b)
      (h : lineFrame q = slipEnd :: (slipCode.stuff a ++ [slipEsc])) (hlong : 1998 < q.length)
      (ha : 1999 ≤ a.length) (hyes : SplitsEscape q)

lemma lineFrame_of_long {q : List Byte} (h : 4000 < (slipCode.stuff q).length + 4) :
    lineFrame q = slipEnd :: (slipCode.stuff (sealPayload q)).take 3999 ∧
      3999 ≤ (slipCode.stuff (sealPayload q)).length ∧ 1998 < q.length := by
  have htwo := slipCode.stuff_length_le q
  have hseal : (slipCode.stuff (sealPayload q)).length = (slipCode.stuff q).length + 2 := by
    rw [sealPayload, StuffingCode.stuff_append, stuff_trailer]
    simp
  refine ⟨?_, by omega, by omega⟩
  rw [lineFrame, StuffingCode.frame, queueMaxNum, List.take_succ_cons, slipCode_delim,
    List.take_append_of_le_length (by omega)]

lemma SplitsEscape.long {q : List Byte} (h : SplitsEscape q) :
    4000 < (slipCode.stuff q).length + 4 := by
  obtain ⟨a, c, b, rfl, hc, ha⟩ := h
  have hres : slipCode.Reserved c := hc
  rw [StuffingCode.stuff_append, StuffingCode.stuff_cons, StuffingCode.stuffSymbol, if_pos hres]
  simp only [List.length_append, length_stuff a, ha, List.length_cons]
  omega

lemma lineFrame_of_split (a b : List Byte) (c : Byte) (hc : c = slipEnd ∨ c = slipEsc)
    (ha : encodedLength a = 3998) :
    lineFrame (a ++ c :: b) = slipEnd :: (slipCode.stuff a ++ [slipEsc]) := by
  have hs : SplitsEscape (a ++ c :: b) := ⟨a, c, b, rfl, hc, ha⟩
  have hseal : sealPayload (a ++ c :: b) = a ++ c :: (b ++ trailer (a ++ c :: b)) := by
    simp [sealPayload]
  have hlen : 3999 = (slipCode.stuff a).length + 1 := by rw [length_stuff, ha]
  rw [(lineFrame_of_long hs.long).1, hseal, hlen, slipCode.take_stuff_of_splitsPair a _ c hc,
    slipCode_esc]

lemma lineEnd (q : List Byte) : LineEnd q := by
  by_cases hs : SplitsEscape q
  · obtain ⟨-, -, hlong⟩ := lineFrame_of_long hs.long
    obtain ⟨a, c, b, rfl, hc, ha⟩ := hs
    have ha2 := slipCode.stuff_length_le a
    rw [length_stuff, ha] at ha2
    exact .split a b c rfl (lineFrame_of_split a b c hc ha) hlong (by omega) ⟨a, c, b, rfl, hc, ha⟩
  · by_cases hfull : (slipCode.stuff q).length + 4 ≤ 4000
    · have hlen := frame_sealPayload_length q
      exact .whole (List.take_of_length_le (by simp only [queueMaxNum]; omega)) hs
    · obtain ⟨hcut, hle, hlong⟩ := lineFrame_of_long (not_le.mp hfull)
      rcases slipCode.take_stuff (sealPayload q) 3999 hle with h | ⟨a, b, hab, ha, htake⟩
      · exact absurd ((splitsEscape_iff q).mpr h) hs
      · have ha2 := slipCode.stuff_length_le a
        exact .cut a b hab (by rw [hcut, htake]) hlong (by omega) hs

lemma after_cut (r : Receiver Byte) (a : List Byte) :
    slipCode.after r (slipEnd :: slipCode.stuff a) = ⟨slipCode.opened r ++ a, false⟩ := by
  have h := slipCode.after_stuff (slipCode.opened r) a []
  rw [List.append_nil, slipCode.after_nil] at h
  exact (slipCode.after_opened r _).trans h

lemma after_split (r : Receiver Byte) (a : List Byte) :
    slipCode.after r (slipEnd :: (slipCode.stuff a ++ [slipEsc])) =
      ⟨slipCode.opened r ++ a, true⟩ := by
  have h := slipCode.after_stuff (slipCode.opened r) a [slipEsc]
  exact (slipCode.after_opened r _).trans (h.trans (slipCode.after_esc _ []))

lemma frames_cut (r : Receiver Byte) (a : List Byte) :
    slipCode.frames r (slipEnd :: slipCode.stuff a) = StuffingCode.flushed r := by
  have h := slipCode.feed_stuff (slipCode.opened r) a []
  rw [List.append_nil, slipCode.feed_nil] at h
  have hopen := slipCode.frames_opened r (slipCode.stuff a)
  rw [slipCode_delim, StuffingCode.frames, StuffingCode.frames, h, List.map_nil,
    List.append_nil] at hopen
  exact hopen

lemma frames_split (r : Receiver Byte) (a : List Byte) :
    slipCode.frames r (slipEnd :: (slipCode.stuff a ++ [slipEsc])) = StuffingCode.flushed r := by
  have h := slipCode.frames_append r (slipEnd :: slipCode.stuff a) [slipEsc]
  have hesc : slipCode.frames ⟨slipCode.opened r ++ a, false⟩ [slipEsc] = [] :=
    congrArg (List.map Prod.fst) (slipCode.feed_esc _ [])
  rw [frames_cut, after_cut, hesc, List.append_nil] at h
  exact h

/-- The receiver waits for the byte after an ESC exactly when the frame before was cut there. -/
lemma escaped_after_lineFrame (r : Receiver Byte) (q : List Byte) :
    (slipCode.after r (lineFrame q)).escaped = true ↔ SplitsEscape q := by
  rcases lineEnd q with ⟨h, hno⟩ | ⟨a, b, -, h, -, -, hno⟩ | ⟨a, b, c, -, h, -, -, hyes⟩
  · rw [h, slipCode.after_frame]
    simp [Receiver.fresh, hno]
  · rw [h, after_cut]
    simp [hno]
  · rw [h, after_split]
    simp [hyes]

lemma unread_lineOf_of_fresh (qs : List (List Byte)) (q : List Byte)
    (h : (slipCode.after .fresh (lineOf (qs ++ [q]))).data = []) :
    slipCode.unread .fresh (lineOf (qs ++ [q])) = [] := by
  have hsplit : lineOf (qs ++ [q]) = lineOf qs ++ lineFrame q := by simp
  rw [hsplit] at h ⊢
  rw [slipCode.after_append] at h
  rcases lineEnd q with ⟨hq, -⟩ | ⟨a, b, -, hq, -, ha, -⟩ | ⟨a, b, c, -, hq, -, ha, -⟩
  · rw [StuffingCode.unread, slipCode.feed_append, hq]
    obtain ⟨d, e⟩ := slipCode.after .fresh (lineOf qs)
    have hclose (l : List (List Byte × List Byte)) (x : List Byte) :
        ((l ++ [(x, ([] : List Byte))]).getLast?.map Prod.snd).getD
          (lineOf qs ++ slipCode.frame (sealPayload q)) = [] := by simp
    cases e with
    | true =>
      have hf := slipCode.feed_frame_escaped d (sealPayload q) []
      rw [List.append_nil, slipCode.feed_nil] at hf
      rw [hf]
      exact hclose _ _
    | false =>
      have hf := slipCode.feed_frame d (sealPayload q) [] (sealPayload_ne_nil q)
      rw [List.append_nil, slipCode.feed_nil] at hf
      rw [hf, ← List.append_assoc]
      exact hclose _ _
  · rw [hq, after_cut] at h
    have := congrArg List.length h
    simp only [List.length_append, List.length_nil] at this
    omega
  · rw [hq, after_split] at h
    have := congrArg List.length h
    simp only [List.length_append, List.length_nil] at this
    omega

/-- The module accepts `q`, sent between `pre` and `post`, from bytes of its own frame: the call of
`recv_packet` that returns it begins within the bytes of that frame and ends at their end. -/
def AcceptedInPlace (slipOutBuffer : Vector Byte moduleBufSize) (pre : List (List Byte))
    (q : List Byte) (post : List (List Byte)) : Prop :=
  ∃ before after,
    (moduleRun slipOutBuffer (sentLine (pre ++ q :: post))).turns =
      before ++ (some q, sentLine post) :: after ∧
    ((before.getLast?.map Prod.snd).getD (sentLine (pre ++ q :: post))).length ≤
      (sentLine (q :: post)).length

lemma prefix_unique {β : Type} (A B A' B' : List (β × List Byte)) (x y : β × List Byte)
    (h : A ++ x :: B = A' ++ y :: B') (hxy : x.2 = y.2)
    (hA : ∀ z ∈ A, x.2.length < z.2.length) (hB : ∀ z ∈ B, z.2.length < x.2.length) : A' = A := by
  rcases List.append_eq_append_iff.mp h with ⟨c, rfl, hc⟩ | ⟨c, rfl, hc⟩
  · cases c with
    | nil => rw [List.append_nil]
    | cons z c =>
      rw [List.cons_append, List.cons.injEq] at hc
      have := hB y (by rw [hc.2]; simp)
      rw [hxy] at this
      exact absurd this (lt_irrefl _)
  · cases c with
    | nil => rw [List.append_nil]
    | cons z c =>
      rw [List.cons_append, List.cons.injEq] at hc
      have := hA y (by rw [hc.1]; simp)
      rw [hxy] at this
      exact absurd this (lt_irrefl _)

section InPlace

variable (buf : Vector Byte moduleBufSize) (pre : List (List Byte)) (q : List Byte)
  (post : List (List Byte))

def moduleTurn (f : List Byte × List Byte) : Option (List Byte) × List Byte :=
  (payloadOf (f.1.take moduleBufSize), f.2)

/-- The turns before `q`, as they stand in the whole run. -/
def turnsBefore (tail : List Byte) : List (Option (List Byte) × List Byte) :=
  ((slipCode.feed .fresh (lineOf pre)).map (fun f => (f.1, f.2 ++ tail))).map moduleTurn

lemma start_turnsBefore (tail : List Byte) :
    ((turnsBefore pre tail).getLast?.map Prod.snd).getD (lineOf pre ++ tail) =
      slipCode.unread .fresh (lineOf pre) ++ tail := by
  rw [turnsBefore, StuffingCode.unread, List.getLast?_map, List.getLast?_map]
  cases (slipCode.feed .fresh (lineOf pre)).getLast? <;> rfl

lemma turns_split (hq : FitsModule q) :
    (moduleRun buf (lineOf (pre ++ q :: post))).turns =
      turnsBefore pre (lineFrame q ++ lineOf post) ++
        (slipCode.feed (slipCode.after .fresh (lineOf pre))
          (slipCode.frame (sealPayload q) ++ lineOf post)).map moduleTurn := by
  rw [moduleRun_turns, lineOf_append, lineOf_cons, slipCode.feed_append, List.map_append,
    lineFrame_of_fits hq]
  rfl

lemma acceptedInPlace_of_not_escaped (hq : FitsModule q)
    (hline : sentLine (pre ++ q :: post) = lineOf (pre ++ q :: post))
    (hline' : sentLine (q :: post) = lineOf (q :: post)) (hpost : sentLine post = lineOf post)
    (hr : (slipCode.after .fresh (lineOf pre)).escaped = false) :
    AcceptedInPlace buf pre q post := by
  obtain ⟨d, hd⟩ : ∃ d, slipCode.after .fresh (lineOf pre) = ⟨d, false⟩ := ⟨_, Receiver.ext rfl hr⟩
  have hfeed := slipCode.feed_frame d (sealPayload q) (lineOf post) (sealPayload_ne_nil q)
  have hturns := turns_split buf pre q post hq
  have hown : moduleTurn (sealPayload q, lineOf post) = (some q, lineOf post) := by
    rw [moduleTurn, take_sealPayload_of_fits hq, payloadOf_sealPayload]
  rw [hd, hfeed, List.map_append, List.map_cons, hown, ← List.append_assoc] at hturns
  refine ⟨_, _, by rw [hline, hpost, hturns], ?_⟩
  rw [hline, hline', lineOf_append, lineOf_cons]
  by_cases hnil : d = []
  · -- nothing was open: the call begins at the opening END
    have hunread : slipCode.unread .fresh (lineOf pre) = [] := by
      rcases List.eq_nil_or_concat pre with rfl | ⟨qs, P, rfl⟩
      · rfl
      · rw [List.concat_eq_append] at hd ⊢
        exact unread_lineOf_of_fresh qs P (by rw [hd]; exact hnil)
    rw [if_pos hnil, List.map_nil, List.append_nil, start_turnsBefore, hunread, List.nil_append]
  · -- the opening END completed what was open: the call begins behind it
    rw [if_neg hnil, List.map_singleton, List.getLast?_concat, lineFrame_of_fits hq]
    simp [moduleTurn, StuffingCode.frame]

lemma not_acceptedInPlace_of_escaped (hq : FitsModule q)
    (hline : sentLine (pre ++ q :: post) = lineOf (pre ++ q :: post))
    (hline' : sentLine (q :: post) = lineOf (q :: post)) (hpost : sentLine post = lineOf post)
    (hr : (slipCode.after .fresh (lineOf pre)).escaped = true) :
    ¬AcceptedInPlace buf pre q post := by
  rintro ⟨before, after, hsplit, hstart⟩
  obtain ⟨d, hd⟩ : ∃ d, slipCode.after .fresh (lineOf pre) = ⟨d, true⟩ := ⟨_, Receiver.ext rfl hr⟩
  have hturns := turns_split buf pre q post hq
  rw [hd, slipCode.feed_frame_escaped, List.map_cons] at hturns
  rw [hline, hpost, hturns] at hsplit
  have hbefore : before = turnsBefore pre (lineFrame q ++ lineOf post) := by
    refine prefix_unique _ _ _ _ _ _ hsplit rfl ?_ ?_
    · intro z hz
      simp only [turnsBefore, List.map_map, List.mem_map] at hz
      obtain ⟨f, -, rfl⟩ := hz
      simp [moduleTurn, lineFrame_of_fits hq, StuffingCode.frame]
      omega
    · intro z hz
      obtain ⟨f, hf, rfl⟩ := List.mem_map.mp hz
      exact slipCode.feed_length_lt .fresh (lineOf post) f hf
  rw [hbefore, hline, hline', lineOf_append, lineOf_cons, start_turnsBefore] at hstart
  have hunread : slipCode.unread .fresh (lineOf pre) = [] := by
    rw [List.length_append] at hstart
    exact List.length_eq_zero_iff.mp (by omega)
  have hfresh := slipCode.after_unread (lineOf pre)
  rw [hunread, hd] at hfresh
  exact absurd (congrArg Receiver.escaped hfresh) (by simp [Receiver.fresh])

end InPlace

lemma escaped_after_lineOf (pre : List (List Byte)) :
    (slipCode.after .fresh (lineOf pre)).escaped = true ↔
      ∃ pre' P, pre = pre' ++ [P] ∧ SplitsEscape P := by
  rcases List.eq_nil_or_concat pre with rfl | ⟨qs, P, rfl⟩
  · simp [Receiver.fresh]
  · rw [List.concat_eq_append, lineOf_append, slipCode.after_append, lineOf_cons, lineOf_nil,
      List.append_nil, escaped_after_lineFrame]
    constructor
    · exact fun h => ⟨qs, P, rfl, h⟩
    · rintro ⟨pre', P', heq, h⟩
      obtain ⟨-, hP⟩ := List.append_inj' heq rfl
      rw [List.cons.injEq] at hP
      exact hP.1 ▸ h

/-- No payload that fits directly follows one that is cut behind an ESC. -/
def NoSplitBefore (payloads : List (List Byte)) : Prop :=
  ∀ pre P q post, payloads = pre ++ P :: q :: post → FitsModule q → ¬SplitsEscape P

lemma NoSplitBefore.tail {q : List Byte} {qs : List (List Byte)} (h : NoSplitBefore (q :: qs)) :
    NoSplitBefore qs := fun pre P q' post heq => h (q :: pre) P q' post (by rw [heq]; rfl)

/-- From a state in which no escape is pending before a payload that fits, all such payloads are
accepted in order. -/
lemma fitting_sublist (qs : List (List Byte)) (hqs : NoSplitBefore qs) (r : Receiver Byte)
    (hr : r.escaped = true → ∀ q ∈ qs.head?, ¬FitsModule q) :
    (qs.filter (fun q => FitsModule q)).Sublist
      ((slipCode.frames r (lineOf qs)).filterMap (fun f => payloadOf (f.take moduleBufSize))) := by
  induction qs generalizing r with
  | nil => simp
  | cons q qs ih =>
    have hnext := ih hqs.tail (slipCode.after r (lineFrame q)) (by
      intro hesc q' hq' hfit
      obtain ⟨qs', rfl⟩ : ∃ qs', qs = q' :: qs' := by
        cases qs with
        | nil => simp at hq'
        | cons a qs' => exact ⟨qs', by simpa using hq'⟩
      exact hqs [] q q' qs' rfl hfit ((escaped_after_lineFrame r q).mp hesc))
    rw [lineOf_cons, slipCode.frames_append, List.filterMap_append]
    by_cases hq : FitsModule q
    · have hesc : r.escaped = false := by
        cases he : r.escaped with
        | false => rfl
        | true => exact absurd hq (hr he q (by simp))
      obtain ⟨d, rfl⟩ : ∃ d, r = ⟨d, false⟩ := ⟨_, Receiver.ext rfl hesc⟩
      have hframe := slipCode.frames_frame d (sealPayload q) [] (sealPayload_ne_nil q)
      rw [List.append_nil, slipCode.frames_nil] at hframe
      rw [List.filter_cons_of_pos (by simpa using hq)]
      rw [lineFrame_of_fits hq] at hnext ⊢
      rw [hframe, List.filterMap_append, List.filterMap_cons_some
        (by rw [take_sealPayload_of_fits hq, payloadOf_sealPayload]), List.filterMap_nil]
      exact (List.Sublist.cons_cons q hnext).trans (by simp)
    · rw [List.filter_cons_of_neg (by simpa using hq)]
      exact hnext.trans (List.sublist_append_right _ _)

/-- A frame that does not fit costs at most the frame after it: every payload that fits is accepted
from its own frame if and only if none directly follows a payload whose frame the transmit buffer
cuts between an ESC and its partner; then all of them are accepted in order. -/
theorem fitting_payloads_accepted_iff (payloads : List (List Byte))
    (h : ∀ q ∈ payloads, FitsTap q) (slipOutBuffer : Vector Byte moduleBufSize) :
    (tapLoop payloads .init).isSome ∧
      ((∀ pre q post, payloads = pre ++ q :: post → FitsModule q →
        AcceptedInPlace slipOutBuffer pre q post) ↔ NoSplitBefore payloads) ∧
      (NoSplitBefore payloads → (payloads.filter (fun q => FitsModule q)).Sublist
        (accepted slipOutBuffer (sentLine payloads))) := by
  obtain ⟨hsome, hline⟩ := sentLine_eq payloads h
  refine ⟨hsome, ⟨?_, ?_⟩, ?_⟩
  · intro hall pre P q post heq hq hsplit
    subst heq
    have hsub := hall (pre ++ [P]) q post (by simp) hq
    refine not_acceptedInPlace_of_escaped slipOutBuffer (pre ++ [P]) q post hq ?_ ?_ ?_ ?_ hsub
    · exact (sentLine_eq _ (by simpa using h)).2
    · exact (sentLine_eq _ (fun q' hq' => h q' (by simp at hq' ⊢; tauto))).2
    · exact (sentLine_eq _ (fun q' hq' => h q' (by simp; tauto))).2
    · exact (escaped_after_lineOf _).mpr ⟨pre, P, rfl, hsplit⟩
  · intro hno pre q post heq hq
    subst heq
    refine acceptedInPlace_of_not_escaped slipOutBuffer pre q post hq hline ?_ ?_ ?_
    · exact (sentLine_eq _ (fun q' hq' => h q' (by simp at hq' ⊢; tauto))).2
    · exact (sentLine_eq _ (fun q' hq' => h q' (by simp; tauto))).2
    · rw [Bool.eq_false_iff]
      intro hesc
      obtain ⟨pre', P, rfl, hsplit⟩ := (escaped_after_lineOf pre).mp hesc
      exact hno pre' P q post (by simp) hq hsplit
  · intro hno
    rw [hline, accepted_eq]
    exact fitting_sublist payloads hno .fresh (by simp [Receiver.fresh])

/-- A sealed packet never ends in a reserved byte. -/
lemma payloadOf_eq_none_of_end (f : List Byte) (h : f.getLast? = some slipEnd) :
    payloadOf f = none := by
  cases hf : payloadOf f with
  | none => rfl
  | some xs =>
    rw [payloadOf_eq_some] at hf
    have hlast : f.getLast? = (trailer xs).getLast? := by
      rw [hf, sealPayload, List.getLast?_append]
      rfl
    have hmem : slipEnd ∈ trailer xs := List.mem_of_getLast? (hlast.symm.trans h)
    exact absurd (Or.inl rfl) (trailer_not_reserved xs _ hmem)

lemma payloadOf_take_of_end (d : List Byte) (h : d[1999]? = some slipEnd) :
    payloadOf (d.take moduleBufSize) = none := by
  apply payloadOf_eq_none_of_end
  rw [List.getLast?_take, moduleBufSize, if_neg (by decide), h]
  rfl

def ends (n : Nat) : List Byte := List.replicate n slipEnd

@[simp] lemma length_ends (n : Nat) : (ends n).length = n := List.length_replicate

lemma ends_succ (n : Nat) : ends (n + 1) = ends n ++ slipEnd :: [] := List.replicate_succ'

lemma encodedLength_ends (n : Nat) : encodedLength (ends n) = 2 * n := by
  rw [encodedLength, length_ends, ends, List.countP_replicate, if_pos (by decide)]
  omega

/-- 2000 ENDs fill the transmit buffer up to the ESC of the last of them. -/
def splitPair : List (List Byte) := [ends 2000, [1]]

lemma fitsTap_splitPair : ∀ q ∈ splitPair, FitsTap q := by
  intro q hq
  rw [splitPair, List.mem_cons, List.mem_singleton] at hq
  rcases hq with rfl | rfl
  · rw [FitsTap, length_ends]
    decide
  · decide

theorem fitting_payloads_accepted_iff_witness :
    (tapLoop splitPair .init).isSome ∧
      ¬∀ pre q post, splitPair = pre ++ q :: post → FitsModule q →
        AcceptedInPlace (Vector.replicate moduleBufSize 0) pre q post := by
  have h := fitting_payloads_accepted_iff splitPair fitsTap_splitPair
    (Vector.replicate moduleBufSize 0)
  refine ⟨h.1, fun hall => ?_⟩
  have hno := h.2.1.mp hall
  refine hno [] (ends 2000) [1] [] rfl (by decide) ?_
  exact ⟨_, _, _, ends_succ 1999, .inl rfl, encodedLength_ends 1999⟩

/-- The one-byte payload behind 2000 ENDs fits, and is lost. -/
theorem fitting_payload_lost :
    (∀ q ∈ splitPair, FitsTap q) ∧ [1] ∈ splitPair ∧ FitsModule [1] ∧
      accepted (Vector.replicate moduleBufSize 0) (sentLine splitPair) = [] := by
  refine ⟨fitsTap_splitPair, List.mem_cons_of_mem _ (List.mem_singleton_self _), by decide, ?_⟩
  have hcut : lineFrame (ends 2000) = slipEnd :: (slipCode.stuff (ends 1999) ++ [slipEsc]) := by
    rw [ends_succ]
    exact lineFrame_of_split _ _ _ (.inl rfl) (encodedLength_ends 1999)
  have hlost := slipCode.frames_frame_escaped (ends 1999) (sealPayload [1]) []
  rw [List.append_nil, slipCode.frames_nil] at hlost
  rw [(sentLine_eq _ fitsTap_splitPair).2, accepted_eq, splitPair, lineOf_cons, lineOf_cons,
    lineOf_nil, List.append_nil, slipCode.frames_append, hcut, frames_split, after_split,
    lineFrame_of_fits (by decide)]
  have hopened : slipCode.opened .fresh = [] := rfl
  have hflushed : StuffingCode.flushed (α := Byte) .fresh = [] := rfl
  have hnone : payloadOf ((ends 1999 ++ slipEnd :: sealPayload [1]).take moduleBufSize) = none :=
    payloadOf_take_of_end _ (by rw [List.getElem?_append_right (by simp), length_ends]; rfl)
  rw [hopened, hflushed, List.nil_append, List.nil_append, hlost]
  exact List.filterMap_cons_none hnone

/-! ### Nothing but cut payloads is fabricated -/

/-- The module's answer to a frame, when it accepts it, is a payload that was sent or the part of
one that it received. -/
def Explained (payloads : List (List Byte)) (f : List Byte) : Prop :=
  ∀ a, payloadOf (f.take moduleBufSize) = some a →
    a ∈ payloads ∨ ∃ P ∈ payloads, 1998 < P.length ∧ a = P.take 1998 ∧
      (sealPayload P).take moduleBufSize = sealPayload a

section Explained

variable {payloads : List (List Byte)}

lemma explained_of_end {f : List Byte} (h : f[1999]? = some slipEnd) : Explained payloads f := by
  intro a ha
  rw [payloadOf_take_of_end f h] at ha
  simp at ha

/-- A frame whose first 2000 bytes are those of the sealed `P`. -/
lemma explained_of_take {P f : List Byte} (hP : P ∈ payloads) (hlong : 1998 < P.length)
    (hf : f.take moduleBufSize = (sealPayload P).take moduleBufSize) : Explained payloads f := by
  intro a ha
  rw [hf, payloadOf_eq_some] at ha
  have hlen := congrArg List.length ha
  simp only [List.length_take, length_sealPayload, moduleBufSize] at hlen
  have ha2 : a.length = 1998 := by omega
  refine .inr ⟨P, hP, hlong, ?_, ha⟩
  have htake := congrArg (List.take 1998) ha
  rw [List.take_take, moduleBufSize, sealPayload, List.take_append_of_le_length (by omega),
    sealPayload, ← ha2, List.take_left, ha2] at htake
  exact htake.symm

lemma explained_sealPayload {q : List Byte} (hq : q ∈ payloads) :
    Explained payloads (sealPayload q) := by
  by_cases hfit : FitsModule q
  · intro a ha
    rw [take_sealPayload_of_fits hfit, payloadOf_sealPayload, Option.some.injEq] at ha
    exact .inl (ha ▸ hq)
  · exact explained_of_take hq (not_le.mp hfit) rfl

/-- What the receiver holds open completes to an explained frame, also when the next END is still
to become data. -/
structure OpenExplained (payloads : List (List Byte)) (r : Receiver Byte) : Prop where
  closed : r.escaped = false → r.data = [] ∨ Explained payloads r.data
  swallowing : r.escaped = true → ∀ v, Explained payloads (r.data ++ slipEnd :: v)

lemma openExplained_fresh : OpenExplained payloads .fresh :=
  ⟨fun _ => .inl rfl, by simp [Receiver.fresh]⟩

lemma explained_flushed {r : Receiver Byte} (hr : OpenExplained payloads r) :
    ∀ f ∈ StuffingCode.flushed r, Explained payloads f := by
  intro f hf
  unfold StuffingCode.flushed at hf
  split_ifs at hf with h
  · simp at hf
  · rw [not_or] at h
    rw [List.mem_singleton] at hf
    subst hf
    exact (hr.closed (by simpa using h.1)).resolve_left h.2

/-- The data behind the opening END of a frame: either the frame starts it, or whatever follows is
explained already. -/
lemma opened_cases {r : Receiver Byte} (hr : OpenExplained payloads r) :
    slipCode.opened r = [] ∨ ∀ v, Explained payloads (slipCode.opened r ++ v) := by
  obtain ⟨d, e⟩ := r
  cases e with
  | false => exact .inl rfl
  | true =>
    right
    intro v
    have h := hr.swallowing rfl v
    simpa [StuffingCode.opened] using h

lemma openExplained_after {q : List Byte} (hq : q ∈ payloads) {r : Receiver Byte}
    (hr : OpenExplained payloads r) : OpenExplained payloads (slipCode.after r (lineFrame q)) := by
  rcases lineEnd q with ⟨h, -⟩ | ⟨a, b, hab, h, hlong, ha, -⟩ | ⟨a, b, c, hab, h, hlong, ha, -⟩
  · rw [h, slipCode.after_frame]
    exact openExplained_fresh
  · rw [h, after_cut]
    refine ⟨fun _ => .inr ?_, by simp⟩
    rcases opened_cases hr with hopen | hopen
    · rw [hopen, List.nil_append]
      refine explained_of_take hq hlong ?_
      rw [hab]
      exact (List.take_append_of_le_length ha).symm
    · exact hopen a
  · rw [h, after_split]
    refine ⟨by simp, fun _ v => ?_⟩
    rcases opened_cases hr with hopen | hopen
    · rw [hopen, List.nil_append]
      simp only
      by_cases hfull : 2000 ≤ a.length
      · have htake (x : List Byte) : (a ++ x).take moduleBufSize = a.take moduleBufSize :=
          List.take_append_of_le_length hfull
        refine explained_of_take hq hlong ?_
        rw [htake, hab, sealPayload, List.append_assoc, htake]
      · -- the swallowed END is the last byte that the module stores
        have hlen : a.length = 1999 := by omega
        exact explained_of_end (by rw [List.getElem?_append_right (by omega), hlen]; rfl)
    · rw [List.append_assoc]
      exact hopen _

lemma explained_lineFrame {q : List Byte} (hq : q ∈ payloads) {r : Receiver Byte}
    (hr : OpenExplained payloads r) :
    ∀ f ∈ slipCode.frames r (lineFrame q), Explained payloads f := by
  rcases lineEnd q with ⟨h, -⟩ | ⟨a, b, -, h, -, -, -⟩ | ⟨a, b, c, -, h, -, -, -⟩
  · intro f hf
    have hopen := slipCode.frames_opened r (slipCode.stuff (sealPayload q) ++ [slipEnd])
    have hclose : slipCode.frames ⟨slipCode.opened r, false⟩
        (slipCode.stuff (sealPayload q) ++ [slipEnd]) = [slipCode.opened r ++ sealPayload q] := by
      have hdelim := slipCode.feed_delim (slipCode.opened r ++ sealPayload q) []
      rw [if_neg (by simp [sealPayload_ne_nil])] at hdelim
      rw [StuffingCode.frames, slipCode.feed_stuff]
      exact congrArg (List.map Prod.fst) hdelim
    rw [hclose] at hopen
    rw [h, StuffingCode.frame, slipCode_delim] at hf
    rw [slipCode_delim] at hopen
    rw [hopen, List.mem_append, List.mem_singleton] at hf
    rcases hf with hf | rfl
    · exact explained_flushed hr f hf
    · rcases opened_cases hr with hnil | hall
      · rw [hnil, List.nil_append]
        exact explained_sealPayload hq
      · exact hall _
  · rw [h, frames_cut]
    exact explained_flushed hr
  · rw [h, frames_split]
    exact explained_flushed hr

lemma explained_lineOf (qs : List (List Byte)) (hqs : ∀ q ∈ qs, q ∈ payloads) (r : Receiver Byte)
    (hr : OpenExplained payloads r) :
    ∀ f ∈ slipCode.frames r (lineOf qs), Explained payloads f := by
  induction qs generalizing r with
  | nil => simp
  | cons q qs ih =>
    have hq := hqs q (by simp)
    intro f hf
    rw [lineOf_cons, slipCode.frames_append, List.mem_append] at hf
    rcases hf with hf | hf
    · exact explained_lineFrame hq hr f hf
    · exact ih (fun q' hq' => hqs q' (by simp [hq'])) _ (openExplained_after hq hr) f hf

end Explained

/-- What the module accepts was sent, or is the first 1998 bytes of a longer payload whose next two
bytes in the sender's buffer are the trailer of those. -/
theorem accepted_payload_was_sent (payloads : List (List Byte)) (h : ∀ q ∈ payloads, FitsTap q)
    (slipOutBuffer : Vector Byte moduleBufSize) :
    ∀ a ∈ accepted slipOutBuffer (sentLine payloads),
      a ∈ payloads ∨ ∃ P ∈ payloads, 1998 < P.length ∧ a = P.take 1998 ∧
        (sealPayload P).take moduleBufSize = sealPayload a := by
  intro a ha
  rw [(sentLine_eq payloads h).2, accepted_eq, List.mem_filterMap] at ha
  obtain ⟨f, hf, hfa⟩ := ha
  exact explained_lineOf payloads (fun q hq => hq) .fresh openExplained_fresh f hf a hfa

def zeros : List Byte := List.replicate 1998 0

lemma length_zeros : zeros.length = 1998 := List.length_replicate

lemma fitsTap_sealed_zeros : ∀ q ∈ [sealPayload zeros], FitsTap q := by
  intro q hq
  rw [List.mem_singleton] at hq
  rw [hq, FitsTap, length_sealPayload, length_zeros]
  decide

/-- A sealed packet of 2000 bytes, sent as a payload, is cut to itself by the module. -/
lemma accepted_sealed_zeros :
    accepted (Vector.replicate moduleBufSize 0) (sentLine [sealPayload zeros]) = [zeros] := by
  have hplain : ∀ c ∈ sealPayload zeros, ¬slipCode.Reserved c := by
    intro c hc
    rw [sealPayload, List.mem_append] at hc
    rcases hc with hc | hc
    · rw [List.eq_of_mem_replicate hc]
      decide
    · exact trailer_not_reserved zeros c hc
  have hwhole : lineFrame (sealPayload zeros) = slipCode.frame (sealPayload (sealPayload zeros)) := by
    refine List.take_of_length_le ?_
    rw [frame_sealPayload_length, slipCode.stuff_of_not_reserved _ hplain, length_sealPayload,
      length_zeros]
    decide
  have hframe := slipCode.frames_frame_fresh (sealPayload (sealPayload zeros)) []
    (sealPayload_ne_nil _)
  rw [List.append_nil, slipCode.frames_nil] at hframe
  have htake : (sealPayload (sealPayload zeros)).take moduleBufSize = sealPayload zeros := by
    have hlen : moduleBufSize = (sealPayload zeros).length := by
      rw [length_sealPayload, length_zeros]
      rfl
    rw [hlen, take_sealPayload]
  rw [(sentLine_eq _ fitsTap_sealed_zeros).2, accepted_eq, lineOf_cons, lineOf_nil,
    List.append_nil, hwhole, hframe]
  exact List.filterMap_cons_some (by rw [htake, payloadOf_sealPayload])

lemma zeros_not_mem : zeros ∉ [sealPayload zeros] := by
  rw [List.mem_singleton]
  intro h
  have := congrArg List.length h
  rw [length_sealPayload] at this
  omega

theorem accepted_payload_was_sent_witness :
    zeros ∈ [sealPayload zeros] ∨ ∃ P ∈ [sealPayload zeros], 1998 < P.length ∧
      zeros = P.take 1998 ∧ (sealPayload P).take moduleBufSize = sealPayload zeros :=
  accepted_payload_was_sent [sealPayload zeros] fitsTap_sealed_zeros
    (Vector.replicate moduleBufSize 0) zeros
    (by rw [accepted_sealed_zeros]; exact List.mem_singleton_self _)

/-- The cut payload is accepted although nobody sent it. -/
theorem cut_payload_accepted :
    (∀ q ∈ [sealPayload zeros], FitsTap q) ∧
      zeros ∈ accepted (Vector.replicate moduleBufSize 0) (sentLine [sealPayload zeros]) ∧
      zeros ∉ [sealPayload zeros] :=
  ⟨fitsTap_sealed_zeros, by rw [accepted_sealed_zeros]; exact List.mem_singleton_self _,
    zeros_not_mem⟩

end EthoSlip
