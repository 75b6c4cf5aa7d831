import Mathlib.Tactic
import Mathlib.Data.List.Basic

/-!
# Byte stuffing

A stuffing code reserves two symbols of an alphabet: `delim` ends a frame and `esc` announces a
coded symbol. The file gives the receiver of such a code as an automaton that takes one symbol at
a time, the laws by which its runs compose, and the grammar it recognises: the word is cut at the
free delimiters and each piece is unescaped. On the coded words unescaping is undone by coding.
-/

namespace EthoSlip.Lib

/-- The reserved symbols of a stuffing code, and how a symbol is coded after `esc`. -/
structure StuffingCode (α : Type) where
  delim : α
  esc : α
  code : α → α
  decode : α → α
  delim_ne_esc : delim ≠ esc
  decode_code_delim : decode (code delim) = delim
  decode_code_esc : decode (code esc) = esc

/-- The receiver between two symbols: the data of the open frame, and whether the symbol before
was an `esc` that still waits for its partner. -/
@[ext] structure Receiver (α : Type) where
  data : List α
  escaped : Bool
  deriving DecidableEq, Repr

def Receiver.fresh {α : Type} : Receiver α := ⟨[], false⟩

namespace StuffingCode

variable {α : Type} (K : StuffingCode α)

/-- The symbols that a frame cannot carry as they are. -/
def Reserved (a : α) : Prop := a = K.delim ∨ a = K.esc

lemma decode_code (a : α) (ha : K.Reserved a) : K.decode (K.code a) = a := by
  rcases ha with rfl | rfl
  · exact K.decode_code_delim
  · exact K.decode_code_esc

variable [DecidableEq α]

instance (a : α) : Decidable (K.Reserved a) := inferInstanceAs (Decidable (_ ∨ _))

def stuffSymbol (a : α) : List α := if K.Reserved a then [K.esc, K.code a] else [a]

/-- The coded form of a word: it has no free delimiter. -/
def stuff (xs : List α) : List α := xs.flatMap K.stuffSymbol

/-- A coded word between two delimiters. -/
def frame (xs : List α) : List α := K.delim :: (K.stuff xs ++ [K.delim])

@[simp] lemma stuff_nil : K.stuff [] = [] := rfl

@[simp] lemma stuff_cons (a : α) (xs : List α) :
    K.stuff (a :: xs) = K.stuffSymbol a ++ K.stuff xs := by
  simp [stuff]

@[simp] lemma stuff_append (xs ys : List α) : K.stuff (xs ++ ys) = K.stuff xs ++ K.stuff ys := by
  simp [stuff]

lemma stuffSymbol_length_le (a : α) : (K.stuffSymbol a).length ≤ 2 := by
  unfold stuffSymbol
  split <;> simp

lemma stuff_length_le (xs : List α) : (K.stuff xs).length ≤ 2 * xs.length := by
  induction xs with
  | nil => simp
  | cons a xs ih =>
    have ha := K.stuffSymbol_length_le a
    simp only [stuff_cons, List.length_cons, List.length_append]
    omega

lemma length_le_frame (xs : List α) : xs.length ≤ (K.frame xs).length := by
  have hstuff : xs.length ≤ (K.stuff xs).length := by
    induction xs with
    | nil => simp
    | cons a xs ih =>
      have ha : 1 ≤ (K.stuffSymbol a).length := by
        unfold stuffSymbol
        split <;> simp
      simp only [stuff_cons, List.length_cons, List.length_append]
      omega
  simp only [frame, List.length_cons, List.length_append]
  omega

lemma stuff_of_not_reserved (xs : List α) (h : ∀ a ∈ xs, ¬K.Reserved a) : K.stuff xs = xs := by
  induction xs with
  | nil => rfl
  | cons a xs ih =>
    have ha : K.stuffSymbol a = [a] := if_neg (h a (by simp))
    rw [stuff_cons, ha, ih (fun b hb => h b (List.mem_cons_of_mem a hb))]
    rfl

/-! ### The receiver -/

/-- One symbol: the frame that it completes, if any, and the next state. -/
def step (r : Receiver α) (a : α) : Option (List α) × Receiver α :=
  if r.escaped then (none, ⟨r.data ++ [K.decode a], false⟩)
  else if a = K.delim then
    if r.data = [] then (none, r) else (some r.data, .fresh)
  else if a = K.esc then (none, ⟨r.data, true⟩)
  else (none, ⟨r.data ++ [a], false⟩)

def after (r : Receiver α) : List α → Receiver α
  | [] => r
  | a :: w => after (K.step r a).2 w

/-- The frames completed within a word, each with the word that follows its delimiter. -/
def feed (r : Receiver α) : List α → List (List α × List α)
  | [] => []
  | a :: w => ((K.step r a).1.map (fun d => (d, w))).toList ++ feed (K.step r a).2 w

@[simp] lemma after_nil (r : Receiver α) : K.after r [] = r := rfl

@[simp] lemma feed_nil (r : Receiver α) : K.feed r [] = [] := rfl

lemma after_append (r : Receiver α) (v w : List α) :
    K.after r (v ++ w) = K.after (K.after r v) w := by
  induction v generalizing r with
  | nil => rfl
  | cons a v ih => exact ih _

lemma feed_append (r : Receiver α) (v w : List α) :
    K.feed r (v ++ w) =
      (K.feed r v).map (fun f => (f.1, f.2 ++ w)) ++ K.feed (K.after r v) w := by
  induction v generalizing r with
  | nil => rfl
  | cons a v ih =>
    simp only [List.cons_append, feed, ih, after, List.map_append, List.append_assoc]
    cases (K.step r a).1 <;> simp

section Steps

variable (d : List α) (w : List α)

lemma feed_delim : K.feed ⟨d, false⟩ (K.delim :: w) =
    if d = [] then K.feed .fresh w else (d, w) :: K.feed .fresh w := by
  by_cases hd : d = []
  · subst hd
    simp [feed, step, Receiver.fresh]
  · simp [feed, step, hd]

lemma after_delim : K.after ⟨d, false⟩ (K.delim :: w) = K.after .fresh w := by
  by_cases hd : d = []
  · subst hd
    simp [after, step, Receiver.fresh]
  · simp [after, step, hd]

/-- The symbol after `esc` is data whatever it is. -/
lemma feed_escaped (a : α) :
    K.feed ⟨d, true⟩ (a :: w) = K.feed ⟨d ++ [K.decode a], false⟩ w := by
  simp [feed, step]

lemma after_escaped (a : α) :
    K.after ⟨d, true⟩ (a :: w) = K.after ⟨d ++ [K.decode a], false⟩ w := by
  simp [after, step]

lemma feed_esc : K.feed ⟨d, false⟩ (K.esc :: w) = K.feed ⟨d, true⟩ w := by
  simp [feed, step, K.delim_ne_esc.symm]

lemma after_esc : K.after ⟨d, false⟩ (K.esc :: w) = K.after ⟨d, true⟩ w := by
  simp [after, step, K.delim_ne_esc.symm]

lemma feed_plain (a : α) (ha : ¬K.Reserved a) :
    K.feed ⟨d, false⟩ (a :: w) = K.feed ⟨d ++ [a], false⟩ w := by
  simp only [Reserved, not_or] at ha
  simp [feed, step, ha.1, ha.2]

lemma after_plain (a : α) (ha : ¬K.Reserved a) :
    K.after ⟨d, false⟩ (a :: w) = K.after ⟨d ++ [a], false⟩ w := by
  simp only [Reserved, not_or] at ha
  simp [after, step, ha.1, ha.2]

lemma feed_stuffSymbol (a : α) :
    K.feed ⟨d, false⟩ (K.stuffSymbol a ++ w) = K.feed ⟨d ++ [a], false⟩ w := by
  unfold stuffSymbol
  by_cases ha : K.Reserved a
  · rw [if_pos ha, List.cons_append, List.cons_append, List.nil_append, feed_esc, feed_escaped,
      K.decode_code a ha]
  · rw [if_neg ha, List.cons_append, List.nil_append, K.feed_plain d w a ha]

lemma after_stuffSymbol (a : α) :
    K.after ⟨d, false⟩ (K.stuffSymbol a ++ w) = K.after ⟨d ++ [a], false⟩ w := by
  unfold stuffSymbol
  by_cases ha : K.Reserved a
  · rw [if_pos ha, List.cons_append, List.cons_append, List.nil_append, after_esc, after_escaped,
      K.decode_code a ha]
  · rw [if_neg ha, List.cons_append, List.nil_append, K.after_plain d w a ha]

end Steps

lemma feed_stuff (d xs w : List α) :
    K.feed ⟨d, false⟩ (K.stuff xs ++ w) = K.feed ⟨d ++ xs, false⟩ w := by
  induction xs generalizing d with
  | nil => simp
  | cons a xs ih =>
    rw [stuff_cons, List.append_assoc, feed_stuffSymbol, ih, List.append_assoc]
    rfl

lemma after_stuff (d xs w : List α) :
    K.after ⟨d, false⟩ (K.stuff xs ++ w) = K.after ⟨d ++ xs, false⟩ w := by
  induction xs generalizing d with
  | nil => simp
  | cons a xs ih =>
    rw [stuff_cons, List.append_assoc, after_stuffSymbol, ih, List.append_assoc]
    rfl

/-- A non-empty frame read outside an escape: its opening delimiter completes what was open, its
closing one completes the frame itself. -/
theorem feed_frame (d xs w : List α) (hxs : xs ≠ []) :
    K.feed ⟨d, false⟩ (K.frame xs ++ w) =
      (if d = [] then [] else [(d, K.stuff xs ++ K.delim :: w)]) ++
        (xs, w) :: K.feed .fresh w := by
  have hbody : K.feed .fresh (K.stuff xs ++ K.delim :: w) = (xs, w) :: K.feed .fresh w := by
    rw [Receiver.fresh, feed_stuff, List.nil_append, feed_delim, if_neg hxs, Receiver.fresh]
  have hsplit : K.frame xs ++ w = K.delim :: (K.stuff xs ++ K.delim :: w) := by simp [frame]
  rw [hsplit, feed_delim, hbody]
  split <;> rfl

lemma feed_frame_fresh (xs w : List α) (hxs : xs ≠ []) :
    K.feed .fresh (K.frame xs ++ w) = (xs, w) :: K.feed .fresh w :=
  K.feed_frame [] xs w hxs

/-- A frame read as the partner of an `esc`: its opening delimiter becomes data. -/
theorem feed_frame_escaped (d xs w : List α) :
    K.feed ⟨d, true⟩ (K.frame xs ++ w) =
      (d ++ K.decode K.delim :: xs, w) :: K.feed .fresh w := by
  have hsplit : K.frame xs ++ w = K.delim :: (K.stuff xs ++ K.delim :: w) := by simp [frame]
  rw [hsplit, feed_escaped, feed_stuff, feed_delim, if_neg (by simp)]
  simp

/-- Whatever the state before it, a frame leaves the receiver as it was at the start. -/
theorem after_frame (r : Receiver α) (xs : List α) : K.after r (K.frame xs) = .fresh := by
  obtain ⟨d, e⟩ := r
  cases e with
  | true => rw [frame, after_escaped, after_stuff, after_delim, after_nil]
  | false => rw [frame, after_delim, Receiver.fresh, after_stuff, after_delim, after_nil,
      Receiver.fresh]

lemma feed_tail (r : Receiver α) (w d rest : List α) (l : List (List α × List α))
    (h : K.feed r w = (d, rest) :: l) :
    l = K.feed .fresh rest ∧ K.after r w = K.after .fresh rest := by
  induction w generalizing r with
  | nil => simp at h
  | cons a w ih =>
    rw [feed] at h
    rw [after]
    by_cases hout : (K.step r a).1 = none
    · rw [hout] at h
      exact ih _ (by simpa using h)
    · have hnext : (K.step r a).2 = .fresh := by
        unfold step at hout ⊢
        split_ifs at hout ⊢ <;> first | rfl | exact absurd rfl hout
      obtain ⟨d', hd'⟩ := Option.ne_none_iff_exists'.mp hout
      rw [hd', hnext] at h
      simp only [Option.map_some, Option.toList_some, List.singleton_append, List.cons.injEq,
        Prod.mk.injEq] at h
      obtain ⟨⟨-, rfl⟩, rfl⟩ := h
      exact ⟨rfl, by rw [hnext]⟩

/-- A frame of a word is completed by the first symbol or within the others. -/
lemma mem_feed_cons (r : Receiver α) (a : α) (w : List α) (f : List α × List α) :
    f ∈ K.feed r (a :: w) ↔
      (∃ d, (K.step r a).1 = some d ∧ (d, w) = f) ∨ f ∈ K.feed (K.step r a).2 w := by
  simp only [feed, List.mem_append, Option.mem_toList, Option.map_eq_some_iff]

lemma feed_length_lt (r : Receiver α) (w : List α) (f : List α × List α) (hf : f ∈ K.feed r w) :
    f.2.length < w.length := by
  induction w generalizing r with
  | nil => simp at hf
  | cons a w ih =>
    rcases (K.mem_feed_cons r a w f).mp hf with ⟨d, -, rfl⟩ | hf
    · simp
    · have := ih _ hf
      simp only [List.length_cons]
      omega

lemma feed_ne_nil (r : Receiver α) (w : List α) (f : List α × List α) (hf : f ∈ K.feed r w) :
    f.1 ≠ [] := by
  induction w generalizing r with
  | nil => simp at hf
  | cons a w ih =>
    rcases (K.mem_feed_cons r a w f).mp hf with ⟨d, hd, rfl⟩ | hf
    · unfold step at hd
      split_ifs at hd
      all_goals simp_all
    · exact ih _ hf

def frames (r : Receiver α) (w : List α) : List (List α) := (K.feed r w).map Prod.fst

@[simp] lemma frames_nil (r : Receiver α) : K.frames r [] = [] := rfl

lemma frames_append (r : Receiver α) (v w : List α) :
    K.frames r (v ++ w) = K.frames r v ++ K.frames (K.after r v) w := by
  simp only [frames, feed_append, List.map_append, List.map_map]
  congr 1

lemma frames_frame (d xs w : List α) (hxs : xs ≠ []) :
    K.frames ⟨d, false⟩ (K.frame xs ++ w) =
      (if d = [] then [] else [d]) ++ xs :: K.frames .fresh w := by
  rw [frames, K.feed_frame d xs w hxs]
  split <;> rfl

lemma frames_frame_fresh (xs w : List α) (hxs : xs ≠ []) :
    K.frames .fresh (K.frame xs ++ w) = xs :: K.frames .fresh w := by
  rw [frames, K.feed_frame_fresh xs w hxs, List.map_cons, frames]

lemma frames_frame_escaped (d xs w : List α) :
    K.frames ⟨d, true⟩ (K.frame xs ++ w) =
      (d ++ K.decode K.delim :: xs) :: K.frames .fresh w := by
  rw [frames, feed_frame_escaped]
  rfl

lemma feed_frame_alone (xs : List α) :
    K.feed .fresh (K.frame xs) = if xs = [] then [] else [(xs, [])] := by
  by_cases hxs : xs = []
  · subst hxs
    simp [frame, feed, step, Receiver.fresh]
  · have hframe := K.feed_frame_fresh xs [] hxs
    rw [List.append_nil, feed_nil] at hframe
    rw [hframe, if_neg hxs]

/-- The frames of whole packets are the packets that are not empty. -/
lemma frames_flatMap_frame (xss : List (List α)) (w : List α) :
    K.frames .fresh (xss.flatMap K.frame ++ w) =
      xss.filter (fun xs => xs ≠ []) ++ K.frames .fresh w := by
  induction xss with
  | nil => rfl
  | cons xs xss ih =>
    rw [List.flatMap_cons, List.append_assoc, frames_append, K.after_frame, ih]
    have hhead : K.frames .fresh (K.frame xs) = if xs = [] then [] else [xs] := by
      rw [frames, feed_frame_alone]
      split_ifs <;> rfl
    rw [hhead]
    by_cases hxs : xs = []
    · simp [hxs]
    · simp [hxs]

/-- A frame gives nothing before its last symbol. -/
lemma frames_begun {begun rest xs : List α} (h : begun ++ rest = K.frame xs) (hrest : rest ≠ []) :
    K.frames .fresh begun = [] := by
  have hfeed : K.feed .fresh begun = [] := by
    by_contra hne
    obtain ⟨f, hf⟩ := List.exists_mem_of_ne_nil _ hne
    have hmem : (f.1, f.2 ++ rest) ∈ K.feed .fresh (K.frame xs) := by
      rw [← h, feed_append]
      exact List.mem_append_left _ (List.mem_map_of_mem hf)
    rw [feed_frame_alone] at hmem
    split_ifs at hmem
    · exact absurd hmem List.not_mem_nil
    · rw [List.mem_singleton, Prod.mk.injEq] at hmem
      exact hrest (List.append_eq_nil_iff.mp hmem.2).2
  rw [frames, hfeed, List.map_nil]

def flushed (r : Receiver α) : List (List α) :=
  if r.escaped = true ∨ r.data = [] then [] else [r.data]

/-- The open data behind a delimiter. -/
def opened (r : Receiver α) : List α := if r.escaped then r.data ++ [K.decode K.delim] else []

lemma after_opened (r : Receiver α) (w : List α) :
    K.after r (K.delim :: w) = K.after ⟨K.opened r, false⟩ w := by
  obtain ⟨d, e⟩ := r
  cases e with
  | true => exact K.after_escaped d w K.delim
  | false => exact K.after_delim d w

lemma frames_opened (r : Receiver α) (w : List α) :
    K.frames r (K.delim :: w) = flushed r ++ K.frames ⟨K.opened r, false⟩ w := by
  obtain ⟨d, e⟩ := r
  cases e with
  | true =>
    rw [frames, feed_escaped]
    rfl
  | false =>
    rw [frames, feed_delim]
    by_cases hd : d = [] <;> simp [flushed, opened, hd, frames, Receiver.fresh]

/-- What is unread behind the last completed frame of a word. -/
def unread (r : Receiver α) (w : List α) : List α :=
  ((K.feed r w).getLast?.map Prod.snd).getD w

/-- The unread part alone leads to the state behind the whole word. -/
lemma after_unread (w : List α) : K.after .fresh (K.unread .fresh w) = K.after .fresh w := by
  induction hn : w.length using Nat.strong_induction_on generalizing w with
  | _ n ih =>
    cases hfeed : K.feed .fresh w with
    | nil => simp [unread, hfeed]
    | cons f l =>
      obtain ⟨d, rest⟩ := f
      obtain ⟨hl, hafter⟩ := K.feed_tail _ _ _ _ _ hfeed
      have hlt : rest.length < w.length := K.feed_length_lt .fresh w (d, rest) (by simp [hfeed])
      have hrest := ih rest.length (by omega) rest rfl
      have hsame : K.unread .fresh w = K.unread .fresh rest := by
        rw [unread, unread, hfeed, hl, List.getLast?_cons]
        cases (K.feed .fresh rest).getLast? <;> rfl
      rw [hsame, hrest, hafter]

/-- The first `k` symbols of a coded word end between an `esc` and its partner. -/
def SplitsPair (xs : List α) (k : Nat) : Prop :=
  ∃ a c b, xs = a ++ c :: b ∧ K.Reserved c ∧ (K.stuff a).length + 1 = k

lemma take_stuff_of_splitsPair (a b : List α) (c : α) (hc : K.Reserved c) :
    (K.stuff (a ++ c :: b)).take ((K.stuff a).length + 1) = K.stuff a ++ [K.esc] := by
  rw [stuff_append, stuff_cons, stuffSymbol, if_pos hc, List.take_append, List.take_of_length_le
    (Nat.le_succ _)]
  simp

/-- A coded word cut anywhere is a coded word, with an `esc` behind it if a pair was split. -/
lemma take_stuff (xs : List α) (k : Nat) (hk : k ≤ (K.stuff xs).length) :
    K.SplitsPair xs k ∨
      ∃ a b, xs = a ++ b ∧ (K.stuff a).length = k ∧ (K.stuff xs).take k = K.stuff a := by
  induction xs generalizing k with
  | nil =>
    have hk0 : k = 0 := by simpa using hk
    exact .inr ⟨[], [], rfl, by simp [hk0], by simp⟩
  | cons x xs ih =>
    rw [stuff_cons, List.length_append] at hk
    by_cases hin : (K.stuffSymbol x).length ≤ k
    · -- the cut falls behind the first symbol
      obtain ⟨k, rfl⟩ := Nat.exists_eq_add_of_le hin
      rcases ih k (by omega) with ⟨a, c, b, rfl, hc, hlen⟩ | ⟨a, b, rfl, hlen, htake⟩
      · exact .inl ⟨x :: a, c, b, rfl, hc, by simp; omega⟩
      · refine .inr ⟨x :: a, b, rfl, by simp [hlen], ?_⟩
        rw [stuff_cons, List.take_append, List.take_of_length_le (by omega),
          Nat.add_sub_cancel_left, htake, stuff_cons]
    · by_cases hx : K.Reserved x
      · have hlen : (K.stuffSymbol x).length = 2 := by rw [stuffSymbol, if_pos hx]; rfl
        by_cases hk0 : k = 0
        · exact .inr ⟨[], x :: xs, rfl, by simp [hk0], by simp [hk0]⟩
        · exact .inl ⟨[], x, xs, rfl, hx, by simp; omega⟩
      · have hlen : (K.stuffSymbol x).length = 1 := by rw [stuffSymbol, if_neg hx]; rfl
        exact .inr ⟨[], x :: xs, rfl, by simp; omega, by simp; omega⟩

/-! ### The grammar -/

/-- The pieces of a word between its free delimiters, each with what follows its delimiter. The
symbol after an `esc` is never free, and a piece without a delimiter is dropped; `p` is the piece
read so far. -/
def cutFrom (p : List α) : List α → List (List α × List α)
  | [] => []
  | a :: w =>
    if a = K.delim then (p, w) :: cutFrom [] w
    else if a = K.esc then
      match w with
      | [] => []
      | b :: w => cutFrom (p ++ [a, b]) w
    else cutFrom (p ++ [a]) w

def cut (w : List α) : List (List α × List α) := K.cutFrom [] w

def unescape : List α → List α
  | [] => []
  | a :: w =>
    if a = K.esc then
      match w with
      | [] => []
      | b :: w => K.decode b :: unescape w
    else a :: unescape w

/-- The grammar of the code: cut, unescape, and discard the pieces that hold nothing. -/
def parse (w : List α) : List (List α × List α) :=
  ((K.cut w).map (fun f => (K.unescape f.1, f.2))).filter (fun f => f.1 ≠ [])

section Equations

variable (p : List α) (w : List α)

@[simp] lemma cutFrom_nil : K.cutFrom p [] = [] := rfl

lemma cutFrom_delim : K.cutFrom p (K.delim :: w) = (p, w) :: K.cutFrom [] w := by
  rw [cutFrom.eq_def]
  simp

lemma cutFrom_esc_nil : K.cutFrom p [K.esc] = [] := by
  rw [cutFrom.eq_def]
  simp [K.delim_ne_esc.symm]

lemma cutFrom_esc (b : α) :
    K.cutFrom p (K.esc :: b :: w) = K.cutFrom (p ++ [K.esc, b]) w := by
  rw [cutFrom.eq_def]
  simp [K.delim_ne_esc.symm]

lemma cutFrom_plain (a : α) (ha : ¬K.Reserved a) :
    K.cutFrom p (a :: w) = K.cutFrom (p ++ [a]) w := by
  simp only [Reserved, not_or] at ha
  rw [cutFrom.eq_def]
  simp [ha.1, ha.2]

@[simp] lemma unescape_nil : K.unescape [] = [] := rfl

@[simp] lemma unescape_esc (b : α) : K.unescape (K.esc :: b :: w) = K.decode b :: K.unescape w := by
  rw [unescape.eq_def]
  simp

lemma unescape_plain (a : α) (ha : a ≠ K.esc) : K.unescape (a :: w) = a :: K.unescape w := by
  rw [unescape.eq_def]
  simp [ha]

end Equations

/-- A piece that does not end between an `esc` and its partner. -/
def Closed (p : List α) : Prop := ∀ v, K.unescape (p ++ v) = K.unescape p ++ K.unescape v

lemma closed_nil : K.Closed [] := fun v => by simp

lemma Closed.snoc {K : StuffingCode α} {p : List α} (hp : K.Closed p) {a : α} (ha : a ≠ K.esc) :
    K.Closed (p ++ [a]) := by
  intro v
  rw [List.append_assoc, hp, hp, List.append_assoc, List.singleton_append, K.unescape_plain v a ha,
    K.unescape_plain [] a ha]
  rfl

lemma Closed.snoc_pair {K : StuffingCode α} {p : List α} (hp : K.Closed p) (b : α) :
    K.Closed (p ++ [K.esc, b]) := by
  intro v
  rw [List.append_assoc, hp, hp, List.append_assoc]
  simp

lemma feed_eq_cutFrom (p w : List α) (hp : K.Closed p) :
    K.feed ⟨K.unescape p, false⟩ w =
      ((K.cutFrom p w).map (fun f => (K.unescape f.1, f.2))).filter (fun f => f.1 ≠ []) := by
  induction p, w using cutFrom.induct (K := K) with
  | case1 p => simp
  | case2 p w ih =>
    have hrest := ih K.closed_nil
    rw [unescape_nil] at hrest
    rw [feed_delim, Receiver.fresh, hrest, cutFrom_delim, List.map_cons]
    by_cases hd : K.unescape p = [] <;> simp [hd]
  | case3 p h => simp [cutFrom_esc_nil, feed_esc]
  | case4 p b w h ih =>
    rw [feed_esc, feed_escaped, cutFrom_esc, ← ih (hp.snoc_pair b), hp, unescape_esc, unescape_nil]
  | case5 p a w hd he ih =>
    have ha : ¬K.Reserved a := by simp [Reserved, hd, he]
    rw [K.feed_plain _ _ _ ha, K.cutFrom_plain _ _ _ ha, ← ih (hp.snoc he), hp,
      K.unescape_plain _ _ he, unescape_nil]

/-- The receiver implements the grammar on every word, malformed escapes included. -/
theorem feed_eq_parse (w : List α) : K.feed .fresh w = K.parse w :=
  K.feed_eq_cutFrom [] w K.closed_nil

/-- The first piece of a word ends at a delimiter of the word, and the others come from what
follows it. -/
lemma cutFrom_first (p w x rest : List α) (l : List (List α × List α))
    (h : K.cutFrom p w = (x, rest) :: l) :
    ∃ y, x = p ++ y ∧ w = y ++ K.delim :: rest ∧ l = K.cut rest := by
  induction p, w using cutFrom.induct (K := K) with
  | case1 p => simp at h
  | case2 p w ih =>
    rw [cutFrom_delim, List.cons.injEq, Prod.mk.injEq] at h
    obtain ⟨⟨rfl, rfl⟩, rfl⟩ := h
    exact ⟨[], by simp, rfl, rfl⟩
  | case3 p he => simp [cutFrom_esc_nil] at h
  | case4 p b w he ih =>
    rw [cutFrom_esc] at h
    obtain ⟨y, rfl, rfl, hl⟩ := ih h
    exact ⟨K.esc :: b :: y, by simp, rfl, hl⟩
  | case5 p a w hd he ih =>
    rw [K.cutFrom_plain _ _ _ (by simp [Reserved, hd, he])] at h
    obtain ⟨y, rfl, rfl, hl⟩ := ih h
    exact ⟨a :: y, by simp, rfl, hl⟩

lemma unescape_ne_nil (p w x rest : List α) (l : List (List α × List α)) (hp : K.Closed p)
    (hne : K.unescape p ≠ []) (h : K.cutFrom p w = (x, rest) :: l) : K.unescape x ≠ [] := by
  obtain ⟨y, rfl, -, -⟩ := K.cutFrom_first p w x rest l h
  rw [hp]
  exact List.append_ne_nil_of_left_ne_nil hne _

lemma cut_unescape_ne_nil (a : α) (w x rest : List α) (l : List (List α × List α))
    (ha : a ≠ K.delim) (h : K.cut (a :: w) = (x, rest) :: l) : K.unescape x ≠ [] := by
  rw [cut] at h
  by_cases he : a = K.esc
  · subst he
    cases w with
    | nil => simp [cutFrom_esc_nil] at h
    | cons b w =>
      rw [cutFrom_esc] at h
      exact K.unescape_ne_nil _ _ _ _ _ (K.closed_nil.snoc_pair b) (by simp) h
  · rw [K.cutFrom_plain _ _ _ (by simp [Reserved, ha, he])] at h
    refine K.unescape_ne_nil _ _ _ _ _ (K.closed_nil.snoc he) ?_ h
    rw [List.nil_append, K.unescape_plain _ _ he]
    simp

/-- The first frame of a word: leading delimiters are skipped, and the frame is the piece that the
next free delimiter ends. -/
theorem feed_first (w d rest : List α) (l : List (List α × List α))
    (h : K.feed .fresh w = (d, rest) :: l) :
    ∃ skipped x, w = skipped ++ (x ++ K.delim :: rest) ∧ (∀ a ∈ skipped, a = K.delim) ∧
      K.cut (x ++ K.delim :: rest) = (x, rest) :: K.cut rest ∧ K.unescape x = d := by
  induction w with
  | nil => simp at h
  | cons a w ih =>
    by_cases ha : a = K.delim
    · subst ha
      rw [Receiver.fresh, feed_delim, if_pos rfl] at h
      obtain ⟨skipped, x, rfl, hs, hx⟩ := ih h
      exact ⟨K.delim :: skipped, x, rfl, by simpa using hs, hx⟩
    · rw [feed_eq_parse, parse] at h
      cases hcut : K.cut (a :: w) with
      | nil => simp [hcut] at h
      | cons f l' =>
        obtain ⟨x, rest'⟩ := f
        have hx := K.cut_unescape_ne_nil a w x rest' l' ha hcut
        obtain ⟨y, rfl, hw, rfl⟩ := K.cutFrom_first [] (a :: w) x rest' l' hcut
        rw [hcut, List.map_cons, List.filter_cons_of_pos (by simpa using hx), List.cons.injEq,
          Prod.mk.injEq] at h
        obtain ⟨⟨rfl, rfl⟩, -⟩ := h
        exact ⟨[], x, hw, by simp, by rw [← hw, hcut], rfl⟩

/-- The words of free symbols and of pairs that code a reserved symbol. -/
inductive IsCoded : List α → Prop
  | nil : IsCoded []
  | plain (a : α) (w : List α) (ha : ¬K.Reserved a) (hw : IsCoded w) : IsCoded (a :: w)
  | pair (a : α) (w : List α) (ha : K.Reserved a) (hw : IsCoded w) :
      IsCoded (K.esc :: K.code a :: w)

lemma isCoded_stuff (xs : List α) : K.IsCoded (K.stuff xs) := by
  induction xs with
  | nil => exact .nil
  | cons a xs ih =>
    rw [stuff_cons, stuffSymbol]
    by_cases ha : K.Reserved a
    · rw [if_pos ha]
      exact .pair a _ ha ih
    · rw [if_neg ha]
      exact .plain a _ ha ih

@[simp] lemma unescape_stuff (xs : List α) : K.unescape (K.stuff xs) = xs := by
  induction xs with
  | nil => rfl
  | cons a xs ih =>
    rw [stuff_cons, stuffSymbol]
    by_cases ha : K.Reserved a
    · rw [if_pos ha]
      change K.unescape (K.esc :: K.code a :: K.stuff xs) = _
      rw [unescape_esc, K.decode_code a ha, ih]
    · have hesc : a ≠ K.esc := fun h => ha (.inr h)
      rw [if_neg ha]
      change K.unescape (a :: K.stuff xs) = _
      rw [K.unescape_plain _ _ hesc, ih]

/-- On the coded words, coding undoes unescaping. -/
lemma stuff_unescape {w : List α} (h : K.IsCoded w) : K.stuff (K.unescape w) = w := by
  induction h with
  | nil => rfl
  | plain a w ha hw ih =>
    have hesc : a ≠ K.esc := fun h => ha (.inr h)
    rw [K.unescape_plain _ _ hesc, stuff_cons, ih, stuffSymbol, if_neg ha]
    rfl
  | pair a w ha hw ih =>
    rw [unescape_esc, K.decode_code a ha, stuff_cons, ih, stuffSymbol, if_pos ha]
    rfl

lemma stuff_injective : Function.Injective K.stuff :=
  Function.LeftInverse.injective K.unescape_stuff

lemma frame_injective : Function.Injective K.frame := by
  intro xs ys h
  apply K.stuff_injective
  unfold frame at h
  rw [List.cons.injEq] at h
  exact List.append_cancel_right h.2

end StuffingCode

end EthoSlip.Lib
