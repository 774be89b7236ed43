import Mathlib.Data.List.Basic
import PostStore.Digest.Sha256
/-!
# Digests round by round

What a round needs of the message schedule are the sixteen words from its own on: the first of them
is mixed in, and the next word of the schedule is made of them.  Taken so, with a window that moves
on by a word with every round, a digest can be worked out without looking anything up in an array.
-/

namespace PostStore.Sha256

/-! ## The window -/

/-- The window moved on by a word. -/
def slide (window : List UInt32) : List UInt32 :=
  let x := window.getD 1 0
  let y := window.getD 14 0
  let s0 := rotate x 7 ^^^ rotate x 18 ^^^ (x >>> 3)
  let s1 := rotate y 17 ^^^ rotate y 19 ^^^ (y >>> 10)
  window.tail ++ [window.getD 0 0 + s0 + window.getD 9 0 + s1]

/-- The words that come first in the window, as it moves on. -/
def stream : (count : Nat) → List UInt32 → List UInt32
  | 0, _ => []
  | count + 1, window => window.getD 0 0 :: stream count (slide window)

/-- A round for each constant. -/
def mix : (constants window : List UInt32) → State → State
  | [], _, s => s
  | k :: constants, window, s => mix constants (slide window) (s.round k (window.getD 0 0))

theorem length_slide {window : List UInt32} (some : window ≠ []) :
    (slide window).length = window.length := by
  have positive := List.length_pos_of_ne_nil some
  rw [slide, List.length_append, List.length_tail, List.length_singleton]
  omega

theorem length_stream (count : Nat) : ∀ window, (stream count window).length = count := by
  induction count with
  | zero => exact fun _ => rfl
  | succ count ih => exact fun window => congrArg Nat.succ (ih (slide window))

/-- At first the words are those of the window. -/
theorem stream_eq_take (count : Nat) : ∀ {window : List UInt32}, count ≤ window.length →
    stream count window = window.take count := by
  induction count with
  | zero => exact fun _ => rfl
  | succ count ih =>
    intro window enough
    obtain ⟨word, rest, rfl⟩ := List.exists_cons_of_length_pos (Nat.zero_lt_of_lt enough)
    have enough' : count ≤ rest.length := Nat.le_of_succ_le_succ enough
    have enough'' : count ≤ (slide (word :: rest)).length := by
      rw [length_slide (List.cons_ne_nil word rest)]
      exact Nat.le_of_succ_le enough
    rw [stream, ih enough'', slide, List.tail_cons, List.take_append_of_le_length enough',
      List.take_succ_cons, List.getD_cons_zero]

/-- What the schedule is extended by is the word that comes into the window. -/
theorem push_slide {w : Array UInt32} {front window : List UInt32}
    (split : w.toList = front ++ window) (whole : window.length = 16) (count : Nat) :
    ∃ longer : Array UInt32, extend (count + 1) w = extend count longer ∧
      longer.toList = (front ++ [window.getD 0 0]) ++ slide window := by
  have size : w.size = front.length + 16 := by
    rw [← Array.length_toList, split, List.length_append, whole]
  have look (i j : Nat) (at_j : front.length + i = j) : w.getD j 0 = window.getD i 0 := by
    rw [Array.getD_eq_getD_getElem?, List.getD_eq_getElem?_getD, ← Array.getElem?_toList, split,
      List.getElem?_append_right (by omega), ← at_j, Nat.add_sub_cancel_left]
  refine ⟨_, rfl, ?_⟩
  rw [Array.toList_push, split, slide, look 0 _ (by omega), look 1 _ (by omega),
    look 9 _ (by omega), look 14 _ (by omega)]
  obtain ⟨word, rest, rfl⟩ := List.exists_cons_of_length_pos (by omega : 0 < window.length)
  simp only [List.tail_cons, List.getD_cons_zero, List.append_assoc, List.cons_append,
    List.nil_append]

theorem extend_toList (count : Nat) : ∀ {w : Array UInt32} {front window : List UInt32},
    w.toList = front ++ window → window.length = 16 →
      (extend count w).toList = front ++ stream (count + 16) window := by
  induction count with
  | zero =>
    intro w front window split whole
    rw [extend, split, Nat.zero_add, stream_eq_take 16 (Nat.le_of_eq whole.symm), ← whole,
      List.take_length]
  | succ count ih =>
    intro w front window split whole
    obtain ⟨longer, same, split'⟩ := push_slide split whole count
    have nonempty : window ≠ [] := List.ne_nil_of_length_pos (by omega)
    have first : stream (count + 1 + 16) window =
        window.getD 0 0 :: stream (count + 16) (slide window) := by
      rw [Nat.add_right_comm, stream]
    rw [same, ih split' (by rw [length_slide nonempty, whole]), first, List.append_assoc,
      List.singleton_append]

/-! ## Rounds -/

/-- The last rounds are rounds with the last constants and the last words. -/
theorem rounds_eq_foldl {schedule : Array UInt32} (whole : schedule.size = 64) (count : Nat) :
    ∀ s : State, count ≤ 64 → rounds schedule count s =
      ((roundConstants.toList.zip schedule.toList).drop (64 - count)).foldl
        (fun s word => s.round word.1 word.2) s := by
  have long : (roundConstants.toList.zip schedule.toList).length = 64 := by
    rw [List.length_zip, Array.length_toList, Array.length_toList, whole]
    rfl
  induction count with
  | zero =>
    intro s _
    rw [rounds, Nat.sub_zero, ← long, List.drop_length, List.foldl_nil]
  | succ count ih =>
    intro s less
    have inside : 63 - count < (roundConstants.toList.zip schedule.toList).length := by omega
    have look {words : Array UInt32} (less : 63 - count < words.size) :
        words.getD (63 - count) 0 = words.toList[63 - count] := by
      rw [Array.getD_eq_getD_getElem?, Array.getElem?_eq_getElem less, Option.getD_some,
        Array.getElem_toList]
    rw [rounds, ih _ (Nat.le_of_succ_le less), show 64 - (count + 1) = 63 - count by omega,
      List.drop_eq_getElem_cons inside, List.foldl_cons, show 63 - count + 1 = 64 - count by omega,
      List.getElem_zip, look, look]

theorem mix_eq_foldl (constants : List UInt32) : ∀ (window : List UInt32) (s : State),
    mix constants window s = (constants.zip (stream constants.length window)).foldl
      (fun s word => s.round word.1 word.2) s := by
  induction constants with
  | nil => exact fun _ _ => rfl
  | cons k constants ih =>
    intro window s
    rw [mix, ih, List.length_cons, stream, List.zip_cons_cons, List.foldl_cons]

/-- The rounds of a block, with the window that begins with the words of the block. -/
theorem rounds_extend {block : Array UInt32} (whole : block.size = 16) (s : State) :
    rounds (extend 48 block) 64 s = mix roundConstants.toList block.toList s := by
  have schedule : (extend 48 block).toList = [] ++ stream 64 block.toList :=
    extend_toList 48 rfl whole
  rw [List.nil_append] at schedule
  have length : (extend 48 block).size = 64 := by
    rw [← Array.length_toList, schedule, length_stream]
  rw [rounds_eq_foldl length 64 s (Nat.le_refl 64), Nat.sub_self, List.drop_zero, schedule,
    mix_eq_foldl]
  rfl

/-! ## Messages -/

/-- Whole words are read off as many as told, when there are as many. -/
theorem takeWords_length (count : Nat) : ∀ {bytes : Bytes} {words : Array UInt32},
    4 * count ≤ bytes.length →
      (takeWords count bytes words).1.size = words.size + count ∧
        (takeWords count bytes words).2.length + 4 * count = bytes.length := by
  induction count with
  | zero =>
    intro bytes words _
    rw [takeWords]
    · exact ⟨rfl, rfl⟩
    · exact fun count _ _ _ _ _ more _ => nomatch more
  | succ count ih =>
    intro bytes words enough
    match bytes, enough with
    | a :: b :: c :: d :: rest, enough =>
      simp only [List.length_cons] at enough
      obtain ⟨size, left⟩ := @ih rest (words.push (wordOf a b c d)) (by omega)
      rw [Array.size_push] at size
      rw [takeWords]
      simp only [List.length_cons]
      omega
    | [], enough | [_], enough | [_, _], enough | [_, _, _], enough =>
      simp only [List.length_cons, List.length_nil] at enough
      omega

/-- Mixes a number of blocks into the state, round by round. -/
def absorbByRounds : (blocks : Nat) → State → Bytes → State
  | 0, s, _ => s
  | blocks + 1, s, bytes =>
    let (words, rest) := takeWords 16 bytes #[]
    let t := mix roundConstants.toList words.toList s
    absorbByRounds blocks
      ⟨s.a + t.a, s.b + t.b, s.c + t.c, s.d + t.d, s.e + t.e, s.f + t.f, s.g + t.g, s.h + t.h⟩ rest

theorem absorb_eq (blocks : Nat) : ∀ {s : State} {bytes : Bytes}, 64 * blocks ≤ bytes.length →
    absorb blocks s bytes = absorbByRounds blocks s bytes := by
  induction blocks with
  | zero => exact fun _ => rfl
  | succ blocks ih =>
    intro s bytes enough
    obtain ⟨size, left⟩ := @takeWords_length 16 bytes #[] (by omega)
    have mixed : rounds (extend 48 (takeWords 16 bytes #[]).1) 64 s =
        mix roundConstants.toList (takeWords 16 bytes #[]).1.toList s :=
      rounds_extend size s
    show absorb blocks (compress s (takeWords 16 bytes #[]).1) (takeWords 16 bytes #[]).2 = _
    rw [compress, mixed, ih (by omega)]
    rfl

/-- The digest of a message, worked out round by round. -/
def digestByRounds (message : Bytes) : Bytes :=
  let padded := pad message
  (absorbByRounds (padded.length / 64) .initial padded).toBytes

/-- **Digests can be worked out round by round.** -/
theorem digest_eq (message : Bytes) : digest message = digestByRounds message := by
  rw [digest, digestByRounds, absorb_eq _ (Nat.mul_div_le _ 64)]

end PostStore.Sha256
